import Mathlib.Data.List.Dedup
import Mathlib.Data.List.Perm.Basic

namespace CodeSpace.Data

/-! Folds whose steps commute and may be repeated: what they lead to depends only on which steps there
are. -/

variable {State Step : Type*} {act : State → Step → State} {steps others : List Step}

/-- The steps commute and are idempotent among themselves. -/
structure Settling (act : State → Step → State) (steps : List Step) : Prop where
  comm {first second : Step} (isFirst : first ∈ steps) (isSecond : second ∈ steps) (state : State) :
    act (act state first) second = act (act state second) first
  idem {step : Step} (isStep : step ∈ steps) (state : State) : act (act state step) step = act state step

namespace Settling

variable {step : Step}

theorem tail (settling : Settling act (step :: steps)) : Settling act steps :=
  ⟨fun isFirst isSecond => settling.comm (List.mem_cons_of_mem _ isFirst) (List.mem_cons_of_mem _ isSecond),
    fun isStep => settling.idem (List.mem_cons_of_mem _ isStep)⟩

variable (settling : Settling act steps)
include settling

theorem foldl_absorb (isStep : step ∈ steps)
    (state : State) : steps.foldl act (act state step) = steps.foldl act state := by
  induction steps generalizing state with
  | nil => contradiction
  | cons _ _ ih =>
      simp only [List.foldl_cons]
      rcases List.mem_cons.mp isStep with rfl | later
      · rw [settling.idem List.mem_cons_self]
      · rw [settling.comm isStep List.mem_cons_self]
        exact ih settling.tail later _

theorem foldl_dedup [DecidableEq Step] (state : State) :
    steps.dedup.foldl act state = steps.foldl act state := by
  induction steps generalizing state with
  | nil => rfl
  | cons head rest ih =>
      by_cases later : head ∈ rest
      · rw [List.dedup_cons_of_mem later, ih settling.tail, List.foldl_cons,
          settling.tail.foldl_absorb later]
      · rw [List.dedup_cons_of_notMem later, List.foldl_cons, List.foldl_cons, ih settling.tail]

/-- The same steps, in any order and any number of times, lead to the same state. -/
theorem foldl_eq [DecidableEq Step] (same : ∀ step, step ∈ steps ↔ step ∈ others) (state : State) :
    steps.foldl act state = others.foldl act state := by
  have alsoSettling : Settling act others :=
    ⟨fun isFirst isSecond => settling.comm ((same _).mpr isFirst) ((same _).mpr isSecond),
      fun isStep => settling.idem ((same _).mpr isStep)⟩
  rw [← settling.foldl_dedup, ← alsoSettling.foldl_dedup]
  have reordered : steps.dedup.Perm others.dedup := by
    rw [List.perm_ext_iff_of_nodup (List.nodup_dedup _) (List.nodup_dedup _)]
    intro step
    rw [List.mem_dedup, List.mem_dedup, same step]
  refine reordered.foldl_eq' (fun first isFirst second isSecond state => ?_) state
  exact settling.comm (List.mem_dedup.mp isFirst) (List.mem_dedup.mp isSecond) state

end Settling

end CodeSpace.Data
