import Mathlib.Data.List.Basic

namespace CodeSpace.Data

/-! A list that is read in windows, each from where the one before ended. -/

variable {Item Page : Type*}

/-- The answers to calls at offset 0 and on, and the offset of the next call, if there is to be one. -/
inductive Paged (Call : Nat → Page → Prop) (next : Page → Option Nat) : List Page → Option Nat → Prop
  | start : Paged Call next [] (some 0)
  | call {pages : List Page} {offset : Nat} {page : Page} (before : Paged Call next pages (some offset))
      (answered : Call offset page) : Paged Call next (pages ++ [page]) (next page)

/-- Each window begins where the one before ends. -/
def Consecutive (start : Nat) : List (Nat × List Item) → Prop
  | [] => True
  | (offset, window) :: later => offset = start ∧ Consecutive (start + window.length) later

theorem Consecutive.snoc {start offset : Nat} {window : List Item} {windows : List (Nat × List Item)}
    (consecutive : Consecutive start windows)
    (isNext : offset = start + (windows.flatMap Prod.snd).length) :
    Consecutive start (windows ++ [(offset, window)]) := by
  induction windows generalizing start with
  | nil => exact ⟨isNext, trivial⟩
  | cons _ _ ih =>
      refine ⟨consecutive.1, ih consecutive.2 ?_⟩
      rw [isNext, List.flatMap_cons, List.length_append, Nat.add_assoc]

/-- The windows are the first items of the list, or all of them once there is no next one. -/
structure Covers (items : List Item) (windows : List (Nat × List Item)) (next : Option Nat) : Prop where
  consecutive : Consecutive 0 windows
  covered : windows.flatMap Prod.snd = items.take (next.getD items.length)
  nonempty : items ≠ [] → ∀ window ∈ windows, window.2 ≠ []
  finitely : windows.length ≤ max 1 items.length

/-- A window of some items, with where the next one begins. -/
def IsWindow (items : List Item) (offset : Nat) (window : Nat × List Item) (next : Option Nat) : Prop :=
  ∃ limit, 0 < limit ∧ window = (offset, (items.drop offset).take limit) ∧
    next = if offset + limit < items.length then some (offset + limit) else none

theorem drop_take_min (items : List Item) (offset limit : Nat) :
    (items.take (min (offset + limit) items.length)).drop offset = (items.drop offset).take limit := by
  rw [← List.take_eq_take_min, List.drop_take, Nat.add_sub_cancel_left]

namespace Paged

variable {Call : Nat → Page → Prop} {next : Page → Option Nat} {pages : List Page} {after : Option Nat}
  {items : List Item}

theorem forall_mem {Holds : Page → Prop} (holds : ∀ offset page, Call offset page → Holds page)
    (paged : Paged Call next pages after) : ∀ page ∈ pages, Holds page := by
  induction paged with
  | start => simp
  | call _ answered ih =>
      intro page isPage
      rcases List.mem_append.mp isPage with earlier | isNew
      · exact ih page earlier
      · exact List.mem_singleton.mp isNew ▸ holds _ _ answered

theorem covers {window : Page → Nat × List Item}
    (isWindow : ∀ offset page, Call offset page → IsWindow items offset (window page) (next page))
    (paged : Paged Call next pages after) :
    Covers items (pages.map window) after ∧
      ∀ offset, after = some offset → pages.length ≤ offset ∧ (offset = 0 ∨ offset < items.length) := by
  induction paged with
  | start => exact ⟨⟨trivial, by simp, by simp, by simp⟩, by simp⟩
  | @call pages offset page before answered ih =>
      obtain ⟨covers, within⟩ := ih
      obtain ⟨_, _⟩ := within offset rfl
      obtain ⟨_, _, isPart, isNext⟩ := isWindow offset page answered
      have covered := covers.covered
      rw [Option.getD_some] at covered
      have length : ((pages.map window).flatMap Prod.snd).length = offset := by
        rw [covered, List.length_take]
        omega
      refine ⟨⟨?_, ?_, ?_, ?_⟩, ?_⟩
      · rw [List.map_append, List.map_singleton, isPart]
        exact covers.consecutive.snoc (by rw [length, Nat.zero_add])
      · rw [List.map_append, List.flatMap_append, covered, List.map_singleton, isPart, isNext,
          List.flatMap_singleton, ← List.take_add]
        split
        · rfl
        next last => rw [Option.getD_none, List.take_length, List.take_of_length_le (Nat.le_of_not_lt last)]
      · intro nonempty
        have some := List.length_pos_iff.mpr nonempty
        rw [List.map_append]
        intro part isOne
        rcases List.mem_append.mp isOne with earlier | isNew
        · exact covers.nonempty nonempty part earlier
        · rw [List.mem_singleton.mp isNew, isPart, ← List.length_pos_iff, List.length_take, List.length_drop]
          omega
      · rw [List.length_map, List.length_append, List.length_singleton]
        omega
      · intro following isFollowing
        rw [isFollowing] at isNext
        obtain ⟨_, same⟩ := Option.ite_none_right_eq_some.mp isNext.symm
        cases same
        rw [List.length_append, List.length_singleton]
        omega

end Paged

end CodeSpace.Data
