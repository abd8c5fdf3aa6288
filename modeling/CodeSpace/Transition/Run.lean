import Mathlib.Data.List.Basic

namespace CodeSpace.Transition

/-! Labelled transition systems and their runs. A run records the labels it took, so a statement
about a whole history is a statement about that list; the rules below carry a fact about one step
to every run. -/

universe u v

structure System (State : Type u) (Label : Type v) where
  initial : State → Prop
  step : State → Label → State → Prop

variable {State : Type u} {Label : Type v} {system : System State Label} {first last : State}
  {labels : List Label}

inductive System.Run (system : System State Label) : State → List Label → State → Prop
  | refl (state : State) : System.Run system state [] state
  | cons {first middle last : State} {label : Label} {labels : List Label}
      (head : system.step first label middle) (tail : System.Run system middle labels last) :
      System.Run system first (label :: labels) last

def System.Reachable (system : System State Label) (state : State) : Prop :=
  ∃ start labels, system.initial start ∧ system.Run start labels state

/-- The same system with only the steps a side condition admits. -/
def System.restrict (system : System State Label) (admitted : State → Label → Prop) :
    System State Label where
  initial := system.initial
  step before label after := admitted before label ∧ system.step before label after

theorem System.Run.append {middle : State} {left right : List Label}
    (earlier : system.Run first left middle) (later : system.Run middle right last) :
    system.Run first (left ++ right) last := by
  induction earlier with
  | refl => exact later
  | cons head _ ih => exact .cons head (ih later)

theorem System.Run.snoc {middle : State} {label : Label}
    (earlier : system.Run first labels middle) (final : system.step middle label last) :
    system.Run first (labels ++ [label]) last :=
  earlier.append (.cons final (.refl last))

/-- A run over a concatenation passes through a state between its two parts. -/
theorem System.Run.split {left right : List Label} (run : system.Run first (left ++ right) last) :
    ∃ middle, system.Run first left middle ∧ system.Run middle right last := by
  induction left generalizing first with
  | nil => exact ⟨first, .refl first, run⟩
  | cons _ _ ih =>
      cases run with
      | cons head tail =>
          obtain ⟨middle, earlier, later⟩ := ih tail
          exact ⟨middle, .cons head earlier, later⟩

theorem System.Run.keeps (Fact : State → Prop) (run : system.Run first labels last)
    (kept : ∀ {before after label}, system.step before label after → Fact before → Fact after)
    (holds : Fact first) : Fact last := by
  induction run with
  | refl => exact holds
  | cons head _ ih => exact ih (kept head holds)

theorem System.Run.of_restrict {admitted : State → Label → Prop}
    (run : (system.restrict admitted).Run first labels last) :
    system.Run first labels last := by
  induction run with
  | refl => exact .refl _
  | cons head _ ih => exact .cons head.2 ih

/-- A run that ends well took only admitted steps, where every other step spoils its end. -/
theorem System.Run.restricted {admitted : State → Label → Prop} (Fact Good : State → Prop)
    (run : system.Run first labels last)
    (kept : ∀ {before after label}, system.step before label after → Fact before → Fact after)
    (back : ∀ {before after label}, system.step before label after → Fact before → Good after →
      Good before ∧ admitted before label)
    (holds : Fact first) (good : Good last) :
    Good first ∧ (system.restrict admitted).Run first labels last := by
  induction run with
  | refl => exact ⟨good, .refl _⟩
  | cons head _ ih =>
      obtain ⟨later, continued⟩ := ih (kept head holds) good
      obtain ⟨earlier, isAdmitted⟩ := back head holds later
      exact ⟨earlier, .cons ⟨isAdmitted, head⟩ continued⟩

/-- A fact about the labels taken so far and the state they lead to. -/
theorem System.Run.records (Fact : List Label → State → Prop) (run : system.Run first labels last)
    (kept : ∀ {earlier before after label}, Fact earlier before → system.step before label after →
      Fact (earlier ++ [label]) after) {earlier : List Label} (holds : Fact earlier first) :
    Fact (earlier ++ labels) last := by
  induction run generalizing earlier with
  | refl => simpa using holds
  | cons head _ ih => simpa using ih (kept holds head)

theorem System.Reachable.invariant (Fact : State → Prop) {state : State}
    (reachable : system.Reachable state)
    (start : ∀ {state}, system.initial state → Fact state)
    (kept : ∀ {before after label}, system.step before label after → Fact before → Fact after) :
    Fact state := by
  obtain ⟨_, _, isInitial, run⟩ := reachable
  exact run.keeps Fact kept (start isInitial)

/-- The labels and the last state of a list of events, when each of them is possible. -/
def replay {Event Answer : Type*} (step : State → Event → Option (Answer × State))
    (label : Event → Answer → Label) (state : State) : List Event → Option (List Label × State)
  | [] => some ([], state)
  | event :: events =>
      match step state event with
      | some (answer, next) =>
          (replay step label next events).map fun rest => (label event answer :: rest.1, rest.2)
      | none => none

/-- An executable step function drives the system when each of its results is a step. -/
theorem System.run_of_replay {Event Answer : Type*} {step : State → Event → Option (Answer × State)}
    {label : Event → Answer → Label} {events : List Event}
    (drives : ∀ {before event answer after}, step before event = some (answer, after) →
      system.step before (label event answer) after)
    (replayed : replay step label first events = some (labels, last)) :
    system.Run first labels last := by
  induction events generalizing first labels with
  | nil =>
      cases replayed
      exact .refl _
  | cons _ _ ih =>
      unfold replay at replayed
      split at replayed
      next stepped =>
        obtain ⟨⟨_, _⟩, continued, same⟩ := Option.map_eq_some_iff.mp replayed
        cases same
        exact .cons (drives stepped) (ih continued)
      · contradiction

/-- The steps that a side condition admits. -/
def admittedStep {Event Answer : Type*} (step : State → Event → Option (Answer × State))
    (label : Event → Answer → Label) (admitted : State → Label → Prop)
    [∀ state label, Decidable (admitted state label)] (state : State) (event : Event) :
    Option (Answer × State) :=
  (step state event).filter fun stepped => admitted state (label event stepped.1)

/-- A list of events that are all possible and admitted gives a run, with what can be checked of it. -/
theorem System.exists_admitted_run {Event Answer : Type*}
    {step : State → Event → Option (Answer × State)} {label : Event → Answer → Label}
    (drives : ∀ {before event answer after}, step before event = some (answer, after) →
      system.step before (label event answer) after)
    (admitted : State → Label → Prop) [∀ state label, Decidable (admitted state label)] (first : State)
    (events : List Event) (holds : List Label → State → Prop)
    [∀ labels last, Decidable (holds labels last)]
    (checked : (replay (admittedStep step label admitted) label first events).any
      (fun run => decide (holds run.1 run.2)) = true) :
    ∃ labels last, (system.restrict admitted).Run first labels last ∧ holds labels last := by
  obtain ⟨⟨labels, last⟩, replayed, held⟩ := (Option.any_eq_true _ _).mp checked
  refine ⟨labels, last, System.run_of_replay (fun stepped => ?_) replayed, of_decide_eq_true held⟩
  obtain ⟨stepped, isAdmitted⟩ := Option.filter_eq_some_iff.mp stepped
  exact ⟨of_decide_eq_true isAdmitted, drives stepped⟩

theorem System.exists_event_run (system : System State Label) {step : State → Label → Option State}
    (drives : ∀ {before event after}, step before event = some after → system.step before event after)
    (admitted : State → Label → Prop) [∀ state event, Decidable (admitted state event)] (first : State)
    (events : List Label) (holds : State → Prop) [∀ last, Decidable (holds last)]
    (checked : (replay (admittedStep (fun state event => (step state event).map ((), ·))
      (fun event _ => event) admitted) (fun event _ => event) first events).any
        (fun run => decide (holds run.2)) = true) :
    ∃ trace last, (system.restrict admitted).Run first trace last ∧ holds last := by
  refine System.exists_admitted_run (fun {before event answer after} stepped => ?_) admitted first events
    (fun _ last => holds last) checked
  obtain ⟨_, stepped, same⟩ := Option.map_eq_some_iff.mp stepped
  cases same
  exact drives stepped

end CodeSpace.Transition
