import Mathlib.Order.Defs.Unbundled

namespace CodeSpace.Data

/-! Computations over a state that may fail and keep the state they failed in: what their answer tells
of each part, and what every run of them keeps. -/

variable {Failure Other State Value Next : Type}

abbrev Action (Failure State Value : Type) := EStateM Failure State Value

namespace Action

variable {action : Action Failure State Value} {rest : Value → Action Failure State Next}
  {state after : State} {failure : Failure} {value result : Value} {name : Failure → Other}
  {outcome : EStateM.Result Failure State Value}

theorem bind_eq_ok {result : Next} : (action >>= rest) state = .ok result after ↔
      ∃ value middle, action state = .ok value middle ∧ rest value middle = .ok result after := by
  change EStateM.bind action rest state = _ ↔ _
  unfold EStateM.bind
  cases action state with
  | ok value middle =>
      simp only [EStateM.Result.ok.injEq]
      constructor
      · intro ran
        exact ⟨value, middle, ⟨rfl, rfl⟩, ran⟩
      · rintro ⟨_, _, ⟨rfl, rfl⟩, ran⟩
        exact ran
  | error => simp

theorem bind_eq_error : (action >>= rest) state = .error failure after ↔
      action state = .error failure after ∨
        ∃ value middle, action state = .ok value middle ∧ rest value middle = .error failure after := by
  change EStateM.bind action rest state = _ ↔ _
  unfold EStateM.bind
  cases action state with
  | ok value middle =>
      simp only [reduceCtorEq, false_or, EStateM.Result.ok.injEq]
      constructor
      · intro ran
        exact ⟨value, middle, ⟨rfl, rfl⟩, ran⟩
      · rintro ⟨_, _, ⟨rfl, rfl⟩, ran⟩
        exact ran
  | error => simp

theorem bind_of_ok {middle : State} (ran : action state = .ok value middle) :
    (action >>= rest) state = rest value middle := by
  change EStateM.bind action rest state = _
  unfold EStateM.bind
  rw [ran]

@[simp] theorem pure_eq_ok :
    (pure value : Action Failure State Value) state = .ok result after ↔
      value = result ∧ state = after := by
  change EStateM.Result.ok value state = _ ↔ _
  simp

@[simp] theorem pure_eq_error :
    (pure value : Action Failure State Value) state = .error failure after ↔ False := by
  change EStateM.Result.ok value state = _ ↔ _
  simp

@[simp] theorem throw_eq_ok :
    (throw failure : Action Failure State Value) state = .ok result after ↔ False := by
  change EStateM.Result.error failure state = _ ↔ _
  simp

@[simp] theorem throw_eq_error {found : Failure} :
    (throw failure : Action Failure State Value) state = .error found after ↔
      failure = found ∧ state = after := by
  change EStateM.Result.error failure state = _ ↔ _
  simp

/-- An outcome that does not read the state. -/
def lift : Except Failure Value → Action Failure State Value
  | .ok value => pure value
  | .error failure => throw failure

@[simp] theorem lift_eq_ok {outcome : Except Failure Value} :
    (lift outcome : Action Failure State Value) state = .ok result after ↔
      outcome = .ok result ∧ state = after := by
  cases outcome <;> simp [lift]

/-- Names the failures in other terms. -/
def mapFailure (name : Failure → Other) (action : Action Failure State Value) :
    Action Other State Value :=
  fun state =>
    match action state with
    | .ok value after => .ok value after
    | .error failure after => .error (name failure) after

@[simp] theorem mapFailure_eq_ok :
    action.mapFailure name state = .ok result after ↔ action state = .ok result after := by
  unfold mapFailure
  cases action state <;> simp

theorem mapFailure_eq_error {failure : Other} : action.mapFailure name state = .error failure after ↔
      ∃ cause, action state = .error cause after ∧ name cause = failure := by
  unfold mapFailure
  cases action state with
  | ok => simp
  | error cause =>
      simp only [EStateM.Result.error.injEq]
      constructor
      · rintro ⟨named, rfl⟩
        exact ⟨cause, ⟨rfl, rfl⟩, named⟩
      · rintro ⟨_, ⟨rfl, rfl⟩, named⟩
        exact ⟨named, rfl⟩

/-- The failure of an action as its answer. -/
def attempt (action : Action Failure State Value) : Action Other State (Except Failure Value) :=
  fun state =>
    match action state with
    | .ok value after => .ok (.ok value) after
    | .error failure after => .ok (.error failure) after

@[simp] theorem attempt_eq_ok :
    (action.attempt : Action Other State (Except Failure Value)) state = .ok (.ok value) after ↔
      action state = .ok value after := by
  unfold attempt
  cases action state <;> simp

@[simp] theorem attempt_eq_ok_error :
    (action.attempt : Action Other State (Except Failure Value)) state = .ok (.error failure) after ↔
      action state = .error failure after := by
  unfold attempt
  cases action state <;> simp

@[simp] theorem attempt_eq_error {failure : Other} :
    (action.attempt : Action Other State (Except Failure Value)) state = .error failure after ↔
      False := by
  unfold attempt
  cases action state <;> simp

/-- An outcome without its state, for one to be computed. -/
def answer : EStateM.Result Failure State Value → Except Failure Value
  | .ok value _ => .ok value
  | .error failure _ => .error failure

theorem exists_of_answer_ok
    (answered : answer outcome = .ok value) : ∃ after, outcome = .ok value after := by
  cases outcome with
  | ok _ after =>
      cases answered
      exact ⟨after, rfl⟩
  | error => cases answered

theorem exists_of_answer_error
    (answered : answer outcome = .error failure) : ∃ after, outcome = .error failure after := by
  cases outcome with
  | ok => cases answered
  | error _ after =>
      cases answered
      exact ⟨after, rfl⟩

def final : EStateM.Result Failure State Value → State
  | .ok _ state => state
  | .error _ state => state

/-- Every run of the action, whatever its answer, leads to a related state. -/
def Moves (related : State → State → Prop) (action : Action Failure State Value) : Prop :=
  ∀ state, related state (final (action state))

namespace Moves

variable {related : State → State → Prop}

theorem ok (moves : Moves related action) (ran : action state = .ok result after) :
    related state after := by
  have reached := moves state
  rwa [ran] at reached

theorem error (moves : Moves related action)
    (ran : action state = .error failure after) : related state after := by
  have reached := moves state
  rwa [ran] at reached

theorem of_results (answered : ∀ state value after, action state = .ok value after → related state after)
    (failed : ∀ state failure after, action state = .error failure after → related state after) :
    Moves related action := by
  intro state
  cases ran : action state with
  | ok value after => exact answered state value after ran
  | error failure after => exact failed state failure after ran

theorem mono {weaker : State → State → Prop} (moves : Moves related action)
    (weaken : ∀ {first second}, related first second → weaker first second) : Moves weaker action :=
  fun state => weaken (moves state)

theorem pure [Std.Refl related] (value : Value) :
    Moves related (pure value : Action Failure State Value) :=
  fun state => Std.Refl.refl state

theorem throw [Std.Refl related] (failure : Failure) :
    Moves related (throw failure : Action Failure State Value) :=
  fun state => Std.Refl.refl state

theorem bind_answers [IsTrans State related] (first : Moves related action)
    (second : ∀ {state value middle}, action state = .ok value middle → Moves related (rest value)) :
    Moves related (action >>= rest) := by
  refine of_results (fun state result after ran => ?_) (fun state failure after ran => ?_)
  · obtain ⟨value, middle, ranFirst, ranRest⟩ := bind_eq_ok.mp ran
    exact IsTrans.trans _ _ _ (first.ok ranFirst) ((second ranFirst).ok ranRest)
  · rcases bind_eq_error.mp ran with failed | ⟨value, middle, ranFirst, ranRest⟩
    · exact first.error failed
    · exact IsTrans.trans _ _ _ (first.ok ranFirst) ((second ranFirst).error ranRest)

theorem bind [IsTrans State related] (first : Moves related action)
    (second : ∀ value, Moves related (rest value)) : Moves related (action >>= rest) :=
  first.bind_answers fun {_ value _} _ => second value

theorem lift [Std.Refl related] (outcome : Except Failure Value) :
    Moves related (lift outcome : Action Failure State Value) := by
  cases outcome with
  | ok value => exact pure value
  | error failure => exact throw failure

theorem mapFailure (moves : Moves related action) : Moves related (action.mapFailure name) := by
  refine of_results (fun state result after ran => ?_) (fun state failure after ran => ?_)
  · exact moves.ok (mapFailure_eq_ok.mp ran)
  · obtain ⟨_, failed, _⟩ := mapFailure_eq_error.mp ran
    exact moves.error failed

theorem attempt (moves : Moves related action) :
    Moves related (action.attempt : Action Other State (Except Failure Value)) := by
  refine of_results (fun state result after ran => ?_) (fun state failure after ran => ?_)
  · cases result with
    | ok => exact moves.ok (attempt_eq_ok.mp ran)
    | error => exact moves.error (attempt_eq_ok_error.mp ran)
  · exact (attempt_eq_error.mp ran).elim

end Moves

end Action

end CodeSpace.Data
