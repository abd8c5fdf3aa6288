import CodeSpace.Server.Recovery

namespace CodeSpace.Server

open Store

/-! What each decision of a reconciliation rests on. -/

variable {devguard : Bool} {ours : RunnerRef} {losses : Losses}
  {recalled : Except String (List (String × Recalled))} {attempts : List (String × Attempt)}
  {record : ProcessRecord} {answer : Recalled} {attemptId : String} {attempt : Attempt}

/-- The Runner was asked about the process, and this is its answer. -/
def Answered (recalled : Except String (List (String × Recalled))) (processId : String)
    (answer : Recalled) : Prop :=
  ∃ remembered, recalled = .ok remembered ∧ remembered.lookup processId = some answer

theorem Answered.unique {processId : String} {other : Recalled} (left : Answered recalled processId answer)
    (right : Answered recalled processId other) : answer = other := by
  obtain ⟨_, rfl, found⟩ := left
  obtain ⟨_, same, isFound⟩ := right
  cases same
  exact Option.some_injective _ (found.symm.trans isFound)

/-- The resource authority agrees that nothing was started. -/
def Unlaunched (attempts : List (String × Attempt)) (record : ProcessRecord) : Prop :=
  record.participation = .required → ∃ attempt, attempts.lookup record.processId = some attempt ∧
      (attempt = .absent ∨ attempt = .settledBeforeStart)

/-- What an answer of the Runner allows a reconciliation to decide about an execution. -/
inductive Supports (record : ProcessRecord) (unlaunched : Prop) : Recalled → Decision → Prop
  | running {status : RunnerProcessStatus} (runs : status.running = true) :
      Supports record unlaunched (.held record.workspaceId status) .running
  | ended {status : RunnerProcessStatus} (isOver : status.running = false) :
      Supports record unlaunched (.held record.workspaceId status) (.ended (some status))
  | dropped : Supports record unlaunched .dropped (.ended none)
  | notReceived (dispatching : record.phase = .dispatching) (agreed : unlaunched) :
      Supports record unlaunched .notReceived .notStarted
  | refused (dispatching : record.phase = .dispatching) (agreed : unlaunched) :
      Supports record unlaunched .refused .notStarted
  | pending (answer : Recalled) (reason : String) : Supports record unlaunched answer (.pending reason)
  | blocked (answer : Recalled) (reason : String) : Supports record unlaunched answer (.blocked reason)

/-- What a decision rests on: the record itself where it ended, and otherwise the Runner's answer. -/
inductive Decided (ours : RunnerRef) (recalled : Except String (List (String × Recalled)))
    (attempts : List (String × Attempt)) (record : ProcessRecord) : Decision → Prop
  | settled (terminal : record.phase = .terminal) :
      Decided ours recalled attempts record (.settled (record.outcome ≠ some .notStarted))
  | answered {answer : Recalled} {decision : Decision} (asked : isAsked ours record = true)
      (answered : Answered recalled record.processId answer)
      (supports : Supports record (Unlaunched attempts record) answer decision) :
      Decided ours recalled attempts record decision
  | pending (reason : String) (unended : record.phase ≠ .terminal) :
      Decided ours recalled attempts record (.pending reason)
  | blocked (reason : String) (unended : record.phase ≠ .terminal) :
      Decided ours recalled attempts record (.blocked reason)

/-- Without a word of the resource authority, the Runner's answer decides. -/
theorem decideRecord_supports (record : ProcessRecord) (answer : Recalled) {unlaunched : Prop}
    (agreed : unlaunched) : Supports record unlaunched answer (decideRecord record answer) := by
  cases answer with
  | held workspaceId =>
      dsimp only [decideRecord]
      split
      · exact .blocked ..
      next here =>
        obtain rfl : workspaceId = record.workspaceId := Decidable.not_not.mp here
        split
        next runs => exact .running runs
        next isOver => exact .ended (by simpa using isOver)
  | dropped => exact .dropped
  | notReceived =>
      dsimp only [decideRecord]
      split
      next dispatching => exact .notReceived dispatching agreed
      · exact .blocked ..
  | refused =>
      dsimp only [decideRecord]
      split
      next dispatching => exact .refused dispatching agreed
      · exact .blocked ..

section Governed

variable {unlaunched : Prop}

theorem decideEnded_supports
    (created : answer = .dropped ∨ ∃ workspaceId status, answer = .held workspaceId status) :
    Supports record unlaunched answer (decideEnded record answer attemptId attempt) := by
  have decided : Supports record unlaunched answer (decideRecord record answer) := by
    have said := decideRecord_supports record answer trivial
    rcases created with rfl | ⟨workspaceId, status, rfl⟩
    all_goals
      generalize decideRecord record _ = decision at said ⊢
      cases said <;> constructor <;> assumption
  cases attempt with
  | scopeEnded | settledBeforeStart => exact decided
  | launched | unsettled => exact .pending ..
  | absent | failed => exact .blocked ..

theorem decideAbsent_supports (nothing : answer = .notReceived ∨ answer = .refused)
    (agreed : attempt = .absent ∨ attempt = .settledBeforeStart → unlaunched) :
    Supports record unlaunched answer (decideAbsent record answer attemptId attempt) := by
  unfold decideAbsent
  split
  next moved =>
    rcases nothing with rfl | rfl
    all_goals
      rw [decideRecord, if_neg moved]
      exact .blocked ..
  next still =>
    have dispatching : record.phase = .dispatching := Decidable.not_not.mp still
    cases attempt with
    | absent | settledBeforeStart =>
        have unlaunched := agreed (by simp)
        rcases nothing with rfl | rfl
        · exact .notReceived dispatching unlaunched
        · exact .refused dispatching unlaunched
    | unsettled => exact .pending ..
    | launched | scopeEnded | failed => exact .blocked ..

theorem decideAttempt_supports (here : answer.isElsewhere record = false)
    (agreed : attempt = .absent ∨ attempt = .settledBeforeStart → unlaunched) :
    Supports record unlaunched answer (decideAttempt record answer attemptId attempt) := by
  unfold decideAttempt
  split
  · exact .pending ..
  · cases answer with
    | held workspaceId =>
        obtain rfl : workspaceId = record.workspaceId := by simpa [Recalled.isElsewhere] using here
        dsimp only
        split
        next runs =>
          cases attempt with
          | launched => exact .running runs
          | unsettled => exact .pending ..
          | _ => exact .blocked ..
        · exact decideEnded_supports (.inr ⟨_, _, rfl⟩)
    | dropped => exact decideEnded_supports (.inl rfl)
    | notReceived => exact decideAbsent_supports (.inl rfl) agreed
    | refused => exact decideAbsent_supports (.inr rfl) agreed

theorem decideRequired_supports :
    Supports record (Unlaunched attempts record) answer (decideRequired record answer attempts) := by
  unfold decideRequired
  split
  next attempt _ found =>
    split
    next elsewhere =>
      cases answer with
      | held workspaceId =>
          have apart : workspaceId ≠ record.workspaceId := by
            simpa [Recalled.isElsewhere] using elsewhere
          rw [decideRecord, if_pos apart]
          exact .blocked ..
      | _ => contradiction
    next here =>
      refine decideAttempt_supports (by simpa using here) fun unstarted _ => ?_
      exact ⟨attempt, found, unstarted⟩
  · exact .blocked ..

end Governed

theorem decideAsked_decided (asked : isAsked ours record = true) :
    Decided ours recalled attempts record (decideAsked devguard recalled attempts record) := by
  have unended : record.phase ≠ .terminal := fun terminal => by simp [isAsked, terminal] at asked
  unfold decideAsked
  split
  · exact .pending _ unended
  next remembered =>
    split
    · exact .pending _ unended
    next answer found =>
      split
      next off =>
        exact .answered asked ⟨remembered, rfl, found⟩
          (decideRecord_supports record answer fun required => by simp [off] at required)
      · split
        · exact .answered asked ⟨remembered, rfl, found⟩ decideRequired_supports
        · exact .blocked _ unended

/-- Every decision of `reconcile` rests on the record or on the Runner's answer. -/
theorem decideFor_decided (devguard : Bool) (ours : RunnerRef) (losses : Losses)
    (recalled : Except String (List (String × Recalled))) (attempts : List (String × Attempt))
    (record : ProcessRecord) :
    Decided ours recalled attempts record
      (decideFor devguard ours losses recalled attempts record) := by
  have sent (unended : record.phase ≠ .terminal)
      (asked : record.runner = ours → isAsked ours record = true) :
      Decided ours recalled attempts record
        (if record.runner ≠ ours then decideLost losses record
          else decideAsked devguard recalled attempts record) := by
    split
    · unfold decideLost
      split
      · exact .blocked _ unended
      · exact .pending _ unended
      · exact .pending _ unended
    next own => exact decideAsked_decided (asked (Decidable.not_not.mp own))
  unfold decideFor
  cases phase : record.phase with
  | terminal => exact .settled phase
  | unknown => exact .blocked _ (by simp [phase])
  | dispatching | running => exact sent (by simp [phase]) fun own => by simp [isAsked, phase, own]

/-- Only a record that ended is taken at its word. -/
theorem Decided.settled_started {started : Bool}
    (decided : Decided ours recalled attempts record (.settled started)) :
    record.phase = .terminal ∧ started = decide (record.outcome ≠ some .notStarted) := by
  generalize is : Decision.settled started = decision at decided
  cases decided with
  | settled terminal =>
      cases is
      exact ⟨terminal, rfl⟩
  | answered =>
      subst is
      contradiction
  | pending | blocked => contradiction

end CodeSpace.Server
