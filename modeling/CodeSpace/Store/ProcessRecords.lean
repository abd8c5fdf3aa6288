import Mathlib.Algebra.Group.Nat.Defs
import CodeSpace.Store.Approvals

namespace CodeSpace.Store

open Data Domain

/-! `crates/store/src/processes.rs`: the records of the executions sent to an independent Runner. -/

/-- `to_sql`: what the database holds of a 64-bit number. -/
def toSql (value : Nat) : Nat :=
  min value (2 ^ 63 - 1)

/-- The Runner an execution was sent to, by the identity it states. -/
structure RunnerRef where
  bootId : Option String
  pid : Nat
  startedAtMs : Nat
  nonce : String
deriving DecidableEq, Repr

def RunnerRef.stored (runner : RunnerRef) : RunnerRef :=
  { runner with startedAtMs := toSql runner.startedAtMs }

structure RootProcess where
  pid : Nat
  started : Option String
deriving DecidableEq, Repr

/-- Whether the execution takes part in the resource authority. -/
inductive RecordedParticipation
  | off
  | required
deriving DecidableEq, Repr

inductive ProcessTermination
  | exited
  | signaled
  | timeout
  | terminated
  | unknown
deriving DecidableEq, Repr

inductive ProcessOutcome
  | notStarted
  | ended (termination : ProcessTermination)
deriving DecidableEq, Repr

inductive ProcessPhase
  | dispatching
  | running
  | terminal
  | unknown
deriving DecidableEq, Repr

inductive ProcessEnd
  | notStarted
  | ended (termination : Option ProcessTermination) (exitCode signal : Option Int)
      (outputTotal : Option Nat)
deriving DecidableEq, Repr

inductive ProcessLoss
  | runnerLost
  | hostRebooted
deriving DecidableEq, Repr

/-- `ProcessLoss::of`: a Runner of another boot ended with that boot. -/
def ProcessLoss.of (lost : RunnerRef) (bootId : Option String) : ProcessLoss :=
  match lost.bootId, bootId with
  | some earlier, some current => if earlier ≠ current then .hostRebooted else .runnerLost
  | _, _ => .runnerLost

structure ProcessRecord where
  processId : String
  runner : RunnerRef
  controllerEpoch : Option Nat
  workspaceId : String
  approvalId : Option String
  attemptId : Option String := none
  participation : RecordedParticipation := .off
  phase : ProcessPhase := .dispatching
  deadlineAtMs : Option Nat := none
  root : Option RootProcess := none
  outcome : Option ProcessOutcome := none
  exitCode : Option Int := none
  signal : Option Int := none
  outputCursor : Option Nat := none
  lost : Option ProcessLoss := none
  releasedAtMs : Option Nat := none
deriving DecidableEq, Repr

namespace ProcessRecord

def stored (record : ProcessRecord) : ProcessRecord :=
  { record with
    runner := record.runner.stored
    controllerEpoch := record.controllerEpoch.map toSql }

/-- A changed record as the database holds it. -/
def written (record : ProcessRecord) : ProcessRecord :=
  { record with
    deadlineAtMs := record.deadlineAtMs.map toSql
    outputCursor := record.outputCursor.map toSql }

/-- A record that already ended stays ended, but learns the root and the deadline. -/
def started (record : ProcessRecord) (root : Option RootProcess) (deadlineAtMs : Option Nat) :
    ProcessRecord :=
  { record with
    phase := if record.phase = .dispatching then .running else record.phase
    root := record.root.or root
    deadlineAtMs := record.deadlineAtMs.or deadlineAtMs }

def observedOutput (record : ProcessRecord) (cursor : Nat) : ProcessRecord :=
  if record.outputCursor.all (· < cursor) then { record with outputCursor := some cursor } else record

/-- How an execution ended is recorded once. -/
def terminated (record : ProcessRecord) (termination : Option ProcessTermination)
    (exitCode signal : Option Int) : ProcessRecord :=
  match record.outcome, termination with
  | none, some termination =>
      { record with
        phase := .terminal, outcome := some (.ended termination), exitCode := exitCode
        signal := signal }
  | _, _ => { record with phase := .terminal }

/-- Only a record still dispatching can be told that its execution never started, and nothing
reported later changes that. -/
def ended (record : ProcessRecord) : ProcessEnd → ProcessRecord
  | .notStarted =>
      if record.phase = .dispatching then
        { record with phase := .terminal, outcome := some .notStarted }
      else record
  | .ended termination exitCode signal outputTotal =>
      if record.outcome = some .notStarted then record
      else
        match outputTotal with
        | some total => (record.terminated termination exitCode signal).observedOutput total
        | none => record.terminated termination exitCode signal

/-- What `record_runner_lost` makes of a record that had not ended. -/
def becomeUnknown (record : ProcessRecord) (loss : ProcessLoss) : ProcessRecord :=
  { record with phase := .unknown, lost := some loss }

/-- The record may still hold its workspace. -/
def unsettled (record : ProcessRecord) : Bool :=
  record.phase ∈ [.dispatching, .running, .unknown] && record.releasedAtMs.isNone

end ProcessRecord

abbrev ProcessRecords := Table ProcessRecord.processId

namespace ProcessRecord

variable (record : ProcessRecord)

@[simp]
theorem observedOutput_processId (cursor : Nat) :
    (record.observedOutput cursor).processId = record.processId := by
  unfold observedOutput
  split <;> rfl

/-- An end changes only what is known of how the execution went. -/
theorem ended_eq (how : ProcessEnd) : ∃ phase outcome exitCode signal outputCursor, record.ended how =
      { record with
        phase := phase, outcome := outcome, exitCode := exitCode, signal := signal
        outputCursor := outputCursor } := by
  cases how with
  | notStarted =>
      dsimp only [ended]
      split <;> exact ⟨_, _, _, _, _, rfl⟩
  | ended =>
      dsimp only [ended, terminated, observedOutput]
      repeat' split
      all_goals exact ⟨_, _, _, _, _, rfl⟩

@[simp]
theorem ended_processId (how : ProcessEnd) : (record.ended how).processId = record.processId := by
  obtain ⟨_, _, _, _, _, same⟩ := record.ended_eq how
  rw [same]

@[simp]
theorem observedOutput_approvalId (cursor : Nat) :
    (record.observedOutput cursor).approvalId = record.approvalId := by
  unfold observedOutput
  split <;> rfl

@[simp]
theorem observedOutput_outcome (cursor : Nat) :
    (record.observedOutput cursor).outcome = record.outcome := by
  unfold observedOutput
  split <;> rfl

theorem ended_approvalId (how : ProcessEnd) : (record.ended how).approvalId = record.approvalId := by
  obtain ⟨_, _, _, _, _, same⟩ := record.ended_eq how
  rw [same]

/-- Only a report that says so makes a record say that its execution never started. -/
theorem ended_outcome {how : ProcessEnd} (unstarted : (record.ended how).outcome = some .notStarted) :
    record.outcome = some .notStarted ∨ how = .notStarted := by
  cases how with
  | notStarted => exact .inr rfl
  | ended termination exitCode signal outputTotal =>
      dsimp only [ended] at unstarted
      split at unstarted
      next already => exact .inl already
      · have terminated : (record.terminated termination exitCode signal).outcome = some .notStarted := by
          cases outputTotal <;> simpa using unstarted
        unfold ProcessRecord.terminated at terminated
        split at terminated
        · simp at terminated
        · exact .inl terminated

end ProcessRecord

namespace ProcessRecords

/-- `change_record`: records of executions sent to another Runner are never changed. -/
def change (records : ProcessRecords) (runner : RunnerRef) (processId : String)
    (change : ProcessRecord → ProcessRecord)
    (keeps : ∀ record, (change record).processId = record.processId) : ProcessRecords :=
  records.updateWhere (fun record => record.processId = processId && record.runner = runner)
    (fun record => (change record).written) keeps

def recordRunning (records : ProcessRecords) (runner : RunnerRef) (processId : String)
    (root : Option RootProcess) (deadlineAtMs : Option Nat) : ProcessRecords :=
  change records runner processId (·.started root deadlineAtMs) fun _ => rfl

def recordEnd (records : ProcessRecords) (runner : RunnerRef) (processId : String)
    (how : ProcessEnd) : ProcessRecords :=
  change records runner processId (·.ended how) fun record => by simp

def recordOutput (records : ProcessRecords) (runner : RunnerRef) (processId : String) (cursor : Nat) :
    ProcessRecords :=
  change records runner processId (·.observedOutput cursor) fun record => by simp

def recordRunnerLost (records : ProcessRecords) (lost : RunnerRef) (loss : ProcessLoss) :
    ProcessRecords :=
  records.updateWhere
    (fun record => record.runner = lost.stored && record.phase ∈ [.dispatching, .running])
    (·.becomeUnknown loss) fun _ => rfl

def releaseRecord (records : ProcessRecords) (processId : String) (nowMs : Nat) : ProcessRecords :=
  records.updateWhere
    (fun record => record.processId = processId && record.phase = .unknown && record.releasedAtMs.isNone)
    (fun record => { record with releasedAtMs := some (toSql nowMs) }) fun _ => rfl

section Find

variable (records : ProcessRecords) (runner : RunnerRef) (processId other : String)

theorem find?_change {change : ProcessRecord → ProcessRecord}
    (keeps : ∀ record, (change record).processId = record.processId) :
    (ProcessRecords.change records runner processId change keeps).find? other =
      (records.find? other).map fun record =>
        if record.processId = processId && record.runner = runner then (change record).written
        else record :=
  Table.find?_updateWhere _

theorem find?_recordRunning (root : Option RootProcess) (deadlineAtMs : Option Nat) :
    (records.recordRunning runner processId root deadlineAtMs).find? other =
      (records.find? other).map fun record =>
        if record.processId = processId && record.runner = runner then
          (record.started root deadlineAtMs).written
        else record :=
  find?_change records runner processId other _

theorem find?_recordEnd (how : ProcessEnd) : (records.recordEnd runner processId how).find? other =
      (records.find? other).map fun record =>
        if record.processId = processId && record.runner = runner then (record.ended how).written
        else record :=
  find?_change records runner processId other _

theorem find?_recordOutput (cursor : Nat) : (records.recordOutput runner processId cursor).find? other =
      (records.find? other).map fun record =>
        if record.processId = processId && record.runner = runner then
          (record.observedOutput cursor).written
        else record :=
  find?_change records runner processId other _

theorem find?_recordRunnerLost (loss : ProcessLoss) : (records.recordRunnerLost runner loss).find? other =
      (records.find? other).map fun record =>
        if record.runner = runner.stored && record.phase ∈ [.dispatching, .running] then
          record.becomeUnknown loss
        else record :=
  Table.find?_updateWhere _

theorem find?_releaseRecord (nowMs : Nat) : (records.releaseRecord processId nowMs).find? other =
      (records.find? other).map fun record =>
        if record.processId = processId && record.phase = .unknown && record.releasedAtMs.isNone then
          { record with releasedAtMs := some (toSql nowMs) }
        else record :=
  Table.find?_updateWhere _

end Find

/-- What a gateway reconciles after its Claim of `runner` under `epoch`: what it sends under that
Claim itself is not. -/
def recordsToReconcile (records : ProcessRecords) (approvals : Approvals) (runner : RunnerRef)
    (epoch : Nat) : List ProcessRecord :=
  records.rows.filter fun record =>
    (record.phase ∈ [.dispatching, .running, .unknown] || record.approvalId.any fun id =>
      (approvals.find? id).any fun row => row.state = .resuming) &&
    record.releasedAtMs.isNone &&
    !(record.runner = runner.stored && record.controllerEpoch.any (toSql epoch ≤ ·))

def recordsOfApproval (records : ProcessRecords) (approvalId : String) : List ProcessRecord :=
  records.rows.filter fun record => record.approvalId = some approvalId

def recordErr (detail : String) : ErrorBody where
  code := .internal
  message := "process record: " ++ detail

/-- The approval that an execution resumes, if there is one, is marked. -/
def markFor (approvals : Approvals) : Option String → Except ErrorBody Approvals
  | some approvalId =>
      let marked := approvals.markResuming approvalId
      marked.1.map fun _ => marked.2
  | none => .ok approvals

/-- One transaction marks the approval and inserts the record: both are kept, or neither. -/
def recordDispatch (records : ProcessRecords) (approvals : Approvals) (record : ProcessRecord) :
    Except ErrorBody (Approvals × ProcessRecords) :=
  markFor approvals record.approvalId >>= fun marked =>
    match records.insert? record.stored with
    | some inserted => .ok (marked, inserted)
    | none => .error (recordErr "UNIQUE constraint failed: processes.process_id")

end ProcessRecords

end CodeSpace.Store
