import CodeSpace.Store.ProcessRecords

namespace CodeSpace.Store

/-! What the calls that reach a process record do to it, whichever Runner makes them. -/

/-- The record says how the execution ended, where that is known. -/
def ProcessRecord.SaysEnd (record : ProcessRecord) (termination : Option ProcessTermination)
    (exitCode signal : Option Int) : Prop :=
  ∀ ending, termination = some ending →
    record.outcome = some (.ended ending) ∧ record.exitCode = exitCode ∧ record.signal = signal

inductive ProcessCall
  | recordRunning (runner : RunnerRef) (processId : String) (root : Option RootProcess)
      (deadlineAtMs : Option Nat)
  | recordEnd (runner : RunnerRef) (processId : String) (how : ProcessEnd)
  | recordOutput (runner : RunnerRef) (processId : String) (cursor : Nat)
  | recordRunnerLost (lost : RunnerRef) (loss : ProcessLoss)
  | releaseRecord (processId : String) (nowMs : Nat)
deriving DecidableEq, Repr

namespace ProcessRecords

def apply (records : ProcessRecords) : ProcessCall → ProcessRecords
  | .recordRunning runner processId root deadlineAtMs =>
      records.recordRunning runner processId root deadlineAtMs
  | .recordEnd runner processId how => records.recordEnd runner processId how
  | .recordOutput runner processId cursor => records.recordOutput runner processId cursor
  | .recordRunnerLost lost loss => records.recordRunnerLost lost loss
  | .releaseRecord processId nowMs => records.releaseRecord processId nowMs

def applyAll (records : ProcessRecords) (calls : List ProcessCall) : ProcessRecords :=
  calls.foldl apply records

end ProcessRecords

namespace ProcessRecord

def apply (record : ProcessRecord) : ProcessCall → ProcessRecord
  | .recordRunning runner processId root deadlineAtMs =>
      if record.processId = processId && record.runner = runner then
        (record.started root deadlineAtMs).written
      else record
  | .recordEnd runner processId how =>
      if record.processId = processId && record.runner = runner then (record.ended how).written
      else record
  | .recordOutput runner processId cursor =>
      if record.processId = processId && record.runner = runner then
        (record.observedOutput cursor).written
      else record
  | .recordRunnerLost lost loss =>
      if record.runner = lost.stored && record.phase ∈ [.dispatching, .running] then
        record.becomeUnknown loss
      else record
  | .releaseRecord processId nowMs =>
      if record.processId = processId && record.phase = .unknown && record.releasedAtMs.isNone then
        { record with releasedAtMs := some (toSql nowMs) }
      else record

end ProcessRecord

namespace ProcessRecords

theorem find?_apply (records : ProcessRecords) (call : ProcessCall) (processId : String) :
    (records.apply call).find? processId = (records.find? processId).map (·.apply call) := by
  cases call with
  | recordRunning => exact find?_recordRunning ..
  | recordEnd => exact find?_recordEnd ..
  | recordOutput => exact find?_recordOutput ..
  | recordRunnerLost => exact find?_recordRunnerLost ..
  | releaseRecord => exact find?_releaseRecord ..

theorem find?_applyAll (records : ProcessRecords) (calls : List ProcessCall) (processId : String) :
    (records.applyAll calls).find? processId =
      (records.find? processId).map fun record => calls.foldl ProcessRecord.apply record := by
  induction calls generalizing records with
  | nil => simp [applyAll]
  | cons call calls ih =>
      rw [applyAll, List.foldl_cons]
      rw [show calls.foldl apply (records.apply call) = (records.apply call).applyAll calls from rfl,
        ih, find?_apply, Option.map_map]
      rfl

end ProcessRecords

namespace ProcessRecord

inductive Applied (record : ProcessRecord) : ProcessCall → ProcessRecord → Prop
  | kept (call : ProcessCall) : Applied record call record
  | started (root : Option RootProcess) (deadlineAtMs : Option Nat) :
      Applied record (.recordRunning record.runner record.processId root deadlineAtMs)
        (record.started root deadlineAtMs).written
  | ended (how : ProcessEnd) :
      Applied record (.recordEnd record.runner record.processId how) (record.ended how).written
  | observed (cursor : Nat) :
      Applied record (.recordOutput record.runner record.processId cursor)
        (record.observedOutput cursor).written
  | lost {lost : RunnerRef} (loss : ProcessLoss) (own : record.runner = lost.stored)
      (unended : record.phase ∈ [.dispatching, .running]) :
      Applied record (.recordRunnerLost lost loss) (record.becomeUnknown loss)
  | released (nowMs : Nat) (unknown : record.phase = .unknown) :
      Applied record (.releaseRecord record.processId nowMs)
        { record with releasedAtMs := some (toSql nowMs) }

theorem apply_applied (record : ProcessRecord) (call : ProcessCall) :
    Applied record call (record.apply call) := by
  cases call with
  | recordRunning | recordEnd | recordOutput =>
      dsimp only [apply]
      split
      next own =>
        simp only [Bool.and_eq_true, decide_eq_true_eq] at own
        obtain ⟨rfl, rfl⟩ := own
        constructor
      · exact .kept _
  | recordRunnerLost _ loss =>
      dsimp only [apply]
      split
      next own =>
        simp only [Bool.and_eq_true, decide_eq_true_eq] at own
        exact .lost loss own.1 own.2
      · exact .kept _
  | releaseRecord _ nowMs =>
      dsimp only [apply]
      split
      next own =>
        simp only [Bool.and_eq_true, decide_eq_true_eq] at own
        obtain ⟨⟨rfl, unknown⟩, _⟩ := own
        exact .released nowMs unknown
      · exact .kept _

end ProcessRecord

inductive PhaseMove : ProcessPhase → ProcessPhase → Prop
  | stays (phase : ProcessPhase) : PhaseMove phase phase
  | starts : PhaseMove .dispatching .running
  | lost {phase : ProcessPhase} (unended : phase ∈ [.dispatching, .running]) : PhaseMove phase .unknown
  | ends (phase : ProcessPhase) : PhaseMove phase .terminal

@[simp]
theorem toSql_toSql (value : Nat) : toSql (toSql value) = toSql value := by
  simp [toSql]

namespace ProcessRecord

variable {exitCode signal : Option Int} {termination : Option ProcessTermination}

section Fields

variable (record : ProcessRecord)

@[simp]
theorem written_phase : record.written.phase = record.phase := rfl

@[simp]
theorem written_written : record.written.written = record.written := by
  simp [written, Function.comp_def]

@[simp]
theorem observedOutput_phase (cursor : Nat) : (record.observedOutput cursor).phase = record.phase := by
  unfold observedOutput
  split <;> rfl

@[simp]
theorem observedOutput_releasedAtMs (cursor : Nat) :
    (record.observedOutput cursor).releasedAtMs = record.releasedAtMs := by
  unfold observedOutput
  split <;> rfl

@[simp]
theorem terminated_phase (termination : Option ProcessTermination) (exitCode signal : Option Int) :
    (record.terminated termination exitCode signal).phase = .terminal := by
  unfold terminated
  split <;> rfl

@[simp]
theorem observedOutput_runner (cursor : Nat) : (record.observedOutput cursor).runner = record.runner := by
  unfold observedOutput
  split <;> rfl

theorem ended_cases (how : ProcessEnd) :
    record.ended how = record ∨ (record.ended how).phase = .terminal := by
  cases how with
  | notStarted =>
      dsimp only [ended]
      split
      · exact .inr rfl
      · exact .inl rfl
  | ended _ _ _ outputTotal =>
      dsimp only [ended]
      split
      · exact .inl rfl
      · cases outputTotal <;> simp

theorem ended_outcome_of_some {outcome : ProcessOutcome} (how : ProcessEnd)
    (terminal : record.phase = .terminal) (recorded : record.outcome = some outcome) :
    (record.ended how).outcome = some outcome := by
  cases how with
  | notStarted => simpa [ended, terminal] using recorded
  | ended termination exitCode signal outputTotal =>
      have kept : (record.terminated termination exitCode signal).outcome = some outcome := by
        simp [terminated, recorded]
      dsimp only [ended]
      split
      · exact recorded
      · cases outputTotal <;> simpa using kept

theorem ended_ended (started : record.outcome ≠ some .notStarted) (termination : Option ProcessTermination)
    (exitCode signal : Option Int) (total : Option Nat) :
    (record.ended (.ended termination exitCode signal total)).phase = .terminal ∧
      (record.ended (.ended termination exitCode signal total)).outcome ≠ some .notStarted := by
  refine ⟨?_, fun said => ?_⟩
  · dsimp only [ended]
    rw [if_neg started]
    cases total <;> simp
  · rcases record.ended_outcome said with already | isNotStarted
    · exact started already
    · contradiction

theorem ended_saysEnd (started : record.outcome ≠ some .notStarted)
    (once : record.outcome.isSome → record.SaysEnd termination exitCode signal) (total : Option Nat) :
    (record.ended (.ended termination exitCode signal total)).phase = .terminal ∧
      (record.ended (.ended termination exitCode signal total)).SaysEnd termination exitCode signal := by
  have said : (record.terminated termination exitCode signal).SaysEnd termination exitCode signal := by
    intro ending isEnding
    subst isEnding
    cases recorded : record.outcome with
    | none => simp [terminated, recorded]
    | some =>
        have already := once (by simp [recorded]) ending rfl
        simpa [terminated, recorded] using already
  have observed (cursor : Nat) : ((record.terminated termination exitCode signal).observedOutput
      cursor).SaysEnd termination exitCode signal := by
    unfold observedOutput
    split <;> exact said
  dsimp only [ended]
  rw [if_neg started]
  cases total with
  | none => exact ⟨by simp, said⟩
  | some total => exact ⟨by simp, observed total⟩

theorem ended_unstarted {how : ProcessEnd} (unstarted : (record.ended how).outcome = some .notStarted) :
    record.outcome = some .notStarted ∨ record.phase = .dispatching := by
  rcases record.ended_outcome unstarted with already | rfl
  · exact .inl already
  · dsimp only [ended] at unstarted
    split at unstarted
    next dispatching => exact .inr dispatching
    · exact .inl unstarted

end Fields

variable {record next : ProcessRecord} {call : ProcessCall}

namespace Applied

variable (applied : Applied record call next)
include applied

theorem phase : PhaseMove record.phase next.phase := by
  cases applied with
  | kept | released => exact .stays _
  | started =>
      dsimp only [written, ProcessRecord.started]
      split
      next dispatching =>
        rw [dispatching]
        exact .starts
      · exact .stays _
  | ended how =>
      rcases record.ended_cases how with same | terminal
      · rw [same]
        exact .stays _
      · rw [written_phase, terminal]
        exact .ends _
  | observed => simpa using .stays _
  | lost _ _ unended => exact .lost unended

theorem outcome {outcome : ProcessOutcome} (settled : record.outcome.isSome → record.phase = .terminal)
    (recorded : record.outcome = some outcome) : next.outcome = some outcome := by
  cases applied with
  | kept | started | lost | released => exact recorded
  | ended how => exact record.ended_outcome_of_some how (settled (by simp [recorded])) recorded
  | observed => simpa [written] using recorded

theorem saysEnd (settled : record.outcome.isSome → record.phase = .terminal)
    (stated : record.SaysEnd termination exitCode signal) : next.SaysEnd termination exitCode signal := by
  intro ending isEnding
  have said := stated ending isEnding
  cases applied with
  | kept | started | lost | released => exact said
  | observed =>
      unfold observedOutput
      split <;> exact said
  | ended how =>
      have terminal := settled (by simp [said.1])
      cases how with
      | notStarted => simpa [written, ProcessRecord.ended, terminal] using said
      | ended reported code sign total =>
          have kept : record.terminated reported code sign = { record with phase := .terminal } := by
            simp [terminated, said.1]
          dsimp only [written, ProcessRecord.ended]
          rw [if_neg (by simp [said.1]), kept]
          cases total with
          | none => exact said
          | some =>
              dsimp only [observedOutput]
              split <;> exact said

theorem unstarted (said : next.outcome = some .notStarted) :
    record.outcome = some .notStarted ∨ record.phase = .dispatching := by
  cases applied with
  | kept | started | lost | released => exact .inl said
  | ended => exact record.ended_unstarted said
  | observed => exact .inl (by simpa [written] using said)

/-- A record is settled by the end that its own Runner reports, or by an operator. -/
theorem settled (unsettled : record.unsettled = true) (gone : next.unsettled = false) :
    (∃ how, call = .recordEnd record.runner record.processId how) ∨
      ∃ nowMs, call = .releaseRecord record.processId nowMs := by
  cases applied with
  | ended how => exact .inl ⟨how, rfl⟩
  | released nowMs => exact .inr ⟨nowMs, rfl⟩
  | kept => simp [unsettled] at gone
  | started =>
      simp only [ProcessRecord.unsettled, written, ProcessRecord.started] at gone unsettled
      split at gone <;> simp_all
  | observed => simp_all [ProcessRecord.unsettled, written]
  | lost => simp_all [ProcessRecord.unsettled, becomeUnknown]

theorem fits (held : record.written = record) : next.written = next := by
  cases applied with
  | kept => exact held
  | started | ended | observed => exact written_written _
  | lost loss => exact congrArg (becomeUnknown · loss) held
  | released nowMs =>
      exact congrArg (fun record => { record with releasedAtMs := some (toSql nowMs) }) held

theorem identity : next.runner = record.runner ∧ next.processId = record.processId := by
  cases applied with
  | kept | started | lost | released => exact ⟨rfl, rfl⟩
  | ended how =>
      obtain ⟨_, _, _, _, _, same⟩ := record.ended_eq how
      rw [same]
      exact ⟨rfl, rfl⟩
  | observed cursor => exact ⟨record.observedOutput_runner cursor, record.observedOutput_processId cursor⟩

theorem request :
    next.controllerEpoch = record.controllerEpoch ∧ next.approvalId = record.approvalId := by
  cases applied with
  | kept | started | lost | released => exact ⟨rfl, rfl⟩
  | ended how =>
      obtain ⟨_, _, _, _, _, same⟩ := record.ended_eq how
      rw [same]
      exact ⟨rfl, rfl⟩
  | observed =>
      unfold observedOutput
      split <;> exact ⟨rfl, rfl⟩

theorem outcome_terminal
    (settled : record.outcome.isSome → record.phase = .terminal) (recorded : next.outcome.isSome) :
    next.phase = .terminal := by
  cases applied with
  | kept | released => exact settled recorded
  | started => simp [written, ProcessRecord.started, settled recorded]
  | ended how =>
      rcases record.ended_cases how with same | terminal
      · rw [same] at recorded ⊢
        exact settled recorded
      · exact terminal
  | observed => simpa using settled (by simpa [written] using recorded)
  | lost _ _ unended =>
      have terminal := settled recorded
      simp [terminal] at unended

end Applied

/-- An end that is recorded stays, and so does whether the execution started. -/
theorem apply_terminal (call : ProcessCall) (terminal : record.phase = .terminal) :
    (record.apply call).phase = .terminal ∧
      ((record.apply call).outcome = some .notStarted ↔ record.outcome = some .notStarted) := by
  have applied := record.apply_applied call
  refine ⟨?_, ⟨fun said => ?_, applied.outcome fun _ => terminal⟩⟩
  · have moved := applied.phase
    rw [terminal] at moved
    generalize (record.apply call).phase = phase at moved
    cases moved with
    | stays | ends => rfl
    | lost unended => simp at unended
  · rcases applied.unstarted said with already | dispatching
    · exact already
    · cases terminal.symm.trans dispatching

end ProcessRecord

/-- A record that the database may hold: its numbers fit there, and only an execution that ended has an
outcome. -/
structure StoredRecord extends ProcessRecord where
  fits : toProcessRecord.written = toProcessRecord
  settled : toProcessRecord.outcome.isSome → toProcessRecord.phase = .terminal

namespace StoredRecord

def apply (record : StoredRecord) (call : ProcessCall) : StoredRecord where
  toProcessRecord := record.toProcessRecord.apply call
  fits := (record.apply_applied call).fits record.fits
  settled := (record.apply_applied call).outcome_terminal record.settled

def applyAll (record : StoredRecord) (calls : List ProcessCall) : StoredRecord :=
  calls.foldl apply record

theorem applyAll_toProcessRecord (record : StoredRecord) (calls : List ProcessCall) :
    (record.applyAll calls).toProcessRecord = calls.foldl ProcessRecord.apply record.toProcessRecord := by
  induction calls generalizing record with
  | nil => rfl
  | cons call _ ih => exact ih (record.apply call)

end StoredRecord

/-- The call is a report of the Runner, or an operator's. -/
def ProcessCall.isOf (runner : RunnerRef) : ProcessCall → Bool
  | .recordRunning reporter _ _ _ | .recordEnd reporter _ _ | .recordOutput reporter _ _ =>
      reporter = runner
  | .recordRunnerLost lost _ => lost.stored = runner
  | .releaseRecord _ _ => true

theorem ProcessRecord.apply_of_other {record : ProcessRecord} {call : ProcessCall}
    (other : call.isOf record.runner = false) : record.apply call = record := by
  cases call with
  | recordRunning reporter | recordEnd reporter | recordOutput reporter =>
      have apart : ¬ record.runner = reporter := fun same => by simp [ProcessCall.isOf, same] at other
      simp [apply, apart]
  | recordRunnerLost lost =>
      have apart : ¬ record.runner = lost.stored := fun same => by
        simp [ProcessCall.isOf, same] at other
      simp [apply, apart]
  | releaseRecord => contradiction

end CodeSpace.Store
