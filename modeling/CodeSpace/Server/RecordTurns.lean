import CodeSpace.Server.ApprovalTurns
import CodeSpace.Store.ProcessReports

namespace CodeSpace.Server

open Data Store

/-! What a step of a gateway does to the process records: it makes one of the store's calls, or records
a new execution for the approval it holds. -/

variable {config : Config} {env : Environment} {shared : Shared} {before after : Gateway}
  {processes next : ProcessRecords} {held : Option String} {id processId : String}
  {record : ProcessRecord}

/-- What becomes of a record: it stays that of the same request, and one that says its execution never
started goes on saying so. -/
structure RecordLater (record next : ProcessRecord) : Prop where
  runner : next.runner = record.runner
  controllerEpoch : next.controllerEpoch = record.controllerEpoch
  approvalId : next.approvalId = record.approvalId
  unstarted : record.phase = .terminal → record.outcome = some .notStarted →
    next.phase = .terminal ∧ next.outcome = some .notStarted

theorem RecordLater.refl (record : ProcessRecord) : RecordLater record record :=
  ⟨rfl, rfl, rfl, fun ended unstarted => ⟨ended, unstarted⟩⟩

theorem RecordLater.trans {middle last : ProcessRecord} (earlier : RecordLater record middle)
    (later : RecordLater middle last) : RecordLater record last where
  runner := later.runner.trans earlier.runner
  controllerEpoch := later.controllerEpoch.trans earlier.controllerEpoch
  approvalId := later.approvalId.trans earlier.approvalId
  unstarted ended said := have held := earlier.unstarted ended said
    later.unstarted held.1 held.2

/-- No record is lost, and each is the record of what it was. -/
def RecordsLater (processes next : ProcessRecords) : Prop :=
  ∀ processId record, processes.find? processId = some record →
    ∃ later, next.find? processId = some later ∧ RecordLater record later

theorem recordLater_apply (record : ProcessRecord) (call : ProcessCall) :
    RecordLater record (record.apply call) where
  runner := (record.apply_applied call).identity.1
  controllerEpoch := (record.apply_applied call).request.1
  approvalId := (record.apply_applied call).request.2
  unstarted ended said := have kept := record.apply_terminal call ended
    ⟨kept.1, kept.2.mpr said⟩

/-- What a section that holds `held` does to the process records. -/
inductive RecordsTurn (processes : ProcessRecords) (held : Option String) : ProcessRecords → Prop
  | same : RecordsTurn processes held processes
  | called (call : ProcessCall) : RecordsTurn processes held (processes.apply call)
  | dispatched {record : ProcessRecord} {inserted : ProcessRecords} (isFor : record.approvalId = held)
      (fits : processes.insert? record = some inserted) : RecordsTurn processes held inserted

namespace RecordsTurn

theorem of_eq (unchanged : next = processes) : RecordsTurn processes held next := by
  subst unchanged
  exact .same

theorem later (turn : RecordsTurn processes held next) : RecordsLater processes next := by
  intro processId record stored
  cases turn with
  | same => exact ⟨record, stored, .refl record⟩
  | called call =>
      refine ⟨record.apply call, ?_, recordLater_apply record call⟩
      rw [ProcessRecords.find?_apply, stored, Option.map_some]
  | dispatched _ fits => exact ⟨record, Table.find?_insert?_of_stored fits stored, .refl record⟩

theorem known (turn : RecordsTurn processes held next) (stored : next.find? processId = some record)
    (isFor : record.approvalId = some id) (apart : held ≠ some id) :
    ∃ earlier, processes.find? processId = some earlier ∧ earlier.approvalId = some id := by
  cases turn with
  | same => exact ⟨record, stored, isFor⟩
  | called call =>
      rw [ProcessRecords.find?_apply] at stored
      obtain ⟨earlier, found, rfl⟩ := Option.map_eq_some_iff.mp stored
      exact ⟨earlier, found, (recordLater_apply earlier call).approvalId.symm.trans isFor⟩
  | dispatched isHeld fits =>
      rw [Table.find?_insert? fits] at stored
      split at stored
      · cases stored
        exact absurd (isHeld.symm.trans isFor) apart
      · exact ⟨record, stored, isFor⟩

end RecordsTurn

theorem ExecCall.advance_recordsTurn {call : ExecCall} (resumes : call.resume = held) :
    RecordsTurn shared.processes held (call.advance config shared env).shared.processes := by
  obtain ⟨_, _, stage⟩ := call
  subst resumes
  cases stage with
  | dispatches =>
      dsimp only [ExecCall.advance, ExecCall.dispatch]
      split
      · split
        next recorded =>
          obtain ⟨_, _, inserted⟩ := bind_eq_ok.mp recorded
          split at inserted
          next fits =>
            cases inserted
            exact .dispatched rfl fits
          · contradiction
        · exact .same
      · exact .same
  | recordsRunning =>
      dsimp only [ExecCall.advance, Shared.recordRunning]
      split
      · exact .called (.recordRunning _ _ _ _)
      · exact .same
  | recordsNotStarted =>
      dsimp only [ExecCall.advance, Shared.recordNotStarted]
      split
      · exact .called (.recordEnd _ _ _)
      · exact .same
  | _ => exact .same

theorem Decision.record_turn (decision : Decision) (written : Bool) (ours : RunnerRef)
    (processId : String) :
    RecordsTurn processes held (decision.record written ours processId processes) := by
  unfold Decision.record
  split
  · split
    · exact .called (.recordRunning _ _ _ _)
    · exact .called (.recordEnd _ _ _)
    · exact .called (.recordEnd _ _ _)
    · exact .called (.recordEnd _ _ _)
    all_goals exact .same
  · exact .same

theorem Pass.advance_recordsTurn (shared : Shared) (pass : Pass) :
    RecordsTurn shared.processes held (pass.advance config shared env).shared.processes :=
  pass.advance_rule (fun _ next => RecordsTurn shared.processes held next.processes) (fun _ _ => .same)
    (fun _ _ => .called (.recordRunnerLost _ _)) (fun _ decision _ _ => decision.record_turn _ _ _)
    (fun _ _ _ => .same) fun _ _ _ _ => .same

theorem Task.advance_recordsTurn {task : Task} (linked : task.Linked) :
    RecordsTurn shared.processes task.guarding (task.advance config shared env).shared.processes := by
  refine task.advance_rule (fun _ next => RecordsTurn shared.processes task.guarding next.processes)
    (fun _ _ => .same) (fun call _ => .of_eq (call.advance_processes shared)) ?_ (fun _ _ => .same)
    (fun _ _ _ => .same) fun pass _ => pass.advance_recordsTurn shared
  rintro call (rfl | ⟨id, rfl⟩) <;> exact call.advance_recordsTurn linked

theorem Gateway.step_recordsTurn {event : Event} {report : Report} (linked : before.Linked)
    (stepped : before.step config event = some (report, after)) :
    ∃ held, RecordsTurn before.shared.processes held after.shared.processes ∧
      ∀ id, held = some id → ∃ index env task, event = .continues index env ∧
        before.tasks.lookup index = some task ∧ task.guarding = some id := by
  cases Gateway.step_cases stepped with
  | started => exact ⟨none, .same, nofun⟩
  | outside changed =>
      refine ⟨none, ?_, nofun⟩
      cases changed with
      | processEnds => exact .called (.recordEnd _ _ _)
      | observesOutput => exact .called (.recordOutput _ _ _)
      | losesRunner => exact .called (.recordRunnerLost _ _)
      | releasesRecord => exact .called (.releaseRecord _ _)
      | _ => exact .same
  | @continued index env task fresh running =>
      refine ⟨task.guarding, ?_, fun id holds => ⟨index, env, task, rfl, running, holds⟩⟩
      rw [Gateway.setTask_shared]
      exact Task.advance_recordsTurn (linked index task running)
  | dropped =>
      refine ⟨none, .of_eq ?_, nofun⟩
      unfold Gateway.dropTask
      split
      · rw [Gateway.setTask_shared]
        rfl
      · rw [Gateway.setTask_shared]
  | reopened runner link =>
      exact ⟨none, .of_eq (Shared.opened_stored config before.shared runner link).2.2.1, nofun⟩

end CodeSpace.Server
