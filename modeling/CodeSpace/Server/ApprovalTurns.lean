import CodeSpace.Server.ResumeSteps

namespace CodeSpace.Server

open Data Domain Store

/-! Which rows a section of a task may change: only that of the approval the task holds, and its result
only where the task commits it. -/

variable {config : Config} {env : Environment} {shared : Shared} {before after : Gateway}
  {approvals next : Approvals} {held : Option String}
  {committed : Option (Except ErrorBody OperationResumeResult)} {id : String} {task : Task}

def ResumeStage.Linked (id : String) : ResumeStage → Prop
  | .patches inner => inner.resume = some id
  | .execs inner => inner.resume = some id
  | .looksUpKey record _ _ | .looksUpFingerprint record _ => record.approvalId = id
  | _ => True

/-- A patch or an execution resumes the approval of the call it is part of, and none when it is a
request of its own. -/
def Task.Linked : Task → Prop
  | .patch call => call.resume = none
  | .exec call => call.resume = none
  | .resume call => call.stage.Linked call.approvalId
  | .recovery _ => True

/-- The outcome that the next section of the task commits. -/
def Task.committing : Task → Option (Except ErrorBody OperationResumeResult)
  | .resume call =>
      match call.stage with
      | .commitWrites outcome => some outcome
      | _ => none
  | .recovery pass =>
      match pass.stage with
      | .settleFinishWrites _ result _ => some (.ok result)
      | _ => none
  | .patch _ | .exec _ => none

/-- What a section of a task that holds `held` does to the approvals. -/
inductive ApprovalsTurn (approvals : Approvals) (held : Option String)
    (committed : Option (Except ErrorBody OperationResumeResult)) : Approvals → Prop
  | same : ApprovalsTurn approvals held committed approvals
  | taken (id : String) (holds : held = some id) :
      ApprovalsTurn approvals held committed (approvals.takeClaim id).2
  | marked (id : String) (holds : held = some id) :
      ApprovalsTurn approvals held committed (approvals.markResuming id).2
  | returned (id : String) (holds : held = some id) :
      ApprovalsTurn approvals held committed (approvals.returnResume id).2
  | finished (id : String) (failNext : Bool) (outcome : Except ErrorBody OperationResumeResult)
      (holds : held = some id) (commits : committed = some outcome) :
      ApprovalsTurn approvals held committed (approvals.writeFinish failNext id outcome).2

namespace ApprovalsTurn

theorem of_eq (unchanged : next = approvals) : ApprovalsTurn approvals held committed next := by
  subst unchanged
  exact .same

theorem row_of_ne (turn : ApprovalsTurn approvals held committed next) (apart : held ≠ some id) :
    next.find? id = approvals.find? id := by
  have other {own : String} (holds : held = some own) : id ≠ own := fun same => by
    subst same
    exact apart holds
  cases turn with
  | same => rfl
  | taken _ holds => exact Approvals.takeClaim_of_ne (other holds)
  | marked _ holds => exact Approvals.markResuming_of_ne (other holds)
  | returned _ holds => exact Approvals.returnResume_of_ne (other holds)
  | finished _ _ _ holds => exact Approvals.writeFinish_of_ne (other holds)

theorem result {row : ApprovalRow} (turn : ApprovalsTurn approvals held committed next)
    (stored : next.find? id = some row) :
    (∃ old, approvals.find? id = some old ∧ row.resultJson = old.resultJson) ∨
      ∃ outcome, committed = some outcome ∧
        row.resultJson = some (PersistedResume.codec.encode (.of outcome)) := by
  cases turn with
  | same => exact .inl ⟨row, stored, rfl⟩
  | taken =>
      obtain ⟨old, found, rfl | rfl⟩ :=
        Approvals.changed_eq_some (Approvals.find?_takeClaim.symm.trans stored)
      all_goals exact .inl ⟨_, found, rfl⟩
  | marked =>
      obtain ⟨old, found, rfl | rfl⟩ :=
        Approvals.changed_eq_some (Approvals.find?_markResuming.symm.trans stored)
      all_goals exact .inl ⟨_, found, rfl⟩
  | returned =>
      obtain ⟨old, found, rfl | rfl⟩ :=
        Approvals.changed_eq_some (Approvals.find?_returnResume.symm.trans stored)
      all_goals exact .inl ⟨_, found, rfl⟩
  | finished _ _ outcome _ commits =>
      rw [Approvals.find?_writeFinish] at stored
      split at stored
      · exact .inl ⟨row, stored, rfl⟩
      · obtain ⟨old, found, rfl | rfl⟩ := Approvals.changed_eq_some stored
        · exact .inl ⟨_, found, rfl⟩
        · exact .inr ⟨outcome, commits, rfl⟩

end ApprovalsTurn

theorem PatchCall.advance_approvals {call : PatchCall} (resumes : call.resume = held) :
    ApprovalsTurn shared.approvals held committed (call.advance config shared env).shared.approvals := by
  obtain ⟨_, resume, stage⟩ := call
  subst resumes
  cases stage with
  | marks =>
      cases resume with
      | none => exact .same
      | some id => exact .marked id rfl
  | givesBack =>
      cases resume with
      | none => exact .same
      | some id => exact .returned id rfl
  | _ => exact .same

theorem ExecCall.advance_approvals {call : ExecCall} (resumes : call.resume = held) :
    ApprovalsTurn shared.approvals held committed (call.advance config shared env).shared.approvals := by
  obtain ⟨params, resume, stage⟩ := call
  subst resumes
  cases stage with
  | dispatches processId epoch =>
      cases resume with
      | none => exact .of_eq (ExecCall.dispatch_direct rfl)
      | some id =>
          have dispatched : (dispatch config shared ⟨params, some id, .dispatches processId epoch⟩
              processId epoch).2.1 = _ ∨ _ = _ := dispatch_resume shared processId epoch rfl
          rcases dispatched with same | marked
          · exact .of_eq same
          · dsimp only [ExecCall.advance]
            rw [marked]
            exact .marked id rfl
  | givesBack =>
      cases resume with
      | none => exact .same
      | some id => exact .returned id rfl
  | _ => exact .same

theorem Pass.advance_approvals (shared : Shared) (pass : Pass) :
    ApprovalsTurn shared.approvals pass.guarding (Task.recovery pass).committing
      (pass.advance config shared env).shared.approvals := by
  refine pass.advance_rule (fun _ next => ApprovalsTurn shared.approvals pass.guarding
    (Task.recovery pass).committing next.approvals) (fun _ _ => .same) (fun _ _ => .same)
    (fun _ _ _ _ => .same) (fun id rest stage => .returned id ?_)
    fun id result rest stage => .finished id _ (.ok result) ?_ ?_
  all_goals simp [guarding, Task.committing, stage]

theorem Task.advance_approvals (linked : task.Linked) :
    ApprovalsTurn shared.approvals task.guarding task.committing
      (task.advance config shared env).shared.approvals := by
  refine task.advance_rule (fun _ next => ApprovalsTurn shared.approvals task.guarding task.committing
    next.approvals) (fun _ _ => .same) ?_ ?_ ?_ ?_ ?_
  · rintro call (rfl | ⟨id, rfl⟩) <;> exact call.advance_approvals linked
  · rintro call (rfl | ⟨id, rfl⟩) <;> exact call.advance_approvals linked
  · rintro id rfl
    exact .taken id rfl
  · rintro id outcome rfl
    exact .finished id _ outcome rfl rfl
  · rintro pass rfl
    exact pass.advance_approvals shared

section Linked

variable {record : ApprovalRecord}

theorem ResumeCall.execute_linked (named : record.approvalId = id) :
    (execute config record).Linked id := by
  unfold execute
  split
  · split
    · exact congrArg some named
    · trivial
  · split
    · exact congrArg some named
    · trivial

theorem ResumeCall.reconcile_linked (named : record.approvalId = id) :
    (reconcile config record).Linked id := by
  unfold reconcile
  split
  · trivial
  · split
    · split <;> exact named
    · exact named

theorem ResumeCall.advance_linked {call : ResumeCall} (linked : call.stage.Linked call.approvalId) :
    (call.advance config shared env).stage.Linked call.approvalId := by
  obtain ⟨_, stage⟩ := call
  cases stage with
  | patches | execs =>
      dsimp only [ResumeCall.advance]
      split
      · trivial
      · exact linked
  | claimTakes =>
      dsimp only [ResumeCall.advance, afterClaim]
      split
      case h_5 record taken =>
        obtain ⟨row, stored, _, rfl, _⟩ := Approvals.takeClaim_execute taken
        exact execute_linked (Table.find?_eq_some.mp stored).2
      case h_6 record taken =>
        obtain ⟨_, stored, _, rfl, _⟩ := Approvals.takeClaim_reconcile taken
        exact reconcile_linked (Table.find?_eq_some.mp stored).2
      all_goals trivial
  | looksUpKey =>
      dsimp only [ResumeCall.advance, afterKey]
      split
      · trivial
      · split
        · exact linked
        · trivial
  | looksUpFingerprint =>
      dsimp only [ResumeCall.advance, afterFingerprint]
      split
      · trivial
      · split
        · trivial
        · exact execute_linked linked
  | asks | looks _ | admits _ _ | claims | claimMarks | looksUpId _ _ | readsRecords _ | commits _ =>
      dsimp only [ResumeCall.advance, afterRecords, afterRead]
      split <;> trivial
  | claimRetries | commitWrites _ | ends _ | answers _ => trivial

theorem Task.advance_linked {next : Task} (linked : task.Linked)
    (stage : (task.advance config shared env).stage = some next) : next.Linked := by
  cases task with
  | patch | exec =>
      dsimp only [Task.advance] at stage
      split at stage
      · contradiction
      · cases stage
        exact linked
  | resume call =>
      rw [Task.resume_advance stage] at stage
      cases stage
      exact call.advance_linked linked
  | recovery =>
      rw [Task.recovery_advance stage] at stage
      cases stage
      trivial

/-- Every task of the gateway is linked to the approval it resumes. -/
def Gateway.Linked (gateway : Gateway) : Prop :=
  ∀ index task, gateway.tasks.lookup index = some task → task.Linked

theorem Gateway.Linked.step {event : Event} {report : Report} (linked : before.Linked)
    (stepped : before.step config event = some (report, after)) : after.Linked := by
  intro index task running
  cases Gateway.step_task stepped running with
  | started starts =>
      cases starts with
      | applyPatch | execCommand => rfl
      | operationResume | reconciles => trivial
  | kept ran => exact linked index task ran
  | advanced _ old _ ran stage => exact old.advance_linked (linked index old ran) stage

end Linked

section Rows

variable {event : Event} {report : Report} {row : ApprovalRow}

/-- A resolved approval stays as it is, unless a task that holds it moves. -/
theorem Gateway.step_row (linked : before.Linked)
    (stepped : before.step config event = some (report, after))
    (stored : before.shared.approvals.find? id = some row) (resolved : row.state ≠ .pending)
    (apart : ∀ index env task, event = .continues index env →
      before.tasks.lookup index = some task → task.guarding ≠ some id) :
    after.shared.approvals.find? id = some row := by
  cases Gateway.step_cases stepped with
  | started => exact stored
  | outside changed =>
      cases changed with
      | createApproval => exact Approvals.createApproval_of_stored stored
      | resolveApproval =>
          exact Approvals.find?_resolveApproval.trans
            (Approvals.changed_of_state stored (by simpa using resolved))
      | _ => exact stored
  | @continued index env task fresh running =>
      rw [Gateway.setTask_shared]
      exact ((Task.advance_approvals (linked index task running)).row_of_ne
        (apart index env task rfl running)).trans stored
  | dropped =>
      unfold Gateway.dropTask
      split <;> rwa [Gateway.setTask_shared]
  | reopened runner link =>
      rw [(Shared.opened_stored config before.shared runner link).1]
      exact stored

theorem Gateway.step_result {result : Json} (linked : before.Linked)
    (stepped : before.step config event = some (report, after))
    (stored : after.shared.approvals.find? id = some row) (has : row.resultJson = some result) :
    (∃ old, before.shared.approvals.find? id = some old ∧ old.resultJson = some result) ∨
      ∃ index task outcome, before.tasks.lookup index = some task ∧ task.committing = some outcome ∧
        result = PersistedResume.codec.encode (.of outcome) := by
  cases Gateway.step_cases stepped with
  | started => exact .inl ⟨row, stored, has⟩
  | outside changed =>
      cases changed with
      | createApproval =>
          cases found : before.shared.approvals.find? id with
          | none =>
              cases Approvals.createApproval_opens found stored
              cases has
          | some =>
              cases (Approvals.createApproval_of_stored found).symm.trans stored
              exact .inl ⟨_, rfl, has⟩
      | resolveApproval _ decision =>
          obtain ⟨old, found, rfl | rfl⟩ :=
            Approvals.changed_eq_some (Approvals.find?_resolveApproval.symm.trans stored)
          · exact .inl ⟨_, found, has⟩
          · exact .inl ⟨old, found, by cases decision <;> exact has⟩
      | _ => exact .inl ⟨row, stored, has⟩
  | @continued index env task fresh running =>
      rw [Gateway.setTask_shared] at stored
      rcases (Task.advance_approvals (linked index task running)).result stored with
        ⟨old, found, same⟩ | ⟨outcome, commits, same⟩
      · exact .inl ⟨old, found, same.symm.trans has⟩
      · exact .inr ⟨index, task, outcome, running, commits, Option.some.inj (has.symm.trans same)⟩
  | dropped =>
      unfold Gateway.dropTask at stored
      split at stored <;>
      · rw [Gateway.setTask_shared] at stored
        exact .inl ⟨row, stored, has⟩
  | reopened runner link =>
      rw [(Shared.opened_stored config before.shared runner link).1] at stored
      exact .inl ⟨row, stored, has⟩

end Rows

end CodeSpace.Server
