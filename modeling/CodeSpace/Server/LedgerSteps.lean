import CodeSpace.Server.Gateway
import CodeSpace.Store.OperationSteps

namespace CodeSpace.Server

open Data Domain Store

/-! Which steps of a gateway touch the operations ledger: only the sections of a patch, whether its
request is a direct one or resumes an approval. -/

variable {config : Config} {env : Environment} {before after : Gateway} {report : Report}

/-- The operation that a patch has begun and not yet given up. -/
def PatchStage.owned : PatchStage → Option String
  | .sends _ operationId | .awaits operationId | .finishes operationId _ | .rejects operationId _
  | .abandons operationId _ => some operationId
  | .waits | .asks | .admits _ | .marks _ | .begins _ | .givesBack _ | .returns _ => none

def Task.patching : Task → Option PatchCall
  | patch call => some call
  | resume call =>
      match call.stage with
      | .patches inner => some inner
      | _ => none
  | exec _ | recovery _ => none

def Gateway.patchCall (gateway : Gateway) (index : Nat) : Option PatchCall :=
  (gateway.tasks.lookup index).bind Task.patching

/-- The report is about a patch that was sent or finished. -/
def Report.isPatch : Report → Bool
  | .sent send =>
      match send.request with
      | .applyPatch _ _ => true
      | .exec _ _ => false
  | .finished _ _ => true
  | .quiet | .disproved _ => false

/-- The ledger is as it was; identifiers may have been minted. -/
structure LedgerFrame (before after : Shared) : Prop where
  operations : after.operations = before.operations
  minted : before.minted ⊆ after.minted

theorem LedgerFrame.refl (shared : Shared) : LedgerFrame shared shared := ⟨rfl, List.Subset.refl _⟩

theorem PatchCall.begin_cases (config : Config) (shared : Shared) (env : Environment)
    (params : ApplyPatchParams) :
    ∃ answer operations, shared.operations.begin env.newId params.operationKey params.workspaceId
        (config.fingerprint (.applyPatch params)) shared.now = (answer, operations) ∧
      Operations.BeginStep shared.operations env.newId params.operationKey params.workspaceId
        (config.fingerprint (.applyPatch params)) shared.now answer operations :=
  ⟨_, _, rfl, Operations.begin_step ..⟩

theorem ExecCall.advance_ledger (shared : Shared) (call : ExecCall) :
    LedgerFrame shared (call.advance config shared env).shared := by
  obtain ⟨_, _, stage⟩ := call
  cases stage with
  | waits => exact ⟨rfl, List.subset_cons_self _ _⟩
  | _ => exact ⟨rfl, List.Subset.refl _⟩

theorem ExecCall.advance_isPatch (shared : Shared) (call : ExecCall) :
    (call.advance config shared env).report.isPatch = false := by
  obtain ⟨_, _, stage⟩ := call
  cases stage with
  | awaits =>
      dsimp only [ExecCall.advance, ExecCall.answerReport]
      split <;> rfl
  | _ => rfl

theorem Pass.applyReport_isPatch (processId : String) (written : Bool) (decision : Decision) :
    (applyReport processId written decision).isPatch = false := by
  unfold applyReport
  split
  · split <;> rfl
  · rfl

theorem Pass.advance_ledger (shared : Shared) (pass : Pass) :
    LedgerFrame shared (pass.advance config shared env).shared ∧
      (pass.advance config shared env).report.isPatch = false :=
  pass.advance_rule (fun report next => LedgerFrame shared next ∧ report.isPatch = false)
    (fun _ _ => ⟨⟨rfl, List.Subset.refl _⟩, rfl⟩) (fun _ _ => ⟨⟨rfl, List.Subset.refl _⟩, rfl⟩)
    (fun _ _ _ _ => ⟨⟨rfl, List.Subset.refl _⟩, applyReport_isPatch _ _ _⟩)
    (fun _ _ _ => ⟨⟨rfl, List.Subset.refl _⟩, rfl⟩) fun _ _ _ _ => ⟨⟨rfl, List.Subset.refl _⟩, rfl⟩

/-- A patch or an execution that the stage runs has just begun. -/
def ResumeStage.Begins : ResumeStage → Prop
  | .patches call => call.stage = .waits
  | .execs call => call.stage = .waits
  | _ => True

theorem ResumeCall.execute_begins (record : ApprovalRecord) : (execute config record).Begins := by
  unfold execute
  split
  · split
    · rfl
    · trivial
  · split
    · rfl
    · trivial

theorem ResumeCall.reconcile_begins (record : ApprovalRecord) : (reconcile config record).Begins := by
  unfold reconcile
  split
  · trivial
  · split
    · split <;> trivial
    · trivial

/-- A section of a resume that is not one of its patch or execution begins at most a new one. -/
theorem ResumeCall.advance_begins (shared : Shared) {call : ResumeCall}
    (unpatched : ∀ inner, call.stage ≠ .patches inner) (unexecuted : ∀ inner, call.stage ≠ .execs inner) :
    (call.advance config shared env).stage.Begins := by
  obtain ⟨_, stage⟩ := call
  cases stage with
  | patches inner => exact absurd rfl (unpatched inner)
  | execs inner => exact absurd rfl (unexecuted inner)
  | claimTakes =>
      dsimp only [ResumeCall.advance, afterClaim]
      split
      case h_5 record _ => exact execute_begins record
      case h_6 record _ => exact reconcile_begins record
      all_goals trivial
  | looksUpFingerprint record =>
      dsimp only [ResumeCall.advance, afterFingerprint]
      split
      · trivial
      · split
        · trivial
        · exact execute_begins record
  | asks | looks _ | admits _ _ | claims | claimMarks | looksUpId _ _ | readsRecords _ | commits _ =>
      dsimp only [ResumeCall.advance, afterRecords, afterRead]
      split <;> trivial
  | looksUpKey =>
      dsimp only [ResumeCall.advance, afterKey]
      split
      · trivial
      · split <;> trivial
  | claimRetries | commitWrites _ | ends _ | answers _ => trivial

theorem ResumeStage.Begins.patching {stage : ResumeStage} {call : PatchCall} (begins : stage.Begins)
    (id : String) (running : (Task.resume ⟨id, stage⟩).patching = some call) :
    call.stage.owned = none := by
  cases stage with
  | patches =>
      cases running
      rw [show call.stage = .waits from begins]
      rfl
  | _ => contradiction

inductive LedgerTurn (config : Config) (env : Environment) (shared : Shared) (task : Task)
    (turn : Turn (Option Task)) : Prop
  | patched (call : PatchCall) (running : task.patching = some call)
      (left : turn.shared = (call.advance config shared env).shared)
      (reported : turn.report = (call.advance config shared env).report)
      (moved : turn.stage.bind Task.patching =
        some { call with stage := (call.advance config shared env).stage })
  | beside (frame : LedgerFrame shared turn.shared) (silent : turn.report.isPatch = false)
      (idle : ∀ call, turn.stage.bind Task.patching = some call → call.stage.owned = none)

theorem LedgerTurn.still {shared : Shared} {task : Task} {turn : Turn (Option Task)}
    (frame : LedgerFrame shared turn.shared) (silent : turn.report.isPatch = false)
    (idle : turn.stage.bind Task.patching = none) : LedgerTurn config env shared task turn :=
  .beside frame silent fun call running => by
    cases idle.symm.trans running

theorem ResumeCall.advance_ledger (shared : Shared) (call : ResumeCall) :
    LedgerTurn config env shared (.resume call)
      ((Task.resume call).advance config shared env) := by
  have begins (unpatched : ∀ inner, call.stage ≠ .patches inner)
      (unexecuted : ∀ inner, call.stage ≠ .execs inner) :
      (call.advance config shared env).stage.Begins := call.advance_begins shared unpatched unexecuted
  obtain ⟨id, stage⟩ := call
  cases stage with
  | patches inner =>
      obtain ⟨params, resume, stage⟩ := inner
      cases stage with
      | returns => exact .still (.refl _) rfl rfl
      | _ => exact .patched _ rfl rfl rfl rfl
  | execs inner =>
      obtain ⟨_, _, stage⟩ := inner
      cases stage with
      | returns => exact .still (.refl _) rfl rfl
      | _ => exact .still (ExecCall.advance_ledger _ _) (ExecCall.advance_isPatch _ _) rfl
  | claimMarks =>
      dsimp only [Task.advance, ResumeCall.advance]
      split <;> exact .still ⟨rfl, List.Subset.refl _⟩ rfl rfl
  | answers => exact .still (.refl _) rfl rfl
  | _ =>
      refine .beside ⟨rfl, List.Subset.refl _⟩ rfl ?_
      exact fun _ => (begins (fun _ same => by contradiction) fun _ same => by contradiction).patching id

theorem Task.advance_ledger (shared : Shared) (task : Task) :
    LedgerTurn config env shared task (task.advance config shared env) := by
  cases task with
  | patch call =>
      obtain ⟨params, resume, stage⟩ := call
      cases stage with
      | returns => exact .still (.refl _) rfl rfl
      | _ => exact .patched _ rfl rfl rfl rfl
  | exec call =>
      obtain ⟨_, resume, stage⟩ := call
      cases stage with
      | returns => exact .still (.refl _) rfl rfl
      | _ => exact .still (ExecCall.advance_ledger _ _) (ExecCall.advance_isPatch _ _) rfl
  | resume call => exact call.advance_ledger shared
  | recovery pass =>
      dsimp only [Task.advance]
      split
      · exact .still (.refl _) rfl rfl
      · exact .still (pass.advance_ledger shared).1 (pass.advance_ledger shared).2 rfl

inductive LedgerStep (config : Config) (before after : Gateway) (report : Report) : Prop
  | patched (index : Nat) (call : PatchCall) (env : Environment)
      (fresh : env.newId ∉ before.shared.minted) (running : before.patchCall index = some call)
      (left : after.shared = (call.advance config before.shared env).shared)
      (reported : report = (call.advance config before.shared env).report)
      (moved : after.patchCall index =
        some { call with stage := (call.advance config before.shared env).stage })
      (others : ∀ other ≠ index, after.patchCall other = before.patchCall other)
  | beside (frame : LedgerFrame before.shared after.shared) (silent : report.isPatch = false)
      (idle : ∀ index call, after.patchCall index = some call →
        before.patchCall index = some call ∨ call.stage.owned = none)

theorem LedgerStep.same_calls (frame : LedgerFrame before.shared after.shared)
    (silent : report.isPatch = false) (tasks : after.tasks = before.tasks) :
    LedgerStep config before after report :=
  .beside frame silent fun index call running => .inl (by
    rwa [Gateway.patchCall, tasks] at running)

namespace Gateway

variable {gateway : Gateway} {index other : Nat} {shared : Shared} {task : Option Task}

theorem patchCall_setTask : (gateway.setTask index shared task).patchCall index =
    task.bind Task.patching := by
  rw [patchCall, lookup_setTask]

theorem patchCall_setTask_of_ne (apart : other ≠ index) :
    (gateway.setTask index shared task).patchCall other = gateway.patchCall other := by
  rw [patchCall, lookup_setTask_of_ne apart, patchCall]

theorem startTask_ledger {task : Task}
    (idle : ∀ call, task.patching = some call → call.stage.owned = none) :
    LedgerStep config gateway (gateway.startTask task) .quiet := by
  refine .beside (.refl _) rfl fun index call running => ?_
  by_cases same : index = gateway.nextTask
  · subst same
    simp only [patchCall, startTask, AList.lookup_insert, Option.bind_some] at running
    exact .inr (idle call running)
  · simp only [patchCall, startTask, AList.lookup_insert_ne same] at running
    exact .inl running

theorem setTask_ledger (frame : LedgerFrame gateway.shared shared) (silent : report.isPatch = false)
    (idle : ∀ call, task.bind Task.patching = some call → call.stage.owned = none) :
    LedgerStep config gateway (gateway.setTask index shared task) report := by
  refine .beside (by rwa [setTask_shared]) silent fun other call running => ?_
  by_cases same : other = index
  · subst same
    rw [patchCall_setTask] at running
    exact .inr (idle call running)
  · rw [patchCall_setTask_of_ne same] at running
    exact .inl running

theorem step_ledger {event : Event} (stepped : before.step config event = some (report, after)) :
    LedgerStep config before after report := by
  cases step_cases stepped with
  | started starts =>
      refine startTask_ledger fun call running => ?_
      cases starts with
      | applyPatch =>
          cases running
          rfl
      | _ => contradiction
  | outside changed =>
      refine .same_calls ?_ rfl rfl
      cases changed <;> exact ⟨rfl, List.Subset.refl _⟩
  | @continued index env task fresh running =>
      cases task.advance_ledger before.shared with
      | patched call isPatching left reported moved =>
          refine .patched index call env fresh ?_ ?_ reported ?_ fun other apart =>
            patchCall_setTask_of_ne apart
          · rw [patchCall, running, Option.bind_some, isPatching]
          · rw [setTask_shared, left]
          · rw [patchCall_setTask, moved]
      | beside frame silent idle => exact setTask_ledger frame silent idle
  | dropped running =>
      unfold dropTask
      split <;>
        exact setTask_ledger ⟨rfl, List.Subset.refl _⟩ rfl fun call running => by contradiction
  | reopened runner link =>
      obtain ⟨_, operations, _, minted, _⟩ := Shared.opened_stored config before.shared runner link
      exact .beside ⟨operations, fun _ known => minted ▸ known⟩ rfl fun index call running => by contradiction

end Gateway

end CodeSpace.Server
