import CodeSpace.Server.ResumeFrame

namespace CodeSpace.Server

open Data Domain Store

/-! What a task that holds an approval knows, stage by stage: of the approval's row, and of the requests
that were sent for it. -/

variable {config : Config} {env : Environment} {shared : Shared} {trace : List Label}
  {id processId : String} {call : ExecCall} {epoch : Option Nat} {pass : Pass}

structure Claimed (shared : Shared) (id : String) (tool : ApprovalTargetTool) (row : ApprovalRow) :
    Prop where
  stored : shared.approvals.find? id = some row
  resolved : row.state ≠ .pending
  tool : row.tool = tool

def PatchStage.Knows (trace : List Label) (shared : Shared) (id : String) (row : ApprovalRow)
    (params : ApplyPatchParams) : PatchStage → Prop
  | .waits | .asks | .admits _ | .marks _ =>
      loose trace id = [] ∧ ApplyPatchParams.codec.decode row.paramsJson = some params
  | .begins _ =>
      loose trace id = [] ∧ ApplyPatchParams.codec.decode row.paramsJson = some params ∧
      row.state = .resuming
  | .sends _ operationId =>
      loose trace id = [] ∧ ApplyPatchParams.codec.decode row.paramsJson = some params ∧
      row.state = .resuming ∧ operationId ∈ shared.minted ∧
      BegunAfter shared.operations row operationId
  | .awaits operationId => ∀ send ∈ loose trace id, send.request.id = operationId
  | .abandons _ _ | .givesBack _ => loose trace id = []
  | .finishes _ _ | .rejects _ _ | .returns _ => True

/-- What an execution knows of the approval it resumes. -/
def ExecStage.Knows (config : Config) (trace : List Label) (shared : Shared) (id : String)
    (row : ApprovalRow) : ExecStage → Prop
  | .waits | .asks _ | .admits _ _ | .dispatches _ _ => loose trace id = []
  | .sends processId _ =>
      loose trace id = [] ∧ row.state = .resuming ∧
      (config.independent = true → RecordedFor shared.processes id processId)
  | .awaits processId => ∀ send ∈ loose trace id, send.request.id = processId
  | .recordsNotStarted _ _ | .givesBack _ => loose trace id = []
  | .recordsRunning _ | .returns _ => True

/-- The record that a reconciled patch reads is its row's, which is still being resumed. -/
structure Reading (shared : Shared) (id : String) (record : ApprovalRecord) (row : ApprovalRow) :
    Prop extends Claimed shared id .applyPatch row where
  resuming : row.state = .resuming
  read : row.intoRecord = record

def ResumeStage.Knows (config : Config) (trace : List Label) (shared : Shared) (id : String) :
    ResumeStage → Prop
  | .patches call =>
      call.resume = some id ∧
      ∃ row, Claimed shared id .applyPatch row ∧ call.stage.Knows trace shared id row call.params
  | .execs call =>
      call.resume = some id ∧
      ∃ row, Claimed shared id .execCommand row ∧ call.stage.Knows config trace shared id row
  | .looksUpKey record params _ =>
      ApplyPatchParams.codec.decode record.paramsJson = some params ∧
      ∃ row, Reading shared id record row
  | .looksUpFingerprint record fingerprint =>
      (∀ params, ApplyPatchParams.codec.decode record.paramsJson = some params →
        fingerprint = config.fingerprint (.applyPatch params)) ∧
      ∃ row, Reading shared id record row
  | _ => True

/-- The approvals that a reconciliation has still to settle. -/
def PassStage.ahead : PassStage → List String
  | .settles approvals => approvals
  | .settleMarks id _ rest | .settleReads id _ rest | .settleReturns id rest
  | .settleFinishes id _ rest | .settleFinishWrites id _ rest | .settleEnds id _ rest => id :: rest
  | _ => []

/-- What a reconciliation knows of the executions it took up, and of the approval it settles. -/
structure Pass.Knows (trace : List Label) (shared : Shared) (pass : Pass) : Prop where
  records {record : ProcessRecord} (taken : record ∈ pass.records) :
    (∃ now, shared.processes.find? record.processId = some now ∧ now.approvalId = record.approvalId) ∧
    (record.outcome = some .notStarted → record.processId ∈ disproved trace)
  links {record : ProcessRecord} (linked : (record, Link.notStarted) ∈ pass.links) :
    record.processId ∈ disproved trace
  ahead {id : String} (left : id ∈ pass.stage.ahead) :
    ∃ record ∈ pass.records, record.approvalId = some id
  stage : match pass.stage with
    | .accounts | .reads | .loses _ | .asks => pass.links = []
    | .applies decided =>
        pass.links.map Prod.fst ++ decided.map Prod.fst = pass.records ∧
        ∀ record, (record, Decision.settled false) ∈ decided → record.outcome = some .notStarted
    | .settleMarks id none _ =>
        pass.links.map Prod.fst = pass.records ∧ ∀ link ∈ linksOf pass.links id, link = .notStarted
    | .settleReads id none _ | .settleReturns id _ =>
        pass.links.map Prod.fst = pass.records ∧ loose trace id = []
    | .settles _ | .settleMarks _ (some _) _ | .settleReads _ (some _) _ | .settleFinishes _ _ _
    | .settleFinishWrites _ _ _ | .settleEnds _ _ _ => pass.links.map Prod.fst = pass.records
    | .tells | .ended => True

def Task.executing : Task → Option ExecCall
  | exec call => some call
  | resume call =>
      match call.stage with
      | .execs inner => some inner
      | _ => none
  | patch _ | recovery _ => none

structure Task.Knows (config : Config) (trace : List Label) (shared : Shared) (task : Task) : Prop where
  own : match task with
    | .patch call => call.resume = none
    | .exec call => call.resume = none
    | .resume call => call.stage.Knows config trace shared call.approvalId
    | .recovery pass => config.independent = true ∧ pass.Knows trace shared
  unstarted {call : ExecCall} {processId : String} {error : ErrorBody}
    (executes : task.executing = some call) (stage : call.stage = .recordsNotStarted processId error) :
    processId ∈ disproved trace

section Moves

/-- A step that touches no approval but `id`. -/
def MovesOnly (config : Config) (trace : List Label) (shared after : Shared) (report : Report)
    (id : String) : Prop :=
  ∃ touched, ApprovalMove config trace shared after report touched ∧ ∀ other ∈ touched, other = id

variable {after : Shared} {report : Report} {task : Task} {row : ApprovalRow}

theorem MovesOnly.still (approvals : after.approvals = shared.approvals)
    (unsent : report.send? = none) : MovesOnly config trace shared after report id :=
  ⟨none, .still approvals fun send isSent => by simp [unsent] at isSent, by simp⟩

theorem MovesOnly.own (move : ApprovalMove config trace shared after report (some id)) :
    MovesOnly config trace shared after report id :=
  ⟨some id, move, by simp⟩

theorem PatchCall.answerReport_send? (operationId : String) (answer : Except RunnerError Applied) :
    (answerReport operationId answer).send? = none := by
  unfold answerReport
  split
  · split <;> rfl
  · rfl

theorem PatchCall.finishReport_send? (operationId : String) (result : ApplyPatchResult)
    (finished : Except ErrorBody Unit) : (finishReport operationId result finished).send? = none := by
  cases finished <;> rfl

theorem ExecCall.answerReport_send? (processId : String) (answer : Except RunnerError Started) :
    (answerReport processId answer).send? = none := by
  unfold answerReport
  split <;> rfl

theorem Pass.applyReport_send? (processId : String) (written : Bool) (decision : Decision) :
    (applyReport processId written decision).send? = none := by
  unfold applyReport
  split
  · split <;> rfl
  · rfl

theorem PatchCall.advance_moves {call : PatchCall} (resumes : call.resume = some id)
    (claimed : Claimed shared id .applyPatch row)
    (knows : call.stage.Knows trace shared id row call.params) :
    MovesOnly config trace shared (call.advance config shared env).shared
      (call.advance config shared env).report id := by
  obtain ⟨_, _, stage⟩ := call
  subst resumes
  cases stage with
  | marks => exact .own (.marked id rfl)
  | sends =>
      obtain ⟨spared, decoded, resuming, minted, begun⟩ := knows
      exact .own (.sent rfl rfl spared claimed.stored resuming
        ⟨claimed.tool, fun _ => decoded, minted, begun⟩)
  | awaits => exact .still rfl (answerReport_send? _ _)
  | finishes | rejects => exact .still rfl (finishReport_send? _ _ _)
  | givesBack => exact .own (.returned id rfl knows)
  | _ => exact .still rfl rfl

theorem ExecCall.dispatch_resume (shared : Shared) (processId : String) (epoch : Option Nat)
    (resumes : call.resume = some id) :
    (dispatch config shared call processId epoch).2.1 = shared.approvals ∨
      (dispatch config shared call processId epoch).2.1 = (shared.approvals.markResuming id).2 := by
  unfold dispatch
  split
  · split
    next recorded =>
      have isMarked := (ProcessRecords.recordDispatch_eq_ok recorded).1
      simp only [ExecCall.record, ProcessRecords.markFor, resumes] at isMarked
      obtain ⟨_, _, same⟩ := map_eq_ok.mp isMarked
      exact .inr same.symm
    · exact .inl rfl
  · rw [resumes]
    exact .inr rfl

theorem ExecCall.dispatch_direct (direct : call.resume = none) :
    (dispatch config shared call processId epoch).2.1 = shared.approvals := by
  unfold dispatch
  split
  · split
    next recorded =>
      have isMarked := (ProcessRecords.recordDispatch_eq_ok recorded).1
      simp only [ExecCall.record, ProcessRecords.markFor, direct] at isMarked
      exact (Except.ok.inj isMarked).symm
    · rfl
  · rw [direct]
    rfl

theorem ExecCall.advance_moves (resumes : call.resume = some id)
    (claimed : Claimed shared id .execCommand row)
    (knows : call.stage.Knows config trace shared id row) :
    MovesOnly config trace shared (call.advance config shared env).shared
      (call.advance config shared env).report id := by
  obtain ⟨params, _, stage⟩ := call
  subst resumes
  cases stage with
  | dispatches processId epoch =>
      have dispatched : (dispatch config shared ⟨params, some id, .dispatches processId epoch⟩
          processId epoch).2.1 = _ ∨ _ = _ := dispatch_resume shared processId epoch rfl
      rcases dispatched with same | marked
      · exact .still same rfl
      · exact .own (.marked id marked)
  | sends =>
      obtain ⟨spared, resuming, recorded⟩ := knows
      exact .own (.sent rfl rfl spared claimed.stored resuming ⟨claimed.tool, recorded⟩)
  | awaits => exact .still rfl (answerReport_send? _ _)
  | givesBack => exact .own (.returned id rfl knows)
  | _ => exact .still rfl rfl

/-- A step that touches no approval but the one that is held. -/
def MovesHeld (config : Config) (trace : List Label) (shared after : Shared) (report : Report)
    (held : Option String) : Prop :=
  ∃ touched, ApprovalMove config trace shared after report touched ∧ ∀ id ∈ touched, held = some id

theorem MovesHeld.still {held : Option String} (approvals : after.approvals = shared.approvals)
    (unsent : report.send? = none) : MovesHeld config trace shared after report held :=
  ⟨none, .still approvals fun send isSent => by simp [unsent] at isSent, by simp⟩

theorem MovesOnly.held (move : MovesOnly config trace shared after report id) :
    MovesHeld config trace shared after report (some id) := by
  obtain ⟨touched, moved, only⟩ := move
  exact ⟨touched, moved, fun other isTouched => by rw [only other isTouched]⟩

theorem PatchCall.advance_direct {call : PatchCall} (direct : call.resume = none) :
    MovesHeld config trace shared (call.advance config shared env).shared
      (call.advance config shared env).report none := by
  obtain ⟨_, _, stage⟩ := call
  subst direct
  cases stage with
  | awaits => exact .still rfl (answerReport_send? _ _)
  | finishes | rejects => exact .still rfl (finishReport_send? _ _ _)
  | sends =>
      refine ⟨none, .still rfl fun send isSent => ?_, by simp⟩
      cases isSent
      rfl
  | _ => exact .still rfl rfl

theorem ExecCall.advance_direct (direct : call.resume = none) :
    MovesHeld config trace shared (call.advance config shared env).shared
      (call.advance config shared env).report none := by
  obtain ⟨_, _, stage⟩ := call
  subst direct
  cases stage with
  | awaits => exact .still rfl (answerReport_send? _ _)
  | sends =>
      refine ⟨none, .still rfl fun send isSent => ?_, by simp⟩
      cases isSent
      rfl
  | dispatches => exact .still (dispatch_direct rfl) rfl
  | _ => exact .still rfl rfl

theorem Pass.advance_moves (knows : pass.Knows trace shared) :
    MovesHeld config trace shared (pass.advance config shared env).shared
      (pass.advance config shared env).report pass.guarding := by
  have staged := knows.stage
  refine pass.advance_rule (fun report next => MovesHeld config trace shared next report pass.guarding)
    (fun _ _ => .still rfl rfl) (fun _ _ => .still rfl rfl)
    (fun _ _ _ _ => .still rfl (applyReport_send? _ _ _)) (fun id rest stage => ?_)
    fun id result rest stage => ?_
  · rw [guarding, stage]
    rw [stage] at staged
    exact MovesOnly.held (.own (.returned id rfl staged.2))
  · rw [guarding, stage]
    exact MovesOnly.held (.own (.finished id shared.failNextFinish (.ok result) rfl))

/-- What a step of the task does to the approvals touches only the one it marked in flight. -/
def Task.Moves (config : Config) (trace : List Label) (shared : Shared) (env : Environment)
    (task : Task) : Prop :=
  ∃ touched, ApprovalMove config trace shared (task.advance config shared env).shared
    (task.advance config shared env).report touched ∧ ∀ id ∈ touched, task.guarding = some id

theorem Task.advance_moves (knows : task.Knows config trace shared) :
    task.Moves config trace shared env := by
  have own := knows.own
  refine task.advance_rule (fun report next => MovesHeld config trace shared next report task.guarding)
    (fun _ _ => .still rfl rfl) ?_ ?_ ?_ ?_ ?_
  · rintro call (rfl | ⟨id, rfl⟩)
    · exact call.advance_direct own
    · obtain ⟨resumes, row, claimed, inside⟩ := own
      exact (call.advance_moves resumes claimed inside).held
  · rintro call (rfl | ⟨id, rfl⟩)
    · exact call.advance_direct own
    · obtain ⟨resumes, _, claimed, inside⟩ := own
      exact (call.advance_moves resumes claimed inside).held
  · rintro id rfl
    exact MovesOnly.held (.own (.taken id rfl))
  · rintro id outcome rfl
    exact MovesOnly.held (.own (.finished id shared.failNextFinish outcome rfl))
  · rintro pass rfl
    exact pass.advance_moves own.2

end Moves

section Records

variable {gone : List String} {opened : String → Prop}

theorem ExecCall.dispatch_records (opens : ∀ id ∈ call.resume, opened id) : RecordsMove shared.processes
      (dispatch config shared call processId epoch).2.2 gone opened := by
  unfold dispatch
  split
  · split
    next recorded => exact .of_insert (ProcessRecords.recordDispatch_eq_ok recorded).2 nofun opens
    · exact .refl _
  · exact .refl _

theorem ExecCall.advance_records (opens : ∀ id ∈ call.resume, opened id)
    (unstarted : ∀ processId error, call.stage = .recordsNotStarted processId error → processId ∈ gone) :
    RecordsMove shared.processes (call.advance config shared env).shared.processes gone opened := by
  obtain ⟨_, _, stage⟩ := call
  cases stage with
  | dispatches => exact dispatch_records opens
  | recordsRunning =>
      dsimp only [ExecCall.advance, Shared.recordRunning]
      split
      · exact .recordRunning _ _ _ _
      · exact .refl _
  | recordsNotStarted processId error =>
      dsimp only [ExecCall.advance, Shared.recordNotStarted]
      split
      · exact .recordEnd fun _ => unstarted processId error rfl
      · exact .refl _
  | _ => exact .refl _

theorem Pass.advance_records
    (reported : ∀ processId, (pass.advance config shared env).report = .disproved processId →
      processId ∈ gone) :
    RecordsMove shared.processes (pass.advance config shared env).shared.processes gone opened := by
  refine pass.advance_rule (fun report next => (∀ processId, report = .disproved processId →
    processId ∈ gone) → RecordsMove shared.processes next.processes gone opened) (fun _ _ _ => .refl _)
    (fun _ _ _ => .recordRunnerLost _ _) (fun record decision rest _ said => ?_) (fun _ _ _ _ => .refl _)
    (fun _ _ _ _ _ => .refl _) reported
  dsimp only [Decision.record]
  split
  next written =>
    split
    · exact .recordRunning _ _ _ _
    · exact .recordEnd nofun
    · exact .recordEnd nofun
    · exact .recordEnd fun _ => said _ (by rw [written]; rfl)
    all_goals exact .refl _
  · exact .refl _

end Records

end CodeSpace.Server
