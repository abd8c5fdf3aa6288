import CodeSpace.Server.Calls

namespace CodeSpace.Server

open Data Domain Store

/-! `operation_resume_inner` with the functions it is made of: `claim_resume`, then `execute_approved` or
`reconcile_resume`, then `commit_resume`. -/

inductive ResumeStage
  | asks
  | looks (epoch : Option Nat)
  | admits (epoch : Option Nat) (workspaceId : String)
  | claims
  | claimMarks
  | claimTakes
  | claimRetries
  | patches (call : PatchCall)
  | execs (call : ExecCall)
  | looksUpKey (record : ApprovalRecord) (params : ApplyPatchParams) (key : String)
  | looksUpId (record : ApprovalRecord) (operationId : String)
  | looksUpFingerprint (record : ApprovalRecord) (fingerprint : String)
  | readsRecords (record : ApprovalRecord)
  | commits (outcome : Except ErrorBody OperationResumeResult)
  | commitWrites (outcome : Except ErrorBody OperationResumeResult)
  | ends (answer : Except ErrorBody OperationResumeResult)
  | answers (answer : Except ErrorBody OperationResumeResult)

structure ResumeCall where
  approvalId : String
  stage : ResumeStage := .asks

def paramsScrubbed (params : Json) : Bool :=
  (params.get? "scrubbed").any fun
    | .bool flag => flag
    | _ => false

namespace ResumeCall

def consumedPatch (approvalId : String) (result : ApplyPatchResult) : OperationResumeResult where
  approvalId := approvalId
  state := .consumed
  applyPatch := some result

def consumedExec (approvalId : String) (result : ExecCommandResult) : OperationResumeResult where
  approvalId := approvalId
  state := .consumed
  execCommand := some result

/-- `execute_approved`: the stored arguments are read and run. -/
def execute (config : Config) (record : ApprovalRecord) : ResumeStage :=
  match record.tool with
  | .applyPatch =>
      match ApplyPatchParams.codec.decode record.paramsJson with
      | some params => .patches { params := params, resume := some record.approvalId }
      | none =>
          .commits (.error { code := .invalidPatch, message := config.unreadableParams record.paramsJson })
  | .execCommand =>
      match ExecCommandParams.codec.decode record.paramsJson with
      | some params => .execs { params := params, resume := some record.approvalId }
      | none =>
          .commits (.error { code := .invalidCommand
                             message := config.unreadableParams record.paramsJson })

/-- `reconcile_resume`, up to where it first reads the ledger or the records. -/
def reconcile (config : Config) (record : ApprovalRecord) : ResumeStage :=
  match record.tool with
  | .execCommand => .readsRecords record
  | .applyPatch =>
      match ApplyPatchParams.codec.decode record.paramsJson with
      | some params =>
          match params.operationKey with
          | some key => .looksUpKey record params key
          | none => .looksUpFingerprint record (config.fingerprint (.applyPatch params))
      | none => .looksUpFingerprint record record.fingerprint

/-- Where the second section of a turn of `claim_resume` leads. -/
def afterClaim (config : Config) : Option (Except ErrorBody ResumeClaim) → ResumeStage
  | none => .claimRetries
  | some (.error error) => .ends (.error error)
  | some (.ok (.replaySuccess result)) => .ends (.ok result)
  | some (.ok (.replayError error)) => .ends (.error error)
  | some (.ok (.execute record)) => execute config record
  | some (.ok (.reconcile record)) => reconcile config record

/-- What the first section answers: a replay or a refusal, never a claim. -/
def claimAnswer : Except ErrorBody ResumeClaim → Except ErrorBody OperationResumeResult
  | .ok (.replaySuccess result) => .ok result
  | .ok (.replayError error) => .error error
  | .ok (.execute record) | .ok (.reconcile record) => .error (Approvals.notFound record.approvalId)
  | .error error => .error error

/-- The reconciled approval is consumed with the operation that the ledger holds. -/
def commitStored (record : ApprovalRecord) (stored : StoredOperation)
    (hint : Option CoordinationHint) : ResumeStage :=
  .commits (.ok (consumedPatch record.approvalId (withHint stored.result none hint)))

def afterKey (config : Config) (record : ApprovalRecord) (params : ApplyPatchParams) :
    Except ErrorBody OperationStatusResult → ResumeStage
  | .ok status => .looksUpId record status.operationId
  | .error error =>
      if error.code = .operationNotFound then
        .looksUpFingerprint record (config.fingerprint (.applyPatch params))
      else .ends (.error error)

def afterFingerprint (config : Config) (record : ApprovalRecord) (hint : Option CoordinationHint) :
    Option StoredOperation → ResumeStage
  | some stored => commitStored record stored hint
  | none =>
      if paramsScrubbed record.paramsJson then
        .commits (.error (Approvals.ambiguous record.approvalId
          "resume was interrupted and the snapshot is no longer available" none))
      else execute config record

def afterRecords (record : ApprovalRecord) (hint : Option CoordinationHint) :
    Option ProcessRecord → ResumeStage
  | some started =>
      .commits (.ok (consumedExec record.approvalId
        { processId := started.processId, dispatchStatus := .confirmed, coordination := hint }))
  | none =>
      .commits (.error (Approvals.ambiguous record.approvalId
        "exec resume is ambiguous after interruption; the process was not restarted" none))

/-- The answer of `commit_resume`: a result that could not be stored is ambiguous. -/
def commitAnswer (approvalId : String) (outcome : Except ErrorBody OperationResumeResult)
    (finished : Except ErrorBody Unit) : Except ErrorBody OperationResumeResult :=
  match outcome, finished with
  | .ok success, .error error =>
      let named :=
        { error with
          approvalId := error.approvalId.or (some approvalId)
          operationId := error.operationId.or (success.applyPatch.map ApplyPatchResult.operationId) }
      if error.code = .approvalAmbiguous then .error named
      else
        .error { named with
          code := .approvalAmbiguous
          message := "mutation may have completed; resume result was not persisted" }
  | outcome, _ => outcome

def afterRead (approvalId : String) (outcome : Except ErrorBody OperationResumeResult) :
    Except ErrorBody Bool → ResumeStage
  | .error error => .ends (commitAnswer approvalId outcome (.error error))
  | .ok true => .ends (commitAnswer approvalId outcome (.ok ()))
  | .ok false => .commitWrites outcome

/-- Whether new work has to be possible before an approval in this state is claimed. -/
def needsAdmission (row : ApprovalRow) : Bool :=
  row.state ∈ [.granted, .queued, .resuming]

def advance (config : Config) (shared : Shared) (env : Environment) (call : ResumeCall) :
    Turn ResumeStage :=
  let id := call.approvalId
  match call.stage with
  | .asks =>
      { shared := shared
        stage := match shared.dispatchEpoch config with
          | .error error => .answers (.error error)
          | .ok epoch => .looks epoch }
  | .looks epoch =>
      { shared := shared
        stage := match (shared.approvals.find? id).filter needsAdmission with
          | some row => .admits epoch row.workspaceId
          | none => .claims }
  | .admits epoch workspaceId =>
      let admitted := shared.admitWork env.unreadable workspaceId epoch
      { shared := admitted.2
        stage := match admitted.1 with
          | .error error => .answers (.error error)
          | .ok _ => .claims }
  | .claims =>
      { shared := shared
        stage := match shared.approvals.lookClaim id with
          | some answer => .answers (claimAnswer answer)
          | none => .claimMarks }
  | .claimMarks =>
      if id ∈ shared.inflight then
        { shared := shared
          stage := .answers (.error (Approvals.conflict "resume already in progress")) }
      else { shared := { shared with inflight := id :: shared.inflight }, stage := .claimTakes }
  | .claimTakes =>
      let taken := shared.approvals.takeClaim id
      { shared := { shared with approvals := taken.2 }, stage := afterClaim config taken.1 }
  | .claimRetries => { shared := shared.dropGuard id, stage := .claims }
  | .patches inner =>
      match inner.stage with
      | .returns outcome => { shared := shared, stage := .commits (outcome.map (consumedPatch id)) }
      | _ =>
          let turn := inner.advance config shared env
          { report := turn.report, shared := turn.shared
            stage := .patches { inner with stage := turn.stage } }
  | .execs inner =>
      match inner.stage with
      | .returns outcome => { shared := shared, stage := .commits (outcome.map (consumedExec id)) }
      | _ =>
          let turn := inner.advance config shared env
          { report := turn.report, shared := turn.shared
            stage := .execs { inner with stage := turn.stage } }
  | .looksUpKey record params key =>
      { shared := shared
        stage := afterKey config record params (shared.operations.statusLookup none (some key)) }
  | .looksUpId record operationId =>
      { shared := shared
        stage := match shared.operations.get operationId with
          | .ok stored => commitStored record stored env.hint
          | .error error => .ends (.error error) }
  | .looksUpFingerprint record fingerprint =>
      { shared := shared
        stage := afterFingerprint config record env.hint
          (shared.operations.findOperationByFingerprint record.workspaceId fingerprint
            record.resolvedAt) }
  | .readsRecords record =>
      { shared := shared
        stage := afterRecords record env.hint
          ((shared.processes.recordsOfApproval record.approvalId).find? provesStarted) }
  | .commits outcome =>
      { shared := shared
        stage := afterRead id outcome (shared.approvals.readFinish id outcome) }
  | .commitWrites outcome =>
      let finished := shared.finishResume id outcome
      { shared := finished.2, stage := .ends (commitAnswer id outcome finished.1) }
  | .ends answer => { shared := shared.dropGuard id, stage := .answers answer }
  | .answers answer => { shared := shared, stage := .answers answer }

/-- The call waits, in the patch or the execution it resumes. -/
def isAwaiting (call : ResumeCall) : Bool :=
  match call.stage with
  | .patches inner => inner.isAwaiting
  | .execs inner => inner.isAwaiting
  | _ => false

/-- The call holds the in-flight mark of its approval. -/
def isGuarding (call : ResumeCall) : Bool :=
  match call.stage with
  | .asks | .looks _ | .admits _ _ | .claims | .claimMarks | .answers _ => false
  | _ => true

end ResumeCall

end CodeSpace.Server
