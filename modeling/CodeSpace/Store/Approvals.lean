import CodeSpace.Data.Table
import CodeSpace.Domain.Serde

namespace CodeSpace.Store

open Data Domain

/-! `crates/store/src/approvals.rs`: the rows of the `approvals` table and what each section under the
store's connection does to them. `claim_resume`, `finish_resume` and `settle_interrupted_resume` give
the connection up in between, so each of their sections is its own function here. Identifiers and the
time are the caller's. -/

structure ApprovalRow where
  approvalId : String
  workspaceId : String
  tool : ApprovalTargetTool
  fingerprint : String
  paramsJson : Json
  state : ApprovalState
  resolvedAt : Option Nat := none
  resultJson : Option Json := none

structure ApprovalRecord where
  approvalId : String
  workspaceId : String
  tool : ApprovalTargetTool
  fingerprint : String
  paramsJson : Json
  state : ApprovalState
  resolvedAt : Option Nat

def ApprovalRow.intoRecord (row : ApprovalRow) : ApprovalRecord where
  approvalId := row.approvalId
  workspaceId := row.workspaceId
  tool := row.tool
  fingerprint := row.fingerprint
  paramsJson := row.paramsJson
  state := row.state
  resolvedAt := row.resolvedAt

inductive ResumeClaim
  | replaySuccess (result : OperationResumeResult)
  | replayError (error : ErrorBody)
  | execute (record : ApprovalRecord)
  | reconcile (record : ApprovalRecord)

def scrubbedParams (tool : ApprovalTargetTool) (workspaceId fingerprint : String) : Json :=
  .obj [("scrubbed", .bool true), ("tool", .str tool.asStr), ("workspace_id", .str workspaceId),
    ("fingerprint", .str fingerprint)]

def ApprovalRow.scrubbed (row : ApprovalRow) : Json :=
  scrubbedParams row.tool row.workspaceId row.fingerprint

abbrev Approvals := Table ApprovalRow.approvalId

namespace Approvals

def notFound (id : String) : ErrorBody where
  code := .approvalNotFound
  message := "unknown approval_id `" ++ id ++ "`"

def conflict (message : String) : ErrorBody where
  code := .approvalConflict
  message := message

def ambiguous (id message : String) (operationId : Option String) : ErrorBody where
  code := .approvalAmbiguous
  message := message
  operationId := operationId
  approvalId := some id

/-- The row keeps an equal request of the workspace from opening another hold. -/
def holds (workspaceId fingerprint : String) (row : ApprovalRow) : Bool :=
  row.workspaceId = workspaceId && row.fingerprint = fingerprint && row.state.isActive

def loadActiveByFingerprint (approvals : Approvals) (workspaceId fingerprint : String) :
    Option ApprovalRow :=
  approvals.rows.find? (holds workspaceId fingerprint)

/-- After the first load nothing active is in the way, so that only the primary key can refuse the
row. -/
def createApproval (approvals : Approvals) (approvalId workspaceId : String)
    (tool : ApprovalTargetTool) (fingerprint : String) (params : Json) :
    Except ErrorBody ApprovalRecord × Approvals :=
  match loadActiveByFingerprint approvals workspaceId fingerprint with
  | some existing => (.ok existing.intoRecord, approvals)
  | none =>
      let row : ApprovalRow :=
        { approvalId := approvalId, workspaceId := workspaceId, tool := tool
          fingerprint := fingerprint, paramsJson := params, state := .pending }
      match approvals.insert? row with
      | some inserted => (.ok row.intoRecord, inserted)
      | none => (.error (conflict "active approval fingerprint conflict"), approvals)

/-- The rows of an `UPDATE … WHERE approval_id = … AND state IN …`. -/
def inState (id : String) (states : List ApprovalState) (row : ApprovalRow) : Bool :=
  row.approvalId = id && row.state ∈ states

def setState (approvals : Approvals) (id : String) (states : List ApprovalState)
    (state : ApprovalState) : Approvals :=
  approvals.updateWhere (inState id states) (fun row => { row with state := state }) fun _ => rfl

def resolveApproval (approvals : Approvals) (id : String) (decision : ApprovalDecision) (now : Nat) :
    Except ErrorBody ApprovalState × Approvals :=
  match approvals.find? id with
  | none => (.error (notFound id), approvals)
  | some row =>
      if row.state ≠ .pending then (.error (conflict "approval is no longer pending"), approvals)
      else
        match decision with
        | .grant =>
            (.ok .granted, approvals.updateWhere (inState id [.pending])
              (fun row => { row with state := .granted, resolvedAt := some now }) fun _ => rfl)
        | .deny =>
            (.ok .denied, approvals.updateWhere (inState id [.pending])
              (fun row => { row with state := .denied, resolvedAt := some now,
                                     paramsJson := row.scrubbed }) fun _ => rfl)

def replayConsumed (id : String) : Option Json → Except ErrorBody ResumeClaim
  | some raw =>
      match PersistedResume.codec.decode raw with
      | some (.success result) => .ok (.replaySuccess result)
      | some (.failed error) => .ok (.replayError error)
      | none => .error (ambiguous id "consumed approval has an unreadable result" none)
  | none => .error (ambiguous id "consumed approval is missing a terminal result" none)

/-- The first section of a turn of `claim_resume`: an answer, or the approval may be marked in
flight. -/
def lookClaim (approvals : Approvals) (id : String) : Option (Except ErrorBody ResumeClaim) :=
  match approvals.find? id with
  | none => some (.error (notFound id))
  | some row =>
      match row.state with
      | .consumed => some (replayConsumed id row.resultJson)
      | .pending => some (.error (conflict "approval is still pending"))
      | .denied => some (.error (conflict "approval was denied"))
      | .granted | .queued | .resuming => none

/-- The second section, with the approval marked in flight: an answer, or another turn. -/
def takeClaim (approvals : Approvals) (id : String) :
    Option (Except ErrorBody ResumeClaim) × Approvals :=
  match approvals.find? id with
  | none => (some (.error (notFound id)), approvals)
  | some row =>
      match row.state with
      | .granted => (some (.ok (.execute row.intoRecord)), setState approvals id [.granted] .queued)
      | .queued => (some (.ok (.execute row.intoRecord)), approvals)
      | .resuming => (some (.ok (.reconcile row.intoRecord)), approvals)
      | .consumed | .pending | .denied => (none, approvals)

/-- The refusals of a resume whose approval was never marked `resuming`. -/
def leavesQueued : Except ErrorBody OperationResumeResult → Bool
  | .error error => error.code ∈
      [.workspaceBusy, .resourceQueueFull, .recoveryPending, .runnerReconnecting,
        .runnerDisconnected, .staleController]
  | .ok _ => false

/-- The first section of `finish_resume`: whether there is nothing to persist. -/
def readFinish (approvals : Approvals) (id : String)
    (outcome : Except ErrorBody OperationResumeResult) : Except ErrorBody Bool :=
  match approvals.find? id with
  | none => .error (notFound id)
  | some row => .ok (row.state = .granted || (row.state = .queued && leavesQueued outcome))

def operationOf : Except ErrorBody OperationResumeResult → Option String
  | .ok result => result.applyPatch.map ApplyPatchResult.operationId
  | .error _ => none

/-- The second section of `finish_resume`; `failNext` is the test hook `fail_next_finish`. -/
def writeFinish (approvals : Approvals) (failNext : Bool) (id : String)
    (outcome : Except ErrorBody OperationResumeResult) : Except ErrorBody Unit × Approvals :=
  if failNext then
    (.error (ambiguous id "resume result could not be persisted" (operationOf outcome)), approvals)
  else
    match approvals.find? id with
    | none => (.error (notFound id), approvals)
    | some row =>
        if row.state ∈ [.queued, .resuming] then
          (.ok (), approvals.updateWhere (inState id [.queued, .resuming])
            (fun row => { row with
              state := .consumed
              resultJson := some (PersistedResume.codec.encode (.of outcome))
              paramsJson := row.scrubbed }) fun _ => rfl)
        else (.error (ambiguous id "resume result could not be persisted" none), approvals)

def returnResume (approvals : Approvals) (id : String) : Except ErrorBody Unit × Approvals :=
  if approvals.count (inState id [.resuming]) = 1 then
    (.ok (), setState approvals id [.resuming] .granted)
  else (.error (conflict "approval is not being resumed"), approvals)

def markResuming (approvals : Approvals) (id : String) : Except ErrorBody Unit × Approvals :=
  match approvals.find? id with
  | none => (.error (notFound id), approvals)
  | some row =>
      match row.state with
      | .resuming => (.ok (), approvals)
      | .queued => (.ok (), setState approvals id [.queued] .resuming)
      | other =>
          (.error (conflict ("approval is in an unknown state `" ++ other.asStr ++ "`")), approvals)

end Approvals

end CodeSpace.Store
