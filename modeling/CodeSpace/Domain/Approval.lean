import CodeSpace.Domain.Error

namespace CodeSpace.Domain

/-! `crates/domain/src/patch.rs`, `process.rs` and `approval.rs`: the requests that change a workspace,
their results, and the confirmation holds on them. Identifiers are their text. -/

inductive PatchStatus
  | applied
  | checked
  | rejected
  | failedRolledBack
  | failedPartial
  | unknown
deriving DecidableEq, Repr

inductive FileChangeKind
  | add
  | update
  | delete
  | move
deriving DecidableEq, Repr

structure FileChange where
  path : String
  beforeVersion : Option String
  afterVersion : Option String
  kind : FileChangeKind
deriving DecidableEq, Repr

structure CoordinationHint where
  workId : String
  pendingUserItems : Nat
  queueRevision : Nat
deriving DecidableEq, Repr

/-- `expectedVersions` are the entries of a `BTreeMap`. -/
structure ApplyPatchParams where
  workspaceId : String
  patch : String
  expectedVersions : List (String × String) := []
  operationKey : Option String := none
  checkOnly : Bool := false
  workId : Option String := none
deriving DecidableEq, Repr

structure ApplyPatchResult where
  status : PatchStatus
  operationId : String
  replayed : Bool := false
  files : List String := []
  changes : List FileChange := []
  workId : Option String := none
  coordination : Option CoordinationHint := none
deriving DecidableEq, Repr

structure ExecCommandParams where
  workspaceId : String
  command : List String
  workId : Option String := none
  tty : Bool := false
deriving DecidableEq, Repr

inductive ExecDispatchStatus
  | confirmed
  | unknown
deriving DecidableEq, Repr

structure ExecCommandResult where
  processId : String
  dispatchStatus : ExecDispatchStatus
  coordination : Option CoordinationHint := none
deriving DecidableEq, Repr

inductive ApprovalTargetTool
  | applyPatch
  | execCommand
deriving DecidableEq, Repr

def ApprovalTargetTool.asStr : ApprovalTargetTool → String
  | .applyPatch => "apply_patch"
  | .execCommand => "exec_command"

inductive ApprovalState
  | pending
  | granted
  | queued
  | resuming
  | denied
  | consumed
deriving DecidableEq, Repr

/-- The states of the unique index on a workspace and a fingerprint. -/
def ApprovalState.isActive : ApprovalState → Bool
  | .pending | .granted | .queued | .resuming => true
  | .denied | .consumed => false

inductive ApprovalDecision
  | grant
  | deny
deriving DecidableEq, Repr

structure OperationResumeResult where
  approvalId : String
  state : ApprovalState
  applyPatch : Option ApplyPatchResult := none
  execCommand : Option ExecCommandResult := none
deriving DecidableEq, Repr

/-- `PersistedResume`: how a resume ended, as it is stored with a consumed approval. -/
inductive PersistedResume
  | success (result : OperationResumeResult)
  | failed (error : ErrorBody)
deriving DecidableEq, Repr

def PersistedResume.of : Except ErrorBody OperationResumeResult → PersistedResume
  | .ok result => .success result
  | .error error => .failed error

/-- The arguments of a tool that a hold keeps until it is resumed. -/
inductive ToolParams
  | applyPatch (params : ApplyPatchParams)
  | execCommand (params : ExecCommandParams)
deriving DecidableEq, Repr

namespace ToolParams

def tool : ToolParams → ApprovalTargetTool
  | applyPatch _ => .applyPatch
  | execCommand _ => .execCommand

def workspaceId : ToolParams → String
  | applyPatch params => params.workspaceId
  | execCommand params => params.workspaceId

end ToolParams

end CodeSpace.Domain
