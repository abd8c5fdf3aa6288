import CodeSpace.Data.Json
import CodeSpace.Domain.Approval

namespace CodeSpace.Domain

open Data

/-! How the types of `crates/domain` are written as JSON and read back (`derive(Serialize,
Deserialize)` with their attributes), and the canonical values that fingerprints are taken of. -/

def ErrorCode.all : List ErrorCode :=
  [.unauthorized, .workspaceNotFound, .workspaceBusy, .resourceQueueFull, .invalidPatch,
    .invalidCommand, .processSpawnFailed, .pathEscape, .fileNotFound, .pathNotDirectory,
    .fileOperationFailed, .symlinkRejected, .specialFileRejected, .addFileExists,
    .moveDestinationExists, .versionConflict, .operationKeyConflict, .operationNotFound,
    .processNotFound, .processNotTty, .processNotRunning, .outputLimit, .timeout, .workNotFound,
    .workClosed, .intentNotFound, .intentAlreadyClaimed, .intentNotEditable,
    .intentRevisionConflict, .queueNotEmpty, .approvalRequired, .approvalNotFound,
    .approvalConflict, .approvalAmbiguous, .resourcePolicyUnsupported, .managedLaunchUnavailable,
    .resourceUnavailable, .resourceAuthorityUnavailable, .admissionUnknown, .recoveryPending,
    .runnerDisconnected, .runnerReconnecting, .staleController, .internal]

def ErrorCode.name : ErrorCode → String
  | .unauthorized => "UNAUTHORIZED"
  | .workspaceNotFound => "WORKSPACE_NOT_FOUND"
  | .workspaceBusy => "WORKSPACE_BUSY"
  | .resourceQueueFull => "RESOURCE_QUEUE_FULL"
  | .invalidPatch => "INVALID_PATCH"
  | .invalidCommand => "INVALID_COMMAND"
  | .processSpawnFailed => "PROCESS_SPAWN_FAILED"
  | .pathEscape => "PATH_ESCAPE"
  | .fileNotFound => "FILE_NOT_FOUND"
  | .pathNotDirectory => "PATH_NOT_DIRECTORY"
  | .fileOperationFailed => "FILE_OPERATION_FAILED"
  | .symlinkRejected => "SYMLINK_REJECTED"
  | .specialFileRejected => "SPECIAL_FILE_REJECTED"
  | .addFileExists => "ADD_FILE_EXISTS"
  | .moveDestinationExists => "MOVE_DESTINATION_EXISTS"
  | .versionConflict => "VERSION_CONFLICT"
  | .operationKeyConflict => "OPERATION_KEY_CONFLICT"
  | .operationNotFound => "OPERATION_NOT_FOUND"
  | .processNotFound => "PROCESS_NOT_FOUND"
  | .processNotTty => "PROCESS_NOT_TTY"
  | .processNotRunning => "PROCESS_NOT_RUNNING"
  | .outputLimit => "OUTPUT_LIMIT"
  | .timeout => "TIMEOUT"
  | .workNotFound => "WORK_NOT_FOUND"
  | .workClosed => "WORK_CLOSED"
  | .intentNotFound => "INTENT_NOT_FOUND"
  | .intentAlreadyClaimed => "INTENT_ALREADY_CLAIMED"
  | .intentNotEditable => "INTENT_NOT_EDITABLE"
  | .intentRevisionConflict => "INTENT_REVISION_CONFLICT"
  | .queueNotEmpty => "QUEUE_NOT_EMPTY"
  | .approvalRequired => "APPROVAL_REQUIRED"
  | .approvalNotFound => "APPROVAL_NOT_FOUND"
  | .approvalConflict => "APPROVAL_CONFLICT"
  | .approvalAmbiguous => "APPROVAL_AMBIGUOUS"
  | .resourcePolicyUnsupported => "RESOURCE_POLICY_UNSUPPORTED"
  | .managedLaunchUnavailable => "MANAGED_LAUNCH_UNAVAILABLE"
  | .resourceUnavailable => "RESOURCE_UNAVAILABLE"
  | .resourceAuthorityUnavailable => "RESOURCE_AUTHORITY_UNAVAILABLE"
  | .admissionUnknown => "ADMISSION_UNKNOWN"
  | .recoveryPending => "RECOVERY_PENDING"
  | .runnerDisconnected => "RUNNER_DISCONNECTED"
  | .runnerReconnecting => "RUNNER_RECONNECTING"
  | .staleController => "STALE_CONTROLLER"
  | .internal => "INTERNAL"

def ErrorCode.codec : Codec ErrorCode :=
  .enum ErrorCode.all ErrorCode.name fun code => by cases code <;> rfl

def PatchStatus.name : PatchStatus → String
  | .applied => "applied"
  | .checked => "checked"
  | .rejected => "rejected"
  | .failedRolledBack => "failed_rolled_back"
  | .failedPartial => "failed_partial"
  | .unknown => "unknown"

def PatchStatus.codec : Codec PatchStatus :=
  .enum [.applied, .checked, .rejected, .failedRolledBack, .failedPartial, .unknown]
    PatchStatus.name fun status => by cases status <;> rfl

def FileChangeKind.name : FileChangeKind → String
  | .add => "add"
  | .update => "update"
  | .delete => "delete"
  | .move => "move"

def FileChangeKind.codec : Codec FileChangeKind :=
  .enum [.add, .update, .delete, .move] FileChangeKind.name fun kind => by cases kind <;> rfl

def ExecDispatchStatus.name : ExecDispatchStatus → String
  | .confirmed => "confirmed"
  | .unknown => "unknown"

def ExecDispatchStatus.codec : Codec ExecDispatchStatus :=
  .enum [.confirmed, .unknown] ExecDispatchStatus.name fun status => by cases status <;> rfl

def ApprovalState.asStr : ApprovalState → String
  | .pending => "pending"
  | .granted => "granted"
  | .queued => "queued"
  | .resuming => "resuming"
  | .denied => "denied"
  | .consumed => "consumed"

def ApprovalState.codec : Codec ApprovalState :=
  .enum [.pending, .granted, .queued, .resuming, .denied, .consumed] ApprovalState.asStr
    fun state => by cases state <;> rfl

def FileChange.codec : Codec FileChange where
  encode change := .obj (Codec.string.required "path" change.path ++
    Codec.string.optional "before_version" change.beforeVersion ++
    Codec.string.optional "after_version" change.afterVersion ++
    FileChangeKind.codec.required "kind" change.kind)
  decode json := do
    let path ← Codec.string.read "path" json
    let beforeVersion ← Codec.string.readOptional "before_version" json
    let afterVersion ← Codec.string.readOptional "after_version" json
    let kind ← FileChangeKind.codec.read "kind" json
    return ⟨path, beforeVersion, afterVersion, kind⟩
  decode_encode change := by simp [Codec.read, Codec.readOptional]
  encode_ne_null _ := nofun

def CoordinationHint.codec : Codec CoordinationHint where
  encode hint := .obj (Codec.string.required "work_id" hint.workId ++
    Codec.nat.required "pending_user_items" hint.pendingUserItems ++
    Codec.nat.required "queue_revision" hint.queueRevision)
  decode json := do
    let workId ← Codec.string.read "work_id" json
    let pendingUserItems ← Codec.nat.read "pending_user_items" json
    let queueRevision ← Codec.nat.read "queue_revision" json
    return ⟨workId, pendingUserItems, queueRevision⟩
  decode_encode hint := by simp [Codec.read]
  encode_ne_null _ := nofun

def ApplyPatchResult.codec : Codec ApplyPatchResult where
  encode result := .obj (PatchStatus.codec.required "status" result.status ++
    Codec.string.required "operation_id" result.operationId ++
    Codec.bool.required "replayed" result.replayed ++
    Codec.string.list.required "files" result.files ++
    FileChange.codec.list.required "changes" result.changes ++
    Codec.string.optional "work_id" result.workId ++
    CoordinationHint.codec.optional "coordination" result.coordination)
  decode json := do
    let status ← PatchStatus.codec.read "status" json
    let operationId ← Codec.string.read "operation_id" json
    let replayed ← Codec.bool.readOr "replayed" false json
    let files ← Codec.string.list.readOr "files" [] json
    let changes ← FileChange.codec.list.readOr "changes" [] json
    let workId ← Codec.string.readOptional "work_id" json
    let coordination ← CoordinationHint.codec.readOptional "coordination" json
    return ⟨status, operationId, replayed, files, changes, workId, coordination⟩
  decode_encode result := by simp [Codec.read, Codec.readOptional, Codec.readOr]
  encode_ne_null _ := nofun

def ExecCommandResult.codec : Codec ExecCommandResult where
  encode result := .obj (Codec.string.required "process_id" result.processId ++
    ExecDispatchStatus.codec.required "dispatch_status" result.dispatchStatus ++
    CoordinationHint.codec.optional "coordination" result.coordination)
  decode json := do
    let processId ← Codec.string.read "process_id" json
    let dispatchStatus ← ExecDispatchStatus.codec.read "dispatch_status" json
    let coordination ← CoordinationHint.codec.readOptional "coordination" json
    return ⟨processId, dispatchStatus, coordination⟩
  decode_encode result := by simp [Codec.read, Codec.readOptional]
  encode_ne_null _ := nofun

/-- The fields of an error, also where they stand beside a tag. -/
def ErrorBody.fields (body : ErrorBody) : List (String × Json) :=
  ErrorCode.codec.required "code" body.code ++ Codec.string.required "message" body.message ++
    Codec.string.optional "operation_id" body.operationId ++
    Codec.string.optional "approval_id" body.approvalId

def ErrorBody.read (json : Json) : Option ErrorBody := do
  let code ← ErrorCode.codec.read "code" json
  let message ← Codec.string.read "message" json
  let operationId ← Codec.string.readOptional "operation_id" json
  let approvalId ← Codec.string.readOptional "approval_id" json
  return ⟨code, message, operationId, approvalId⟩

def OperationResumeResult.fields (result : OperationResumeResult) : List (String × Json) :=
  Codec.string.required "approval_id" result.approvalId ++
    ApprovalState.codec.required "state" result.state ++
    ApplyPatchResult.codec.optional "apply_patch" result.applyPatch ++
    ExecCommandResult.codec.optional "exec_command" result.execCommand

def OperationResumeResult.read (json : Json) : Option OperationResumeResult := do
  let approvalId ← Codec.string.read "approval_id" json
  let state ← ApprovalState.codec.read "state" json
  let applyPatch ← ApplyPatchResult.codec.readOptional "apply_patch" json
  let execCommand ← ExecCommandResult.codec.readOptional "exec_command" json
  return ⟨approvalId, state, applyPatch, execCommand⟩

/-- `#[serde(tag = "outcome")]`: the tag stands beside the fields of the value it tags. -/
def PersistedResume.codec : Codec PersistedResume where
  encode
    | .success result => .obj (Codec.string.required "outcome" "success" ++ result.fields)
    | .failed error => .obj (Codec.string.required "outcome" "failed" ++ error.fields)
  decode json :=
    match Codec.string.read "outcome" json with
    | some "success" => (OperationResumeResult.read json).map .success
    | some "failed" => (ErrorBody.read json).map .failed
    | _ => none
  decode_encode outcome := by
    cases outcome with
    | success =>
        simp [Codec.read, Codec.readOptional, OperationResumeResult.fields, OperationResumeResult.read]
    | failed => simp [Codec.read, Codec.readOptional, ErrorBody.fields, ErrorBody.read]
  encode_ne_null outcome := by
    cases outcome with
    | success => nofun
    | failed => nofun

def ApplyPatchParams.codec : Codec ApplyPatchParams where
  encode params := .obj (Codec.string.required "workspace_id" params.workspaceId ++
    Codec.string.required "patch" params.patch ++
    Codec.string.map.required "expected_versions" params.expectedVersions ++
    Codec.string.nullable "operation_key" params.operationKey ++
    Codec.bool.required "check_only" params.checkOnly ++
    Codec.string.optional "work_id" params.workId)
  decode json := do
    let workspaceId ← Codec.string.read "workspace_id" json
    let patch ← Codec.string.read "patch" json
    let expectedVersions ← Codec.string.map.readOr "expected_versions" [] json
    let operationKey ← Codec.string.readOptional "operation_key" json
    let checkOnly ← Codec.bool.readOr "check_only" false json
    let workId ← Codec.string.readOptional "work_id" json
    return ⟨workspaceId, patch, expectedVersions, operationKey, checkOnly, workId⟩
  decode_encode params := by simp [Codec.read, Codec.readOptional, Codec.readOr]
  encode_ne_null _ := nofun

def ExecCommandParams.codec : Codec ExecCommandParams where
  encode params := .obj (Codec.string.required "workspace_id" params.workspaceId ++
    Codec.string.list.required "command" params.command ++
    Codec.string.optional "work_id" params.workId ++
    Codec.bool.optional "tty" (if params.tty then some true else none))
  decode json := do
    let workspaceId ← Codec.string.read "workspace_id" json
    let command ← Codec.string.list.read "command" json
    let workId ← Codec.string.readOptional "work_id" json
    let tty ← Codec.bool.readOr "tty" false json
    return ⟨workspaceId, command, workId, tty⟩
  decode_encode params := by
    obtain ⟨_, _, _, tty⟩ := params
    cases tty <;> simp [Codec.read, Codec.readOptional, Codec.readOr]
  encode_ne_null _ := nofun

def ToolParams.toJson : ToolParams → Json
  | .applyPatch params => ApplyPatchParams.codec.encode params
  | .execCommand params => ExecCommandParams.codec.encode params

/-- What `Store::fingerprint` and `Store::exec_fingerprint` take the hash of. -/
def ToolParams.canonical : ToolParams → Json
  | .applyPatch params => .obj (Codec.string.required "workspace_id" params.workspaceId ++
      Codec.string.required "patch" params.patch ++
      Codec.string.map.required "expected_versions" params.expectedVersions ++
      Codec.bool.required "check_only" params.checkOnly)
  | .execCommand params => .obj (Codec.string.required "workspace_id" params.workspaceId ++
      Codec.string.list.required "command" params.command ++
      Codec.bool.required "tty" params.tty)

end CodeSpace.Domain
