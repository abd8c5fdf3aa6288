namespace CodeSpace.Domain

/-! `crates/domain/src/error.rs`: the codes and bodies tool results carry. -/

inductive ErrorCode
  | unauthorized | workspaceNotFound | workspaceBusy | resourceQueueFull | invalidPatch
  | invalidCommand | processSpawnFailed | pathEscape | fileNotFound | pathNotDirectory
  | fileOperationFailed | symlinkRejected | specialFileRejected | addFileExists
  | moveDestinationExists | versionConflict | operationKeyConflict | operationNotFound
  | processNotFound | processNotTty | processNotRunning | outputLimit | timeout | workNotFound
  | workClosed | intentNotFound | intentAlreadyClaimed | intentNotEditable
  | intentRevisionConflict | queueNotEmpty | approvalRequired | approvalNotFound
  | approvalConflict | approvalAmbiguous | resourcePolicyUnsupported | managedLaunchUnavailable
  | resourceUnavailable | resourceAuthorityUnavailable | admissionUnknown | recoveryPending
  | runnerDisconnected | runnerReconnecting | staleController | internal
deriving DecidableEq, Repr

structure ErrorBody where
  code : ErrorCode
  message : String
  operationId : Option String := none
  approvalId : Option String := none
deriving DecidableEq, Repr

def ErrorBody.withOperationId (body : ErrorBody) (id : String) : ErrorBody :=
  { body with operationId := some id }

end CodeSpace.Domain
