import CodeSpace.Data.Table
import CodeSpace.Domain.Serde

namespace CodeSpace.Store

open Data Domain

/-! The operations ledger of `crates/store/src/lib.rs`: one row for each patch that was begun, found by
its id, by the key its request named, or by the request's fingerprint. Identifiers and the time are
the caller's. -/

inductive OperationEventName
  | minted
  | finished
deriving DecidableEq, Repr

structure OperationEvent where
  at_ : Nat
  name : OperationEventName
  status : Option PatchStatus := none
  reason : Option String := none
deriving DecidableEq, Repr

namespace OperationEvent

def minted (now : Nat) : OperationEvent where
  at_ := now
  name := .minted

def finished (now : Nat) (status : PatchStatus) : OperationEvent where
  at_ := now
  name := .finished
  status := some status
  reason := if status = .unknown then some "unknown" else none

end OperationEvent

structure OperationRow where
  operationId : String
  operationKey : Option String
  workspaceId : String
  fingerprint : String
  resultJson : Json
  createdAt : Nat
  finishedAt : Option Nat := none
  events : List OperationEvent

structure StoredOperation where
  operationId : String
  status : PatchStatus
  replayed : Bool
  result : ApplyPatchResult
  workspaceId : String
  createdAt : Nat
  finishedAt : Option Nat
  events : List OperationEvent

structure OperationStatusResult where
  operationId : String
  status : PatchStatus
  replayed : Bool
  workspaceId : String
  createdAt : Nat
  finishedAt : Option Nat
  files : List String
  changes : List FileChange
  events : List OperationEvent

inductive Begin
  | fresh (operationId : String)
  | replayed (stored : StoredOperation)

/-- `ApplyPatchResult::new(PatchStatus::Unknown, …)`: what is known of an operation without a
result. -/
def unknownResult (operationId : String) : ApplyPatchResult where
  status := .unknown
  operationId := operationId

/-- A result that cannot be read counts as unknown. -/
def OperationRow.result (row : OperationRow) : ApplyPatchResult :=
  (ApplyPatchResult.codec.decode row.resultJson).getD (unknownResult row.operationId)

def OperationRow.intoStored (row : OperationRow) (replayed : Bool) : StoredOperation where
  operationId := row.operationId
  status := row.result.status
  replayed := replayed
  result := { row.result with replayed := replayed }
  workspaceId := row.workspaceId
  createdAt := row.createdAt
  finishedAt := row.finishedAt
  events := row.events

def StoredOperation.toStatus (stored : StoredOperation) : OperationStatusResult where
  operationId := stored.operationId
  status := stored.status
  replayed := false
  workspaceId := stored.workspaceId
  createdAt := stored.createdAt
  finishedAt := stored.finishedAt
  files := stored.result.files
  changes := stored.result.changes
  events := stored.events

abbrev Operations := Table OperationRow.operationId

namespace Operations

def operationNotFound (message : String) : ErrorBody where
  code := .operationNotFound
  message := message

def keyConflict : ErrorBody where
  code := .operationKeyConflict
  message := "operation_key reused with a different request"

def loadByKey (operations : Operations) (key : String) : Option OperationRow :=
  operations.rows.find? fun row => row.operationKey = some key

def begun (operationId : String) (operationKey : Option String) (workspaceId fingerprint : String)
    (now : Nat) : OperationRow where
  operationId := operationId
  operationKey := operationKey
  workspaceId := workspaceId
  fingerprint := fingerprint
  resultJson := ApplyPatchResult.codec.encode (unknownResult operationId)
  createdAt := now
  events := [.minted now]

/-- Nothing else holds the key after the first load, so that only the primary key can refuse the
row. -/
def begin (operations : Operations) (newId : String) (operationKey : Option String)
    (workspaceId fingerprint : String) (now : Nat) : Except ErrorBody Begin × Operations :=
  match operationKey.bind operations.loadByKey with
  | some row =>
      if row.fingerprint ≠ fingerprint then (.error keyConflict, operations)
      else (.ok (.replayed (row.intoStored true)), operations)
  | none =>
      match operations.insert? (begun newId operationKey workspaceId fingerprint now) with
      | some inserted => (.ok (.fresh newId), inserted)
      | none =>
          (.error (operationNotFound "UNIQUE constraint failed: operations.operation_id"), operations)

/-- The rows of the `DELETE` of `abandon`. -/
def unfinished (operationId : String) (row : OperationRow) : Bool :=
  row.operationId = operationId && row.finishedAt.isNone

def abandon (operations : Operations) (operationId : String) : Bool × Operations :=
  (operations.count (unfinished operationId) = 1, operations.deleteWhere (unfinished operationId))

def finishedEvents (row : OperationRow) (status : PatchStatus) (now : Nat) : List OperationEvent :=
  let events :=
    if row.events.any fun event => event.name = .minted then row.events
    else .minted row.createdAt :: row.events
  events ++ [.finished now status]

def finished (result : ApplyPatchResult) (now : Nat) (row : OperationRow) : OperationRow :=
  { row with
    resultJson := ApplyPatchResult.codec.encode result
    finishedAt := some now
    events := finishedEvents row result.status now }

def finish (operations : Operations) (operationId : String) (result : ApplyPatchResult)
    (now : Nat) : Except ErrorBody Unit × Operations :=
  match operations.find? operationId with
  | none => (.error (operationNotFound "unknown operation_id"), operations)
  | some _ =>
      (.ok (), operations.updateWhere (fun row => row.operationId = operationId)
        (finished result now) fun _ => rfl)

def get (operations : Operations) (operationId : String) : Except ErrorBody StoredOperation :=
  match operations.find? operationId with
  | some row => .ok (row.intoStored false)
  | none => .error (operationNotFound "unknown operation_id")

def statusLookup (operations : Operations) :
    Option String → Option String → Except ErrorBody OperationStatusResult
  | some operationId, none => (operations.get operationId).map StoredOperation.toStatus
  | none, some operationKey =>
      match operations.loadByKey operationKey with
      | some row => .ok (row.intoStored false).toStatus
      | none => .error (operationNotFound "unknown operation_key")
  | _, _ => .error (operationNotFound "provide exactly one of operation_id or operation_key")

/-- The rows of a request's fingerprint that began at `createdNotBefore` or later. -/
def matching (workspaceId fingerprint : String) (createdNotBefore : Option Nat)
    (row : OperationRow) : Bool :=
  row.workspaceId = workspaceId && row.fingerprint = fingerprint &&
    createdNotBefore.all (· ≤ row.createdAt)

def newer (best : Option OperationRow) (row : OperationRow) : Option OperationRow :=
  if best.all (·.createdAt < row.createdAt) then some row else best

/-- The last one that began, and of several that began in the same second the first. -/
def findOperationByFingerprint (operations : Operations) (workspaceId fingerprint : String)
    (createdNotBefore : Option Nat) : Option StoredOperation :=
  ((operations.rows.filter (matching workspaceId fingerprint createdNotBefore)).foldl newer
    none).map (·.intoStored false)

end Operations

end CodeSpace.Store
