import Mathlib.Data.Finset.Basic
import CodeSpace.Domain.Error

namespace CodeSpace.Runner

open Domain

/-! `crates/runner/src/wire.rs`: the requests an independent Runner reads, and the control state its
connections share. A request carries what the Runner's own bookkeeping reads of it. -/

inductive RunnerOp
  | read (workspaceId : String)
  | find (workspaceId : String)
  | version (workspaceId : String)
  | applyPatch (workspaceId : String)
  | exec (workspaceId processId : String)
  | writeStdin (processId : String)
  | readProcess (processId : String)
  | processStatus (processId : String)
  | resize (processId : String)
  | terminate (processId : String)
  | workspaceOf (processId : String)
  | terminateWorkspace (workspaceId : String)
  | replay (requestId : String)
  | hello
  | claim (storeId : String)
  | detach
  | stop
  | recall (processIds : List String)
  | reconciled (workspaceIds : List String)
  | acknowledge (processIds : List String)
  | registration
  | prepare (workspaceId processId : String)
  | launch (workspaceId processId : String)
  | lookup
deriving DecidableEq, Repr

/-- The workspace of a request that starts work there. -/
def startsWork : RunnerOp → Option String
  | .exec workspaceId _ | .applyPatch workspaceId => some workspaceId
  | .prepare workspaceId _ | .launch workspaceId _ => some workspaceId
  | _ => none

/-- The process that a request asks the Runner to start. -/
def startedProcess : RunnerOp → Option String
  | .exec _ processId => some processId
  | .prepare _ processId | .launch _ processId => some processId
  | _ => none

/-- A request that changes a process or the workspace, or stops the Runner. -/
def fenced : RunnerOp → Bool
  | .exec _ _ | .applyPatch _ | .writeStdin _ | .resize _ | .terminate _ | .terminateWorkspace _
  | .stop | .reconciled _ | .acknowledge _ => true
  | .prepare _ _ | .launch _ _ => true
  | _ => false

/-- A request that runs beside the connection's other requests. -/
def answeredBeside : RunnerOp → Bool
  | .registration | .prepare _ _ | .launch _ _ | .lookup => true
  | _ => false

inductive Frame
  | unusable
  | request (epoch : Option Nat) (op : Option RunnerOp)
deriving DecidableEq, Repr

inductive ClaimRefusal
  | peerUid
  | storeMismatch
  | controllerActive
  | requestsRunning
  | stopping
deriving DecidableEq, Repr

structure RunnerClaim where
  epoch : Nat
  previousController : Bool
  barrier : Finset String
deriving DecidableEq

def staleController (message : String) : ErrorBody :=
  { code := .staleController, message := message }

def recoveryPending (workspaceId : String) : ErrorBody :=
  { code := .recoveryPending
    message := "an earlier gateway started work in workspace `" ++ workspaceId ++
      "` on this independent Runner, and this gateway has not reconciled it yet: its processes " ++
      "can be queried, read, written to, resized and terminated, but nothing new is started there" }

structure Controller where
  connection : Nat
  epoch : Nat
  barrier : Finset String
deriving DecidableEq

structure Control where
  epoch : Nat := 0
  controller : Option Controller := none
  claiming : Option Nat := none
  storeId : Option String := none
  startedIn : Finset String := ∅
deriving DecidableEq

inductive ClaimAnswer
  | claimed (claim : RunnerClaim)
  | refused (refusal : ClaimRefusal) (message : String)
  | waits
deriving DecidableEq

/-- The checks of `take_control` before it looks at the control state. -/
def checkClaim (stopping : Bool) (ownerUid : Nat) (uid : Except String Nat) (storeId : String) :
    Except (ClaimRefusal × String) Unit :=
  if stopping then .error (.stopping, "the Runner is stopping")
  else
    match uid with
    | .error error =>
        .error (.peerUid, "the connection's peer credentials could not be read: " ++ error)
    | .ok uid =>
        if uid ≠ ownerUid then
          .error (.peerUid, "the connection's peer runs as uid " ++ toString uid ++
            ", and this Runner as uid " ++ toString ownerUid)
        else if storeId.isEmpty then
          .error (.storeMismatch, "a Claim names the operations database of its gateway")
        else .ok ()

namespace Control

/-- The first locked part of `take_control`. `ended` are the connections' flags. -/
def beginClaim (control : Control) (ended : Nat → Bool) (connection : Nat) (storeId : String) :
    Except (ClaimRefusal × String) Control :=
  match control.storeId.filter (· ≠ storeId) with
  | some known =>
      .error (.storeMismatch, "this Runner was claimed for the operations database " ++ known ++
        ", not " ++ storeId)
  | none =>
      let active := control.controller.bind fun controller =>
        if controller.connection = connection then
          some ("this connection already controls the Runner, under epoch " ++ toString controller.epoch)
        else if !ended controller.connection then
          some "another connection controls this Runner and is still open"
        else none
      match active with
      | some message => .error (.controllerActive, message)
      | none =>
          if control.claiming.isSome then
            .error (.controllerActive, "another connection is claiming this Runner")
          else .ok { control with claiming := some connection }

def pollClaim (control : Control) (stopping ended expired : Bool) (claimWait : String)
    (connection : Nat) (storeId : String) : ClaimAnswer × Control :=
  match control.controller with
  | none =>
      let epoch := control.epoch + 1
      let barrier := control.startedIn
      (.claimed ⟨epoch, barrier ≠ ∅, barrier⟩,
        { control with
          claiming := none
          epoch := epoch
          controller := some ⟨connection, epoch, barrier⟩
          storeId := control.storeId.or (some storeId) })
  | some _ =>
      let released := { control with claiming := none }
      if stopping then (.refused .stopping "the Runner is stopping", released)
      else if ended then
        (.refused .requestsRunning "the connection ended while its Claim waited", released)
      else if expired then
        (.refused .requestsRunning ("the requests of the connection that controlled this Runner " ++
          "did not end within " ++ claimWait), released)
      else (.waits, control)

def admitRequest (control : Control) (connection : Nat) (epoch : Option Nat) (op : RunnerOp) :
    Except ErrorBody Control :=
  match control.controller.filter (·.connection = connection) with
  | none =>
      .error (staleController ("this connection does not control the independent Runner: another " ++
        "connection claimed it, or this one never did; nothing was started or changed"))
  | some current =>
      if fenced op ∧ epoch ≠ some current.epoch then
        .error (staleController ("the request was sent under controller epoch " ++
          (epoch.map toString).getD "none" ++ ", and the Runner is controlled under epoch " ++
          toString current.epoch ++ ": nothing was started or changed"))
      else
        match startsWork op with
        | none => .ok control
        | some workspaceId =>
            if workspaceId ∈ current.barrier then .error (recoveryPending workspaceId)
            else .ok { control with startedIn := insert workspaceId control.startedIn }

def reconciled (control : Control) (connection : Nat) (workspaceIds : List String) : Control :=
  { control with
    controller := control.controller.map fun controller =>
      if controller.connection = connection then
        { controller with barrier := controller.barrier.filter (· ∉ workspaceIds) }
      else controller }

/-- Whether the connection controlled the Runner, and the control state without it. -/
def release (control : Control) (connection : Nat) : Bool × Control :=
  if control.controller.any (·.connection = connection) then
    (true, { control with controller := none })
  else (false, control)

end Control

end CodeSpace.Runner
