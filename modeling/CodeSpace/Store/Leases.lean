import CodeSpace.Store.Resource
import CodeSpace.Transition.Run

namespace CodeSpace.Store

open Domain Transition

/-! `crates/store/src/lib.rs`: the clients of the serializer. A client is one call of
`acquire_write`, `acquire_shell_busy`, `lock`, `try_acquire_write` or `try_lock`, from the call to
the end of whatever it was given: its ticket while the future is pending, then its guard, and for
an execution the hold that stays with the process. Each critical section of the store's lock mutex
is one step. -/

/-- `Confirmed` and `Aborted` end the reservation, so only the phases of a live one are kept. -/
inductive ReservationPhase
  | preDispatch
  | dispatching
deriving DecidableEq, Repr

inductive Acquisition
  | write (workspaceId : String)
  | shellBusy (workspaceId processId : String)
  | lock (resource : Resource) (mode : LockMode)
deriving DecidableEq, Repr

namespace Acquisition

def resource : Acquisition → Resource
  | .write workspaceId | .shellBusy workspaceId _ => .workspace workspaceId
  | .lock resource _ => resource

def mode : Acquisition → LockMode
  | .write _ | .shellBusy _ _ => .exclusive
  | .lock _ mode => mode

def owner : Acquisition → ExclusiveHolder
  | .write _ | .lock _ _ => .request
  | .shellBusy _ processId => .spawning processId

end Acquisition

inductive Stage
  | waiting (id : UInt64) (rx : Channel)
  | guarded
  | reserved (phase : ReservationPhase)
  /-- A reservation confirmed, or dropped after `arm_dispatch`: the process keeps the workspace. -/
  | launched
  /-- Refused, cancelled, or given up. -/
  | ended
deriving DecidableEq, Repr

/-- `revoked` records that `release_process` or `release_all_processes` took the grant away. -/
structure Client where
  wanted : Acquisition
  stage : Stage
  revoked : Bool := false
deriving DecidableEq, Repr

def Acquisition.guardStage : Acquisition → Stage
  | .shellBusy _ _ => .reserved .preDispatch
  | .write _ | .lock _ _ => .guarded

namespace Client

def granted (locks : ResourceSerializer) (client : Client) : Bool :=
  match client.stage with
  | .waiting _ rx => locks.channels.received rx = some (.ok ())
  | .guarded | .reserved _ | .launched => true
  | .ended => false

/-- The client was granted its resource and has neither given it up nor had it revoked. -/
def holds (locks : ResourceSerializer) (client : Client) : Bool :=
  client.granted locks && !client.revoked

def holdsOn (locks : ResourceSerializer) (resource : Resource) (mode : LockMode)
    (client : Client) : Bool :=
  client.holds locks && client.wanted.resource = resource && client.wanted.mode = mode

def revokeFor (locks : ResourceSerializer) (taken : ExclusiveHolder → Bool) (client : Client) :
    Client :=
  if client.holds locks && taken client.wanted.owner then { client with revoked := true } else client

end Client

structure LeaseWorld where
  locks : ResourceSerializer := {}
  clients : List Client := []

inductive LeaseEvent
  | acquire (wanted : Acquisition)
  | tryAcquire (wanted : Acquisition)
  | poll (client : Nat)
  | dropFuture (client : Nat)
  | dropGuard (client : Nat)
  | armDispatch (client : Nat)
  | confirm (client : Nat)
  | abort (client : Nat)
  | releaseProcess (processId : String)
  | releaseAllProcesses
deriving DecidableEq

/-- `Drop for WaitTicket` of an unfinished ticket; its receiver goes with it. -/
def dropTicket (locks : ResourceSerializer) (resource : Resource) (mode : LockMode) (id : UInt64)
    (rx : Channel) : ResourceSerializer :=
  match locks.cancelWaiter resource id with
  | (true, rest) => rest.dropReceiver rx
  | (false, rest) =>
      if rest.channels.received rx = some (.ok ()) then (rest.unlock resource mode).dropReceiver rx
      else rest.dropReceiver rx

/-- Whether a sender for this channel is still queued somewhere. -/
def ResourceSerializer.senderQueued (locks : ResourceSerializer) (rx : Channel) : Bool :=
  locks.waiters.entries.any fun entry => entry.2.any fun waiter => waiter.tx = rx

namespace LeaseWorld

def setClient (world : LeaseWorld) (index : Nat) (client : Client) : LeaseWorld :=
  { world with clients := world.clients.set index client }

def revoke (world : LeaseWorld) (taken : ExclusiveHolder → Bool) : List Client :=
  world.clients.map (Client.revokeFor world.locks taken)

/-- `acquire_write`, `acquire_shell_busy` and `lock` up to their first await. -/
def acquire (world : LeaseWorld) (wanted : Acquisition) : LeaseWorld :=
  let (outcome, locks) := match wanted with
    | .write workspaceId => world.locks.acquireExclusiveWrite workspaceId
    | .shellBusy workspaceId processId => world.locks.acquireShellBusy workspaceId processId
    | .lock resource mode => world.locks.acquireLock resource mode
  let stage := match outcome with
    | .granted => wanted.guardStage
    | .busy _ => .ended
    | .waiting id rx => .waiting id rx
  { locks := locks, clients := world.clients ++ [{ wanted := wanted, stage := stage }] }

/-- `try_acquire_write` and `try_lock`; a reservation cannot be tried for. -/
def tryAcquire (world : LeaseWorld) (wanted : Acquisition) : Option LeaseWorld :=
  match wanted with
  | .write workspaceId => some (settle (world.locks.tryExclusiveWrite workspaceId))
  | .lock resource mode => some (settle (world.locks.tryLock resource mode))
  | .shellBusy _ _ => none
where
  settle : Except ErrorBody Unit × ResourceSerializer → LeaseWorld
    | (result, locks) =>
        let stage := match result with
          | .ok () => wanted.guardStage
          | .error _ => .ended
        { locks := locks, clients := world.clients ++ [{ wanted := wanted, stage := stage }] }

/-- Process ids are minted by the gateway for one execution each. -/
def unminted (world : LeaseWorld) (wanted : Acquisition) : Bool :=
  wanted.owner.processId?.isNone || world.clients.all fun client => client.wanted.owner ≠ wanted.owner

/-- `WaitTicket::wait` when its task is polled: it goes on once the channel has a value, or once
its sender is gone. -/
def poll (world : LeaseWorld) (index : Nat) (client : Client) : Option LeaseWorld :=
  match client.stage with
  | .waiting _ rx =>
      match world.locks.channels.received rx with
      | some (.ok ()) => some (finish rx client.wanted.guardStage)
      | some (.error _) => some (finish rx .ended)
      | none => if world.locks.senderQueued rx then none else some (finish rx .ended)
  | _ => none
where
  finish (rx : Channel) (stage : Stage) : LeaseWorld :=
    { locks := world.locks.dropReceiver rx
      clients := world.clients.set index { client with stage := stage } }

def dropFuture (world : LeaseWorld) (index : Nat) (client : Client) : Option LeaseWorld :=
  match client.stage with
  | .waiting id rx =>
      some { locks := dropTicket world.locks client.wanted.resource client.wanted.mode id rx
             clients := world.clients.set index { client with stage := .ended } }
  | _ => none

/-- `Drop` of a `WriteGuard`, a `ResourceGuard` or a `ProcessReservation`. -/
def dropGuard (world : LeaseWorld) (index : Nat) (client : Client) : Option LeaseWorld :=
  let ended := world.clients.set index { client with stage := .ended }
  match client.stage, client.wanted with
  | .guarded, .write workspaceId =>
      some { locks := world.locks.releaseWrite workspaceId, clients := ended }
  | .guarded, .lock resource mode =>
      some { locks := world.locks.unlock resource mode, clients := ended }
  | .reserved .preDispatch, .shellBusy _ processId =>
      some { locks := world.locks.releaseProcess processId, clients := ended }
  | .reserved .dispatching, .shellBusy _ _ =>
      some (world.setClient index { client with stage := .launched })
  | _, _ => none

def armDispatch (world : LeaseWorld) (index : Nat) (client : Client) : Option LeaseWorld :=
  match client.stage with
  | .reserved _ => some (world.setClient index { client with stage := .reserved .dispatching })
  | _ => none

def confirm (world : LeaseWorld) (index : Nat) (client : Client) : Option LeaseWorld :=
  match client.stage, client.wanted with
  | .reserved _, .shellBusy _ processId =>
      some { locks := world.locks.confirmProcess processId
             clients := world.clients.set index { client with stage := .launched } }
  | _, _ => none

def abort (world : LeaseWorld) (index : Nat) (client : Client) : Option LeaseWorld :=
  match client.stage, client.wanted with
  | .reserved _, .shellBusy _ processId =>
      some { locks := world.locks.releaseProcess processId
             clients := world.clients.set index { client with stage := .ended } }
  | _, _ => none

def step (world : LeaseWorld) : LeaseEvent → Option LeaseWorld
  | .acquire wanted => if world.unminted wanted then some (world.acquire wanted) else none
  | .tryAcquire wanted => world.tryAcquire wanted
  | .poll index => world.clients[index]?.bind (world.poll index)
  | .dropFuture index => world.clients[index]?.bind (world.dropFuture index)
  | .dropGuard index => world.clients[index]?.bind (world.dropGuard index)
  | .armDispatch index => world.clients[index]?.bind (world.armDispatch index)
  | .confirm index => world.clients[index]?.bind (world.confirm index)
  | .abort index => world.clients[index]?.bind (world.abort index)
  | .releaseProcess processId =>
      some { locks := world.locks.releaseProcess processId
             clients := world.revoke fun holder => holder.processId? = some processId }
  | .releaseAllProcesses =>
      some { locks := world.locks.releaseAllProcesses
             clients := world.revoke fun holder => holder.processId?.isSome }

end LeaseWorld

def leaseSystem : System LeaseWorld LeaseEvent where
  initial world := world = {}
  step before event after := before.step event = some after

end CodeSpace.Store
