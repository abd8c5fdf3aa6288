import CodeSpace.Data.Assoc
import CodeSpace.Domain.Error

namespace CodeSpace.Store

open Data Domain

/-! `crates/store/src/resource.rs`: the in-memory resource serializer. A grant that had to wait
travels through a oneshot channel, so the channels created so far are part of the state: which
receivers are gone and what each sender delivered. -/

inductive Resource
  | environment (id : String)
  | workspace (id : String)
  | path (workspace path : String)
  | process (id : String)
  | operation (id : String)
  | watch (id : String)
deriving DecidableEq, Repr

inductive LockMode
  | exclusive
  | sharedRead
deriving DecidableEq, Repr

inductive ExclusiveHolder
  | request
  | spawning (processId : String)
  | process (processId : String)
deriving DecidableEq, Repr

def ExclusiveHolder.isProcess : ExclusiveHolder → Bool
  | .process _ => true
  | _ => false

/-- The process a lease is reserved or held for. -/
def ExclusiveHolder.processId? : ExclusiveHolder → Option String
  | .request => none
  | .spawning processId | .process processId => some processId

abbrev Channel := Nat

structure Waiter where
  id : UInt64
  mode : LockMode
  owner : ExclusiveHolder
  tx : Channel
deriving DecidableEq, Repr

abbrev Delivery := Channel × Except ErrorBody Unit

structure Oneshots where
  created : Channel := 0
  closed : List Channel := []
  delivered : List Delivery := []

/-- What the receiver of a channel finds when it looks for the first time. -/
def Oneshots.received (channels : Oneshots) (rx : Channel) : Option (Except ErrorBody Unit) :=
  channels.delivered.lookup rx

structure ResourceSerializer where
  exclusive : Assoc Resource ExclusiveHolder := ∅
  shared : Assoc Resource Nat := ∅
  waiters : Assoc Resource (List Waiter) := ∅
  nextWaiter : UInt64 := 0
  channels : Oneshots := {}

inductive AcquireOutcome
  | granted
  | busy (error : ErrorBody)
  | waiting (id : UInt64) (rx : Channel)
deriving DecidableEq

def maxWaitersPerResource : Nat := 64

def busy (resource : Resource) : ErrorBody :=
  { code := .workspaceBusy
    message := match resource with
      | .workspace _ => "workspace write lock is held"
      | .environment _ => "environment lock is held"
      | .path _ _ => "path lock is held"
      | .process _ => "process lock is held"
      | .operation _ => "operation lock is held"
      | .watch _ => "watch lock is held" }

def writeLockHeld : ErrorBody :=
  { code := .workspaceBusy, message := "workspace write lock is held" }

def shellBusy : ErrorBody :=
  { code := .workspaceBusy, message := "workspace has a busy shell" }

def queueFull : ErrorBody :=
  { code := .resourceQueueFull, message := "resource waiter queue exceeds 64" }

def processHeldBusy : Resource → ErrorBody
  | .workspace _ => shellBusy
  | resource => busy resource

namespace ResourceSerializer

def sharedCount (locks : ResourceSerializer) (resource : Resource) : Nat :=
  (locks.shared.lookup resource).getD 0

def queue (locks : ResourceSerializer) (resource : Resource) : List Waiter :=
  (locks.waiters.lookup resource).getD []

def waiterCount (locks : ResourceSerializer) (resource : Resource) : Nat :=
  (locks.queue resource).length

def hasWaiters (locks : ResourceSerializer) (resource : Resource) : Bool :=
  0 < locks.waiterCount resource

def hasExclusiveWaiter (locks : ResourceSerializer) (resource : Resource) : Bool :=
  (locks.queue resource).any fun waiter => waiter.mode = .exclusive

def processHeld (locks : ResourceSerializer) : Resource → Bool
  | .workspace id => ((locks.exclusive.lookup (.workspace id)).map ExclusiveHolder.isProcess).getD false
  | _ => false

def canGrant (locks : ResourceSerializer) (resource : Resource) : LockMode → Bool
  | .sharedRead => (locks.exclusive.lookup resource).isNone
  | .exclusive => (locks.exclusive.lookup resource).isNone && locks.sharedCount resource == 0

def canTryGrant (locks : ResourceSerializer) (resource : Resource) : LockMode → Bool
  | .sharedRead => locks.canGrant resource .sharedRead && !locks.hasExclusiveWaiter resource
  | .exclusive => locks.canGrant resource .exclusive && !locks.hasWaiters resource

def grant (locks : ResourceSerializer) (resource : Resource) (mode : LockMode)
    (owner : ExclusiveHolder) : ResourceSerializer :=
  match mode with
  | .sharedRead =>
      { locks with shared := locks.shared.insert resource (locks.sharedCount resource + 1) }
  | .exclusive => { locks with exclusive := locks.exclusive.insert resource owner }

def unlockSilent (locks : ResourceSerializer) (resource : Resource) (mode : LockMode) :
    ResourceSerializer :=
  match mode with
  | .sharedRead =>
      match locks.shared.lookup resource with
      | none => locks
      | some count =>
          if count - 1 = 0 then { locks with shared := locks.shared.erase resource }
          else { locks with shared := locks.shared.insert resource (count - 1) }
  | .exclusive => { locks with exclusive := locks.exclusive.erase resource }

/-- What is left of a queue goes back into the map unless it is empty. -/
def setQueue (locks : ResourceSerializer) (resource : Resource) (rest : List Waiter) :
    ResourceSerializer :=
  { locks with
    waiters := if rest = [] then locks.waiters.erase resource else locks.waiters.insert resource rest }

def deliver (locks : ResourceSerializer) (tx : Channel) (result : Except ErrorBody Unit) :
    ResourceSerializer :=
  { locks with
    channels := { locks.channels with delivered := locks.channels.delivered ++ [(tx, result)] } }

def receiverOpen (locks : ResourceSerializer) (tx : Channel) : Bool :=
  tx ∉ locks.channels.closed

/-- `tx.send(result)`: a value for a receiver that is gone is dropped. -/
def send (locks : ResourceSerializer) (tx : Channel) (result : Except ErrorBody Unit) :
    ResourceSerializer :=
  if locks.receiverOpen tx then locks.deliver tx result else locks

def grantFront (locks : ResourceSerializer) (resource : Resource) (front : Waiter)
    (rest : List Waiter) : ResourceSerializer :=
  (locks.setQueue resource rest).grant resource front.mode front.owner

/-- The loop of `wake`, on the queue as the map holds it. Every turn that goes on has taken its
front waiter out of the map, so the loop is a recursion over the queue. -/
def wakeFrom (resource : Resource) : List Waiter → ResourceSerializer → ResourceSerializer
  | [], locks => { locks with waiters := locks.waiters.erase resource }
  | front :: rest, locks =>
      if locks.canGrant resource front.mode then
        let granted := locks.grantFront resource front rest
        if granted.receiverOpen front.tx then
          match front.mode with
          | .exclusive => granted.deliver front.tx (.ok ())
          | .sharedRead => wakeFrom resource rest (granted.deliver front.tx (.ok ()))
        else wakeFrom resource rest (granted.unlockSilent resource front.mode)
      else locks

def wake (locks : ResourceSerializer) (resource : Resource) : ResourceSerializer :=
  wakeFrom resource (locks.queue resource) locks

def wakeAll (locks : ResourceSerializer) (resources : List Resource) : ResourceSerializer :=
  resources.foldl wake locks

def failWaiters (locks : ResourceSerializer) (resource : Resource) (error : ErrorBody) :
    ResourceSerializer :=
  (locks.queue resource).foldl (fun state waiter => state.send waiter.tx (.error error))
    { locks with waiters := locks.waiters.erase resource }

def enqueue (locks : ResourceSerializer) (resource : Resource) (mode : LockMode)
    (owner : ExclusiveHolder) : ResourceSerializer :=
  { locks with
    nextWaiter := locks.nextWaiter + 1
    channels := { locks.channels with created := locks.channels.created + 1 }
    waiters := locks.waiters.insert resource
      (locks.queue resource ++ [⟨locks.nextWaiter, mode, owner, locks.channels.created⟩]) }

def acquire (locks : ResourceSerializer) (resource : Resource) (mode : LockMode)
    (owner : ExclusiveHolder) : AcquireOutcome × ResourceSerializer :=
  if locks.processHeld resource then (.busy (processHeldBusy resource), locks)
  else
    let fairnessBlocks := mode = .sharedRead ∧ locks.hasExclusiveWaiter resource
    if locks.canGrant resource mode ∧ ¬ fairnessBlocks ∧
        (mode = .sharedRead ∨ ¬ locks.hasWaiters resource) then
      (.granted, locks.grant resource mode owner)
    else if maxWaitersPerResource ≤ locks.waiterCount resource then (.busy queueFull, locks)
    else
      (.waiting locks.nextWaiter locks.channels.created,
        (locks.enqueue resource mode owner).wake resource)

def acquireExclusiveWrite (locks : ResourceSerializer) (workspaceId : String) :
    AcquireOutcome × ResourceSerializer :=
  locks.acquire (.workspace workspaceId) .exclusive .request

def acquireShellBusy (locks : ResourceSerializer) (workspaceId processId : String) :
    AcquireOutcome × ResourceSerializer :=
  locks.acquire (.workspace workspaceId) .exclusive (.spawning processId)

def acquireLock (locks : ResourceSerializer) (resource : Resource) (mode : LockMode) :
    AcquireOutcome × ResourceSerializer :=
  locks.acquire resource mode .request

/-- `contains_key || shared_count > 0 || has_waiters`, the refusal of both direct workspace grants. -/
def occupied (locks : ResourceSerializer) (resource : Resource) : Bool :=
  (locks.exclusive.lookup resource).isSome || 0 < locks.sharedCount resource || locks.hasWaiters resource

def tryExclusiveWrite (locks : ResourceSerializer) (workspaceId : String) :
    Except ErrorBody Unit × ResourceSerializer :=
  let resource := .workspace workspaceId
  let woken := locks.wake resource
  if woken.processHeld resource then (.error shellBusy, woken)
  else if woken.occupied resource then (.error writeLockHeld, woken)
  else (.ok (), woken.grant resource .exclusive .request)

def markShellBusy (locks : ResourceSerializer) (workspaceId processId : String) :
    Except ErrorBody Unit × ResourceSerializer :=
  let resource := .workspace workspaceId
  let woken := locks.wake resource
  if woken.occupied resource then (.error writeLockHeld, woken)
  else (.ok (), woken.grant resource .exclusive (.process processId))

def tryLock (locks : ResourceSerializer) (resource : Resource) (mode : LockMode) :
    Except ErrorBody Unit × ResourceSerializer :=
  let woken := locks.wake resource
  if woken.canTryGrant resource mode then (.ok (), woken.grant resource mode .request)
  else (.error (busy resource), woken)

def releaseWrite (locks : ResourceSerializer) (workspaceId : String) : ResourceSerializer :=
  let resource := .workspace workspaceId
  if locks.exclusive.lookup resource = some .request then
    { locks with exclusive := locks.exclusive.erase resource }.wake resource
  else locks

def clearShell (locks : ResourceSerializer) (workspaceId : String) : ResourceSerializer :=
  let resource := .workspace workspaceId
  if locks.processHeld resource then
    { locks with exclusive := locks.exclusive.erase resource }.wake resource
  else locks

def confirmProcess (locks : ResourceSerializer) (processId : String) : ResourceSerializer :=
  let targets := locks.exclusive.keysWhere (· = .spawning processId)
  targets.foldl (fun state resource => state.failWaiters resource shellBusy)
    { locks with exclusive := locks.exclusive.setAll targets (.process processId) }

def holdProcess (locks : ResourceSerializer) (workspaceId processId : String) :
    Except ErrorBody Unit × ResourceSerializer :=
  let resource := .workspace workspaceId
  let held := (locks.grant resource .exclusive (.process processId)).failWaiters resource shellBusy
  match locks.exclusive.lookup resource with
  | some holder =>
      if holder = .process processId then (.ok (), locks)
      else if holder = .spawning processId then (.ok (), held)
      else (.error (busy resource), locks)
  | none => if 0 < locks.sharedCount resource then (.error (busy resource), locks) else (.ok (), held)

def releaseMatching (locks : ResourceSerializer) (wanted : ExclusiveHolder → Bool) :
    List Resource × ResourceSerializer :=
  let released := locks.exclusive.keysWhere wanted
  (released, { locks with exclusive := locks.exclusive.eraseAll released })

def releaseProcess (locks : ResourceSerializer) (processId : String) : ResourceSerializer :=
  let (released, rest) := locks.releaseMatching fun holder => holder.processId? = some processId
  rest.wakeAll released

def releaseAllProcesses (locks : ResourceSerializer) : ResourceSerializer :=
  let (released, rest) := locks.releaseMatching fun holder => holder.processId?.isSome
  rest.wakeAll released

def unlock (locks : ResourceSerializer) (resource : Resource) (mode : LockMode) :
    ResourceSerializer :=
  (locks.unlockSilent resource mode).wake resource

def cancelWaiter (locks : ResourceSerializer) (resource : Resource) (id : UInt64) :
    Bool × ResourceSerializer :=
  match locks.waiters.lookup resource with
  | none => (false, locks)
  | some waiting =>
      let kept := waiting.filter fun waiter => waiter.id ≠ id
      let rest := locks.setQueue resource kept
      if kept.length ≠ waiting.length then (true, rest.wake resource) else (false, rest)

def dropReceiver (locks : ResourceSerializer) (rx : Channel) : ResourceSerializer :=
  { locks with channels := { locks.channels with closed := rx :: locks.channels.closed } }

end ResourceSerializer

end CodeSpace.Store
