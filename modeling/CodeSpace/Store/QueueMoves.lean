import CodeSpace.Store.ResourceConsistency

namespace CodeSpace.Store

open Domain Transition

/-! What any call does to the queues of waiters, as a sequence of a few moves. -/

structure Request where
  resource : Resource
  mode : LockMode
  owner : ExclusiveHolder
deriving DecidableEq

def AcquireOutcome.ofTry : Except ErrorBody Unit → AcquireOutcome
  | .ok () => .granted
  | .error error => .busy error

namespace SerializerCall

def request : SerializerCall → Option Request
  | .tryExclusiveWrite workspaceId | .acquireExclusiveWrite workspaceId =>
      some ⟨.workspace workspaceId, .exclusive, .request⟩
  | .acquireShellBusy workspaceId processId =>
      some ⟨.workspace workspaceId, .exclusive, .spawning processId⟩
  | .markShellBusy workspaceId processId => some ⟨.workspace workspaceId, .exclusive, .process processId⟩
  | .acquireLock resource mode | .tryLock resource mode => some ⟨resource, mode, .request⟩
  | _ => none

def answer (locks : ResourceSerializer) : SerializerCall → Option AcquireOutcome
  | .tryExclusiveWrite workspaceId => some (.ofTry (locks.tryExclusiveWrite workspaceId).1)
  | .acquireExclusiveWrite workspaceId => some (locks.acquireExclusiveWrite workspaceId).1
  | .acquireShellBusy workspaceId processId => some (locks.acquireShellBusy workspaceId processId).1
  | .markShellBusy workspaceId processId => some (.ofTry (locks.markShellBusy workspaceId processId).1)
  | .acquireLock resource mode => some (locks.acquireLock resource mode).1
  | .tryLock resource mode => some (.ofTry (locks.tryLock resource mode).1)
  | _ => none

/-- The waiter a call leaves behind, with what it waits for. -/
def arrival (locks : ResourceSerializer) (call : SerializerCall) : Option (Resource × Waiter) :=
  match call.request, call.answer locks with
  | some request, some (.waiting id rx) =>
      some (request.resource, ⟨id, request.mode, request.owner, rx⟩)
  | _, _ => none

end SerializerCall

/-- The waiters that came while the calls were made, first come first. -/
def arrivals (locks : ResourceSerializer) : List SerializerCall → List (Resource × Waiter)
  | [] => []
  | call :: calls => (call.arrival locks).toList ++ arrivals (call.apply locks) calls

/-- The ones that came for this resource. -/
def onResource (resource : Resource) (arrived : List (Resource × Waiter)) : List Waiter :=
  (arrived.filter fun entry => entry.1 = resource).map Prod.snd

namespace ResourceSerializer

variable {locks before after : ResourceSerializer} {resource other : Resource} {mode : LockMode}
  {owner : ExclusiveHolder} {call : SerializerCall}

/-! The moves. -/

inductive QueueEvent
  | kept
  | granted (resource : Resource)
  | discarded (resource : Resource)
  | failed (resource : Resource)
  | withdrawn (resource : Resource) (id : UInt64)
  | enqueued (resource : Resource) (waiter : Waiter)
deriving DecidableEq

def QueueEvent.arrival : QueueEvent → Option (Resource × Waiter)
  | .enqueued resource waiter => some (resource, waiter)
  | _ => none

/-- The queues of the other resources, the channels that exist and the receivers that are gone. -/
structure Elsewhere (before after : ResourceSerializer) (resource : Resource) : Prop where
  queue : ∀ {other}, other ≠ resource → after.queue other = before.queue other
  closed : after.channels.closed = before.channels.closed

inductive QueueMove (before : ResourceSerializer) : QueueEvent → ResourceSerializer → Prop
  | kept {after : ResourceSerializer} (queue : ∀ resource, after.queue resource = before.queue resource)
      (created : after.channels.created = before.channels.created)
      (delivered : after.channels.delivered = before.channels.delivered)
      (closed : ∀ rx ∈ before.channels.closed, rx ∈ after.channels.closed) : QueueMove before .kept after
  | granted {after : ResourceSerializer} {resource : Resource} {front : Waiter} {rest : List Waiter}
      (stored : before.queue resource = front :: rest) (here : after.queue resource = rest)
      (elsewhere : Elsewhere before after resource)
      (created : after.channels.created = before.channels.created)
      (delivered : after.channels.delivered = before.channels.delivered ++ [(front.tx, .ok ())]) :
      QueueMove before (.granted resource) after
  | discarded {after : ResourceSerializer} {resource : Resource} {front : Waiter} {rest : List Waiter}
      (stored : before.queue resource = front :: rest) (gone : front.tx ∈ before.channels.closed)
      (here : after.queue resource = rest) (elsewhere : Elsewhere before after resource)
      (created : after.channels.created = before.channels.created)
      (delivered : after.channels.delivered = before.channels.delivered) :
      QueueMove before (.discarded resource) after
  | failed {after : ResourceSerializer} {resource : Resource} (here : after.queue resource = [])
      (elsewhere : Elsewhere before after resource)
      (created : after.channels.created = before.channels.created)
      (delivered : after.channels.delivered = before.channels.delivered ++
        ((before.queue resource).filter fun waiter => before.receiverOpen waiter.tx).map
          fun waiter => (waiter.tx, .error shellBusy)) :
      QueueMove before (.failed resource) after
  | withdrawn {after : ResourceSerializer} {resource : Resource} {id : UInt64}
      (here : after.queue resource = (before.queue resource).filter fun waiter => waiter.id ≠ id)
      (elsewhere : Elsewhere before after resource)
      (created : after.channels.created = before.channels.created)
      (delivered : after.channels.delivered = before.channels.delivered) :
      QueueMove before (.withdrawn resource id) after
  | enqueued {after : ResourceSerializer} {resource : Resource} {waiter : Waiter}
      (here : after.queue resource = before.queue resource ++ [waiter])
      (elsewhere : Elsewhere before after resource) (channel : waiter.tx = before.channels.created)
      (created : after.channels.created = before.channels.created + 1)
      (delivered : after.channels.delivered = before.channels.delivered) :
      QueueMove before (.enqueued resource waiter) after

def queueMoves : System ResourceSerializer QueueEvent where
  initial locks := locks = {}
  step := QueueMove

/-- Every change of the queues by a call that no waiter arrived with. -/
def Settles (before after : ResourceSerializer) : Prop :=
  ∃ events, queueMoves.Run before events after ∧ events.filterMap QueueEvent.arrival = [] ∧
    ∀ resource id, .withdrawn resource id ∉ events

theorem Settles.refl : Settles locks locks := ⟨[], .refl locks, rfl, by simp⟩

theorem Settles.trans {middle : ResourceSerializer} (first : Settles before middle)
    (second : Settles middle after) : Settles before after := by
  obtain ⟨events, run, nobody, never⟩ := first
  obtain ⟨others, further, nobodyElse, neverElse⟩ := second
  refine ⟨events ++ others, run.append further, by simp [nobody, nobodyElse], fun resource id member => ?_⟩
  rcases List.mem_append.mp member with inFirst | inSecond
  · exact never resource id inFirst
  · exact neverElse resource id inSecond

theorem Settles.of_move {event : QueueEvent} (move : QueueMove before event after)
    (nobody : event.arrival = none) (never : ∀ resource id, event ≠ .withdrawn resource id) :
    Settles before after := by
  refine ⟨[event], .cons move (.refl _), by simp [nobody], fun resource id member => ?_⟩
  exact never resource id (List.mem_singleton.mp member).symm

theorem Settles.of_same (waiters : after.waiters = before.waiters)
    (channels : after.channels = before.channels) : Settles before after :=
  .of_move (.kept (queue_congr waiters) (by rw [channels]) (by rw [channels])
    (by rw [channels]; exact fun _ member => member)) rfl nofun

theorem wake_settles (locks : ResourceSerializer) (resource : Resource) :
    Settles locks (locks.wake resource) := by
  refine wake_rule (fun state => Settles locks state) ?_ ?_ ?_ .refl
  · intro state empty settled
    refine settled.trans (.of_move (.kept (fun other => ?_) rfl rfl fun _ => id) rfl (by simp))
    by_cases same : other = resource
    · subst same
      rw [empty]
      simp [queue]
    · simp [queue, AList.lookup_erase_ne same]
  · intro state front rest stored free _ settled
    refine settled.trans (.of_move (.granted stored ?_ ⟨fun apart => ?_, ?_⟩ ?_ ?_) rfl (by simp))
    · exact grantFront_queue
    · exact (grantFront_sameAt apart).queue
    all_goals simp [deliver, grantFront, setQueue]
  · intro state front rest stored free gone settled
    refine settled.trans (.of_move (.discarded stored ?_ ?_ ⟨fun apart => ?_, ?_⟩ ?_ ?_) rfl (by simp))
    · simpa [receiverOpen] using gone
    · rw [queue_congr unlockSilent_waiters, grantFront_queue]
    · exact ((grantFront_sameAt apart).trans (unlockSilent_sameAt apart)).queue
    all_goals simp [grantFront, setQueue]

theorem sendAll_channels (waiting : List Waiter) (result : Except ErrorBody Unit) :
    (waiting.foldl (fun state waiter => state.send waiter.tx result) locks).channels =
      { locks.channels with
        delivered := locks.channels.delivered ++
          (waiting.filter fun waiter => locks.receiverOpen waiter.tx).map fun waiter =>
            (waiter.tx, result) } := by
  induction waiting generalizing locks with
  | nil => simp
  | cons head _ ih =>
      rw [List.foldl_cons, ih]
      by_cases gone : head.tx ∈ locks.channels.closed
      · simp [send, receiverOpen, gone]
      · simp [send, receiverOpen, deliver, gone]

theorem failWaiters_settles : Settles locks (locks.failWaiters resource shellBusy) := by
  have channels : (locks.failWaiters resource shellBusy).channels = _ := sendAll_channels _ _
  have failed : QueueMove locks (.failed resource) (locks.failWaiters resource shellBusy) := by
    refine .failed ?_ ⟨fun apart => (failWaiters_sameAt apart).queue, by rw [channels]⟩ (by rw [channels])
      (by rw [channels]; rfl)
    rw [failWaiters_sameAt_erased.queue]
    simp [queue]
  exact .of_move failed rfl (by simp)

theorem foldl_settles {change : ResourceSerializer → Resource → ResourceSerializer}
    (each : ∀ {state resource}, Settles state (change state resource)) (resources : List Resource) :
    Settles locks (resources.foldl change locks) := by
  induction resources generalizing locks with
  | nil => exact .refl
  | cons _ _ ih => exact each.trans ih

theorem grant_settles : Settles locks (locks.grant resource mode owner) :=
  .of_same grant_waiters grant_channels

theorem confirmProcess_settles (processId : String) : Settles locks (locks.confirmProcess processId) := by
  have renamed : Settles locks { locks with
      exclusive := locks.exclusive.setAll (locks.exclusive.keysWhere (· = .spawning processId))
        (.process processId) } := .of_same rfl rfl
  exact renamed.trans (foldl_settles failWaiters_settles _)

theorem holdProcess_settles (workspaceId processId : String) :
    Settles locks (locks.holdProcess workspaceId processId).2 := by
  simp only [holdProcess]
  split
  · split
    · exact .refl
    · split
      · exact grant_settles.trans failWaiters_settles
      · exact .refl
  · split
    · exact .refl
    · exact grant_settles.trans failWaiters_settles

theorem releaseMatching_settles (wanted : ExclusiveHolder → Bool) :
    Settles locks ((locks.releaseMatching wanted).2.wakeAll (locks.releaseMatching wanted).1) := by
  have released : Settles locks (locks.releaseMatching wanted).2 := .of_same rfl rfl
  exact released.trans (foldl_settles (wake_settles _ _) _)

theorem unlock_settles (mode : LockMode) : Settles locks (locks.unlock resource mode) :=
  (Settles.of_same unlockSilent_waiters unlockSilent_channels).trans (wake_settles _ _)

theorem wake_grant_settles (mode : LockMode) (owner : ExclusiveHolder) :
    Settles locks ((locks.wake resource).grant resource mode owner) :=
  (wake_settles locks resource).trans grant_settles

theorem tryExclusiveWrite_settles (workspaceId : String) :
    Settles locks (locks.tryExclusiveWrite workspaceId).2 := by
  simp only [tryExclusiveWrite]
  split
  · exact wake_settles _ _
  · split
    · exact wake_settles _ _
    · exact wake_grant_settles .exclusive .request

theorem markShellBusy_settles (workspaceId processId : String) :
    Settles locks (locks.markShellBusy workspaceId processId).2 := by
  simp only [markShellBusy]
  split
  · exact wake_settles _ _
  · exact wake_grant_settles .exclusive (.process processId)

theorem tryLock_settles : Settles locks (locks.tryLock resource mode).2 := by
  simp only [tryLock]
  split
  · exact wake_grant_settles mode .request
  · exact wake_settles _ _

/-- The moves of one call: the waiter it leaves is the only one to arrive, and nobody is withdrawn but by
its own cancellation. -/
def CallMoves (call : SerializerCall) (before after : ResourceSerializer) : Prop :=
  ∃ events, queueMoves.Run before events after ∧
    events.filterMap QueueEvent.arrival = (call.arrival before).toList ∧
    ∀ resource id, .withdrawn resource id ∈ events → call = .cancelWaiter resource id

theorem CallMoves.of_settles (nobody : call.arrival before = none)
    (settles : Settles before after) : CallMoves call before after := by
  obtain ⟨events, run, noArrival, never⟩ := settles
  exact ⟨events, run, by rw [noArrival, nobody]; rfl, fun resource id member => absurd member
    (never resource id)⟩

theorem enqueue_moves : QueueMove locks
    (.enqueued resource ⟨locks.nextWaiter, mode, owner, locks.channels.created⟩)
    (locks.enqueue resource mode owner) :=
  .enqueued (by simp [enqueue, queue]) ⟨fun apart => (enqueue_sameAt apart).queue, rfl⟩ rfl rfl rfl

theorem acquire_moves (asks : call.request = some ⟨resource, mode, owner⟩)
    (answered : call.answer locks = some (locks.acquire resource mode owner).1) :
    CallMoves call locks (locks.acquire resource mode owner).2 := by
  have acquired : Acquired locks resource mode owner (locks.acquire resource mode owner) :=
    acquire_acquired
  generalize locks.acquire resource mode owner = outcome at acquired answered
  cases acquired with
  | busy => exact .of_settles (by simp [SerializerCall.arrival, asks, answered]) .refl
  | granted => exact .of_settles (by simp [SerializerCall.arrival, asks, answered]) grant_settles
  | waiting =>
      obtain ⟨events, run, nobody, never⟩ := wake_settles (locks.enqueue resource mode owner) resource
      refine ⟨_ :: events, .cons enqueue_moves run, ?_, fun other id member => ?_⟩
      · simp [SerializerCall.arrival, asks, answered, QueueEvent.arrival, nobody]
      · rcases List.mem_cons.mp member with isFirst | inRest
        · contradiction
        · exact absurd inRest (never other id)

theorem cancelWaiter_moves (id : UInt64) :
    CallMoves (.cancelWaiter resource id) locks (locks.cancelWaiter resource id).2 := by
  simp only [cancelWaiter]
  split
  · exact .of_settles rfl .refl
  next waiting stored =>
    have isQueue : locks.queue resource = waiting := by simp [queue, stored]
    have withdrawn : QueueMove locks (.withdrawn resource id)
        (locks.setQueue resource (waiting.filter fun waiter => waiter.id ≠ id)) :=
      .withdrawn (by rw [setQueue_queue, isQueue]) ⟨fun apart => (setQueue_sameAt apart).queue, rfl⟩ rfl rfl
    split
    · obtain ⟨events, run, nobody, never⟩ := wake_settles
        (locks.setQueue resource (waiting.filter fun waiter => waiter.id ≠ id)) resource
      refine ⟨_ :: events, .cons withdrawn run, nobody, fun other named member => ?_⟩
      rcases List.mem_cons.mp member with isFirst | inRest
      · cases isFirst
        rfl
      · exact absurd inRest (never other named)
    · refine ⟨[_], .cons withdrawn (.refl _), rfl, fun other named member => ?_⟩
      cases List.mem_singleton.mp member
      rfl

theorem arrival_of_try {result : Except ErrorBody Unit}
    (answered : call.answer locks = some (.ofTry result)) : call.arrival locks = none := by
  rw [SerializerCall.arrival, answered]
  cases call.request with
  | none => rfl
  | some => cases result <;> rfl

theorem call_moves (call : SerializerCall) (locks : ResourceSerializer) :
    CallMoves call locks (call.apply locks) := by
  cases call with
  | tryExclusiveWrite workspaceId =>
      exact .of_settles (arrival_of_try rfl) (tryExclusiveWrite_settles workspaceId)
  | acquireExclusiveWrite | acquireShellBusy | acquireLock => exact acquire_moves rfl rfl
  | markShellBusy workspaceId processId =>
      exact .of_settles (arrival_of_try rfl) (markShellBusy_settles workspaceId processId)
  | tryLock => exact .of_settles (arrival_of_try rfl) tryLock_settles
  | releaseWrite =>
      refine .of_settles rfl ?_
      simp only [SerializerCall.apply, releaseWrite]
      split
      · exact unlock_settles .exclusive
      · exact .refl
  | unlock _ mode => exact .of_settles rfl (unlock_settles mode)
  | confirmProcess processId => exact .of_settles rfl (confirmProcess_settles processId)
  | holdProcess workspaceId processId =>
      exact .of_settles rfl (holdProcess_settles workspaceId processId)
  | releaseProcess | releaseAllProcesses => exact .of_settles rfl (releaseMatching_settles _)
  | clearShell =>
      refine .of_settles rfl ?_
      simp only [SerializerCall.apply, clearShell]
      split
      · exact unlock_settles .exclusive
      · exact .refl
  | cancelWaiter _ id => exact cancelWaiter_moves id
  | dropReceiver rx =>
      refine .of_settles rfl (.of_move (.kept (fun _ => rfl) rfl rfl fun other member => ?_) rfl (by simp))
      exact List.mem_cons_of_mem rx member

end ResourceSerializer

end CodeSpace.Store
