import CodeSpace.Store.QueueMoves

namespace CodeSpace.Store

open Domain

/-! The order in which a resource is granted. Each waiter is known by the channel it waits on, numbered in
the order of the calls. -/

namespace ResourceSerializer

variable {locks before after : ResourceSerializer} {resource other : Resource} {mode : LockMode}
  {owner : ExclusiveHolder} {waiter : Waiter} {event : QueueEvent} {events : List QueueEvent}
  {workspaceId : String}

/-- The waiters among these that were granted, in the order of their grants. -/
def servedBy (delivered : List Delivery) (waiting : List Waiter) : List Waiter :=
  delivered.filterMap fun delivery =>
    match delivery.2 with
    | .ok () => waiting.find? fun waiter => waiter.tx = delivery.1
    | .error _ => none

/-- What the numbers of the channels say: on each resource the grants and after them the queue follow the
order of arrival, and a channel carries one outcome, to a waiter that left its queue. -/
structure Ranked (locks : ResourceSerializer) (arrived : List (Resource × Waiter)) : Prop where
  numbered : (arrived.map fun entry => entry.2.tx).Pairwise (· < ·)
  created : ∀ entry ∈ arrived, entry.2.tx < locks.channels.created
  order : ∀ resource, (servedBy locks.channels.delivered (onResource resource arrived) ++
    locks.queue resource).Sublist (onResource resource arrived)
  once : (locks.channels.delivered.map Prod.fst).Nodup
  known : ∀ delivery ∈ locks.channels.delivered, delivery.1 < locks.channels.created
  unanswered : ∀ {resource}, ∀ waiter ∈ locks.queue resource,
    waiter.tx ∉ locks.channels.delivered.map Prod.fst

variable {arrived : List (Resource × Waiter)}

theorem mem_onResource : waiter ∈ onResource resource arrived ↔ (resource, waiter) ∈ arrived := by
  simp only [onResource, List.mem_map, List.mem_filter, decide_eq_true_eq]
  constructor
  · rintro ⟨⟨there, found⟩, ⟨member, rfl⟩, rfl⟩
    exact member
  · exact fun member => ⟨(resource, waiter), ⟨member, rfl⟩, rfl⟩

theorem onResource_append {more : List (Resource × Waiter)} :
    onResource resource (arrived ++ more) = onResource resource arrived ++ onResource resource more := by
  simp [onResource]

namespace Ranked

section

variable (ranked : Ranked locks arrived)
include ranked

theorem mem_of_queue (member : waiter ∈ locks.queue resource) : (resource, waiter) ∈ arrived :=
  mem_onResource.mp ((ranked.order resource).subset (List.mem_append_right _ member))

theorem eq_of_tx {one : Waiter} (member : (resource, waiter) ∈ arrived)
    (also : (other, one) ∈ arrived) (same : waiter.tx = one.tx) : other = resource ∧ one = waiter := by
  have injective := List.inj_on_of_nodup_map (ranked.numbered.imp fun less => Nat.ne_of_lt less)
  cases injective member also same
  exact ⟨rfl, rfl⟩

theorem find?_tx (member : (resource, waiter) ∈ arrived) :
    (onResource other arrived).find? (fun one => one.tx = waiter.tx) =
      if other = resource then some waiter else none := by
  cases found : (onResource other arrived).find? (fun one => one.tx = waiter.tx) with
  | none =>
      rw [if_neg]
      rintro rfl
      have absent := List.find?_eq_none.mp found waiter (mem_onResource.mpr member)
      simp at absent
  | some one =>
      have same : one.tx = waiter.tx := by simpa using List.find?_some found
      obtain ⟨here, rfl⟩ :=
        ranked.eq_of_tx member (mem_onResource.mp (List.mem_of_find?_eq_some found)) same.symm
      rw [if_pos here]

theorem tx_pairwise (resource : Resource) :
    ((onResource resource arrived).map Waiter.tx).Pairwise (· < ·) := by
  refine ranked.numbered.sublist ?_
  rw [onResource, List.map_map]
  exact List.filter_sublist.map _

theorem queue_pairwise (resource : Resource) : ((locks.queue resource).map Waiter.tx).Pairwise (· < ·) :=
  (ranked.tx_pairwise resource).sublist
    (((List.sublist_append_right _ _).trans (ranked.order resource)).map _)

end

variable {waiting : List Waiter}

theorem servedBy_append {delivered more : List Delivery} :
    servedBy (delivered ++ more) waiting = servedBy delivered waiting ++ servedBy more waiting :=
  List.filterMap_append

theorem servedBy_errors {failed : List Waiter} {error : ErrorBody} :
    servedBy (failed.map fun waiter => (waiter.tx, .error error)) waiting = [] := by
  simp [servedBy]

section

variable (ranked : Ranked before arrived)
include ranked

theorem shortened (queue : ∀ resource, (after.queue resource).Sublist (before.queue resource))
    (created : after.channels.created = before.channels.created)
    (delivered : after.channels.delivered = before.channels.delivered) : Ranked after arrived where
  numbered := ranked.numbered
  created := created ▸ ranked.created
  order resource := by
    rw [delivered]
    exact (List.Sublist.append_left (queue resource) _).trans (ranked.order resource)
  once := delivered ▸ ranked.once
  known := by
    rw [delivered, created]
    exact ranked.known
  unanswered {resource} waiter member := by
    rw [delivered]
    exact ranked.unanswered waiter ((queue resource).subset member)

theorem answered {leaving : List Waiter}
    {outcome : Except ErrorBody Unit} (left : leaving.Sublist (before.queue resource))
    (rest : ∀ waiter ∈ after.queue resource, waiter ∈ before.queue resource ∧ waiter ∉ leaving)
    (elsewhere : Elsewhere before after resource)
    (created : after.channels.created = before.channels.created) (delivered : after.channels.delivered =
      before.channels.delivered ++ leaving.map fun waiter => (waiter.tx, outcome))
    (order : ∀ other, (servedBy after.channels.delivered (onResource other arrived) ++
      after.queue other).Sublist (onResource other arrived)) : Ranked after arrived where
  numbered := ranked.numbered
  created := created ▸ ranked.created
  order := order
  once := by
    have leavingNodup : (leaving.map Waiter.tx).Nodup :=
      ((ranked.queue_pairwise resource).sublist (left.map _)).imp fun less => Nat.ne_of_lt less
    rw [delivered, List.map_append, List.map_map]
    refine List.Nodup.append ranked.once leavingNodup fun channel old new => ?_
    obtain ⟨waiter, isLeaving, rfl⟩ := List.mem_map.mp new
    exact ranked.unanswered waiter (left.subset isLeaving) old
  known delivery member := by
    rw [created]
    rw [delivered] at member
    rcases List.mem_append.mp member with old | new
    · exact ranked.known delivery old
    · obtain ⟨waiter, isLeaving, rfl⟩ := List.mem_map.mp new
      exact ranked.created _ (ranked.mem_of_queue (left.subset isLeaving))
  unanswered {other} waiter member := by
    have still : waiter ∈ before.queue other := by
      by_cases here : other = resource
      · subst here
        exact (rest waiter member).1
      · exact elsewhere.queue here ▸ member
    rw [delivered, List.map_append, List.map_map, List.mem_append, not_or]
    refine ⟨ranked.unanswered waiter still, fun answered => ?_⟩
    obtain ⟨_, isLeaving, same⟩ := List.mem_map.mp answered
    obtain ⟨rfl, rfl⟩ := ranked.eq_of_tx (ranked.mem_of_queue still)
      (ranked.mem_of_queue (left.subset isLeaving)) same.symm
    exact (rest _ member).2 isLeaving

/-- Nobody arrives: the order is that of the same arrivals. -/
theorem of_move (move : QueueMove before event after)
    (nobody : event.arrival = none) : Ranked after arrived := by
  have shorter {resource : Resource} (elsewhere : Elsewhere before after resource)
      (here : (after.queue resource).Sublist (before.queue resource)) (other : Resource) :
      (after.queue other).Sublist (before.queue other) := by
    by_cases same : other = resource
    · exact same ▸ here
    · rw [elsewhere.queue same]
  cases move with
  | kept queue created delivered =>
      exact ranked.shortened (fun resource => by rw [queue]) created delivered
  | @discarded _ resource front rest stored _ here elsewhere created delivered =>
      refine ranked.shortened (shorter elsewhere ?_) created delivered
      rw [here, stored]
      exact List.sublist_cons_self front rest
  | @withdrawn _ resource id here elsewhere created delivered =>
      refine ranked.shortened (shorter elsewhere ?_) created delivered
      rw [here]
      exact List.filter_sublist
  | @granted _ resource front rest stored here elsewhere created delivered =>
      have arrivedHere : (resource, front) ∈ arrived := ranked.mem_of_queue (stored ▸ List.mem_cons_self)
      have leading : front ∉ rest := by
        have apart := ranked.queue_pairwise resource
        rw [stored, List.map_cons, List.pairwise_cons] at apart
        exact fun member => Nat.lt_irrefl _ (apart.1 _ (List.mem_map_of_mem member))
      have taken : [front].Sublist (before.queue resource) := by
        rw [stored]
        exact List.singleton_sublist.mpr List.mem_cons_self
      refine ranked.answered taken (fun waiter member => ?_) elsewhere created delivered fun other => ?_
      · rw [here] at member
        rw [stored, List.mem_singleton]
        exact ⟨List.mem_cons_of_mem front member, fun same => leading (same ▸ member)⟩
      · have order := ranked.order other
        have grant : servedBy [(front.tx, .ok ())] (onResource other arrived) =
            if other = resource then [front] else [] := by
          simp only [servedBy, List.filterMap_cons, List.filterMap_nil, ranked.find?_tx arrivedHere]
          by_cases same : other = resource <;> simp [same]
        rw [delivered, servedBy_append, grant]
        by_cases same : other = resource
        · subst same
          rw [stored] at order
          rw [here, if_pos rfl, List.append_assoc, List.singleton_append]
          exact order
        · rw [if_neg same, elsewhere.queue same, List.append_nil]
          exact order
  | @failed _ resource here elsewhere created delivered =>
      refine ranked.answered List.filter_sublist (fun waiter member => ?_) elsewhere created delivered
        fun other => ?_
      · rw [here] at member
        contradiction
      · rw [delivered, servedBy_append, servedBy_errors, List.append_nil]
        exact (List.Sublist.append_left (shorter elsewhere (here ▸ List.nil_sublist _) other) _).trans
          (ranked.order other)
  | enqueued => contradiction

theorem enqueued (move : QueueMove before (.enqueued resource waiter) after) :
    Ranked after (arrived ++ [(resource, waiter)]) := by
  cases move with
  | enqueued here elsewhere channel created delivered =>
      have added (other : Resource) : onResource other (arrived ++ [(resource, waiter)]) =
          onResource other arrived ++ if other = resource then [waiter] else [] := by
        rw [onResource_append]
        by_cases same : other = resource
        · simp [onResource, same]
        · simp [onResource, same, Ne.symm same]
      have grants (other : Resource) : servedBy after.channels.delivered
          (onResource other (arrived ++ [(resource, waiter)])) =
          servedBy before.channels.delivered (onResource other arrived) := by
        rw [delivered, added]
        refine List.filterMap_congr fun delivery member => ?_
        have older : waiter.tx ≠ delivery.1 := channel ▸ (Nat.ne_of_gt (ranked.known delivery member))
        split
        · split <;> simp [List.find?_append, older]
        · rfl
      have older : ∀ entry ∈ arrived, entry.2.tx < waiter.tx := channel ▸ ranked.created
      refine ⟨?_, ?_, fun other => ?_, delivered ▸ ranked.once, ?_, fun {other} one member => ?_⟩
      · rw [List.map_append, List.pairwise_append]
        refine ⟨ranked.numbered, List.pairwise_singleton _ _, fun earlier isEarlier later isLater => ?_⟩
        obtain ⟨entry, member, rfl⟩ := List.mem_map.mp isEarlier
        cases List.mem_singleton.mp isLater
        exact older entry member
      · intro entry member
        rw [created, Nat.lt_succ_iff]
        rcases List.mem_append.mp member with old | new
        · exact Nat.le_of_lt (ranked.created entry old)
        · cases List.mem_singleton.mp new
          exact Nat.le_of_eq channel
      · rw [grants, added]
        by_cases same : other = resource
        · subst same
          rw [here, if_pos rfl, ← List.append_assoc]
          exact (ranked.order other).append_right _
        · rw [elsewhere.queue same, if_neg same, List.append_nil]
          exact ranked.order other
      · intro delivery member
        rw [created]
        exact Nat.lt_succ_of_lt (ranked.known delivery (delivered ▸ member))
      · rw [delivered]
        by_cases same : other = resource
        · subst same
          rw [here] at member
          rcases List.mem_append.mp member with old | new
          · exact ranked.unanswered one old
          · cases List.mem_singleton.mp new
            intro answered
            obtain ⟨delivery, isDelivered, sameChannel⟩ := List.mem_map.mp answered
            refine absurd (ranked.known delivery isDelivered) ?_
            rw [sameChannel, channel]
            exact Nat.lt_irrefl _
        · exact ranked.unanswered one (elsewhere.queue same ▸ member)

theorem run (moves : queueMoves.Run before events after) :
    Ranked after (arrived ++ events.filterMap QueueEvent.arrival) := by
  induction moves generalizing arrived with
  | refl => simpa using ranked
  | @cons first middle last event events move _ ih =>
      cases isArrival : event.arrival with
      | none =>
          rw [List.filterMap_cons_none isArrival]
          exact ih (ranked.of_move move isArrival)
      | some =>
          rw [List.filterMap_cons_some isArrival, List.append_cons]
          cases event with
          | enqueued =>
              cases isArrival
              exact ih (ranked.enqueued move)
          | _ => contradiction

end

theorem call (ranked : Ranked locks arrived) (call : SerializerCall) :
    Ranked (call.apply locks) (arrived ++ (call.arrival locks).toList) := by
  obtain ⟨_, moves, same, _⟩ := call_moves call locks
  rw [← same]
  exact ranked.run moves

theorem calls (ranked : Ranked locks arrived) (calls : List SerializerCall) :
    Ranked (calls.foldl SerializerCall.apply locks) (arrived ++ arrivals locks calls) := by
  induction calls generalizing locks arrived with
  | nil => simpa [arrivals] using ranked
  | cons call _ ih =>
      rw [arrivals, ← List.append_assoc]
      exact ih (ranked.call call)

end Ranked

theorem initial_ranked : Ranked {} [] where
  numbered := .nil
  created := nofun
  order resource := by simp [servedBy, queue, onResource]
  once := .nil
  known := nofun
  unanswered waiter member := by simp [queue] at member

/-! How waiters leave. -/

/-- A waiter that is still queued, or got its grant, or was failed by a process that holds the workspace,
or whose receiver is gone. -/
def Accounted (locks : ResourceSerializer) (resource : Resource) (waiter : Waiter) : Prop :=
  waiter ∈ locks.queue resource ∨ (waiter.tx, .ok ()) ∈ locks.channels.delivered ∨
    (waiter.tx, .error shellBusy) ∈ locks.channels.delivered ∨ waiter.tx ∈ locks.channels.closed

theorem QueueMove.grows (move : QueueMove before event after) :
    (∀ delivery ∈ before.channels.delivered, delivery ∈ after.channels.delivered) ∧
      ∀ rx ∈ before.channels.closed, rx ∈ after.channels.closed := by
  cases move with
  | kept _ _ delivered closed => exact ⟨fun _ member => delivered ▸ member, closed⟩
  | granted _ _ elsewhere _ delivered | failed _ elsewhere _ delivered =>
      refine ⟨fun _ member => ?_, fun _ member => elsewhere.closed ▸ member⟩
      rw [delivered]
      exact List.mem_append_left _ member
  | discarded _ _ _ elsewhere _ delivered
  | withdrawn _ elsewhere _ delivered
  | enqueued _ elsewhere _ _ delivered =>
      exact ⟨fun _ member => delivered ▸ member, fun _ member => elsewhere.closed ▸ member⟩

theorem Accounted.of_queued (queued : waiter ∈ before.queue resource)
    (move : QueueMove before event after) :
    after.Accounted resource waiter ∨ event = .withdrawn resource waiter.id := by
  have elsewhere {at' : Resource} (same : Elsewhere before after at') (apart : resource ≠ at') :
      after.Accounted resource waiter := .inl (same.queue apart ▸ queued)
  cases move with
  | kept queue => exact .inl (.inl (queue resource ▸ queued))
  | @granted _ at' front rest stored here same _ delivered =>
      by_cases there : resource = at'
      · subst there
        rw [stored] at queued
        rcases List.mem_cons.mp queued with rfl | behind
        · exact .inl (.inr (.inl (by simp [delivered])))
        · exact .inl (.inl (here ▸ behind))
      · exact .inl (elsewhere same there)
  | @discarded _ at' front rest stored gone here same =>
      by_cases there : resource = at'
      · subst there
        rw [stored] at queued
        rcases List.mem_cons.mp queued with rfl | behind
        · exact .inl (.inr (.inr (.inr (same.closed ▸ gone))))
        · exact .inl (.inl (here ▸ behind))
      · exact .inl (elsewhere same there)
  | @failed _ at' here same _ delivered =>
      by_cases there : resource = at'
      · subst there
        by_cases gone : waiter.tx ∈ before.channels.closed
        · exact .inl (.inr (.inr (.inr (same.closed ▸ gone))))
        · refine .inl (.inr (.inr (.inl ?_)))
          rw [delivered]
          refine List.mem_append_right _ (List.mem_map.mpr ⟨waiter, List.mem_filter.mpr ⟨queued, ?_⟩, rfl⟩)
          simpa [receiverOpen] using gone
      · exact .inl (elsewhere same there)
  | @withdrawn _ at' id here same =>
      by_cases there : resource = at'
      · subst there
        by_cases named : waiter.id = id
        · exact .inr (by rw [named])
        · exact .inl (.inl (by rw [here]; exact List.mem_filter.mpr ⟨queued, by simpa using named⟩))
      · exact .inl (elsewhere same there)
  | @enqueued _ at' one here same =>
      by_cases there : resource = at'
      · subst there
        exact .inl (.inl (by rw [here]; exact List.mem_append_left _ queued))
      · exact .inl (elsewhere same there)

theorem Accounted.move (accounted : before.Accounted resource waiter)
    (move : QueueMove before event after) :
    after.Accounted resource waiter ∨ event = .withdrawn resource waiter.id := by
  obtain ⟨delivered, closed⟩ := move.grows
  rcases accounted with queued | granted | failed | gone
  · exact Accounted.of_queued queued move
  · exact .inl (.inr (.inl (delivered _ granted)))
  · exact .inl (.inr (.inr (.inl (delivered _ failed))))
  · exact .inl (.inr (.inr (.inr (closed _ gone))))

theorem Accounted.run (moves : queueMoves.Run before events after)
    (known : before.Accounted resource waiter ∨ .enqueued resource waiter ∈ events)
    (unnamed : .withdrawn resource waiter.id ∉ events) : after.Accounted resource waiter := by
  induction moves with
  | refl => simpa using known
  | cons move _ ih =>
      rw [List.mem_cons, not_or] at unnamed
      refine ih ?_ unnamed.2
      rcases known with accounted | arrives
      · exact .inl ((accounted.move move).resolve_right (Ne.symm unnamed.1))
      · rcases List.mem_cons.mp arrives with rfl | later
        · cases move with
          | enqueued here =>
              exact .inl (.inl (by rw [here]; exact List.mem_append_right _ List.mem_cons_self))
        · exact .inr later

/-- A waiter is accounted for after a call that does not cancel it. -/
theorem Accounted.call {call : SerializerCall}
    (known : waiter ∈ locks.queue resource ∨ call.arrival locks = some (resource, waiter)) :
    (call.apply locks).Accounted resource waiter ∨ call = .cancelWaiter resource waiter.id := by
  obtain ⟨events, moves, arrived, withdrawn⟩ := call_moves call locks
  by_cases named : .withdrawn resource waiter.id ∈ events
  · exact .inr (withdrawn resource waiter.id named)
  · refine .inl (.run moves (known.imp .inl fun isArrival => ?_) named)
    have member : (resource, waiter) ∈ events.filterMap QueueEvent.arrival := by simp [arrived, isArrival]
    obtain ⟨event, isEvent, arrives⟩ := List.mem_filterMap.mp member
    cases event with
    | enqueued =>
        cases arrives
        exact isEvent
    | _ => contradiction

/-! Grants past the queue. -/

theorem hasExclusiveWaiter_of_nil (empty : locks.queue resource = []) :
    locks.hasExclusiveWaiter resource = false := by
  simp [hasExclusiveWaiter, empty]

theorem hasExclusiveWaiter_grant : (locks.grant resource mode owner).hasExclusiveWaiter other =
    locks.hasExclusiveWaiter other := by
  rw [hasExclusiveWaiter, hasExclusiveWaiter, queue_congr grant_waiters]

theorem acquire_granted (granted : (locks.acquire resource mode owner).1 = .granted) :
    (locks.acquire resource mode owner).2.hasExclusiveWaiter resource = false := by
  have acquired : Acquired locks resource mode owner (locks.acquire resource mode owner) :=
    acquire_acquired
  generalize locks.acquire resource mode owner = outcome at acquired granted
  cases acquired with
  | busy | waiting => contradiction
  | granted _ fair first =>
      rw [hasExclusiveWaiter_grant]
      cases mode with
      | exclusive => exact hasExclusiveWaiter_of_nil (first rfl)
      | sharedRead => exact fair rfl

theorem hasExclusiveWaiter_of_vacant (vacant : ¬ locks.occupied resource = true) :
    (locks.grant resource mode owner).hasExclusiveWaiter resource = false := by
  rw [hasExclusiveWaiter_grant]
  exact hasExclusiveWaiter_of_nil (free_of_not_occupied vacant).2

theorem tryExclusiveWrite_granted (granted : (locks.tryExclusiveWrite workspaceId).1 = .ok ()) :
    (locks.tryExclusiveWrite workspaceId).2.hasExclusiveWaiter (.workspace workspaceId) = false := by
  simp only [tryExclusiveWrite] at granted ⊢
  split at granted
  · contradiction
  next notHeld =>
    split at granted
    · contradiction
    next vacant =>
      rw [if_neg notHeld, if_neg vacant]
      exact hasExclusiveWaiter_of_vacant vacant

theorem markShellBusy_granted {processId : String}
    (granted : (locks.markShellBusy workspaceId processId).1 = .ok ()) :
    (locks.markShellBusy workspaceId processId).2.hasExclusiveWaiter (.workspace workspaceId) = false := by
  simp only [markShellBusy] at granted ⊢
  split at granted
  · contradiction
  next vacant =>
    rw [if_neg vacant]
    exact hasExclusiveWaiter_of_vacant vacant

theorem tryLock_granted (granted : (locks.tryLock resource mode).1 = .ok ()) :
    (locks.tryLock resource mode).2.hasExclusiveWaiter resource = false := by
  simp only [tryLock] at granted ⊢
  split at granted
  next admitted =>
    rw [if_pos admitted, hasExclusiveWaiter_grant]
    cases mode with
    | exclusive =>
        have nobody := ((Bool.and_eq_true _ _).mp admitted).2
        exact hasExclusiveWaiter_of_nil (queue_nil_of_not_hasWaiters (by simpa using nobody))
    | sharedRead =>
        have fair := ((Bool.and_eq_true _ _).mp admitted).2
        simpa using fair
  · contradiction

theorem ofTry_eq_granted {result : Except ErrorBody Unit} (granted : AcquireOutcome.ofTry result = .granted) :
    result = .ok () := by
  cases result with
  | ok => rfl
  | error => contradiction

/-- Nobody takes the resource past an exclusive waiter. -/
theorem call_granted {call : SerializerCall} {request : Request} (asks : call.request = some request)
    (granted : call.answer locks = some .granted) :
    (call.apply locks).hasExclusiveWaiter request.resource = false := by
  cases call with
  | acquireExclusiveWrite | acquireShellBusy | acquireLock =>
      cases asks
      exact acquire_granted (Option.some.inj granted)
  | tryExclusiveWrite =>
      cases asks
      exact tryExclusiveWrite_granted (ofTry_eq_granted (Option.some.inj granted))
  | markShellBusy =>
      cases asks
      exact markShellBusy_granted (ofTry_eq_granted (Option.some.inj granted))
  | tryLock =>
      cases asks
      exact tryLock_granted (ofTry_eq_granted (Option.some.inj granted))
  | _ => contradiction

/-- After any calls and one more: waiters are numbered in the order in which they came; those granted
so far were granted in that order, and nobody who came before one of them still waits; a request granted
at once leaves no exclusive waiter behind; no channel carries two outcomes; and whoever was waiting or
came still waits, or was granted or failed with `WORKSPACE_BUSY`, or lost its receiver, or was cancelled
by this call. -/
theorem waiters_are_granted_in_turn (calls : List SerializerCall) (call : SerializerCall)
    (resource : Resource) :
    let came := onResource resource (arrivals {} (calls ++ [call]))
    let after := call.apply (run calls)
    let granted := servedBy after.channels.delivered came
    (came.map Waiter.tx).Pairwise (· < ·) ∧ granted.Sublist came ∧
    (∀ served ∈ granted, ∀ waiting ∈ after.queue resource, served.tx < waiting.tx) ∧
    (∀ request, call.request = some request → request.resource = resource →
      call.answer (run calls) = some .granted → after.hasExclusiveWaiter resource = false) ∧
    (after.channels.delivered.map Prod.fst).Nodup ∧
    ∀ waiter, waiter ∈ (run calls).queue resource ∨ call.arrival (run calls) = some (resource, waiter) →
      after.Accounted resource waiter ∨ call = .cancelWaiter resource waiter.id := by
  have ranked : Ranked (call.apply (run calls)) (arrivals {} (calls ++ [call])) := by
    simpa [run] using initial_ranked.calls (calls ++ [call])
  intro came after granted
  have order := ranked.order resource
  have numbered := ranked.tx_pairwise resource
  refine ⟨numbered, (List.sublist_append_left _ _).trans order, fun served isServed waiting isWaiting => ?_,
    ?_, ranked.once, fun waiter known => Accounted.call known⟩
  · have increasing := numbered.sublist (order.map Waiter.tx)
    rw [List.map_append, List.pairwise_append] at increasing
    exact increasing.2.2 _ (List.mem_map_of_mem isServed) _ (List.mem_map_of_mem isWaiting)
  · rintro request asks rfl answered
    exact call_granted asks answered

end ResourceSerializer

end CodeSpace.Store
