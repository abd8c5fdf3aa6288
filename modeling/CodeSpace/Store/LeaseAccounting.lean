import CodeSpace.Data.Count
import CodeSpace.Store.Leases
import CodeSpace.Store.Wake

namespace CodeSpace.Store

open Data Domain

/-! The bookkeeping that ties the clients to the serializer's maps. Every fact bounds the clients
from above by the maps, so an operation of the serializer that grants what it has recorded keeps
it whoever the grant goes to. -/

def Client.waitsOn (rx : Channel) (client : Client) : Bool :=
  match client.stage with
  | .waiting _ found => found = rx
  | _ => false

/-- The exclusive map has an entry for this client's grant. -/
def Client.Recorded (locks : ResourceSerializer) (client : Client) : Prop :=
  (locks.exclusive.lookup client.wanted.resource).map ExclusiveHolder.processId? =
    some client.wanted.owner.processId?

instance (locks : ResourceSerializer) (client : Client) : Decidable (client.Recorded locks) :=
  inferInstanceAs (Decidable (_ = _))

/-- How the queues and channels belong to the clients. -/
structure Linked (locks : ResourceSerializer) (clients : List Client) : Prop where
  queued : ∀ {resource waiter client}, waiter ∈ locks.queue resource → client ∈ clients →
    client.waitsOn waiter.tx = true → client.wanted.resource = resource ∧
      client.wanted.mode = waiter.mode ∧ client.wanted.owner = waiter.owner
  tickets : ∀ rx, clients.countP (Client.waitsOn rx) ≤ 1
  created : ∀ {client rx}, client ∈ clients → client.waitsOn rx = true → rx < locks.channels.created
  senders : ∀ {resource waiter}, waiter ∈ locks.queue resource → waiter.tx < locks.channels.created
  unsent : ∀ {rx}, locks.channels.created ≤ rx → locks.channels.received rx = none
  minted : ∀ processId, clients.countP (fun client => client.wanted.owner = .spawning processId) ≤ 1
  revocable : ∀ {client}, client ∈ clients → client.revoked = true →
    ∃ processId, client.wanted.owner = .spawning processId

structure Covered (locks : ResourceSerializer) (clients : List Client) : Prop where
  recorded : ∀ {client}, client ∈ clients → client.holds locks = true →
    client.wanted.mode = .exclusive → client.Recorded locks
  alone : ∀ resource, clients.countP (Client.holdsOn locks resource .exclusive) ≤ 1
  shared : ∀ resource,
    clients.countP (Client.holdsOn locks resource .sharedRead) ≤ locks.sharedCount resource

structure Accounted (locks : ResourceSerializer) (clients : List Client) : Prop where
  linked : Linked locks clients
  covered : Covered locks clients

section

variable {locks before after : ResourceSerializer} {clients changed : List Client}
  {client newcomer : Client} {resource other : Resource} {mode : LockMode} {owner : ExclusiveHolder}
  {tx rx : Channel} {result : Except ErrorBody Unit} {error : ErrorBody} {front : Waiter}
  {rest : List Waiter}

theorem Client.holdsOn_iff : client.holdsOn locks resource mode = true ↔
      client.holds locks = true ∧ client.wanted.resource = resource ∧ client.wanted.mode = mode := by
  simp [Client.holdsOn, and_assoc]

theorem Client.granted_waiting {id : UInt64} (waiting : client.stage = .waiting id rx) :
    client.granted locks = true ↔ locks.channels.received rx = some (.ok ()) := by
  rw [Client.granted, waiting]
  exact decide_eq_true_iff

theorem received_deliver : (locks.deliver tx result).channels.received rx =
      (locks.channels.received rx).or (if rx = tx then some result else none) := by
  simp only [ResourceSerializer.deliver, Oneshots.received, List.lookup_append]
  by_cases same : rx = tx
  · simp [same]
  · have distinct : (rx == tx) = false := by simpa using same
    simp [same, List.lookup_cons, distinct]

theorem Client.holds_mono (received : ∀ rx, before.channels.received rx = some (.ok ()) →
      after.channels.received rx = some (.ok ()))
    (held : client.holds before = true) : client.holds after = true := by
  obtain ⟨_, stage, _⟩ := client
  cases stage with
  | waiting _ rx =>
      simp only [Client.holds, Client.granted, Bool.and_eq_true, decide_eq_true_eq] at held ⊢
      exact ⟨received rx held.1, held.2⟩
  | guarded | reserved | launched | ended => exact held

theorem Client.holds_congr (before : ResourceSerializer)
    (same : after.channels.delivered = before.channels.delivered) :
    client.holds after = client.holds before := by
  refine Bool.eq_iff_iff.mpr ⟨Client.holds_mono ?_, Client.holds_mono ?_⟩
  · simp [Oneshots.received, same]
  · simp [Oneshots.received, same]

theorem Client.holdsOn_congr (before : ResourceSerializer)
    (same : after.channels.delivered = before.channels.delivered) :
    Client.holdsOn after resource mode = Client.holdsOn before resource mode := by
  funext client
  simp [Client.holdsOn, Client.holds_congr _ same]

/-- Nobody gains a hold from a delivery but the client that waits on its channel. -/
theorem Client.holds_deliver (held : client.holds (locks.deliver tx result) = true) :
    client.holds locks = true ∨ client.waitsOn tx = true := by
  obtain ⟨_, stage, _⟩ := client
  cases stage with
  | waiting _ rx =>
      by_cases same : rx = tx
      · exact .inr (by simp [Client.waitsOn, same])
      · left
        simpa [Client.holds, Client.granted, received_deliver, same] using held
  | guarded | reserved | launched | ended => exact .inl held

theorem Client.holds_deliver_error
    (held : client.holds (locks.deliver tx (.error error)) = true) : client.holds locks = true := by
  obtain ⟨_, stage, _⟩ := client
  cases stage with
  | waiting _ rx =>
      simp only [Client.holds, Client.granted, received_deliver, Bool.and_eq_true,
        decide_eq_true_eq] at held ⊢
      refine ⟨?_, held.2⟩
      cases stored : locks.channels.received rx with
      | some => simpa [stored] using held.1
      | none =>
          have impossible := held.1
          rw [stored, Option.none_or] at impossible
          split at impossible <;> simp at impossible
  | guarded | reserved | launched | ended => exact held

/-- What a change of the maps must leave alone when it only takes waiters away. -/
structure Eased (before after : ResourceSerializer) : Prop where
  exclusive : ∀ resource, (after.exclusive.lookup resource).map ExclusiveHolder.processId? =
    (before.exclusive.lookup resource).map ExclusiveHolder.processId?
  sharedCount : ∀ resource, after.sharedCount resource = before.sharedCount resource
  queue : ∀ resource, after.queue resource ⊆ before.queue resource
  created : after.channels.created = before.channels.created
  delivered : after.channels.delivered = before.channels.delivered

theorem Accounted.eased (accounted : Accounted before clients) (eased : Eased before after) :
    Accounted after clients where
  linked :=
    { queued := fun waiting => accounted.linked.queued (eased.queue _ waiting)
      tickets := accounted.linked.tickets
      created := fun member waits => eased.created ▸ accounted.linked.created member waits
      senders := fun waiting => eased.created ▸ accounted.linked.senders (eased.queue _ waiting)
      unsent := fun {rx} later => by
        rw [eased.created] at later
        simpa [Oneshots.received, eased.delivered] using accounted.linked.unsent later
      minted := accounted.linked.minted
      revocable := accounted.linked.revocable }
  covered :=
    { recorded := fun {client} member held isExclusive => by
        rw [Client.holds_congr _ eased.delivered] at held
        exact (eased.exclusive _).trans (accounted.covered.recorded member held isExclusive)
      alone := fun resource => by
        rw [Client.holdsOn_congr _ eased.delivered]
        exact accounted.covered.alone resource
      shared := fun resource => by
        rw [Client.holdsOn_congr _ eased.delivered, eased.sharedCount]
        exact accounted.covered.shared resource }

structure Granted (before after : ResourceSerializer) (resource : Resource) (mode : LockMode)
    (owner : ExclusiveHolder) : Prop where
  exclusive : ∀ {other}, other ≠ resource → after.exclusive.lookup other = before.exclusive.lookup other
  sharedCount : ∀ {other}, other ≠ resource → after.sharedCount other = before.sharedCount other
  holder : mode = .exclusive → after.exclusive.lookup resource = some owner
  unshared : mode = .exclusive → after.sharedCount resource = before.sharedCount resource
  counted : mode = .sharedRead → after.sharedCount resource = before.sharedCount resource + 1

theorem grant_granted : Granted locks (locks.grant resource mode owner) resource mode owner where
  exclusive apart := (ResourceSerializer.grant_sameAt apart).exclusive
  sharedCount apart := (ResourceSerializer.grant_sameAt apart).sharedCount
  holder isExclusive := by
    subst isExclusive
    exact AList.lookup_insert _
  unshared isExclusive := by
    subst isExclusive
    rfl
  counted isShared := by
    subst isShared
    simp [ResourceSerializer.grant, ResourceSerializer.sharedCount]

/-- A grant on a free resource makes one more holder there, and everybody else keeps its own. -/
theorem Covered.granted (covered : Covered before clients) (free : before.canGrant resource mode = true)
    (effect : Granted before after resource mode owner)
    (holders : ∀ {client}, client ∈ changed → client.holds after = true →
      client ∈ clients ∧ client.holds before = true ∨
      client.wanted.resource = resource ∧ client.wanted.mode = mode ∧ client.wanted.owner = owner)
    (counts : ∀ other kind, changed.countP (Client.holdsOn after other kind) ≤
      clients.countP (Client.holdsOn before other kind) +
        if other = resource ∧ kind = mode then 1 else 0) : Covered after changed := by
  have vacant := ResourceSerializer.exclusive_none_of_canGrant free
  have untouched : ∀ {client}, client ∈ clients → client.holds before = true →
      client.wanted.mode = .exclusive → client.wanted.resource ≠ resource := by
    intro client member held isExclusive same
    have record := covered.recorded member held isExclusive
    rw [Client.Recorded, same, vacant] at record
    contradiction
  refine { recorded := ?_, alone := fun other => ?_, shared := fun other => ?_ }
  · intro client member held isExclusive
    rcases holders member held with ⟨old, held⟩ | ⟨atResource, asMode, asOwner⟩
    · rw [Client.Recorded, effect.exclusive (untouched old held isExclusive)]
      exact covered.recorded old held isExclusive
    · rw [Client.Recorded, atResource, effect.holder (asMode.symm.trans isExclusive), asOwner]
      rfl
  · have total := counts other .exclusive
    have old := covered.alone other
    split at total
    next target =>
      have nobody : clients.countP (Client.holdsOn before other .exclusive) = 0 := by
        refine List.countP_eq_zero.mpr fun client member counted => ?_
        obtain ⟨held, isResource, isMode⟩ := Client.holdsOn_iff.mp counted
        exact untouched member held isMode (isResource.trans target.1)
      omega
    · omega
  · have total := counts other .sharedRead
    have old := covered.shared other
    by_cases same : other = resource
    · subst same
      cases mode with
      | exclusive =>
          rw [effect.unshared rfl]
          simp only [reduceCtorEq, and_false, if_false] at total
          omega
      | sharedRead =>
          rw [effect.counted rfl]
          simp only [and_self, if_true] at total
          omega
    · rw [effect.sharedCount same]
      simp only [same, false_and, if_false] at total
      omega

/-- A delivery makes holders only of the clients that wait on its channel. -/
theorem countP_holdsOn_le (single : clients.countP (Client.waitsOn tx) ≤ 1)
    (holders : ∀ {client}, client ∈ clients → client.holds after = true →
      client.holds before = true ∨ client.waitsOn tx = true)
    (winner : ∀ {client}, client ∈ clients → client.waitsOn tx = true →
      client.wanted.resource = resource ∧ client.wanted.mode = mode) (kind : LockMode) :
    clients.countP (Client.holdsOn after other kind) ≤ clients.countP (Client.holdsOn before other kind) +
        if other = resource ∧ kind = mode then 1 else 0 := by
  split
  · have covered : clients.countP (Client.holdsOn after other kind) ≤
        clients.countP (Client.holdsOn before other kind) +
          clients.countP (Client.waitsOn tx) := by
      refine countP_le_add fun client member counted => ?_
      obtain ⟨held, isResource, isMode⟩ := Client.holdsOn_iff.mp counted
      rcases holders member held with old | new
      · exact .inl (Client.holdsOn_iff.mpr ⟨old, isResource, isMode⟩)
      · exact .inr new
    omega
  next apart =>
    refine List.countP_mono_left fun client member counted => ?_
    obtain ⟨held, isResource, isMode⟩ := Client.holdsOn_iff.mp counted
    rcases holders member held with old | new
    · exact Client.holdsOn_iff.mpr ⟨old, isResource, isMode⟩
    · obtain ⟨atResource, asMode⟩ := winner member new
      exact absurd ⟨isResource.symm.trans atResource, isMode.symm.trans asMode⟩ apart

theorem grantFront_queue_subset (stored : locks.queue resource = front :: rest) (other : Resource) :
    (locks.grantFront resource front rest).queue other ⊆ locks.queue other := by
  by_cases same : other = resource
  · subst same
    rw [ResourceSerializer.grantFront_queue, stored]
    exact List.subset_cons_self front rest
  · rw [(ResourceSerializer.grantFront_sameAt same).queue]
    exact List.Subset.refl _

theorem Linked.deliver (linked : Linked locks clients) (sender : tx < locks.channels.created) :
    Linked (locks.deliver tx result) clients where
  queued := linked.queued
  tickets := linked.tickets
  created := linked.created
  senders := linked.senders
  unsent := by
    intro rx later
    have apart : rx ≠ tx := Nat.ne_of_gt (Nat.lt_of_lt_of_le sender later)
    rw [received_deliver, linked.unsent later]
    simp [apart]
  minted := linked.minted
  revocable := linked.revocable

theorem Linked.of_queue (linked : Linked before clients)
    (queue : ∀ resource, after.queue resource ⊆ before.queue resource)
    (channels : after.channels = before.channels) : Linked after clients where
  queued waiting := linked.queued (queue _ waiting)
  tickets := linked.tickets
  created member waits := channels ▸ linked.created member waits
  senders waiting := channels ▸ linked.senders (queue _ waiting)
  unsent later := by
    rw [channels] at later ⊢
    exact linked.unsent later
  minted := linked.minted
  revocable := linked.revocable

@[simp]
theorem grantFront_channels : (locks.grantFront resource front rest).channels = locks.channels := by
  simp [ResourceSerializer.grantFront, ResourceSerializer.setQueue]

theorem Accounted.grantFront
    (accounted : Accounted locks clients) (stored : locks.queue resource = front :: rest)
    (free : locks.canGrant resource front.mode = true) :
    Accounted ((locks.grantFront resource front rest).deliver front.tx (.ok ())) clients := by
  have inQueue : front ∈ locks.queue resource := by simp [stored]
  have taken : Linked (locks.grantFront resource front rest) clients :=
    accounted.linked.of_queue (grantFront_queue_subset stored) grantFront_channels
  have effect : Granted locks ((locks.grantFront resource front rest).deliver front.tx (.ok ()))
      resource front.mode front.owner := by
    have inner : Granted (locks.setQueue resource rest) (locks.grantFront resource front rest)
        resource front.mode front.owner := grant_granted
    exact ⟨inner.exclusive, inner.sharedCount, inner.holder, inner.unshared, inner.counted⟩
  have holders : ∀ {client}, client ∈ clients →
      client.holds ((locks.grantFront resource front rest).deliver front.tx (.ok ())) = true →
      client.holds locks = true ∨ client.waitsOn front.tx = true := by
    intro client _ held
    rcases Client.holds_deliver held with old | new
    · rw [Client.holds_congr locks (by rw [grantFront_channels])] at old
      exact .inl old
    · exact .inr new
  refine ⟨taken.deliver ?_, accounted.covered.granted free effect ?_ ?_⟩
  · rw [grantFront_channels]
    exact accounted.linked.senders inQueue
  · intro client member held
    rcases holders member held with old | new
    · exact .inl ⟨member, old⟩
    · exact .inr (accounted.linked.queued inQueue member new)
  · intro other kind
    refine countP_holdsOn_le (accounted.linked.tickets front.tx) holders ?_ kind
    intro client member waits
    obtain ⟨atResource, asMode, _⟩ := accounted.linked.queued inQueue member waits
    exact ⟨atResource, asMode⟩

/-- Whoever a wake-up goes to, it is granted what it is recorded for. -/
theorem Accounted.wake (accounted : Accounted locks clients) :
    Accounted (locks.wake resource) clients := by
  refine ResourceSerializer.wake_rule (fun state => Accounted state clients) ?_ ?_ ?_ accounted
  · intro state stored kept
    refine kept.eased ⟨fun _ => rfl, fun _ => rfl, fun other => ?_, rfl, rfl⟩
    by_cases same : other = resource
    · subst same
      simp [ResourceSerializer.queue]
    · simp [ResourceSerializer.queue, AList.lookup_erase_ne same]
  · intro state front rest stored free _ kept
    exact kept.grantFront stored free
  · intro state front rest stored free _ kept
    refine kept.eased ⟨fun other => ?_, fun other => ?_, fun other => ?_, by simp, by simp⟩
    · rw [ResourceSerializer.discardFront_exclusive free]
    · exact ResourceSerializer.discardFront_sharedCount other
    · rw [ResourceSerializer.queue_congr ResourceSerializer.unlockSilent_waiters]
      exact grantFront_queue_subset stored other

theorem Accounted.wakeAll (released : List Resource) (accounted : Accounted locks clients) :
    Accounted (locks.wakeAll released) clients := by
  induction released generalizing locks with
  | nil => exact accounted
  | cons _ _ ih => exact ih accounted.wake

/-! Changes of the clients, and of the maps where nobody holds anything. -/

/-- What becomes of a client when it goes on, gives up or is revoked. -/
structure Client.Weakens (locks : ResourceSerializer) (client changed : Client) : Prop where
  wanted : changed.wanted = client.wanted
  holds : changed.holds locks = true → client.holds locks = true
  waits : ∀ rx, changed.waitsOn rx = true → client.waitsOn rx = true
  revoked : changed.revoked = true →
    client.revoked = true ∨ ∃ processId, client.wanted.owner = .spawning processId

theorem Client.Weakens.refl : Client.Weakens locks client client := ⟨rfl, id, fun _ => id, .inl⟩

theorem Linked.weaken (linked : Linked locks clients)
    (related : List.Forall₂ (Client.Weakens locks) clients changed) : Linked locks changed where
  queued := by
    intro resource waiter client waiting member waits
    obtain ⟨old, inside, weakens⟩ := exists_of_mem_right related member
    rw [weakens.wanted]
    exact linked.queued waiting inside (weakens.waits _ waits)
  tickets rx := Nat.le_trans
    (countP_le_of_forall₂ related fun _ _ weakens => weakens.waits rx) (linked.tickets rx)
  created := by
    intro client rx member waits
    obtain ⟨old, inside, weakens⟩ := exists_of_mem_right related member
    exact linked.created inside (weakens.waits _ waits)
  senders := linked.senders
  unsent := linked.unsent
  minted processId := by
    refine Nat.le_trans (countP_le_of_forall₂ related fun client changed weakens => ?_)
      (linked.minted processId)
    rw [weakens.wanted]
    exact id
  revocable := by
    intro client member isRevoked
    obtain ⟨_, inside, weakens⟩ := exists_of_mem_right related member
    rw [weakens.wanted]
    rcases weakens.revoked isRevoked with before | owned
    · exact linked.revocable inside before
    · exact owned

/-- Fewer holders under maps that still show the ones that are left. -/
theorem Covered.fewer (covered : Covered before clients)
    (related : List.Forall₂ (fun client next => next.wanted = client.wanted ∧
      (next.holds after = true → client.holds before = true)) clients changed)
    (exclusive : ∀ {client}, client ∈ changed → client.holds after = true →
      client.wanted.mode = .exclusive →
      (after.exclusive.lookup client.wanted.resource).map ExclusiveHolder.processId? =
        (before.exclusive.lookup client.wanted.resource).map ExclusiveHolder.processId?)
    (sharedCount : ∀ resource, before.sharedCount resource ≤ after.sharedCount resource) :
    Covered after changed := by
  have counts : ∀ resource mode, changed.countP (Client.holdsOn after resource mode) ≤
      clients.countP (Client.holdsOn before resource mode) := by
    intro resource mode
    refine countP_le_of_forall₂ related fun client next relation counted => ?_
    obtain ⟨held, isResource, isMode⟩ := Client.holdsOn_iff.mp counted
    rw [relation.1] at isResource isMode
    exact Client.holdsOn_iff.mpr ⟨relation.2 held, isResource, isMode⟩
  refine
    { recorded := ?_
      alone := fun resource => Nat.le_trans (counts resource _) (covered.alone resource)
      shared := fun resource => Nat.le_trans (counts resource _)
        (Nat.le_trans (covered.shared resource) (sharedCount resource)) }
  intro client member held isExclusive
  obtain ⟨_, inside, sameWanted, wasHeld⟩ := exists_of_mem_right related member
  have record := covered.recorded inside (wasHeld held) (by rw [← sameWanted]; exact isExclusive)
  rw [Client.Recorded, ← sameWanted] at record
  exact (exclusive member held isExclusive).trans record

theorem Accounted.weaken (accounted : Accounted locks clients)
    (related : List.Forall₂ (Client.Weakens locks) clients changed) : Accounted locks changed where
  linked := accounted.linked.weaken related
  covered := accounted.covered.fewer
    (related.imp fun _ _ weakens => ⟨weakens.wanted, weakens.holds⟩) (fun _ _ _ => rfl)
    (fun _ => Nat.le_refl _)

theorem forall₂_sameClients (holders : ∀ {client}, client ∈ clients → client.holds after = true →
      client.holds before = true) :
    List.Forall₂ (fun client next => next.wanted = client.wanted ∧
      (next.holds after = true → client.holds before = true)) clients clients :=
  List.forall₂_same.mpr fun _ member => ⟨rfl, holders member⟩

theorem Accounted.sendError (accounted : Accounted locks clients)
    (sender : tx < locks.channels.created) : Accounted (locks.send tx (.error error)) clients := by
  simp only [ResourceSerializer.send]
  split
  · exact
      { linked := accounted.linked.deliver sender
        covered := accounted.covered.fewer (forall₂_sameClients fun _ => Client.holds_deliver_error)
          (fun _ _ _ => rfl) (fun _ => Nat.le_refl _) }
  · exact accounted

theorem Accounted.sendErrors (waiting : List Waiter) (accounted : Accounted locks clients)
    (senders : ∀ waiter ∈ waiting, waiter.tx < locks.channels.created) :
    Accounted (waiting.foldl (fun state waiter => state.send waiter.tx (.error error)) locks)
      clients := by
  induction waiting generalizing locks with
  | nil => exact accounted
  | cons head _ ih =>
      have created : (locks.send head.tx (.error error)).channels.created = locks.channels.created := by
        simp only [ResourceSerializer.send]
        split <;> rfl
      refine ih (accounted.sendError (senders head (by simp))) fun waiter member => ?_
      rw [created]
      exact senders waiter (by simp [member])

section

variable (accounted : Accounted locks clients)
include accounted

theorem Accounted.failWaiters : Accounted (locks.failWaiters resource error) clients := by
  refine Accounted.sendErrors _ (accounted.eased ⟨fun _ => rfl, fun _ => rfl, fun other => ?_, rfl, rfl⟩)
    fun waiter member => accounted.linked.senders member
  by_cases same : other = resource
  · subst same
    simp [ResourceSerializer.queue]
  · simp [ResourceSerializer.queue, AList.lookup_erase_ne same]

/-- Entries that no client holds can be taken out of the exclusive map. -/
theorem Accounted.dropEntries {exclusive : Assoc Resource ExclusiveHolder}
    (kept : ∀ {client}, client ∈ clients → client.holds locks = true → client.wanted.mode = .exclusive →
      exclusive.lookup client.wanted.resource = locks.exclusive.lookup client.wanted.resource) :
    Accounted { locks with exclusive := exclusive } clients where
  linked := accounted.linked.of_queue (fun _ => List.Subset.refl _) rfl
  covered := accounted.covered.fewer (forall₂_sameClients fun _ => id)
    (fun {client} member held isExclusive => by
      rw [kept member (Client.holds_congr { locks with exclusive := exclusive } rfl |>.trans held)
        isExclusive])
    (fun _ => Nat.le_refl _)

theorem Accounted.unlockShared (slack : clients.countP (Client.holdsOn locks resource .sharedRead) <
      locks.sharedCount resource) :
    Accounted (locks.unlockSilent resource .sharedRead) clients where
  linked := accounted.linked.of_queue
    (fun other => by
      rw [ResourceSerializer.queue_congr ResourceSerializer.unlockSilent_waiters]
      exact List.Subset.refl _)
    ResourceSerializer.unlockSilent_channels
  covered := by
    have sameHolders : ∀ other mode, Client.holdsOn (locks.unlockSilent resource .sharedRead) other mode =
          Client.holdsOn locks other mode :=
      fun _ _ => Client.holdsOn_congr locks (by rw [ResourceSerializer.unlockSilent_channels])
    refine { recorded := ?_, alone := fun other => ?_, shared := fun other => ?_ }
    · intro client member held isExclusive
      rw [Client.holds_congr locks (by rw [ResourceSerializer.unlockSilent_channels])]
        at held
      rw [Client.Recorded, ResourceSerializer.unlockSilent_sharedRead_exclusive]
      exact accounted.covered.recorded member held isExclusive
    · rw [sameHolders]
      exact accounted.covered.alone other
    · rw [sameHolders]
      by_cases same : other = resource
      · subst same
        rw [ResourceSerializer.unlockSilent_sharedRead_sharedCount]
        omega
      · rw [(ResourceSerializer.unlockSilent_sameAt same).sharedCount]
        exact accounted.covered.shared other

end

/-! A client that arrives. -/

theorem Linked.append (linked : Linked locks clients)
    (unwaiting : ∀ rx, newcomer.waitsOn rx = false) (unrevoked : newcomer.revoked = false)
    (fresh : ∀ {processId}, newcomer.wanted.owner = .spawning processId →
      ∀ client ∈ clients, client.wanted.owner ≠ .spawning processId) :
    Linked locks (clients ++ [newcomer]) where
  queued := by
    intro resource waiter client waiting member waits
    rcases List.mem_append.mp member with old | new
    · exact linked.queued waiting old waits
    · rw [List.mem_singleton.mp new, unwaiting] at waits
      contradiction
  tickets rx := by
    rw [List.countP_append]
    simp [unwaiting, linked.tickets rx]
  created := by
    intro client rx member waits
    rcases List.mem_append.mp member with old | new
    · exact linked.created old waits
    · rw [List.mem_singleton.mp new, unwaiting] at waits
      contradiction
  senders := linked.senders
  unsent := linked.unsent
  minted processId := by
    rw [List.countP_append]
    by_cases mints : newcomer.wanted.owner = .spawning processId
    · have nobody : clients.countP (fun client => client.wanted.owner = .spawning processId) = 0 :=
        List.countP_eq_zero.mpr fun client member => by simpa using fresh mints client member
      rw [nobody]
      simp [mints]
    · simp [mints, linked.minted processId]
  revocable := by
    intro client member isRevoked
    rcases List.mem_append.mp member with old | new
    · exact linked.revocable old isRevoked
    · rw [List.mem_singleton.mp new, unrevoked] at isRevoked
      contradiction

theorem Covered.append (covered : Covered locks clients)
    (empty : newcomer.holds locks = false) : Covered locks (clients ++ [newcomer]) where
  recorded := by
    intro client member held isExclusive
    rcases List.mem_append.mp member with old | new
    · exact covered.recorded old held isExclusive
    · rw [List.mem_singleton.mp new, empty] at held
      contradiction
  alone resource := by
    rw [List.countP_append]
    simp [Client.holdsOn, empty, covered.alone resource]
  shared resource := by
    rw [List.countP_append]
    simp [Client.holdsOn, empty, covered.shared resource]

theorem Acquisition.guardStage_unwaiting (wanted : Acquisition) (rx : Channel) :
    Client.waitsOn rx { wanted := wanted, stage := wanted.guardStage } = false := by
  cases wanted <;> rfl

section Arrival

variable {wanted : Acquisition} (accounted : Accounted locks clients)
  (fresh : ∀ {processId}, wanted.owner = .spawning processId →
    ∀ client ∈ clients, client.wanted.owner ≠ .spawning processId)
include accounted fresh

theorem Accounted.refuse : Accounted locks (clients ++ [{ wanted := wanted, stage := .ended }]) where
  linked := accounted.linked.append (fun _ => rfl) rfl fresh
  covered := accounted.covered.append rfl

theorem Accounted.grantNew (free : locks.canGrant wanted.resource wanted.mode = true) :
    Accounted (locks.grant wanted.resource wanted.mode wanted.owner)
      (clients ++ [{ wanted := wanted, stage := wanted.guardStage }]) where
  linked := by
    refine Linked.append (accounted.linked.of_queue (fun other => ?_)
      ResourceSerializer.grant_channels) (fun rx => wanted.guardStage_unwaiting rx) rfl fresh
    rw [ResourceSerializer.queue_congr ResourceSerializer.grant_waiters]
    exact List.Subset.refl _
  covered := by
    refine accounted.covered.granted free grant_granted ?_ fun other kind => ?_
    · intro client member held
      rcases List.mem_append.mp member with old | new
      · rw [Client.holds_congr locks (by rw [ResourceSerializer.grant_channels])] at held
        exact .inl ⟨old, held⟩
      · rw [List.mem_singleton.mp new]
        exact .inr ⟨rfl, rfl, rfl⟩
    · rw [List.countP_append, Client.holdsOn_congr locks (by rw [ResourceSerializer.grant_channels])]
      refine Nat.add_le_add_left ?_ _
      by_cases counted : Client.holdsOn locks other kind
          { wanted := wanted, stage := wanted.guardStage } = true
      · obtain ⟨_, isResource, isMode⟩ := Client.holdsOn_iff.mp counted
        rw [if_pos ⟨isResource.symm, isMode.symm⟩]
        exact List.countP_le_length
      · rw [List.countP_singleton, if_neg counted]
        exact Nat.zero_le _

theorem Accounted.enqueue : Accounted (locks.enqueue wanted.resource wanted.mode wanted.owner) (clients ++
        [{ wanted := wanted, stage := .waiting locks.nextWaiter locks.channels.created }]) := by
  have stored : ∀ {other waiter},
      waiter ∈ (locks.enqueue wanted.resource wanted.mode wanted.owner).queue other →
      waiter ∈ locks.queue other ∨ other = wanted.resource ∧
        waiter = ⟨locks.nextWaiter, wanted.mode, wanted.owner, locks.channels.created⟩ := by
    intro other waiter member
    by_cases same : other = wanted.resource
    · subst same
      have split : waiter ∈ locks.queue wanted.resource ++
          [⟨locks.nextWaiter, wanted.mode, wanted.owner, locks.channels.created⟩] := by
        simpa [ResourceSerializer.enqueue, ResourceSerializer.queue] using member
      rcases List.mem_append.mp split with old | new
      · exact .inl old
      · exact .inr ⟨rfl, List.mem_singleton.mp new⟩
    · rw [(ResourceSerializer.enqueue_sameAt same).queue] at member
      exact .inl member
  have unused : ∀ {client}, client ∈ clients → client.waitsOn locks.channels.created = false := by
    intro client member
    refine Bool.eq_false_iff.mpr fun waits => ?_
    exact absurd (accounted.linked.created member waits) (Nat.lt_irrefl _)
  have counted := accounted.refuse fresh
  refine ⟨?_, Covered.append ?_ ?_⟩
  · refine
      { queued := ?_
        tickets := fun rx => ?_
        created := ?_
        senders := ?_
        unsent := fun {rx} later => accounted.linked.unsent (Nat.le_of_succ_le later)
        minted := fun processId => by
          simpa [List.countP_append] using counted.linked.minted processId
        revocable := ?_ }
    · intro other waiter client waiting member waits
      rcases stored waiting, List.mem_append.mp member with ⟨old | ⟨isResource, isWaiter⟩, known | new⟩
      · exact accounted.linked.queued old known waits
      · rw [List.mem_singleton.mp new] at waits
        have same : locks.channels.created = waiter.tx := by simpa [Client.waitsOn] using waits
        have earlier := accounted.linked.senders old
        rw [same] at earlier
        exact absurd earlier (Nat.lt_irrefl _)
      · rw [isWaiter, unused known] at waits
        contradiction
      · rw [List.mem_singleton.mp new, isWaiter]
        exact ⟨isResource.symm, rfl, rfl⟩
    · rw [List.countP_append]
      by_cases same : rx = locks.channels.created
      · have nobody : clients.countP (Client.waitsOn rx) = 0 :=
          List.countP_eq_zero.mpr fun client member => by simp [same, unused member]
        rw [nobody, Nat.zero_add]
        exact List.countP_le_length
      · have other : (locks.channels.created = rx) = False := by simpa using Ne.symm same
        simpa [Client.waitsOn, other] using accounted.linked.tickets rx
    · intro client rx member waits
      rcases List.mem_append.mp member with known | new
      · exact Nat.lt_succ_of_lt (accounted.linked.created known waits)
      · rw [List.mem_singleton.mp new] at waits
        have same : locks.channels.created = rx := by simpa [Client.waitsOn] using waits
        rw [← same]
        exact Nat.lt_succ_self _
    · intro other waiter waiting
      rcases stored waiting with old | ⟨_, isWaiter⟩
      · exact Nat.lt_succ_of_lt (accounted.linked.senders old)
      · rw [isWaiter]
        exact Nat.lt_succ_self _
    · intro client member isRevoked
      rcases List.mem_append.mp member with known | new
      · exact accounted.linked.revocable known isRevoked
      · rw [List.mem_singleton.mp new] at isRevoked
        contradiction
  · exact accounted.covered.fewer (forall₂_sameClients fun _ => id) (fun _ _ _ => rfl)
      (fun _ => Nat.le_refl _)
  · have empty : (locks.enqueue wanted.resource wanted.mode wanted.owner).channels.received
        locks.channels.created = none := accounted.linked.unsent (Nat.le_refl _)
    simp [Client.holds, Client.granted, empty]

end Arrival

end

end CodeSpace.Store
