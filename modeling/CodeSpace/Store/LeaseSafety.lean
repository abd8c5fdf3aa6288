import CodeSpace.Store.LeaseAccounting

namespace CodeSpace.Store

open Data Domain

variable {locks before after : ResourceSerializer} {clients changed : List Client} {client : Client}
  {resource : Resource} {mode : LockMode} {owner : ExclusiveHolder} {world next : LeaseWorld}
  {index : Nat} {processId : String} {wanted : Acquisition} {id : UInt64} {rx : Channel} {stage : Stage}
  {event : LeaseEvent}

/-! What one operation of the serializer does to the bookkeeping. -/

theorem ResourceSerializer.acquire_cases (locks : ResourceSerializer) (resource : Resource)
    (mode : LockMode) (owner : ExclusiveHolder) :
    (∃ error, locks.acquire resource mode owner = (.busy error, locks)) ∨
    (locks.canGrant resource mode = true ∧
      locks.acquire resource mode owner = (.granted, locks.grant resource mode owner)) ∨
    locks.acquire resource mode owner = (.waiting locks.nextWaiter locks.channels.created,
      (locks.enqueue resource mode owner).wake resource) := by
  have acquired : Acquired locks resource mode owner (locks.acquire resource mode owner) :=
    acquire_acquired
  generalize locks.acquire resource mode owner = outcome at acquired
  cases acquired with
  | busy error => exact .inl ⟨error, rfl⟩
  | granted free => exact .inr (.inl ⟨free, rfl⟩)
  | waiting => exact .inr (.inr rfl)

theorem ResourceSerializer.cancelWaiter_cases (locks : ResourceSerializer) (resource : Resource)
    (id : UInt64) :
    ∃ rest, Eased locks rest ∧ (locks.cancelWaiter resource id = (false, rest) ∨
        locks.cancelWaiter resource id = (true, rest.wake resource)) := by
  simp only [cancelWaiter]
  split
  · exact ⟨locks, ⟨fun _ => rfl, fun _ => rfl, fun _ => List.Subset.refl _, rfl, rfl⟩, .inl rfl⟩
  next waiting stored =>
    refine ⟨locks.setQueue resource (waiting.filter fun waiter => waiter.id ≠ id),
      ⟨fun _ => rfl, fun _ => rfl, fun other => ?_, rfl, rfl⟩, ?_⟩
    · by_cases same : other = resource
      · subst same
        have isQueue : locks.queue other = waiting := by simp [queue, stored]
        rw [setQueue_queue, isQueue]
        exact List.filter_sublist.subset
      · rw [(setQueue_sameAt same).queue]
        exact List.Subset.refl _
    · split
      · exact .inr rfl
      · exact .inl rfl

theorem Accounted.vacated (accounted : Accounted locks clients) (stored : clients[index]? = some client)
    (gone : client.holdsOn locks resource .exclusive = true ∨
      clients.countP (Client.holdsOn locks resource .exclusive) = 0) :
    ∀ other ∈ clients.set index { client with stage := .ended },
      other.holdsOn locks resource .exclusive = false := by
  have nobody : (clients.set index { client with stage := .ended }).countP
      (Client.holdsOn locks resource .exclusive) = 0 := by
    rcases gone with held | none
    · have fewer := countP_set_of_counted { client with stage := .ended } stored held rfl
      have single := accounted.covered.alone resource
      omega
    · have weaker : List.Forall₂ (fun before after : Client =>
          after.holdsOn locks resource .exclusive = true →
            before.holdsOn locks resource .exclusive = true)
          clients (clients.set index { client with stage := .ended }) :=
        forall₂_set (fun _ => id) stored (by simp [Client.holdsOn, Client.holds, Client.granted])
      have bound := countP_le_of_forall₂ weaker fun _ _ kept => kept
      omega
  intro other member
  simpa using List.countP_eq_zero.mp nobody other member

theorem Client.Weakens.ended : Client.Weakens locks client { client with stage := .ended } where
  wanted := rfl
  holds held := by simp [Client.holds, Client.granted] at held
  waits rx waits := by simp [Client.waitsOn] at waits
  revoked := .inl

section

variable (accounted : Accounted locks clients)
include accounted

theorem Accounted.endClient (stored : clients[index]? = some client) :
    Accounted locks (clients.set index { client with stage := .ended }) :=
  accounted.weaken (forall₂_set (fun _ => .refl) stored .ended)

theorem Accounted.unlockExclusive
    (released : ∀ client ∈ clients, client.holdsOn locks resource .exclusive = false) :
    Accounted (locks.unlock resource .exclusive) clients := by
  refine (accounted.dropEntries fun {client} member held isExclusive => ?_).wake
  have apart : client.wanted.resource ≠ resource := by
    intro same
    have none := released client member
    rw [Client.holdsOn_iff.mpr ⟨held, same, isExclusive⟩] at none
    contradiction
  exact AList.lookup_erase_ne apart

theorem Accounted.unlock (released : match mode with
      | .exclusive => ∀ client ∈ clients, client.holdsOn locks resource .exclusive = false
      | .sharedRead => clients.countP (Client.holdsOn locks resource .sharedRead) <
          locks.sharedCount resource) : Accounted (locks.unlock resource mode) clients := by
  cases mode with
  | sharedRead => exact (accounted.unlockShared released).wake
  | exclusive => exact accounted.unlockExclusive released

/-- Entries of processes that no client holds for any more can be released. -/
theorem Accounted.releaseMatching (wanted : Option String → Bool)
    (nobody : ∀ client ∈ clients, client.holds locks = true →
      wanted client.wanted.owner.processId? = false) :
    Accounted ((locks.releaseMatching fun holder => wanted holder.processId?).2.wakeAll
      (locks.releaseMatching fun holder => wanted holder.processId?).1) clients := by
  refine Accounted.wakeAll _ (accounted.dropEntries fun {client} member held isExclusive => ?_)
  rw [Assoc.lookup_eraseAll, if_neg]
  intro inside
  obtain ⟨holder, stored, isWanted⟩ := Assoc.mem_keysWhere.mp inside
  have record := accounted.covered.recorded member held isExclusive
  have owned : holder.processId? = client.wanted.owner.processId? := by
    simpa [Client.Recorded, stored] using record
  rw [owned, nobody client member held] at isWanted
  contradiction

theorem Accounted.confirmProcess (processId : String) :
    Accounted (locks.confirmProcess processId) clients := by
  have failAll : ∀ (targets : List Resource) {state : ResourceSerializer}, Accounted state clients →
      Accounted (targets.foldl (fun state resource => state.failWaiters resource shellBusy) state)
        clients := by
    intro targets
    induction targets with
    | nil => exact id
    | cons _ _ ih => exact fun kept => ih kept.failWaiters
  refine failAll _ (accounted.eased
    ⟨fun other => ?_, fun _ => rfl, fun _ => List.Subset.refl _, rfl, rfl⟩)
  rw [Assoc.lookup_setAll]
  split
  next target =>
    obtain ⟨_, stored, isSpawning⟩ := Assoc.mem_keysWhere.mp target
    rw [stored, of_decide_eq_true isSpawning]
    rfl
  · rfl

end

/-! One step of the clients. -/

/-- A ticket whose grant was delivered and then revoked is not dropped, unpolled, while another
client holds its resource. -/
def CleanDrop (world : LeaseWorld) : LeaseEvent → Prop
  | .dropFuture index => ∀ client, world.clients[index]? = some client →
      client.granted world.locks = true → client.revoked = true →
      world.clients.countP (Client.holdsOn world.locks client.wanted.resource .exclusive) = 0
  | _ => True

def LeaseWorld.Accounts (world : LeaseWorld) : Prop := Accounted world.locks world.clients

theorem Acquisition.mode_of_spawning
    (reserves : wanted.owner = .spawning processId) : wanted.mode = .exclusive := by
  cases wanted with
  | write => rfl
  | shellBusy => rfl
  | lock => simp [Acquisition.owner] at reserves

section

variable (accounted : Accounted locks clients)
include accounted

/-- A client that gives up what it was granted leaves room for the release that follows. -/
theorem Accounted.released
    (stored : clients[index]? = some client) (granted : client.granted locks = true)
    (clean : client.revoked = true →
      clients.countP (Client.holdsOn locks client.wanted.resource .exclusive) = 0) :
    match client.wanted.mode with
    | .exclusive => ∀ other ∈ clients.set index { client with stage := .ended },
        other.holdsOn locks client.wanted.resource .exclusive = false
    | .sharedRead => (clients.set index { client with stage := .ended }).countP
          (Client.holdsOn locks client.wanted.resource .sharedRead) <
        locks.sharedCount client.wanted.resource := by
  have member := List.mem_of_getElem? stored
  cases isMode : client.wanted.mode with
  | exclusive =>
      refine accounted.vacated stored ?_
      cases isRevoked : client.revoked with
      | false =>
          exact .inl (Client.holdsOn_iff.mpr ⟨by simp [Client.holds, granted, isRevoked], rfl, isMode⟩)
      | true => exact .inr (clean isRevoked)
  | sharedRead =>
      have unrevoked : client.revoked = false := by
        refine Bool.eq_false_iff.mpr fun isRevoked => ?_
        obtain ⟨_, reserves⟩ := accounted.linked.revocable member isRevoked
        rw [Acquisition.mode_of_spawning reserves] at isMode
        contradiction
      have held : client.holdsOn locks client.wanted.resource .sharedRead = true :=
        Client.holdsOn_iff.mpr ⟨by simp [Client.holds, granted, unrevoked], rfl, isMode⟩
      have fewer := countP_set_of_counted { client with stage := .ended } stored held rfl
      have enough := accounted.covered.shared client.wanted.resource
      omega

theorem Accounted.dropReceiver (rx : Channel) : Accounted (locks.dropReceiver rx) clients :=
  accounted.eased ⟨fun _ => rfl, fun _ => rfl, fun _ => List.Subset.refl _, rfl, rfl⟩

theorem dropTicket_accounted
    (stored : clients[index]? = some client) (waiting : client.stage = .waiting id rx)
    (clean : client.granted locks = true → client.revoked = true →
      clients.countP (Client.holdsOn locks client.wanted.resource .exclusive) = 0) :
    Accounted (dropTicket locks client.wanted.resource client.wanted.mode id rx)
      (clients.set index { client with stage := .ended }) := by
  have ended := accounted.endClient stored
  obtain ⟨rest, eased, notFound | found⟩ :=
    ResourceSerializer.cancelWaiter_cases locks client.wanted.resource id
  · rw [dropTicket, notFound]
    dsimp only
    split
    next isGranted =>
      have granted : client.granted locks = true := by
        rw [Client.granted_waiting waiting, ← isGranted]
        simp only [Oneshots.received, eased.delivered]
      have room := accounted.released stored granted (clean granted)
      refine Accounted.dropReceiver (Accounted.unlock (ended.eased eased) ?_) rx
      cases isMode : client.wanted.mode with
      | exclusive =>
          rw [isMode] at room
          simpa only [Client.holdsOn_congr _ eased.delivered] using room
      | sharedRead =>
          rw [isMode] at room
          simpa only [Client.holdsOn_congr _ eased.delivered, eased.sharedCount] using room
    · exact (ended.eased eased).dropReceiver rx
  · rw [dropTicket, found]
    exact (ended.eased eased).wake.dropReceiver rx

theorem reservation_accounted {workspaceId : String}
    (stored : clients[index]? = some client) (wanted : client.wanted = .shellBusy workspaceId processId) :
    Accounted (locks.releaseProcess processId)
      (clients.set index { client with stage := .ended }) := by
  refine (accounted.endClient stored).releaseMatching (fun found => found = some processId)
    fun other member held => ?_
  refine decide_eq_false fun reserved => ?_
  obtain ⟨_, found⟩ := List.mem_iff_getElem?.mp member
  rw [List.getElem?_set] at found
  split at found
  · split at found
    · cases found
      simp [Client.holds, Client.granted] at held
    · contradiction
  next apart =>
    have owners : other.wanted.owner = .spawning processId := by
      cases kind : other.wanted with
      | write | lock => simp [kind, Acquisition.owner, ExclusiveHolder.processId?] at reserved
      | shellBusy =>
          simp only [kind, Acquisition.owner, ExclusiveHolder.processId?, Option.some.injEq] at reserved
          simp [Acquisition.owner, reserved]
    exact apart (index_eq_of_countP_le_one (accounted.linked.minted processId) stored found
      (by simp [wanted, Acquisition.owner]) (by simp [owners]))

end

theorem LeaseWorld.fresh_of_unminted (unminted : world.unminted wanted = true)
    (reserves : wanted.owner = .spawning processId) :
    ∀ client ∈ world.clients, client.wanted.owner ≠ .spawning processId := by
  rw [LeaseWorld.unminted, reserves] at unminted
  simpa [ExclusiveHolder.processId?] using unminted

/-- Where a call is once the serializer has answered it. -/
def Acquisition.stageAfter (wanted : Acquisition) : AcquireOutcome → Stage
  | .granted => wanted.guardStage
  | .busy _ => .ended
  | .waiting id rx => .waiting id rx

section

variable (accounts : world.Accounts)
include accounts

theorem LeaseWorld.acquire_accounts
    (unminted : world.unminted wanted = true) : (world.acquire wanted).Accounts := by
  have fresh : ∀ {processId}, wanted.owner = .spawning processId →
      ∀ client ∈ world.clients, client.wanted.owner ≠ .spawning processId :=
    fun reserves => world.fresh_of_unminted unminted reserves
  have unfolded : world.acquire wanted =
      { locks := (world.locks.acquire wanted.resource wanted.mode wanted.owner).2
        clients := world.clients ++ [{
          wanted := wanted
          stage := wanted.stageAfter
            (world.locks.acquire wanted.resource wanted.mode wanted.owner).1 }] } := by
    cases wanted <;> rfl
  rw [unfolded]
  rcases ResourceSerializer.acquire_cases world.locks wanted.resource wanted.mode
    wanted.owner with ⟨error, refused⟩ | ⟨free, granted⟩ | waiting
  · rw [refused]
    exact Accounted.refuse accounts fresh
  · rw [granted]
    exact Accounted.grantNew accounts fresh free
  · rw [waiting]
    exact (Accounted.enqueue accounts fresh).wake

theorem LeaseWorld.tryAcquire_accounts
    (stepped : world.tryAcquire wanted = some next) : next.Accounts := by
  cases wanted with
  | shellBusy => simp [LeaseWorld.tryAcquire] at stepped
  | write workspaceId =>
      have fresh : ∀ {processId}, (Acquisition.write workspaceId).owner = .spawning processId →
          ∀ client ∈ world.clients, client.wanted.owner ≠ .spawning processId := by
        simp [Acquisition.owner]
      have woken : Accounted (world.locks.wake (.workspace workspaceId)) world.clients := accounts.wake
      cases stepped
      simp only [LeaseWorld.tryAcquire.settle, ResourceSerializer.tryExclusiveWrite]
      split
      · exact woken.refuse fresh
      · split
        · exact woken.refuse fresh
        next vacant =>
          exact woken.grantNew fresh (ResourceSerializer.free_of_not_occupied vacant).1
  | lock resource mode =>
      have fresh : ∀ {processId}, (Acquisition.lock resource mode).owner = .spawning processId →
          ∀ client ∈ world.clients, client.wanted.owner ≠ .spawning processId := by
        simp [Acquisition.owner]
      have woken : Accounted (world.locks.wake resource) world.clients := accounts.wake
      cases stepped
      simp only [LeaseWorld.tryAcquire.settle, ResourceSerializer.tryLock]
      split
      next admitted =>
        refine woken.grantNew fresh ?_
        cases mode <;> exact ((Bool.and_eq_true _ _).mp admitted).1
      · exact woken.refuse fresh

section

variable (stored : world.clients[index]? = some client)
include stored

theorem LeaseWorld.continue_accounts
    (granted : Client.granted world.locks { client with stage := stage } = true →
      client.granted world.locks = true)
    (unwaiting : ∀ rx, Client.waitsOn rx { client with stage := stage } = false) :
    Accounted world.locks (world.clients.set index { client with stage := stage }) := by
  refine Accounted.weaken accounts (forall₂_set (fun _ => .refl) stored ⟨rfl, fun held => ?_, ?_, .inl⟩)
  · simp only [Client.holds, Bool.and_eq_true] at held ⊢
    exact ⟨granted held.1, held.2⟩
  · intro rx waits
    rw [unwaiting] at waits
    contradiction

theorem LeaseWorld.poll_accounts (stepped : world.poll index client = some next) : next.Accounts := by
  have finishEnded : ∀ rx, (LeaseWorld.poll.finish world index client rx .ended).Accounts :=
    fun rx => (Accounted.endClient accounts stored).dropReceiver rx
  cases staged : client.stage with
  | waiting _ rx =>
      simp only [LeaseWorld.poll, staged] at stepped
      split at stepped
      next received =>
        cases stepped
        refine Accounted.dropReceiver (world.continue_accounts accounts stored (fun _ => ?_) ?_) rx
        · exact (Client.granted_waiting staged).mpr received
        · cases client.wanted <;> intro rx <;> rfl
      · cases stepped
        exact finishEnded rx
      · split at stepped
        · contradiction
        · cases stepped
          exact finishEnded rx
  | guarded | reserved | launched | ended => simp [LeaseWorld.poll, staged] at stepped

theorem LeaseWorld.dropFuture_accounts (clean : CleanDrop world (.dropFuture index))
    (stepped : world.dropFuture index client = some next) : next.Accounts := by
  cases staged : client.stage with
  | waiting =>
      simp only [LeaseWorld.dropFuture, staged, Option.some.injEq] at stepped
      subst stepped
      exact dropTicket_accounted accounts stored staged (clean client stored)
  | guarded | reserved | launched | ended => simp [LeaseWorld.dropFuture, staged] at stepped

theorem LeaseWorld.dropGuard_accounts
    (stepped : world.dropGuard index client = some next) : next.Accounts := by
  have member := List.mem_of_getElem? stored
  have unrevoked : client.wanted.owner = .request → client.revoked = true →
      world.clients.countP (Client.holdsOn world.locks client.wanted.resource .exclusive) = 0 := by
    intro isRequest isRevoked
    obtain ⟨_, reserves⟩ := accounts.linked.revocable member isRevoked
    cases isRequest.symm.trans reserves
  simp only [LeaseWorld.dropGuard] at stepped
  split at stepped
  next staged wanted =>
    cases stepped
    have ended := Accounted.endClient accounts stored
    have room := accounts.released stored (by simp [Client.granted, staged])
      (unrevoked (by simp [wanted, Acquisition.owner]))
    simp only [wanted, Acquisition.mode, Acquisition.resource] at room
    simp only [LeaseWorld.Accounts, ResourceSerializer.releaseWrite]
    split
    · exact ended.unlockExclusive (by simpa [wanted] using room)
    · exact ended
  next staged wanted =>
    cases stepped
    have room := accounts.released stored (by simp [Client.granted, staged])
      (unrevoked (by simp [wanted, Acquisition.owner]))
    simp only [wanted, Acquisition.mode, Acquisition.resource] at room
    refine (Accounted.endClient accounts stored).unlock ?_
    simpa [wanted] using room
  next wanted =>
    cases stepped
    exact reservation_accounted accounts stored wanted
  next staged _ =>
    cases stepped
    exact world.continue_accounts accounts stored (by simp [Client.granted, staged]) fun _ => rfl
  · contradiction

theorem LeaseWorld.reserved_accounts {phase : ReservationPhase} (staged : client.stage = .reserved phase)
    (unwaiting : ∀ rx, Client.waitsOn rx { client with stage := stage } = false) :
    Accounted world.locks (world.clients.set index { client with stage := stage }) :=
  world.continue_accounts accounts stored (by simp [Client.granted, staged]) unwaiting

theorem LeaseWorld.armDispatch_accounts
    (stepped : world.armDispatch index client = some next) : next.Accounts := by
  simp only [LeaseWorld.armDispatch] at stepped
  split at stepped
  next staged =>
    cases stepped
    exact world.reserved_accounts accounts stored staged fun _ => rfl
  · contradiction

theorem LeaseWorld.confirm_accounts
    (stepped : world.confirm index client = some next) : next.Accounts := by
  simp only [LeaseWorld.confirm] at stepped
  split at stepped
  next processId staged _ =>
    cases stepped
    exact (world.reserved_accounts accounts stored staged fun _ => rfl).confirmProcess processId
  · contradiction

theorem LeaseWorld.abort_accounts (stepped : world.abort index client = some next) : next.Accounts := by
  simp only [LeaseWorld.abort] at stepped
  split at stepped
  next wanted =>
    cases stepped
    exact reservation_accounted accounts stored wanted
  · contradiction

end

/-- Both revocations first take the grants from their clients, then the entries from the map. -/
theorem LeaseWorld.revoke_accounts (wanted : Option String → Bool) (named : wanted none = false) :
    Accounted ((world.locks.releaseMatching fun holder => wanted holder.processId?).2.wakeAll
        (world.locks.releaseMatching fun holder => wanted holder.processId?).1)
      (world.revoke fun holder => wanted holder.processId?) := by
  have weakened : Accounted world.locks (world.revoke fun holder => wanted holder.processId?) := by
    refine Accounted.weaken accounts (List.forall₂_map_right_iff.mpr (List.forall₂_same.mpr ?_))
    intro client member
    simp only [Client.revokeFor]
    split
    next taken =>
      refine ⟨rfl, fun held => ?_, fun _ => id, fun _ => .inr ?_⟩
      · simp [Client.holds] at held
      · have isWanted := ((Bool.and_eq_true _ _).mp taken).2
        cases owned : client.wanted.owner with
        | request => simp [owned, ExclusiveHolder.processId?, named] at isWanted
        | spawning processId => exact ⟨processId, rfl⟩
        | process => cases kind : client.wanted <;> simp [kind, Acquisition.owner] at owned
    · exact .refl
  refine weakened.releaseMatching wanted fun client member held => ?_
  obtain ⟨_, _, isRevoked⟩ := List.mem_map.mp member
  subst isRevoked
  simp only [Client.revokeFor] at held ⊢
  split at held
  · simp [Client.holds] at held
  next kept =>
    rw [if_neg kept]
    simp only [held, Bool.true_and, Bool.not_eq_true] at kept
    exact kept

theorem LeaseWorld.step_accounts
    (clean : CleanDrop world event) (stepped : world.step event = some next) : next.Accounts := by
  cases event with
  | acquire =>
      simp only [LeaseWorld.step] at stepped
      split at stepped
      next unminted =>
        cases stepped
        exact world.acquire_accounts accounts unminted
      · contradiction
  | tryAcquire => exact world.tryAcquire_accounts accounts stepped
  | poll =>
      obtain ⟨client, stored, polled⟩ := Option.bind_eq_some_iff.mp stepped
      exact world.poll_accounts accounts stored polled
  | dropFuture =>
      obtain ⟨client, stored, dropped⟩ := Option.bind_eq_some_iff.mp stepped
      exact world.dropFuture_accounts accounts stored clean dropped
  | dropGuard =>
      obtain ⟨client, stored, dropped⟩ := Option.bind_eq_some_iff.mp stepped
      exact world.dropGuard_accounts accounts stored dropped
  | armDispatch =>
      obtain ⟨client, stored, armed⟩ := Option.bind_eq_some_iff.mp stepped
      exact world.armDispatch_accounts accounts stored armed
  | confirm =>
      obtain ⟨client, stored, confirmed⟩ := Option.bind_eq_some_iff.mp stepped
      exact world.confirm_accounts accounts stored confirmed
  | abort =>
      obtain ⟨_, stored, aborted⟩ := Option.bind_eq_some_iff.mp stepped
      exact world.abort_accounts accounts stored aborted
  | releaseProcess processId =>
      cases stepped
      exact world.revoke_accounts accounts (fun found => found = some processId) rfl
  | releaseAllProcesses =>
      cases stepped
      exact world.revoke_accounts accounts (fun found => found.isSome) rfl

end

theorem LeaseWorld.initial_accounts : LeaseWorld.Accounts {} where
  linked :=
    { queued := by simp
      tickets := by simp
      created := by simp
      senders := by simp [ResourceSerializer.queue]
      unsent := by simp [Oneshots.received]
      minted := by simp
      revocable := by simp }
  covered := { recorded := by simp, alone := by simp, shared := by simp }

theorem leases_accounted (reachable : (leaseSystem.restrict CleanDrop).Reachable world) :
    world.Accounts := by
  refine reachable.invariant LeaseWorld.Accounts ?_ ?_
  · rintro state rfl
    exact LeaseWorld.initial_accounts
  · intro before after event ⟨clean, stepped⟩ accounts
    exact before.step_accounts accounts clean stepped

/-! What a receiver has been sent stays there, so nobody loses a grant it was sent. -/

structure Keeps (before after : ResourceSerializer) : Prop where
  received : ∀ {rx result}, before.channels.received rx = some result →
    after.channels.received rx = some result

theorem Keeps.refl : Keeps locks locks := ⟨id⟩

theorem Keeps.trans {middle : ResourceSerializer} (left : Keeps before middle)
    (right : Keeps middle after) : Keeps before after :=
  ⟨fun stored => right.received (left.received stored)⟩

theorem Keeps.of_delivered (same : after.channels.delivered = before.channels.delivered) :
    Keeps before after where
  received stored := by simpa [Oneshots.received, same] using stored

theorem deliver_keeps {tx : Channel} {result : Except ErrorBody Unit} :
    Keeps locks (locks.deliver tx result) where
  received stored := by
    rw [received_deliver, stored]
    rfl

theorem wake_keeps : Keeps locks (locks.wake resource) := by
  refine ResourceSerializer.wake_rule (Keeps locks) ?_ ?_ ?_ .refl
  · intro state _ kept
    exact kept.trans (.of_delivered rfl)
  · intro state front rest _ _ _ kept
    have taken : Keeps state (state.grantFront resource front rest) := .of_delivered (by simp)
    exact (kept.trans taken).trans deliver_keeps
  · intro state front rest _ _ _ kept
    exact kept.trans (.of_delivered (by simp))

theorem wakeAll_keeps (released : List Resource) : Keeps locks (locks.wakeAll released) := by
  induction released generalizing locks with
  | nil => exact .refl
  | cons _ _ ih => exact wake_keeps.trans ih

theorem failWaiters_keeps {error : ErrorBody} : Keeps locks (locks.failWaiters resource error) := by
  have sends : ∀ (waiting : List Waiter) {state : ResourceSerializer},
      Keeps state (waiting.foldl (fun state waiter => state.send waiter.tx (.error error)) state) := by
    intro waiting
    induction waiting with
    | nil => exact .refl
    | cons head _ ih =>
        intro state
        have sent : Keeps state (state.send head.tx (.error error)) := by
          simp only [ResourceSerializer.send]
          split
          · exact deliver_keeps
          · exact .refl
        exact sent.trans ih
  refine Keeps.trans ?_ (sends (locks.queue resource))
  exact .of_delivered rfl

theorem confirmProcess_keeps : Keeps locks (locks.confirmProcess processId) := by
  have fails : ∀ (targets : List Resource) {state : ResourceSerializer}, Keeps state
      (targets.foldl (fun state resource => state.failWaiters resource shellBusy) state) := by
    intro targets
    induction targets with
    | nil => exact .refl
    | cons _ _ ih => exact failWaiters_keeps.trans ih
  refine Keeps.trans ?_ (fails (locks.exclusive.keysWhere (· = .spawning processId)))
  exact .of_delivered rfl

theorem unlock_keeps (mode : LockMode) : Keeps locks (locks.unlock resource mode) := by
  refine Keeps.trans ?_ wake_keeps
  exact .of_delivered (by simp)

theorem releaseProcess_keeps : Keeps locks (locks.releaseProcess processId) := by
  refine Keeps.trans ?_ (wakeAll_keeps
    (locks.releaseMatching fun holder => holder.processId? = some processId).1)
  exact .of_delivered rfl

theorem dropTicket_keeps : Keeps locks (dropTicket locks resource mode id rx) := by
  obtain ⟨rest, eased, notFound | found⟩ := ResourceSerializer.cancelWaiter_cases locks resource id
  · rw [dropTicket, notFound]
    dsimp only
    split
    · exact ((Keeps.of_delivered eased.delivered).trans (unlock_keeps _)).trans (.of_delivered rfl)
    · exact (Keeps.of_delivered eased.delivered).trans (.of_delivered rfl)
  · rw [dropTicket, found]
    exact ((Keeps.of_delivered eased.delivered).trans wake_keeps).trans (.of_delivered rfl)

/-- The client whose own ticket or guard an event is about. -/
def LeaseEvent.client? : LeaseEvent → Option Nat
  | .poll index | .dropFuture index | .dropGuard index | .armDispatch index | .confirm index
  | .abort index => some index
  | _ => none

/-- What a client does with its own ticket or guard. -/
theorem LeaseWorld.own_step (own : event.client? = some index) (stepped : world.step event = some next) :
    Keeps world.locks next.locks ∧ ∃ changed, next.clients = world.clients.set index changed := by
  cases event with
  | acquire | tryAcquire | releaseProcess | releaseAllProcesses => simp [LeaseEvent.client?] at own
  | poll =>
      obtain ⟨client, _, polled⟩ := Option.bind_eq_some_iff.mp stepped
      cases own
      simp only [LeaseWorld.poll] at polled
      split at polled
      next rx _ =>
        have finished : ∀ {stage}, LeaseWorld.poll.finish world index client rx stage = next →
            Keeps world.locks next.locks ∧ ∃ changed, next.clients = world.clients.set index changed := by
          rintro stage rfl
          exact ⟨.of_delivered rfl, _, rfl⟩
        split at polled
        · exact finished (Option.some.inj polled)
        · exact finished (Option.some.inj polled)
        · split at polled
          · contradiction
          · exact finished (Option.some.inj polled)
      · contradiction
  | dropFuture =>
      obtain ⟨client, _, dropped⟩ := Option.bind_eq_some_iff.mp stepped
      cases own
      simp only [LeaseWorld.dropFuture] at dropped
      split at dropped
      · cases dropped
        exact ⟨dropTicket_keeps, _, rfl⟩
      · contradiction
  | dropGuard =>
      obtain ⟨client, _, dropped⟩ := Option.bind_eq_some_iff.mp stepped
      cases own
      simp only [LeaseWorld.dropGuard] at dropped
      split at dropped
      · cases dropped
        refine ⟨?_, _, rfl⟩
        simp only [ResourceSerializer.releaseWrite]
        split
        · exact unlock_keeps .exclusive
        · exact .refl
      · cases dropped
        exact ⟨unlock_keeps _, _, rfl⟩
      · cases dropped
        exact ⟨releaseProcess_keeps, _, rfl⟩
      · cases dropped
        exact ⟨.refl, _, rfl⟩
      · contradiction
  | armDispatch =>
      obtain ⟨client, _, armed⟩ := Option.bind_eq_some_iff.mp stepped
      cases own
      simp only [LeaseWorld.armDispatch] at armed
      split at armed
      · cases armed
        exact ⟨.refl, _, rfl⟩
      · contradiction
  | confirm =>
      obtain ⟨client, _, confirmed⟩ := Option.bind_eq_some_iff.mp stepped
      cases own
      simp only [LeaseWorld.confirm] at confirmed
      split at confirmed
      · cases confirmed
        exact ⟨confirmProcess_keeps, _, rfl⟩
      · contradiction
  | abort =>
      obtain ⟨_, _, aborted⟩ := Option.bind_eq_some_iff.mp stepped
      cases own
      simp only [LeaseWorld.abort] at aborted
      split at aborted
      · cases aborted
        exact ⟨releaseProcess_keeps, _, rfl⟩
      · contradiction

/-- The maps show a client's hold: an entry of its own, or its share of the count. -/
def LeaseWorld.Shows (world : LeaseWorld) (client : Client) : Prop :=
  match client.wanted.mode with
  | .exclusive => client.Recorded world.locks
  | .sharedRead => world.clients.countP
      (Client.holdsOn world.locks client.wanted.resource .sharedRead) ≤
        world.locks.sharedCount client.wanted.resource

theorem LeaseWorld.Accounts.shows (accounts : world.Accounts) (member : client ∈ world.clients)
    (held : client.holds world.locks = true) : world.Shows client := by
  rw [LeaseWorld.Shows]
  split
  next isExclusive => exact accounts.covered.recorded member held isExclusive
  · exact accounts.covered.shared _

/-- Whatever the interleaving, as long as no revoked ticket is dropped under another client's hold:
each resource has at most one exclusive holder, the maps show every hold, and what a client does
with its own ticket or guard costs nobody else its hold. -/
theorem clean_drops_spare_other_leases (reachable : (leaseSystem.restrict CleanDrop).Reachable world) :
    (∀ resource, world.clients.countP (Client.holdsOn world.locks resource .exclusive) ≤ 1) ∧
    (∀ client ∈ world.clients, client.holds world.locks = true → world.Shows client) ∧
    (∀ event index next, event.client? = some index → CleanDrop world event →
      world.step event = some next → ∀ other client, other ≠ index →
      world.clients[other]? = some client → client.holds world.locks = true →
      next.clients[other]? = some client ∧ client.holds next.locks = true ∧ next.Shows client) := by
  have accounts := leases_accounted reachable
  refine ⟨accounts.covered.alone, fun client member held => accounts.shows member held, ?_⟩
  intro event index next own clean stepped other client apart stored held
  obtain ⟨keeps, _, rewritten⟩ := world.own_step own stepped
  have same : next.clients[other]? = some client := by
    rw [rewritten, List.getElem?_set, if_neg (Ne.symm apart), stored]
  have stillHeld : client.holds next.locks = true := Client.holds_mono (fun _ => keeps.received) held
  have nextAccounts := world.step_accounts accounts clean stepped
  exact ⟨same, stillHeld, nextAccounts.shows (List.mem_of_getElem? same) stillHeld⟩

/-- A reservation granted behind a writer, and polled. -/
theorem clean_drops_spare_other_leases_handover :
    ∃ world, (leaseSystem.restrict CleanDrop).Reachable world ∧
      (∃ client, world.clients[1]? = some client ∧ client.holds world.locks = true) ∧
      ∀ resource, world.clients.countP (Client.holdsOn world.locks resource .exclusive) ≤ 1 := by
  have reachable : (leaseSystem.restrict CleanDrop).Reachable _ :=
    ⟨{}, [.acquire (.write "w"), .acquire (.shellBusy "w" "p"), .dropGuard 0, .poll 1], rfl,
      .cons ⟨trivial, rfl⟩ (.cons ⟨trivial, rfl⟩ (.cons ⟨trivial, rfl⟩ (.cons ⟨trivial, rfl⟩ (.refl _))))⟩
  exact ⟨_, reachable, ⟨_, rfl, by decide⟩, (clean_drops_spare_other_leases reachable).1⟩

/-- An execution's future is dropped after its workspace was granted to it and all processes were
released: the writer the workspace went to loses its entry, and a third client writes beside it. -/
theorem revoked_ticket_drop_admits_second_writer : (∃ world, leaseSystem.Reachable world ∧
      world.clients.countP (Client.holdsOn world.locks (.workspace "w") .exclusive) = 2) ∧
    ∃ world next client, leaseSystem.Reachable world ∧
      world.step (.dropFuture 1) = some next ∧ world.clients[2]? = some client ∧
      client.holds world.locks = true ∧ client.Recorded world.locks ∧
      next.clients[2]? = some client ∧ client.holds next.locks = true ∧
      ¬ client.Recorded next.locks := by
  have revoked : leaseSystem.Reachable _ :=
    ⟨{}, [.acquire (.write "w"), .acquire (.shellBusy "w" "p"), .acquire (.write "w"), .dropGuard 0,
        .releaseAllProcesses], rfl,
      .cons rfl (.cons rfl (.cons rfl (.cons rfl (.cons rfl (.refl _)))))⟩
  have second : leaseSystem.Reachable _ :=
    ⟨{}, [.acquire (.write "w"), .acquire (.shellBusy "w" "p"), .acquire (.write "w"), .dropGuard 0,
        .releaseAllProcesses, .dropFuture 1, .acquire (.write "w")], rfl,
      .cons rfl (.cons rfl (.cons rfl (.cons rfl (.cons rfl (.cons rfl (.cons rfl (.refl _)))))))⟩
  exact ⟨⟨_, second, by decide⟩, _, _, _, revoked, rfl, rfl, by decide, by decide, rfl, by decide,
    by decide⟩

end CodeSpace.Store
