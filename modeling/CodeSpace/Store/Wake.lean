import CodeSpace.Store.Resource

namespace CodeSpace.Store

open Domain

namespace ResourceSerializer

variable {locks before middle after : ResourceSerializer} {resource other : Resource} {mode : LockMode}
  {owner : ExclusiveHolder} {front : Waiter} {rest : List Waiter} {result : Except ErrorBody Unit}
  {tx : Channel} {error : ErrorBody}

/-! Lookups after each primitive change of the three maps. -/

@[simp]
theorem canGrant_sharedRead :
    locks.canGrant resource .sharedRead = true ↔ locks.exclusive.lookup resource = none := by
  simp [canGrant]

@[simp]
theorem canGrant_exclusive : locks.canGrant resource .exclusive = true ↔
      locks.exclusive.lookup resource = none ∧ locks.sharedCount resource = 0 := by
  simp [canGrant]

theorem exclusive_none_of_canGrant (free : locks.canGrant resource mode = true) :
    locks.exclusive.lookup resource = none := by
  cases mode with
  | exclusive => exact (canGrant_exclusive.mp free).1
  | sharedRead => exact canGrant_sharedRead.mp free

theorem canGrant_false_of_held {holder : ExclusiveHolder}
    (held : locks.exclusive.lookup resource = some holder) :
    locks.canGrant resource mode = false := by
  cases mode <;> simp [canGrant, held]

@[simp]
theorem grant_waiters : (locks.grant resource mode owner).waiters = locks.waiters := by
  cases mode <;> rfl

@[simp]
theorem grant_channels : (locks.grant resource mode owner).channels = locks.channels := by
  cases mode <;> rfl

@[simp]
theorem unlockSilent_waiters : (locks.unlockSilent resource mode).waiters = locks.waiters := by
  cases mode with
  | exclusive => rfl
  | sharedRead =>
      simp only [unlockSilent]
      split
      · rfl
      · split <;> rfl

@[simp]
theorem unlockSilent_channels : (locks.unlockSilent resource mode).channels = locks.channels := by
  cases mode with
  | exclusive => rfl
  | sharedRead =>
      simp only [unlockSilent]
      split
      · rfl
      · split <;> rfl

@[simp]
theorem unlockSilent_sharedRead_exclusive :
    (locks.unlockSilent resource .sharedRead).exclusive = locks.exclusive := by
  simp only [unlockSilent]
  split
  · rfl
  · split <;> rfl

theorem unlockSilent_sharedRead_sharedCount :
    (locks.unlockSilent resource .sharedRead).sharedCount resource = locks.sharedCount resource - 1 := by
  cases stored : locks.shared.lookup resource with
  | none => simp [unlockSilent, sharedCount, stored]
  | some count =>
      by_cases last : count - 1 = 0
      · simp [unlockSilent, sharedCount, stored, last]
      · simp [unlockSilent, sharedCount, stored, last]

/-- Granting and taking the grant back at once leaves the count as it was. -/
theorem grant_unlockSilent_sharedCount :
    ((locks.grant resource .sharedRead owner).unlockSilent resource .sharedRead).sharedCount resource =
      locks.sharedCount resource := by
  rw [unlockSilent_sharedRead_sharedCount]
  simp [grant, sharedCount]

@[simp]
theorem setQueue_queue (rest : List Waiter) : (locks.setQueue resource rest).queue resource = rest := by
  by_cases empty : rest = []
  · simp [setQueue, queue, empty]
  · simp [setQueue, queue, empty]

theorem setQueue_waiters_ne_empty (rest : List Waiter) :
    (locks.setQueue resource rest).waiters.lookup resource ≠ some [] := by
  by_cases empty : rest = []
  · simp [setQueue, empty]
  · simp [setQueue, empty]

theorem queue_congr (same : after.waiters = before.waiters) (resource : Resource) :
    after.queue resource = before.queue resource := by
  simp [queue, same]

theorem processHeld_congr (same : after.exclusive.lookup resource = before.exclusive.lookup resource) :
    after.processHeld resource = before.processHeld resource := by
  cases resource <;> simp [processHeld, same]

theorem canGrant_congr
    (sameExclusive : after.exclusive.lookup resource = before.exclusive.lookup resource)
    (sameCount : after.sharedCount resource = before.sharedCount resource) :
    after.canGrant resource mode = before.canGrant resource mode := by
  cases mode <;> simp [canGrant, sameExclusive, sameCount]

@[simp]
theorem grantFront_queue : (locks.grantFront resource front rest).queue resource = rest := by
  rw [grantFront, queue_congr grant_waiters, setQueue_queue]

theorem queue_nil_of_not_hasWaiters (nobody : ¬ locks.hasWaiters resource = true) :
    locks.queue resource = [] := by
  unfold hasWaiters waiterCount at nobody
  rw [decide_eq_true_eq] at nobody
  exact List.length_eq_zero_iff.mp (by omega)

theorem free_of_not_occupied (vacant : ¬ locks.occupied resource = true) :
    locks.canGrant resource .exclusive = true ∧ locks.queue resource = [] := by
  simp only [occupied, Bool.or_eq_true, not_or, decide_eq_true_eq] at vacant
  obtain ⟨⟨notHeld, _⟩, nobody⟩ := vacant
  refine ⟨canGrant_exclusive.mpr ⟨by simpa using notHeld, by omega⟩, ?_⟩
  exact queue_nil_of_not_hasWaiters nobody

/-! An operation on one resource leaves what the maps hold about every other one. -/

structure SameAt (before after : ResourceSerializer) (resource : Resource) : Prop where
  exclusive : after.exclusive.lookup resource = before.exclusive.lookup resource
  shared : after.shared.lookup resource = before.shared.lookup resource
  waiters : after.waiters.lookup resource = before.waiters.lookup resource

theorem SameAt.refl : SameAt before before resource := ⟨rfl, rfl, rfl⟩

theorem SameAt.trans (left : SameAt before middle resource) (right : SameAt middle after resource) :
    SameAt before after resource :=
  ⟨right.exclusive.trans left.exclusive, right.shared.trans left.shared, right.waiters.trans left.waiters⟩

section

variable (same : SameAt before after resource)
include same

theorem SameAt.queue : after.queue resource = before.queue resource := by
  simp [ResourceSerializer.queue, same.waiters]

theorem SameAt.sharedCount : after.sharedCount resource = before.sharedCount resource := by
  simp [ResourceSerializer.sharedCount, same.shared]

theorem SameAt.canGrant : after.canGrant resource mode = before.canGrant resource mode :=
  canGrant_congr same.exclusive same.sharedCount

theorem SameAt.processHeld : after.processHeld resource = before.processHeld resource :=
  processHeld_congr same.exclusive

end

theorem grant_sameAt (apart : other ≠ resource) :
    SameAt locks (locks.grant resource mode owner) other := by
  cases mode with
  | exclusive => exact ⟨AList.lookup_insert_ne apart, rfl, rfl⟩
  | sharedRead => exact ⟨rfl, AList.lookup_insert_ne apart, rfl⟩

theorem unlockSilent_sameAt (apart : other ≠ resource) :
    SameAt locks (locks.unlockSilent resource mode) other := by
  cases mode with
  | exclusive => exact ⟨AList.lookup_erase_ne apart, rfl, rfl⟩
  | sharedRead =>
      simp only [unlockSilent]
      split
      · exact .refl
      · split
        · exact ⟨rfl, AList.lookup_erase_ne apart, rfl⟩
        · exact ⟨rfl, AList.lookup_insert_ne apart, rfl⟩

theorem setQueue_sameAt (apart : other ≠ resource) :
    SameAt locks (locks.setQueue resource rest) other := by
  refine ⟨rfl, rfl, ?_⟩
  simp only [setQueue]
  split
  · exact AList.lookup_erase_ne apart
  · exact AList.lookup_insert_ne apart

theorem deliver_sameAt : SameAt locks (locks.deliver tx result) other := ⟨rfl, rfl, rfl⟩

theorem grantFront_sameAt (apart : other ≠ resource) :
    SameAt locks (locks.grantFront resource front rest) other :=
  (setQueue_sameAt apart).trans (grant_sameAt apart)

theorem enqueue_sameAt (apart : other ≠ resource) :
    SameAt locks (locks.enqueue resource mode owner) other :=
  ⟨rfl, rfl, AList.lookup_insert_ne apart⟩

/-! A grant to a receiver that is gone is taken back, which leaves the holds as they were. -/

theorem discardFront_exclusive (free : locks.canGrant resource front.mode = true) (other : Resource) :
    ((locks.grantFront resource front rest).unlockSilent resource front.mode).exclusive.lookup other =
      locks.exclusive.lookup other := by
  by_cases same : other = resource
  · subst same
    have vacant := exclusive_none_of_canGrant free
    cases wanted : front.mode with
    | exclusive => simp [unlockSilent, vacant]
    | sharedRead => simp [grantFront, wanted, grant, setQueue]
  · exact ((grantFront_sameAt same).trans (unlockSilent_sameAt same)).exclusive

theorem discardFront_sharedCount (other : Resource) :
    ((locks.grantFront resource front rest).unlockSilent resource front.mode).sharedCount other =
      locks.sharedCount other := by
  by_cases same : other = resource
  · subst same
    cases wanted : front.mode with
    | exclusive => simp [unlockSilent, grantFront, wanted, grant, setQueue, sharedCount]
    | sharedRead =>
        rw [grantFront, wanted, grant_unlockSilent_sharedCount]
        rfl
  · exact ((grantFront_sameAt same).trans (unlockSilent_sameAt same)).sharedCount

/-! `wake` repeats one of three moves on the front of the queue. -/

section Rule

variable (Fact : ResourceSerializer → Prop)
  (emptied : ∀ {state}, state.queue resource = [] → Fact state →
    Fact { state with waiters := state.waiters.erase resource })
  (granted : ∀ {state front rest}, state.queue resource = front :: rest →
    state.canGrant resource front.mode = true → state.receiverOpen front.tx = true → Fact state →
    Fact ((state.grantFront resource front rest).deliver front.tx (.ok ())))
  (discarded : ∀ {state front rest}, state.queue resource = front :: rest →
    state.canGrant resource front.mode = true → state.receiverOpen front.tx = false →
    Fact state → Fact ((state.grantFront resource front rest).unlockSilent resource front.mode))
include emptied granted discarded

private theorem wakeFrom_rule (waiting : List Waiter) (locks : ResourceSerializer)
    (stored : locks.queue resource = waiting) (holds : Fact locks) :
    Fact (wakeFrom resource waiting locks) := by
  induction waiting generalizing locks with
  | nil => exact emptied stored holds
  | cons front rest ih =>
      simp only [wakeFrom]
      by_cases free : locks.canGrant resource front.mode = true
      · rw [if_pos free]
        have openSame : (locks.grantFront resource front rest).receiverOpen front.tx =
            locks.receiverOpen front.tx := by
          simp [receiverOpen, grantFront, setQueue]
        by_cases isOpen : locks.receiverOpen front.tx = true
        · rw [if_pos (openSame.trans isOpen)]
          have next := granted stored free isOpen holds
          split
          · exact next
          · exact ih _ grantFront_queue next
        · rw [if_neg (openSame ▸ isOpen)]
          refine ih _ ?_ (discarded stored free (by simpa using isOpen) holds)
          rw [queue_congr unlockSilent_waiters, grantFront_queue]
      · rw [if_neg free]
        exact holds

/-- A fact kept by granting the front waiter and by discarding one whose receiver is gone is kept by
`wake`. -/
theorem wake_rule (holds : Fact locks) : Fact (locks.wake resource) :=
  wakeFrom_rule Fact emptied granted discarded _ _ rfl holds

end Rule

theorem wake_sameAt (apart : other ≠ resource) : SameAt locks (locks.wake resource) other := by
  refine wake_rule (fun state => SameAt locks state other) ?_ ?_ ?_ .refl
  · intro state _ same
    exact same.trans ⟨rfl, rfl, AList.lookup_erase_ne apart⟩
  · intro state front rest _ _ _ same
    exact (same.trans (grantFront_sameAt apart)).trans deliver_sameAt
  · intro state front rest _ _ _ same
    exact (same.trans (grantFront_sameAt apart)).trans (unlockSilent_sameAt apart)

/-- No waiter is left at the front of a queue that could be granted. -/
theorem wake_front_blocked (left : (locks.wake resource).queue resource = front :: rest) :
    (locks.wake resource).canGrant resource front.mode = false := by
  suffices ∀ (waiting : List Waiter) (state : ResourceSerializer), state.queue resource = waiting →
      (wakeFrom resource waiting state).queue resource = front :: rest →
      (wakeFrom resource waiting state).canGrant resource front.mode = false from
    this _ _ rfl left
  intro waiting
  induction waiting with
  | nil =>
      intro state _ remains
      simp [wakeFrom, queue] at remains
  | cons head tail ih =>
      intro state stored
      simp only [wakeFrom]
      by_cases free : state.canGrant resource head.mode = true
      · rw [if_pos free]
        split
        · split
          next isExclusive =>
            intro _
            have held : ((state.grantFront resource head tail).deliver head.tx (.ok ())).exclusive.lookup
                resource = some head.owner := by
              simp [deliver, grantFront, grant, isExclusive]
            exact canGrant_false_of_held held
          · exact ih _ grantFront_queue
        · refine ih _ ?_
          rw [queue_congr unlockSilent_waiters, grantFront_queue]
      · rw [if_neg free]
        intro remains
        rw [stored] at remains
        cases remains
        simpa using free

theorem send_sameAt : SameAt locks (locks.send tx result) other := by
  simp only [send]
  split
  · exact deliver_sameAt
  · exact .refl

theorem sendAll_sameAt (waiting : List Waiter) (result : Except ErrorBody Unit) :
    SameAt locks (waiting.foldl (fun state waiter => state.send waiter.tx result) locks) other := by
  induction waiting generalizing locks with
  | nil => exact .refl
  | cons _ _ ih => exact send_sameAt.trans ih

theorem failWaiters_sameAt_erased : SameAt { locks with waiters := locks.waiters.erase resource }
      (locks.failWaiters resource error) other :=
  sendAll_sameAt _ _

theorem failWaiters_sameAt (apart : other ≠ resource) :
    SameAt locks (locks.failWaiters resource error) other := by
  have erased : SameAt locks { locks with waiters := locks.waiters.erase resource } other :=
    ⟨rfl, rfl, AList.lookup_erase_ne apart⟩
  exact erased.trans failWaiters_sameAt_erased

/-- The three ways out of `acquire`. -/
inductive Acquired (locks : ResourceSerializer) (resource : Resource) (mode : LockMode)
    (owner : ExclusiveHolder) : AcquireOutcome × ResourceSerializer → Prop
  | busy (error : ErrorBody) : Acquired locks resource mode owner (.busy error, locks)
  | granted (free : locks.canGrant resource mode = true)
      (fair : mode = .sharedRead → locks.hasExclusiveWaiter resource = false)
      (first : mode = .exclusive → locks.queue resource = []) :
      Acquired locks resource mode owner (.granted, locks.grant resource mode owner)
  | waiting : Acquired locks resource mode owner (.waiting locks.nextWaiter locks.channels.created,
      (locks.enqueue resource mode owner).wake resource)

theorem acquire_acquired : Acquired locks resource mode owner (locks.acquire resource mode owner) := by
  simp only [acquire]
  split
  · exact .busy _
  · split
    next admitted =>
      obtain ⟨free, fair, first⟩ := admitted
      refine .granted free (fun isShared => by simpa [isShared] using fair) fun isExclusive => ?_
      exact queue_nil_of_not_hasWaiters (by simpa [isExclusive] using first)
    · split
      · exact .busy _
      · exact .waiting

end ResourceSerializer

end CodeSpace.Store
