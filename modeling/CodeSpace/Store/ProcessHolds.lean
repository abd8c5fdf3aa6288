import CodeSpace.Store.LeaseSafety

namespace CodeSpace.Store

open Data Domain

/-! What the operations of the serializer do to the holds of one process, and of everybody else. -/

namespace ResourceSerializer

variable {locks before middle after : ResourceSerializer} {resource other : Resource} {mode : LockMode}
  {owner : ExclusiveHolder} {processId : String} {error : ErrorBody}

/-- Nothing is held or queued for the process. -/
structure Free (locks : ResourceSerializer) (processId : String) : Prop where
  held : ∀ {resource holder}, locks.exclusive.lookup resource = some holder →
    holder.processId? ≠ some processId
  queued : ∀ {resource}, ∀ waiter ∈ locks.queue resource, waiter.owner.processId? ≠ some processId

namespace Free

theorem of_fewer (free : Free before processId)
    (held : ∀ {resource holder}, after.exclusive.lookup resource = some holder →
      ∃ old, before.exclusive.lookup resource = some old ∧ old.processId? = holder.processId?)
    (queued : ∀ resource, after.queue resource ⊆ before.queue resource) : Free after processId := by
  refine ⟨fun found => ?_, fun {resource} waiter member => free.queued waiter (queued resource member)⟩
  obtain ⟨_, stored, same⟩ := held found
  exact same ▸ free.held stored

theorem eased (free : Free before processId) (eased : Eased before after) : Free after processId := by
  refine free.of_fewer (fun {resource holder} found => ?_) eased.queue
  have same := eased.exclusive resource
  rw [found, Option.map_some] at same
  obtain ⟨old, stored, named⟩ := Option.map_eq_some_iff.mp same.symm
  exact ⟨old, stored, named⟩

section

variable (free : Free locks processId)
include free

theorem grant (mine : owner.processId? ≠ some processId) :
    Free (locks.grant resource mode owner) processId := by
  refine ⟨fun {other holder} found => ?_, fun waiter member => free.queued waiter
    (queue_congr grant_waiters _ ▸ member)⟩
  cases mode with
  | sharedRead => exact free.held found
  | exclusive =>
      by_cases same : other = resource
      · subst same
        simp only [ResourceSerializer.grant, AList.lookup_insert, Option.some.injEq] at found
        exact found ▸ mine
      · exact free.held ((grant_sameAt same).exclusive ▸ found)

theorem grant_request (mode : LockMode) : Free (locks.grant resource mode .request) processId :=
  free.grant (by simp [ExclusiveHolder.processId?])

theorem setQueue {rest : List Waiter} (fewer : rest ⊆ locks.queue resource) :
    Free (locks.setQueue resource rest) processId := by
  refine free.of_fewer (fun found => ⟨_, found, rfl⟩) fun other => ?_
  by_cases same : other = resource
  · subst same
    rwa [setQueue_queue]
  · rw [(setQueue_sameAt same).queue]
    exact List.Subset.refl _

theorem unlockSilent : Free (locks.unlockSilent resource mode) processId := by
  refine free.of_fewer (fun {other holder} found => ?_) fun other => by
    rw [queue_congr unlockSilent_waiters]
    exact List.Subset.refl _
  refine ⟨holder, ?_, rfl⟩
  cases mode with
  | sharedRead => rwa [unlockSilent_sharedRead_exclusive] at found
  | exclusive =>
      by_cases same : other = resource
      · subst same
        simp [ResourceSerializer.unlockSilent] at found
      · exact (unlockSilent_sameAt same).exclusive ▸ found

theorem wake : Free (locks.wake resource) processId := by
  refine wake_rule (fun state => Free state processId) ?_ ?_ ?_ free
  · intro state empty kept
    refine kept.of_fewer (fun found => ⟨_, found, rfl⟩) fun other => ?_
    by_cases same : other = resource
    · subst same
      simp [queue]
    · simp [queue, AList.lookup_erase_ne same]
  · intro state front rest stored _ _ kept
    have fewer : rest ⊆ state.queue resource := stored ▸ List.subset_cons_self front rest
    have mine := kept.queued front (stored ▸ List.mem_cons_self)
    exact ((kept.setQueue fewer).grant mine).of_fewer (fun found => ⟨_, found, rfl⟩)
      fun _ => List.Subset.refl _
  · intro state front rest stored _ _ kept
    have fewer : rest ⊆ state.queue resource := stored ▸ List.subset_cons_self front rest
    have mine := kept.queued front (stored ▸ List.mem_cons_self)
    exact ((kept.setQueue fewer).grant mine).unlockSilent

theorem wakeAll (resources : List Resource) : Free (locks.wakeAll resources) processId := by
  induction resources generalizing locks with
  | nil => exact free
  | cons _ _ ih => exact ih free.wake

theorem failWaiters : Free (locks.failWaiters resource error) processId := by
  refine free.of_fewer (fun found => ⟨_, failWaiters_sameAt_erased.exclusive ▸ found, rfl⟩) fun other => ?_
  rw [failWaiters_sameAt_erased.queue]
  by_cases same : other = resource
  · subst same
    simp [queue]
  · simp [queue, AList.lookup_erase_ne same]

theorem enqueue (mine : owner.processId? ≠ some processId) :
    Free (locks.enqueue resource mode owner) processId := by
  refine ⟨free.held, fun {other} waiter member => ?_⟩
  by_cases same : other = resource
  · subst same
    have queued : waiter ∈ locks.queue other ∨
        waiter = ⟨locks.nextWaiter, mode, owner, locks.channels.created⟩ := by
      simpa [ResourceSerializer.enqueue, queue] using member
    rcases queued with old | rfl
    · exact free.queued waiter old
    · exact mine
  · exact free.queued waiter ((enqueue_sameAt same).queue ▸ member)

theorem acquire (mine : owner.processId? ≠ some processId) :
    Free (locks.acquire resource mode owner).2 processId := by
  have acquired : Acquired locks resource mode owner (locks.acquire resource mode owner) :=
    acquire_acquired
  generalize locks.acquire resource mode owner = outcome at acquired
  cases acquired with
  | busy => exact free
  | granted => exact free.grant mine
  | waiting => exact (free.enqueue mine).wake

theorem tryExclusiveWrite (workspaceId : String) :
    Free (locks.tryExclusiveWrite workspaceId).2 processId := by
  simp only [ResourceSerializer.tryExclusiveWrite]
  split
  · exact free.wake
  · split
    · exact free.wake
    · exact free.wake.grant_request .exclusive

theorem tryLock : Free (locks.tryLock resource mode).2 processId := by
  simp only [ResourceSerializer.tryLock]
  split
  · exact free.wake.grant_request mode
  · exact free.wake

theorem unlock (mode : LockMode) : Free (locks.unlock resource mode) processId := free.unlockSilent.wake

theorem releaseWrite (workspaceId : String) : Free (locks.releaseWrite workspaceId) processId := by
  simp only [ResourceSerializer.releaseWrite]
  split
  · exact free.unlock .exclusive
  · exact free

theorem dropReceiver (rx : Channel) : Free (locks.dropReceiver rx) processId :=
  free.of_fewer (fun found => ⟨_, found, rfl⟩)
      fun _ => List.Subset.refl _

theorem cancelWaiter (id : UInt64) : Free (locks.cancelWaiter resource id).2 processId := by
  obtain ⟨rest, eased, kept | woken⟩ := cancelWaiter_cases locks resource id
  · rw [kept]
    exact free.eased eased
  · rw [woken]
    exact (free.eased eased).wake

theorem dropTicket {id : UInt64} {rx : Channel} :
    Free (dropTicket locks resource mode id rx) processId := by
  have cancelled : Free (locks.cancelWaiter resource id).2 processId := free.cancelWaiter id
  unfold Store.dropTicket
  split
  next outcome =>
    rw [outcome] at cancelled
    exact cancelled.dropReceiver rx
  next outcome =>
    rw [outcome] at cancelled
    split
    · exact (cancelled.unlock mode).dropReceiver rx
    · exact cancelled.dropReceiver rx

end

theorem remaining (wanted : ExclusiveHolder → Bool) {holder : ExclusiveHolder}
    (found : (locks.releaseMatching wanted).2.exclusive.lookup resource = some holder) :
    locks.exclusive.lookup resource = some holder ∧ wanted holder = false := by
  simp only [ResourceSerializer.releaseMatching, Assoc.lookup_eraseAll] at found
  split at found
  · contradiction
  next kept =>
    refine ⟨found, Bool.eq_false_iff.mpr fun isWanted => kept ?_⟩
    exact Assoc.mem_keysWhere.mpr ⟨holder, found, isWanted⟩

theorem releaseMatching (free : Free locks processId) (wanted : ExclusiveHolder → Bool) :
    Free ((locks.releaseMatching wanted).2.wakeAll (locks.releaseMatching wanted).1) processId := by
  refine wakeAll (free.of_fewer (fun found => ⟨_, (remaining wanted found).1, rfl⟩) fun _ => ?_) _
  exact List.Subset.refl _

theorem releaseProcess
    (unqueued : ∀ {resource}, ∀ waiter ∈ locks.queue resource, waiter.owner.processId? ≠ some processId) :
    Free (locks.releaseProcess processId) processId := by
  have erased :
      Free (locks.releaseMatching fun holder => holder.processId? = some processId).2 processId := by
    refine ⟨fun found => ?_, unqueued⟩
    simpa using (remaining _ found).2
  exact erased.wakeAll _

variable (free : Free locks processId)
include free

theorem failAll (resources : List Resource) :
    Free (resources.foldl (fun state resource => state.failWaiters resource shellBusy) locks)
      processId := by
  induction resources generalizing locks with
  | nil => exact free
  | cons _ _ ih => exact ih free.failWaiters

theorem confirmProcess (target : String) : Free (locks.confirmProcess target) processId := by
  have renamed : Free { locks with
      exclusive := locks.exclusive.setAll (locks.exclusive.keysWhere (· = .spawning target))
        (.process target) } processId := by
    refine free.of_fewer (fun {resource holder} found => ?_) fun _ => List.Subset.refl _
    rw [Assoc.lookup_setAll] at found
    split at found
    next isTarget =>
      obtain ⟨old, stored, named⟩ := Assoc.mem_keysWhere.mp isTarget
      cases found
      exact ⟨old, stored, by rw [of_decide_eq_true named]; rfl⟩
    · exact ⟨holder, found, rfl⟩
  exact renamed.failAll _

theorem holdProcess (workspaceId : String) {target : String}
    (apart : target ≠ processId) : Free (locks.holdProcess workspaceId target).2 processId := by
  have raised : Free ((locks.grant (.workspace workspaceId) .exclusive (.process target)).failWaiters
      (.workspace workspaceId) shellBusy) processId :=
    (free.grant (by simpa [ExclusiveHolder.processId?] using apart)).failWaiters
  simp only [ResourceSerializer.holdProcess]
  split
  · split
    · exact free
    · split
      · exact raised
      · exact free
  · split
    · exact free
    · exact raised

end Free

theorem sharedCount_le_grant :
    locks.sharedCount other ≤ (locks.grant resource mode owner).sharedCount other := by
  cases mode with
  | exclusive => exact Nat.le_refl _
  | sharedRead =>
      by_cases same : other = resource
      · subst same
        simp [grant, sharedCount]
      · rw [(grant_sameAt same).sharedCount]

/-- A change that takes nothing from anybody but this process. -/
structure Spares (processId : String) (before after : ResourceSerializer) : Prop where
  held : ∀ {resource holder}, before.exclusive.lookup resource = some holder →
    holder.processId? ≠ some processId → after.exclusive.lookup resource = some holder
  shared : ∀ resource, before.sharedCount resource ≤ after.sharedCount resource

namespace Spares

theorem refl : Spares processId locks locks := ⟨fun found _ => found, fun _ => Nat.le_refl _⟩

theorem trans (first : Spares processId before middle) (second : Spares processId middle after) :
    Spares processId before after :=
  ⟨fun found others => second.held (first.held found others) others,
    fun resource => Nat.le_trans (first.shared resource) (second.shared resource)⟩

theorem wake : Spares processId locks (locks.wake resource) := by
  refine wake_rule (fun state => Spares processId locks state) ?_ ?_ ?_ refl
  · intro state _ spares
    exact spares.trans ⟨fun found _ => found, fun _ => Nat.le_refl _⟩
  · intro state front rest _ free _ spares
    refine spares.trans ⟨fun {other holder} found _ => ?_, fun other => ?_⟩
    · have apart : other ≠ resource := by
        rintro rfl
        rw [exclusive_none_of_canGrant free] at found
        contradiction
      rw [deliver_sameAt.exclusive, (grantFront_sameAt apart).exclusive, found]
    · rw [deliver_sameAt.sharedCount]
      have grown : (state.setQueue resource rest).sharedCount other ≤
          (state.grantFront resource front rest).sharedCount other := sharedCount_le_grant
      exact grown
  · intro state front rest _ free _ spares
    refine spares.trans ⟨fun found _ => ?_, fun other => ?_⟩
    · rw [discardFront_exclusive free, found]
    · rw [discardFront_sharedCount]

theorem wakeAll (resources : List Resource) : Spares processId locks (locks.wakeAll resources) := by
  induction resources generalizing locks with
  | nil => exact refl
  | cons _ _ ih => exact wake.trans ih

theorem failWaiters : Spares processId locks (locks.failWaiters resource error) := by
  refine ⟨fun found _ => ?_, fun other => ?_⟩
  · rw [failWaiters_sameAt_erased.exclusive, found]
  · rw [failWaiters_sameAt_erased.sharedCount]
    exact Nat.le_refl _

theorem failAll (resources : List Resource) : Spares processId locks
      (resources.foldl (fun state resource => state.failWaiters resource shellBusy) locks) := by
  induction resources generalizing locks with
  | nil => exact refl
  | cons _ _ ih => exact failWaiters.trans ih

theorem releaseProcess : Spares processId locks (locks.releaseProcess processId) := by
  have erased : Spares processId locks
      (locks.releaseMatching fun holder => holder.processId? = some processId).2 := by
    refine ⟨fun {resource holder} found others => ?_, fun _ => Nat.le_refl _⟩
    simp only [releaseMatching, Assoc.lookup_eraseAll]
    rw [if_neg, found]
    rw [Assoc.mem_keysWhere]
    rintro ⟨old, stored, named⟩
    cases found.symm.trans stored
    exact others (of_decide_eq_true named)
  exact erased.trans (wakeAll _)

theorem confirmProcess : Spares processId locks (locks.confirmProcess processId) := by
  have renamed : Spares processId locks { locks with
      exclusive := locks.exclusive.setAll (locks.exclusive.keysWhere (· = .spawning processId))
        (.process processId) } := by
    refine ⟨fun {resource holder} found others => ?_, fun _ => Nat.le_refl _⟩
    rw [Assoc.lookup_setAll, if_neg, found]
    rw [Assoc.mem_keysWhere]
    rintro ⟨old, stored, named⟩
    cases found.symm.trans stored
    exact others (by rw [of_decide_eq_true named]; rfl)
  exact renamed.trans (failAll _)

theorem holdProcess {workspaceId : String} :
    Spares processId locks (locks.holdProcess workspaceId processId).2 := by
  have raised (mine : ∀ {holder}, locks.exclusive.lookup (.workspace workspaceId) = some holder →
      holder.processId? = some processId) :
      Spares processId locks ((locks.grant (.workspace workspaceId) .exclusive
        (.process processId)).failWaiters (.workspace workspaceId) shellBusy) := by
    have granted : Spares processId locks
        (locks.grant (.workspace workspaceId) .exclusive (.process processId)) := by
      refine ⟨fun {resource holder} found others => ?_, fun _ => sharedCount_le_grant⟩
      have apart : resource ≠ .workspace workspaceId := by
        rintro rfl
        exact others (mine found)
      rw [(grant_sameAt apart).exclusive, found]
    exact granted.trans failWaiters
  simp only [ResourceSerializer.holdProcess]
  split
  next found =>
    split
    · exact refl
    · split
      next reserved => exact raised fun stored => by cases found.symm.trans stored; rw [reserved]; rfl
      · exact refl
  next vacant =>
    split
    · exact refl
    · exact raised fun stored => by rw [vacant] at stored; contradiction

end Spares

end ResourceSerializer

end CodeSpace.Store
