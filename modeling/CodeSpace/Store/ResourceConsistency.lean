import CodeSpace.Store.Wake
import CodeSpace.Transition.Run

namespace CodeSpace.Store

open Data Domain

namespace ResourceSerializer

variable {locks before after : ResourceSerializer} {resource other : Resource} {mode : LockMode}
  {owner : ExclusiveHolder} {rest : List Waiter}

/-- What holds of one resource even between a release and the `wake` that follows it. Waiters
never wait for a process hold: a process gets its workspace through a spawn reservation. -/
structure Sound (locks : ResourceSerializer) (resource : Resource) : Prop where
  apart : (locks.exclusive.lookup resource).isSome → locks.sharedCount resource = 0
  nonempty : locks.waiters.lookup resource ≠ some []
  bounded : (locks.queue resource).length ≤ maxWaitersPerResource
  barrier : locks.processHeld resource = true → locks.queue resource = []
  arriving : ∀ waiter ∈ locks.queue resource, waiter.owner.isProcess = false

structure Consistent (locks : ResourceSerializer) (resource : Resource) : Prop
    extends Sound locks resource where
  settled : ∀ {front rest}, locks.queue resource = front :: rest →
    locks.canGrant resource front.mode = false

theorem Sound.of_sameAt (sound : Sound before resource) (same : SameAt before after resource) :
    Sound after resource where
  apart held := by
    rw [same.sharedCount]
    exact sound.apart (same.exclusive ▸ held)
  nonempty := same.waiters ▸ sound.nonempty
  bounded := same.queue ▸ sound.bounded
  barrier held := by
    rw [same.queue]
    exact sound.barrier (same.processHeld ▸ held)
  arriving := same.queue ▸ sound.arriving

theorem Consistent.of_sameAt (consistent : Consistent before resource)
    (same : SameAt before after resource) : Consistent after resource where
  toSound := consistent.toSound.of_sameAt same
  settled stored := by
    rw [same.canGrant]
    exact consistent.settled (same.queue ▸ stored)

theorem processHeld_of_free (free : locks.exclusive.lookup resource = none) :
    locks.processHeld resource = false := by
  cases resource <;> simp [processHeld, free]

theorem processHeld_of_held (held : locks.exclusive.lookup resource = some owner)
    (notProcess : owner.isProcess = false) : locks.processHeld resource = false := by
  cases resource <;> simp [processHeld, held, notProcess]

section

variable (sound : Sound locks resource)
include sound

theorem Sound.setQueue
    (kept : rest.Sublist (locks.queue resource)) : Sound (locks.setQueue resource rest) resource where
  apart := sound.apart
  nonempty := setQueue_waiters_ne_empty rest
  bounded := by
    rw [setQueue_queue]
    exact Nat.le_trans kept.length_le sound.bounded
  barrier held := by
    have empty : locks.queue resource = [] := sound.barrier ((processHeld_congr rfl).symm.trans held)
    rw [setQueue_queue]
    rw [empty] at kept
    exact List.eq_nil_of_sublist_nil kept
  arriving waiter member := by
    rw [setQueue_queue] at member
    exact sound.arriving waiter (kept.subset member)

theorem Sound.grant (free : locks.canGrant resource mode = true) (notProcess : owner.isProcess = false) :
    Sound (locks.grant resource mode owner) resource := by
  have isFree := exclusive_none_of_canGrant free
  have queueSame : (locks.grant resource mode owner).queue resource = locks.queue resource :=
    queue_congr grant_waiters resource
  have notHeld : (locks.grant resource mode owner).processHeld resource = false := by
    cases mode with
    | exclusive => exact processHeld_of_held (by simp [ResourceSerializer.grant]) notProcess
    | sharedRead => exact processHeld_of_free isFree
  refine
    { apart := ?_
      nonempty := by simpa using sound.nonempty
      bounded := queueSame ▸ sound.bounded
      barrier := fun held => by simp [notHeld] at held
      arriving := queueSame ▸ sound.arriving }
  intro held
  cases mode with
  | exclusive => exact (canGrant_exclusive.mp free).2
  | sharedRead => simp [ResourceSerializer.grant, isFree] at held

theorem Sound.unlockSilent : Sound (locks.unlockSilent resource mode) resource := by
  have queueSame : (locks.unlockSilent resource mode).queue resource = locks.queue resource :=
    queue_congr unlockSilent_waiters resource
  refine
    { apart := ?_
      nonempty := by simpa using sound.nonempty
      bounded := queueSame ▸ sound.bounded
      barrier := ?_
      arriving := queueSame ▸ sound.arriving }
  · intro held
    cases mode with
    | exclusive => simp [ResourceSerializer.unlockSilent] at held
    | sharedRead =>
        rw [unlockSilent_sharedRead_exclusive] at held
        rw [unlockSilent_sharedRead_sharedCount, sound.apart held]
  · intro held
    rw [queueSame]
    cases mode with
    | exclusive =>
        rw [processHeld_of_free (by simp [ResourceSerializer.unlockSilent])] at held
        contradiction
    | sharedRead =>
        refine sound.barrier ((processHeld_congr ?_).symm.trans held)
        rw [unlockSilent_sharedRead_exclusive]

theorem Sound.grantFront {front : Waiter}
    (stored : locks.queue resource = front :: rest) (free : locks.canGrant resource front.mode = true) :
    Sound (locks.grantFront resource front rest) resource := by
  have taken : Sound (locks.setQueue resource rest) resource :=
    sound.setQueue (stored ▸ List.sublist_cons_self front rest)
  have stillFree : (locks.setQueue resource rest).canGrant resource front.mode = true :=
    (canGrant_congr rfl rfl).trans free
  exact taken.grant stillFree (sound.arriving front (by simp [stored]))

theorem Sound.wake : Consistent (locks.wake resource) resource where
  toSound := by
    refine wake_rule (fun state => Sound state resource) ?_ ?_ ?_ sound
    · intro state stored kept
      have empty : Sound (state.setQueue resource []) resource := kept.setQueue (List.nil_sublist _)
      simpa [ResourceSerializer.setQueue] using empty
    · intro state front rest stored free _ kept
      exact (kept.grantFront stored free).of_sameAt deliver_sameAt
    · intro state front rest stored free _ kept
      exact (kept.grantFront stored free).unlockSilent
  settled := wake_front_blocked

end

theorem Consistent.wake_elsewhere (consistent : Consistent locks other) (sound : Sound locks resource) :
    Consistent (locks.wake resource) other := by
  by_cases same : other = resource
  · subst same
    exact sound.wake
  · exact consistent.of_sameAt (wake_sameAt same)

theorem Sound.failWaiters {error : ErrorBody}
    (apart : (locks.exclusive.lookup resource).isSome → locks.sharedCount resource = 0) :
    Consistent (locks.failWaiters resource error) resource := by
  have erased : Consistent { locks with waiters := locks.waiters.erase resource } resource :=
    { apart := apart
      nonempty := by simp
      bounded := by simp [queue]
      barrier := by simp [queue]
      arriving := by simp [queue]
      settled := by simp [queue] }
  exact erased.of_sameAt failWaiters_sameAt_erased

/-- A direct grant finds nobody waiting. -/
theorem Sound.grantIdle (sound : Sound locks resource) (free : locks.canGrant resource mode = true)
    (idle : locks.queue resource = []) : Consistent (locks.grant resource mode owner) resource := by
  have stillIdle : (locks.grant resource mode owner).queue resource = [] := by
    rw [queue_congr grant_waiters, idle]
  refine
    { apart := ?_
      nonempty := by simpa using sound.nonempty
      bounded := by simp [stillIdle]
      barrier := fun _ => stillIdle
      arriving := by simp [stillIdle]
      settled := by simp [stillIdle] }
  intro held
  cases mode with
  | exclusive => exact (canGrant_exclusive.mp free).2
  | sharedRead => simp [ResourceSerializer.grant, exclusive_none_of_canGrant free] at held

/-- A shared request that fairness lets through meets an empty queue: the front waiter is blocked,
so it would have to wait for an exclusive grant. -/
theorem Consistent.queue_nil_of_sharedFree (consistent : Consistent locks resource)
    (free : locks.canGrant resource .sharedRead = true)
    (noExclusive : ¬ locks.hasExclusiveWaiter resource = true) : locks.queue resource = [] := by
  cases stored : locks.queue resource with
  | nil => rfl
  | cons front =>
      exfalso
      have blocked := consistent.settled stored
      cases wanted : front.mode with
      | sharedRead =>
          rw [wanted, free] at blocked
          contradiction
      | exclusive =>
          apply noExclusive
          simp [hasExclusiveWaiter, stored, wanted]

theorem Sound.enqueue (sound : Sound locks resource)
    (room : locks.waiterCount resource < maxWaitersPerResource)
    (notHeld : locks.processHeld resource = false) (notProcess : owner.isProcess = false) :
    Sound (locks.enqueue resource mode owner) resource := by
  have queued : (locks.enqueue resource mode owner).queue resource =
      locks.queue resource ++ [⟨locks.nextWaiter, mode, owner, locks.channels.created⟩] := by
    simp [ResourceSerializer.enqueue, queue]
  refine
    { apart := sound.apart
      nonempty := by simp [ResourceSerializer.enqueue]
      bounded := ?_
      barrier := fun held => ?_
      arriving := ?_ }
  · rw [queued, List.length_append]
    exact room
  · have still : locks.processHeld resource = true := (processHeld_congr rfl).symm.trans held
    cases notHeld.symm.trans still
  · intro waiter member
    rw [queued] at member
    rcases List.mem_append.mp member with old | new
    · exact sound.arriving waiter old
    · rw [List.mem_singleton.mp new]
      exact notProcess

section Everywhere

variable (consistent : ∀ resource, Consistent locks resource)
include consistent

theorem wake_consistent : Consistent (locks.wake resource) other :=
  (consistent other).wake_elsewhere (consistent resource).toSound

theorem consistent_of_local (here : Consistent after resource)
    (elsewhere : ∀ {other}, other ≠ resource → SameAt locks after other) :
    Consistent after other := by
  by_cases same : other = resource
  · subst same
    exact here
  · exact (consistent other).of_sameAt (elsewhere same)

theorem grant_consistent (free : locks.canGrant resource mode = true)
    (idle : locks.queue resource = []) : Consistent (locks.grant resource mode owner) other :=
  consistent_of_local consistent ((consistent resource).toSound.grantIdle free idle) grant_sameAt

theorem acquire_consistent (notProcess : owner.isProcess = false) :
    Consistent (locks.acquire resource mode owner).2 other := by
  simp only [acquire]
  split
  · exact consistent other
  next notHeld =>
    split
    next admitted =>
      obtain ⟨free, fair, first⟩ := admitted
      refine grant_consistent consistent free ?_
      cases mode with
      | exclusive => exact queue_nil_of_not_hasWaiters (by simpa using first)
      | sharedRead => exact (consistent resource).queue_nil_of_sharedFree free (by simpa using fair)
    · split
      · exact consistent other
      · have waiting : Sound (locks.enqueue resource mode owner) resource :=
          (consistent resource).toSound.enqueue (by omega) (by simpa using notHeld) notProcess
        exact consistent_of_local consistent waiting.wake
          fun apart => (enqueue_sameAt apart).trans (wake_sameAt apart)

theorem unlock_consistent (mode : LockMode) : Consistent (locks.unlock resource mode) other :=
  consistent_of_local consistent (consistent resource).toSound.unlockSilent.wake
    fun apart => (unlockSilent_sameAt apart).trans (wake_sameAt apart)

theorem cancelWaiter_consistent (id : UInt64) : Consistent (locks.cancelWaiter resource id).2 other := by
  simp only [cancelWaiter]
  split
  · exact consistent other
  next waiting stored =>
    have isQueue : locks.queue resource = waiting := by simp [queue, stored]
    split
    · have remaining : (waiting.filter fun waiter : Waiter => waiter.id ≠ id).Sublist
          (locks.queue resource) := by
        rw [isQueue]
        exact List.filter_sublist
      have kept := (consistent resource).toSound.setQueue remaining
      exact consistent_of_local consistent kept.wake
        fun apart => (setQueue_sameAt apart).trans (wake_sameAt apart)
    next sameLength =>
      have allKept : waiting.filter (fun waiter : Waiter => waiter.id ≠ id) = waiting :=
        List.filter_sublist.eq_of_length (by simpa using sameLength)
      have inhabited : waiting ≠ [] := by
        rintro rfl
        exact (consistent resource).nonempty stored
      have unchanged : SameAt locks (locks.setQueue resource waiting) other := by
        by_cases same : other = resource
        · subst same
          exact ⟨rfl, rfl, by simp [setQueue, inhabited, stored]⟩
        · exact setQueue_sameAt same
      rw [allKept]
      exact (consistent other).of_sameAt unchanged

theorem tryExclusiveWrite_consistent (workspaceId : String) :
    Consistent (locks.tryExclusiveWrite workspaceId).2 other := by
  have woken : ∀ other, Consistent (locks.wake (.workspace workspaceId)) other :=
    fun _ => wake_consistent consistent
  simp only [tryExclusiveWrite]
  split
  · exact woken other
  · split
    · exact woken other
    next vacant =>
      obtain ⟨free, idle⟩ := free_of_not_occupied vacant
      exact grant_consistent woken free idle

theorem markShellBusy_consistent (workspaceId processId : String) :
    Consistent (locks.markShellBusy workspaceId processId).2 other := by
  have woken : ∀ other, Consistent (locks.wake (.workspace workspaceId)) other :=
    fun _ => wake_consistent consistent
  simp only [markShellBusy]
  split
  · exact woken other
  next vacant =>
    obtain ⟨free, idle⟩ := free_of_not_occupied vacant
    exact grant_consistent woken free idle

theorem tryLock_consistent : Consistent (locks.tryLock resource mode).2 other := by
  have woken : ∀ other, Consistent (locks.wake resource) other := fun _ => wake_consistent consistent
  simp only [tryLock]
  split
  next admitted =>
    cases mode with
    | exclusive =>
        obtain ⟨free, nobody⟩ := (Bool.and_eq_true _ _).mp admitted
        exact grant_consistent woken free (queue_nil_of_not_hasWaiters (by simpa using nobody))
    | sharedRead =>
        obtain ⟨free, fair⟩ := (Bool.and_eq_true _ _).mp admitted
        have idle := (woken resource).queue_nil_of_sharedFree free (by simpa using fair)
        have granted : Consistent ((locks.wake resource).grant resource .sharedRead .request) other :=
          grant_consistent woken free idle
        exact granted
  · exact woken other

theorem releaseWrite_consistent (workspaceId : String) :
    Consistent (locks.releaseWrite workspaceId) other := by
  simp only [releaseWrite]
  split
  · exact unlock_consistent consistent .exclusive
  · exact consistent other

theorem clearShell_consistent (workspaceId : String) :
    Consistent (locks.clearShell workspaceId) other := by
  simp only [clearShell]
  split
  · exact unlock_consistent consistent .exclusive
  · exact consistent other

theorem holdProcess_consistent (workspaceId processId : String) :
    Consistent (locks.holdProcess workspaceId processId).2 other := by
  have barrierRaised (unshared : locks.sharedCount (.workspace workspaceId) = 0) :
      Consistent ((locks.grant (.workspace workspaceId) .exclusive (.process processId)).failWaiters
        (.workspace workspaceId) shellBusy) other :=
    consistent_of_local consistent (Sound.failWaiters fun _ => unshared)
      fun apart => (grant_sameAt apart).trans (failWaiters_sameAt apart)
  simp only [holdProcess]
  split
  next held =>
    split
    · exact consistent other
    · split
      · exact barrierRaised ((consistent _).apart (by simp [held]))
      · exact consistent other
  · split
    · exact consistent other
    · exact barrierRaised (by omega)

end Everywhere

theorem failAll_consistent (targets : List Resource)
    (apart : ∀ resource, (locks.exclusive.lookup resource).isSome → locks.sharedCount resource = 0)
    (rest : ∀ resource, resource ∉ targets → Consistent locks resource) :
    Consistent (targets.foldl (fun state resource => state.failWaiters resource shellBusy) locks)
      other := by
  induction targets generalizing locks with
  | nil => exact rest other (by simp)
  | cons head _ ih =>
      have here : Consistent (locks.failWaiters head shellBusy) head := Sound.failWaiters (apart head)
      refine ih (fun resource held => ?_) (fun resource outside => ?_)
      · by_cases same : resource = head
        · subst same
          exact here.apart held
        · have unchanged : SameAt locks (locks.failWaiters head shellBusy) resource :=
            failWaiters_sameAt same
          rw [unchanged.sharedCount]
          exact apart resource (unchanged.exclusive ▸ held)
      · by_cases same : resource = head
        · subst same
          exact here
        · exact (rest resource (by simp [same, outside])).of_sameAt (failWaiters_sameAt same)

theorem wakeAll_consistent (released : List Resource) (sound : ∀ resource, Sound locks resource)
    (rest : ∀ resource, resource ∉ released → Consistent locks resource) :
    Consistent (locks.wakeAll released) other := by
  induction released generalizing locks with
  | nil => exact rest other (by simp)
  | cons head _ ih =>
      refine ih (fun resource => ?_) (fun resource outside => ?_)
      · by_cases same : resource = head
        · subst same
          exact (sound resource).wake.toSound
        · exact (sound resource).of_sameAt (wake_sameAt same)
      · by_cases same : resource = head
        · subst same
          exact (sound resource).wake
        · exact (rest resource (by simp [same, outside])).of_sameAt (wake_sameAt same)

theorem confirmProcess_consistent (consistent : ∀ resource, Consistent locks resource)
    (processId : String) : Consistent (locks.confirmProcess processId) other := by
  refine failAll_consistent _ (fun resource held => ?_) (fun resource outside => ?_)
  · rw [Assoc.lookup_setAll] at held
    refine (consistent resource).apart ?_
    split at held
    next target =>
      obtain ⟨_, stored, _⟩ := Assoc.mem_keysWhere.mp target
      simp [stored]
    · exact held
  · refine (consistent resource).of_sameAt ⟨?_, rfl, rfl⟩
    rw [Assoc.lookup_setAll, if_neg outside]

theorem releaseMatching_consistent (consistent : ∀ resource, Consistent locks resource)
    (wanted : ExclusiveHolder → Bool) :
    Consistent ((locks.releaseMatching wanted).2.wakeAll (locks.releaseMatching wanted).1) other := by
  have kept : ∀ resource, resource ∉ (locks.releaseMatching wanted).1 →
      SameAt locks (locks.releaseMatching wanted).2 resource := fun resource outside =>
    ⟨by simp only [releaseMatching] at outside ⊢; rw [Assoc.lookup_eraseAll, if_neg outside], rfl, rfl⟩
  have dropped : ∀ resource, resource ∈ (locks.releaseMatching wanted).1 →
      SameAt (locks.unlockSilent resource .exclusive) (locks.releaseMatching wanted).2 resource :=
    fun resource inside =>
      ⟨by simp only [releaseMatching, unlockSilent] at inside ⊢
          rw [Assoc.lookup_eraseAll, if_pos inside, AList.lookup_erase], rfl, rfl⟩
  refine wakeAll_consistent _ (fun resource => ?_) (fun resource outside =>
    (consistent resource).of_sameAt (kept resource outside))
  by_cases inside : resource ∈ (locks.releaseMatching wanted).1
  · exact (consistent resource).toSound.unlockSilent.of_sameAt (dropped resource inside)
  · exact (consistent resource).toSound.of_sameAt (kept resource inside)

end ResourceSerializer

/-- Everything that can happen to the serializer; the last case is a waiter's receiver going away,
which no method of the serializer does itself. -/
inductive SerializerCall
  | tryExclusiveWrite (workspaceId : String)
  | acquireExclusiveWrite (workspaceId : String)
  | acquireShellBusy (workspaceId processId : String)
  | markShellBusy (workspaceId processId : String)
  | acquireLock (resource : Resource) (mode : LockMode)
  | tryLock (resource : Resource) (mode : LockMode)
  | releaseWrite (workspaceId : String)
  | unlock (resource : Resource) (mode : LockMode)
  | confirmProcess (processId : String)
  | holdProcess (workspaceId processId : String)
  | releaseProcess (processId : String)
  | releaseAllProcesses
  | clearShell (workspaceId : String)
  | cancelWaiter (resource : Resource) (id : UInt64)
  | dropReceiver (rx : Channel)
deriving DecidableEq

def SerializerCall.apply (locks : ResourceSerializer) : SerializerCall → ResourceSerializer
  | .tryExclusiveWrite workspaceId => (locks.tryExclusiveWrite workspaceId).2
  | .acquireExclusiveWrite workspaceId => (locks.acquireExclusiveWrite workspaceId).2
  | .acquireShellBusy workspaceId processId => (locks.acquireShellBusy workspaceId processId).2
  | .markShellBusy workspaceId processId => (locks.markShellBusy workspaceId processId).2
  | .acquireLock resource mode => (locks.acquireLock resource mode).2
  | .tryLock resource mode => (locks.tryLock resource mode).2
  | .releaseWrite workspaceId => locks.releaseWrite workspaceId
  | .unlock resource mode => locks.unlock resource mode
  | .confirmProcess processId => locks.confirmProcess processId
  | .holdProcess workspaceId processId => (locks.holdProcess workspaceId processId).2
  | .releaseProcess processId => locks.releaseProcess processId
  | .releaseAllProcesses => locks.releaseAllProcesses
  | .clearShell workspaceId => locks.clearShell workspaceId
  | .cancelWaiter resource id => (locks.cancelWaiter resource id).2
  | .dropReceiver rx => locks.dropReceiver rx

def ResourceSerializer.run (calls : List SerializerCall) : ResourceSerializer :=
  calls.foldl SerializerCall.apply {}

namespace ResourceSerializer

theorem call_consistent (call : SerializerCall) {locks : ResourceSerializer}
    (consistent : ∀ resource, Consistent locks resource) (resource : Resource) :
    Consistent (call.apply locks) resource := by
  cases call with
  | tryExclusiveWrite workspaceId => exact tryExclusiveWrite_consistent consistent workspaceId
  | acquireExclusiveWrite | acquireShellBusy | acquireLock => exact acquire_consistent consistent rfl
  | markShellBusy workspaceId processId => exact markShellBusy_consistent consistent workspaceId processId
  | tryLock => exact tryLock_consistent consistent
  | releaseWrite workspaceId => exact releaseWrite_consistent consistent workspaceId
  | unlock _ mode => exact unlock_consistent consistent mode
  | confirmProcess processId => exact confirmProcess_consistent consistent processId
  | holdProcess workspaceId processId => exact holdProcess_consistent consistent workspaceId processId
  | releaseProcess | releaseAllProcesses => exact releaseMatching_consistent consistent _
  | clearShell workspaceId => exact clearShell_consistent consistent workspaceId
  | cancelWaiter _ id => exact cancelWaiter_consistent consistent id
  | dropReceiver => exact (consistent resource).of_sameAt ⟨rfl, rfl, rfl⟩

theorem initial_consistent (resource : Resource) : Consistent {} resource where
  apart := by simp
  nonempty := by simp
  bounded := by simp [queue]
  barrier := by simp [queue]
  arriving := by simp [queue]
  settled := by simp [queue]

theorem calls_consistent (calls : List SerializerCall) (resource : Resource) :
    Consistent (run calls) resource := by
  suffices ∀ locks : ResourceSerializer, (∀ resource, Consistent locks resource) →
      Consistent (calls.foldl SerializerCall.apply locks) resource from this {} initial_consistent
  induction calls with
  | nil => exact fun locks consistent => consistent resource
  | cons call _ ih => exact fun locks consistent => ih _ (call_consistent call consistent)

/-- After any calls, whatever receivers went away in between: nobody shares an exclusively held
resource, queues are neither empty nor too long, no queue has a waiter in front that could be
granted, and nobody queues behind a confirmed process. -/
theorem run_leaves_no_stranded_waiter (calls : List SerializerCall) (resource : Resource) :
    ¬ (((run calls).exclusive.lookup resource).isSome ∧ (run calls).sharedCount resource ≠ 0) ∧
    (run calls).waiters.lookup resource ≠ some [] ∧
    (∀ waiting, (run calls).waiters.lookup resource = some waiting →
      waiting.length ≤ maxWaitersPerResource) ∧
    (∀ front rest, (run calls).waiters.lookup resource = some (front :: rest) →
      (run calls).canGrant resource front.mode = false) ∧
    (∀ workspaceId processId, resource = .workspace workspaceId →
      (run calls).exclusive.lookup resource = some (.process processId) →
      (run calls).waiters.lookup resource = none) := by
  have consistent := calls_consistent calls resource
  refine ⟨?_, consistent.nonempty, ?_, ?_, ?_⟩
  · rintro ⟨held, shared⟩
    exact shared (consistent.apart held)
  · intro waiting stored
    simpa [queue, stored] using consistent.bounded
  · intro front rest stored
    have waiting : (run calls).queue resource = front :: rest := by simp [queue, stored]
    exact consistent.settled waiting
  · rintro workspaceId processId rfl held
    have idle : (run calls).queue (.workspace workspaceId) = [] :=
      consistent.barrier (by simp [processHeld, held, ExclusiveHolder.isProcess])
    cases stored : (run calls).waiters.lookup (.workspace workspaceId) with
    | none => rfl
    | some waiting =>
        have empty : waiting = [] := by simpa [queue, stored] using idle
        exact absurd (empty ▸ stored) consistent.nonempty

end ResourceSerializer

end CodeSpace.Store
