import CodeSpace.Data.Count
import CodeSpace.Runner.Slots

namespace CodeSpace.Runner

open Data

/-! What every step of a runner keeps of its slots and of its reservations, whatever the requests. -/

variable {before after runner : InProcessRunner} {held next later : Held} {slot left : HeldSlot}
  {notice : SlotNotice} {id : String} {processIds : List String} {index process now : Nat}
  {request : SpawnRequest} {created : List CreatedProcess} {phase : CreatedPhase}

/-- Of a slot only its handle and its acknowledgement have changed, and those only once it has ended. -/
structure HeldSlot.Touched (slot left : HeldSlot) : Prop where
  process : left.process = slot.process
  eof : left.eof = slot.eof
  completedAt : left.completedAt = slot.completedAt
  released : left.released = true → slot.released = true ∨ slot.isEnded = true
  acknowledged : left.acknowledged.isSome = true → slot.acknowledged.isSome = true ∨ slot.isEnded = true

namespace HeldSlot

theorem Touched.refl (slot : HeldSlot) : slot.Touched slot := ⟨rfl, rfl, rfl, .inl, .inl⟩

theorem Touched.kept (touched : slot.Touched left) (kept : slot.Kept) : left.Kept where
  drained ended := by
    rw [touched.completedAt] at ended
    rw [touched.eof]
    exact kept.drained ended
  released isReleased := by
    rw [touched.completedAt]
    exact (touched.released isReleased).elim kept.released id
  acknowledged isAcknowledged := by
    rw [touched.completedAt]
    exact (touched.acknowledged isAcknowledged).elim kept.acknowledged id

end HeldSlot

/-- Some of the ended slots are gone or touched; the others are as they were. -/
structure Held.Thinned (held next : Held) : Prop where
  earlier : ∀ id left, next.find? id = some left → ∃ slot, held.find? id = some slot ∧ slot.Touched left
  running : ∀ id slot, held.find? id = some slot → slot.completedAt = none → next.find? id = some slot

namespace Held.Thinned

theorem refl (held : Held) : held.Thinned held :=
  ⟨fun _ left found => ⟨left, found, .refl left⟩, fun _ _ found _ => found⟩

theorem trans (first : held.Thinned next) (second : next.Thinned later) : held.Thinned later where
  earlier id left found := by
    obtain ⟨middle, isMiddle, touched⟩ := second.earlier id left found
    obtain ⟨slot, isSlot, touchedFirst⟩ := first.earlier id middle isMiddle
    refine ⟨slot, isSlot, touched.process.trans touchedFirst.process, touched.eof.trans touchedFirst.eof,
      touched.completedAt.trans touchedFirst.completedAt, fun released => ?_, fun acknowledged => ?_⟩
    · refine (touched.released released).elim touchedFirst.released fun ended => .inr ?_
      rwa [HeldSlot.isEnded, touchedFirst.completedAt] at ended
    · refine (touched.acknowledged acknowledged).elim touchedFirst.acknowledged fun ended => .inr ?_
      rwa [HeldSlot.isEnded, touchedFirst.completedAt] at ended
  running id slot found isRunning :=
    second.running id slot (first.running id slot found isRunning) isRunning

theorem allKept (thinned : held.Thinned next) (allKept : held.AllKept) : next.AllKept := by
  intro id left found
  obtain ⟨slot, isSlot, touched⟩ := thinned.earlier id left found
  exact touched.kept (allKept id slot isSlot)

theorem evictCompleted (allKept : held.AllKept) (retention : RetentionPolicy) (keep : Option Nat)
    (now : Nat) : held.Thinned (held.evictCompleted retention keep now) where
  earlier id left found := by
    obtain ⟨slot, isSlot, same | ⟨same, _, ended⟩⟩ := Held.passed_of_find? found
    · exact ⟨slot, isSlot, same ▸ .refl slot⟩
    · subst same
      exact ⟨slot, isSlot, rfl, rfl, rfl, fun _ => .inr ended, .inl⟩
  running _ _ found isRunning := Held.find?_of_running allKept found isRunning

theorem acknowledgeOne (now : Nat) (held : Held) (processId : String) :
    held.Thinned (InProcessRunner.acknowledgeOne now held processId) where
  earlier id left found := by
    rw [InProcessRunner.acknowledgeOne, Table.find?_updateWhere, Option.map_eq_some_iff] at found
    obtain ⟨slot, isSlot, changed⟩ := found
    refine ⟨slot, isSlot, ?_⟩
    split at changed
    next selected =>
      simp only [Bool.and_eq_true] at selected
      subst changed
      exact ⟨rfl, rfl, rfl, .inl, fun _ => .inr selected.2⟩
    · exact changed ▸ .refl slot
  running id slot found isRunning := by
    rw [InProcessRunner.acknowledgeOne, Table.find?_updateWhere, found]
    simp [HeldSlot.isEnded, isRunning]

theorem acknowledgeAll (now : Nat) (held : Held) (processIds : List String) :
    held.Thinned (processIds.foldl (InProcessRunner.acknowledgeOne now) held) := by
  induction processIds generalizing held with
  | nil => exact .refl held
  | cons processId _ ih => exact (acknowledgeOne now held processId).trans (ih _)

theorem reorder {rows : List HeldSlot} (same : rows.Perm held.rows) :
    held.Thinned (held.reorder rows same) where
  earlier _ left found := ⟨left, (Table.find?_reorder same).symm.trans found, .refl left⟩
  running _ _ found _ := (Table.find?_reorder same).trans found

end Held.Thinned

/-- A slot shares its output and its end with the process that fills it. -/
def Fits (created : List CreatedProcess) (id : String) (slot : HeldSlot) : Prop :=
  ∃ phase, created[slot.process]? = some ⟨id, phase⟩ ∧ phase ≠ .created ∧
    (slot.eof = false ↔ phase = .running) ∧ (slot.completedAt.isSome = true ↔ phase = .ended)

structure SlotsKept (runner : InProcessRunner) : Prop where
  kept : runner.inner.AllKept
  fits : ∀ id slot, runner.inner.find? id = some slot → Fits runner.created id slot

namespace SlotsKept

theorem thinned (slots : SlotsKept before) (thins : before.inner.Thinned after.inner)
    (same : after.created = before.created) : SlotsKept after where
  kept := thins.allKept slots.kept
  fits id left found := by
    obtain ⟨slot, isSlot, touched⟩ := thins.earlier id left found
    obtain ⟨phase, isCreated, filled, running, ended⟩ := slots.fits id slot isSlot
    rw [Fits, same, touched.process, touched.eof, touched.completedAt]
    exact ⟨phase, isCreated, filled, running, ended⟩

theorem evict (slots : SlotsKept before) (now : Nat) : SlotsKept (before.evictCompleted now) :=
  slots.thinned (.evictCompleted slots.kept _ _ now) rfl

theorem acknowledge (slots : SlotsKept before) (processIds : List String) (now : Nat) :
    before.inner.Thinned (before.acknowledge processIds now).inner := by
  have first := Held.Thinned.acknowledgeAll now before.inner processIds
  exact first.trans (.evictCompleted (first.allKept slots.kept) _ _ now)

end SlotsKept

structure Reserving (reserved : List String) (requests : List SpawnRequest) : Prop where
  distinct : reserved.Nodup
  owned : ∀ (index : Nat) (request : SpawnRequest), requests[index]? = some request →
    request.owner.isSome = true → request.processId ∈ reserved
  alone : ∀ (index other : Nat) (request found : SpawnRequest),
    requests[index]? = some request → requests[other]? = some found →
    request.owner.isSome = true → found.owner.isSome = true → request.processId = found.processId →
    index = other
  owner : ∀ id ∈ reserved, ∃ (index : Nat) (request : SpawnRequest), requests[index]? = some request ∧
    request.owner.isSome = true ∧ request.processId = id

namespace Reserving

variable {reserved : List String} {requests : List SpawnRequest} {replacement : SpawnRequest}

theorem grant (reserving : Reserving reserved requests) (fresh : request.processId ∉ reserved)
    (isOwned : request.owner.isSome = true) :
    Reserving (request.processId :: reserved) (requests ++ [request]) where
  distinct := List.nodup_cons.mpr ⟨fresh, reserving.distinct⟩
  owned index found isFound owned := by
    rcases getElem?_concat_cases isFound with earlier | ⟨_, rfl⟩
    · exact List.mem_cons_of_mem _ (reserving.owned index found earlier owned)
    · exact List.mem_cons_self
  alone index other left right isLeft isRight leftOwned rightOwned same := by
    rcases getElem?_concat_cases isLeft with earlierLeft | ⟨lastLeft, rfl⟩ <;>
      rcases getElem?_concat_cases isRight with earlierRight | ⟨lastRight, rfl⟩
    · exact reserving.alone index other left right earlierLeft earlierRight leftOwned rightOwned same
    · exact absurd (same ▸ reserving.owned index left earlierLeft leftOwned) fresh
    · exact absurd (same ▸ reserving.owned other right earlierRight rightOwned) fresh
    · exact lastLeft.trans lastRight.symm
  owner id isReserved := by
    rcases List.mem_cons.mp isReserved with rfl | earlier
    · exact ⟨requests.length, request, List.getElem?_concat_length, isOwned, rfl⟩
    · obtain ⟨index, found, isFound, owned, same⟩ := reserving.owner id earlier
      exact ⟨index, found, getElem?_concat_of_some request isFound, owned, same⟩

theorem shift (reserving : Reserving reserved requests) (found : requests[index]? = some request)
    (sameId : replacement.processId = request.processId)
    (sameOwned : replacement.owner.isSome = request.owner.isSome) :
    Reserving reserved (requests.set index replacement) := by
  have earlier {position : Nat} {entry : SpawnRequest}
      (isEntry : (requests.set index replacement)[position]? = some entry) :
      ∃ old, requests[position]? = some old ∧ entry.processId = old.processId ∧
        entry.owner.isSome = old.owner.isSome := by
    rcases getElem?_set_cases isEntry with ⟨rfl, rfl⟩ | ⟨_, isOld⟩
    · exact ⟨request, found, sameId, sameOwned⟩
    · exact ⟨entry, isOld, rfl, rfl⟩
  refine ⟨reserving.distinct, fun position entry isEntry owned => ?_,
    fun position other left right isLeft isRight leftOwned rightOwned same => ?_, fun id isReserved => ?_⟩
  · obtain ⟨old, isOld, oldId, oldOwned⟩ := earlier isEntry
    exact oldId ▸ reserving.owned position old isOld (oldOwned ▸ owned)
  · obtain ⟨oldLeft, isOldLeft, leftId, oldLeftOwned⟩ := earlier isLeft
    obtain ⟨oldRight, isOldRight, rightId, oldRightOwned⟩ := earlier isRight
    exact reserving.alone position other oldLeft oldRight isOldLeft isOldRight (oldLeftOwned ▸ leftOwned)
      (oldRightOwned ▸ rightOwned) (leftId.symm.trans (same.trans rightId))
  · obtain ⟨position, entry, isEntry, owned, same⟩ := reserving.owner id isReserved
    by_cases here : index = position
    · subst here
      rw [found, Option.some.injEq] at isEntry
      subst isEntry
      exact ⟨index, replacement, List.getElem?_set_self (List.getElem?_eq_some_iff.mp found).1,
        sameOwned.trans owned, sameId.trans same⟩
    · exact ⟨position, entry, (List.getElem?_set_ne here).trans isEntry, owned, same⟩

theorem drop (reserving : Reserving reserved requests) (found : requests[index]? = some request)
    (isOwned : request.owner.isSome = true) (gone : replacement.owner = none) :
    Reserving (reserved.filter fun id => id ≠ request.processId) (requests.set index replacement) := by
  have earlier {position : Nat} {entry : SpawnRequest}
      (isEntry : (requests.set index replacement)[position]? = some entry)
      (owned : entry.owner.isSome = true) : position ≠ index ∧ requests[position]? = some entry := by
    rcases getElem?_set_cases isEntry with ⟨_, rfl⟩ | isOld
    · simp [gone] at owned
    · exact isOld
  refine ⟨reserving.distinct.filter _, fun position entry isEntry owned => ?_,
    fun position other left right isLeft isRight leftOwned rightOwned same => ?_, fun id isReserved => ?_⟩
  · obtain ⟨apart, isOld⟩ := earlier isEntry owned
    refine List.mem_filter.mpr ⟨reserving.owned position entry isOld owned, decide_eq_true fun same => ?_⟩
    exact apart (reserving.alone position index entry request isOld found owned isOwned same)
  · exact reserving.alone position other left right (earlier isLeft leftOwned).2
      (earlier isRight rightOwned).2
      leftOwned rightOwned same
  · obtain ⟨isId, apart⟩ := List.mem_filter.mp isReserved
    obtain ⟨position, entry, isEntry, owned, same⟩ := reserving.owner id isId
    refine ⟨position, entry, (List.getElem?_set_ne fun here => ?_).trans isEntry, owned, same⟩
    subst here
    rw [found, Option.some.injEq] at isEntry
    subst isEntry
    simp [same] at apart

end Reserving

/-- The processes that were created and do not fill their slot yet. -/
structure Filling (requests : List SpawnRequest) (created : List CreatedProcess) : Prop where
  filling : ∀ (index : Nat) (request : SpawnRequest) (process : Nat), requests[index]? = some request →
    request.filling = some process → created[process]? = some ⟨request.processId, .created⟩
  filler : ∀ (process : Nat) (id : String), created[process]? = some ⟨id, .created⟩ →
    ∃ (index : Nat) (request : SpawnRequest), requests[index]? = some request ∧
      request.filling = some process ∧ request.processId = id

namespace Filling

variable {requests : List SpawnRequest} {replacement : SpawnRequest}

variable (filling : Filling requests created)
include filling

theorem grant (unfilled : request.filling = none) : Filling (requests ++ [request]) created where
  filling index entry process isEntry isFilling := by
    rcases getElem?_concat_cases isEntry with isEarlier | ⟨_, rfl⟩
    · exact filling.filling index entry process isEarlier isFilling
    · simp [unfilled] at isFilling
  filler process id isCreated := by
    obtain ⟨index, entry, isEntry, isFilling, same⟩ := filling.filler process id isCreated
    exact ⟨index, entry, getElem?_concat_of_some request isEntry, isFilling, same⟩

theorem shift (found : requests[index]? = some request)
    (sameId : request.filling = none ∨ replacement.processId = request.processId)
    (sameFilling : replacement.filling = request.filling) :
    Filling (requests.set index replacement) created where
  filling position entry process isEntry isFilling := by
    rcases getElem?_set_cases isEntry with ⟨rfl, rfl⟩ | ⟨_, isOld⟩
    · rw [sameFilling] at isFilling
      rcases sameId with unfilled | same
      · simp [unfilled] at isFilling
      · exact same ▸ filling.filling position request process found isFilling
    · exact filling.filling position entry process isOld isFilling
  filler process id isCreated := by
    obtain ⟨position, entry, isEntry, isFilling, same⟩ := filling.filler process id isCreated
    by_cases here : index = position
    · subst here
      rw [found, Option.some.injEq] at isEntry
      subst isEntry
      refine ⟨index, replacement, List.getElem?_set_self (List.getElem?_eq_some_iff.mp found).1,
        sameFilling.trans isFilling, ?_⟩
      rcases sameId with unfilled | sameId
      · simp [unfilled] at isFilling
      · exact sameId.trans same
    · exact ⟨position, entry, (List.getElem?_set_ne here).trans isEntry, isFilling, same⟩

theorem create (found : requests[index]? = some request)
    (unfilled : request.filling = none) (sameId : replacement.processId = request.processId)
    (isFiller : replacement.filling = some created.length) :
    Filling (requests.set index replacement) (created ++ [⟨request.processId, .created⟩]) where
  filling position entry process isEntry isFilling := by
    rcases getElem?_set_cases isEntry with ⟨rfl, rfl⟩ | ⟨_, isOld⟩
    · rw [isFiller, Option.some.injEq] at isFilling
      rw [← isFilling, sameId]
      exact List.getElem?_concat_length
    · exact getElem?_concat_of_some _ (filling.filling position entry process isOld isFilling)
  filler process id isCreated := by
    rcases getElem?_concat_cases isCreated with isEarlier | ⟨rfl, same⟩
    · obtain ⟨position, entry, isEntry, isFilling, same⟩ := filling.filler process id isEarlier
      refine ⟨position, entry, (List.getElem?_set_ne fun here => ?_).trans isEntry, isFilling, same⟩
      subst here
      rw [found, Option.some.injEq] at isEntry
      subst isEntry
      simp [unfilled] at isFilling
    · cases same
      exact ⟨index, replacement, List.getElem?_set_self (List.getElem?_eq_some_iff.mp found).1, isFiller,
        sameId⟩

theorem fill (found : requests[index]? = some request) (isFilling : request.filling = some process)
    (alone : ∀ (position : Nat) (entry : SpawnRequest), requests[position]? = some entry →
      entry.filling = some process → position = index) (gone : replacement.filling = none) :
    Filling (requests.set index replacement)
      (created.modify process fun created => { created with phase := .running }) where
  filling position entry other isEntry isFiller := by
    rcases getElem?_set_cases isEntry with ⟨_, rfl⟩ | ⟨apart, isOld⟩
    · simp [gone] at isFiller
    · have isOther : process ≠ other := fun same => apart (alone position entry isOld (same ▸ isFiller))
      rw [List.getElem?_modify_ne _ _ isOther]
      exact filling.filling position entry other isOld isFiller
  filler other id isCreated := by
    have isOther : process ≠ other := by
      rintro rfl
      rw [List.getElem?_modify_eq, filling.filling index request process found isFilling] at isCreated
      cases isCreated
    rw [List.getElem?_modify_ne _ _ isOther] at isCreated
    obtain ⟨position, entry, isEntry, isFiller, same⟩ := filling.filler other id isCreated
    refine ⟨position, entry, (List.getElem?_set_ne fun here => ?_).trans isEntry, isFiller, same⟩
    subst here
    rw [found, Option.some.injEq] at isEntry
    subst isEntry
    exact isOther (Option.some.inj (isFilling.symm.trans isFiller))

theorem setPhase {earlier : CreatedPhase}
    (isPhase : created[process]? = some ⟨id, earlier⟩) (filled : earlier ≠ .created)
    (later : phase ≠ .created) :
    Filling requests (created.modify process fun created => { created with phase := phase }) where
  filling index entry other isEntry isFiller := by
    have isCreated := filling.filling index entry other isEntry isFiller
    have isOther : process ≠ other := by
      rintro rfl
      rw [isPhase] at isCreated
      cases isCreated
      exact filled rfl
    rw [List.getElem?_modify_ne _ _ isOther, isCreated]
  filler other found isCreated := by
    have isOther : process ≠ other := by
      rintro rfl
      rw [List.getElem?_modify_eq, isPhase] at isCreated
      cases isCreated
      exact later rfl
    rw [List.getElem?_modify_ne _ _ isOther] at isCreated
    exact filling.filler other found isCreated

end Filling

namespace InProcessRunner

theorem find?_drain :
    (runner.drain process).inner.find? id = (runner.inner.find? id).map (HeldSlot.drain process) :=
  (Table.find?_updateWhere (HeldSlot.drain_processId process)).trans (by simp)

theorem find?_complete : (runner.complete process now).inner.find? id =
      (runner.inner.find? id).map (HeldSlot.complete process now) :=
  (Table.find?_updateWhere (HeldSlot.complete_processId process now)).trans (by simp)

end InProcessRunner

namespace SlotsKept

theorem fill (slots : SlotsKept before) (new : HeldSlot) (fresh : new.Kept)
    (isNew : new.eof = false ∧ new.completedAt = none) (now : Nat)
    (isCreated : before.created[new.process]? = some ⟨new.processId, .created⟩)
    (inner : after.inner = (before.evictCompleted now).inner.put new)
    (phases : after.created =
      before.created.modify new.process fun created => { created with phase := .running }) :
    SlotsKept after := by
  have evicted := slots.evict now
  constructor
  · intro id left found
    rw [inner, Table.find?_put] at found
    split at found
    · exact Option.some.inj found ▸ fresh
    · exact evicted.kept id left found
  · intro id left found
    rw [inner, Table.find?_put] at found
    rw [Fits, phases]
    split at found
    next same =>
      cases found
      refine ⟨.running, ?_, by simp, by simp [isNew.1], by simp [isNew.2]⟩
      rw [List.getElem?_modify_eq, isCreated, same]
      rfl
    · obtain ⟨phase, isPhase, filled, running, ended⟩ := evicted.fits id left found
      have apart : new.process ≠ left.process := by
        intro same
        rw [← same] at isPhase
        cases isCreated.symm.trans isPhase
        exact filled rfl
      exact ⟨phase, (List.getElem?_modify_ne _ _ apart).trans isPhase, filled, running, ended⟩

theorem drain (slots : SlotsKept before) (isRunning : before.created[process]? = some ⟨id, .running⟩) :
    SlotsKept (before.drain process) := by
  constructor
  · intro name left found
    obtain ⟨slot, isSlot, rfl⟩ := Option.map_eq_some_iff.mp (InProcessRunner.find?_drain.symm.trans found)
    have kept := slots.kept name slot isSlot
    unfold HeldSlot.drain
    split
    · exact ⟨fun _ => rfl, kept.released, kept.acknowledged⟩
    · exact kept
  · intro name left found
    obtain ⟨slot, isSlot, rfl⟩ := Option.map_eq_some_iff.mp (InProcessRunner.find?_drain.symm.trans found)
    obtain ⟨phase, isPhase, filled, running, ended⟩ := slots.fits name slot isSlot
    change Fits (before.created.modify process _) name _
    unfold HeldSlot.drain
    split
    next same =>
      subst same
      cases isRunning.symm.trans isPhase
      refine ⟨.drained, ?_, nofun, by simp, by simpa using ended⟩
      change (before.created.modify slot.process _)[slot.process]? = _
      rw [List.getElem?_modify_eq, isPhase]
      rfl
    next apart =>
      exact ⟨phase, (List.getElem?_modify_ne _ _ (Ne.symm apart)).trans isPhase, filled, running, ended⟩

theorem complete (slots : SlotsKept before) (now : Nat)
    (isDrained : before.created[process]? = some ⟨id, .drained⟩) :
    SlotsKept (before.complete process now) := by
  have drained {name : String} {slot : HeldSlot} (isSlot : before.inner.find? name = some slot)
      (same : slot.process = process) : slot.eof = true := by
    obtain ⟨phase, isPhase, _, running, _⟩ := slots.fits name slot isSlot
    rw [same] at isPhase
    cases isDrained.symm.trans isPhase
    simpa using running
  constructor
  · intro name left found
    obtain ⟨slot, isSlot, rfl⟩ := Option.map_eq_some_iff.mp (InProcessRunner.find?_complete.symm.trans found)
    have kept := slots.kept name slot isSlot
    unfold HeldSlot.complete
    split
    next same =>
      have isOver := drained isSlot same
      exact ⟨fun _ => isOver, fun _ => rfl, fun _ => rfl⟩
    · exact kept
  · intro name left found
    obtain ⟨slot, isSlot, rfl⟩ := Option.map_eq_some_iff.mp (InProcessRunner.find?_complete.symm.trans found)
    obtain ⟨phase, isPhase, filled, running, ended⟩ := slots.fits name slot isSlot
    change Fits (before.created.modify process _) name _
    unfold HeldSlot.complete
    split
    next same =>
      have isOver := drained isSlot same
      subst same
      cases isDrained.symm.trans isPhase
      refine ⟨.ended, ?_, nofun, by simp [isOver], by simp⟩
      change (before.created.modify slot.process _)[slot.process]? = _
      rw [List.getElem?_modify_eq, isPhase]
      rfl
    next apart =>
      exact ⟨phase, (List.getElem?_modify_ne _ _ (Ne.symm apart)).trans isPhase, filled, running, ended⟩

end SlotsKept

theorem InProcessRunner.liveCount_le
    (earlier : ∀ id left, after.inner.find? id = some left → left.eof = false →
      ∃ slot, before.inner.find? id = some slot ∧ slot.eof = false) :
    after.liveCount ≤ before.liveCount := by
  unfold InProcessRunner.liveCount
  rw [← before.inner.length_keysWhere]
  refine Table.count_le_length fun id left found live => ?_
  obtain ⟨slot, isSlot, live⟩ := earlier id left found (by simpa using live)
  exact Table.mem_keysWhere.mpr ⟨slot, isSlot, by simp [live]⟩

theorem Held.Thinned.liveCount_le (thins : before.inner.Thinned after.inner) :
    after.liveCount ≤ before.liveCount := by
  refine InProcessRunner.liveCount_le fun id left found live => ?_
  obtain ⟨slot, isSlot, touched⟩ := thins.earlier id left found
  exact ⟨slot, isSlot, touched.eof ▸ live⟩

structure RunnerKept (runner : InProcessRunner) : Prop extends SlotsKept runner where
  reserving : Reserving runner.reserved runner.requests
  filling : Filling runner.requests runner.created
  bounded : runner.liveCount + runner.reserved.length ≤ runner.limit

namespace RunnerKept

theorem new (retention : RetentionPolicy) (limit : Nat) : RunnerKept (.new retention limit) where
  kept _ _ found := by cases found
  fits _ _ found := by cases found
  reserving := ⟨List.nodup_nil, by simp [InProcessRunner.new], by simp [InProcessRunner.new],
    by simp [InProcessRunner.new]⟩
  filling := ⟨by simp [InProcessRunner.new], by simp [InProcessRunner.new]⟩
  bounded := Nat.zero_le _

theorem thinned (runner : RunnerKept before) (thins : before.inner.Thinned after.inner)
    (reserved : after.reserved = before.reserved) (requests : after.requests = before.requests)
    (created : after.created = before.created) (limit : after.limit = before.limit) :
    RunnerKept after where
  toSlotsKept := runner.toSlotsKept.thinned thins created
  reserving := by rw [reserved, requests]; exact runner.reserving
  filling := by rw [requests, created]; exact runner.filling
  bounded := by
    have fewer := thins.liveCount_le
    have bounded := runner.bounded
    rw [reserved, limit]
    omega

theorem processId_mem_reserved (runner : RunnerKept before)
    (found : before.requests[index]? = some request) (isFiller : request.filling = some process) :
    request.owner.isSome = true ∧ request.processId ∈ before.reserved := by
  have owned : request.owner.isSome = true := by
    unfold SpawnRequest.filling at isFiller
    split at isFiller
    next isOwner => simp [isOwner]
    · cases isFiller
  exact ⟨owned, runner.reserving.owned index request found owned⟩

theorem filler_alone (runner : RunnerKept before) (found : before.requests[index]? = some request)
    (isFiller : request.filling = some process) {position : Nat} {entry : SpawnRequest}
    (isEntry : before.requests[position]? = some entry) (isOther : entry.filling = some process) :
    position = index := by
  have isCreated := runner.filling.filling index request process found isFiller
  have same := runner.filling.filling position entry process isEntry isOther
  rw [isCreated, Option.some.injEq, CreatedProcess.mk.injEq] at same
  exact runner.reserving.alone position index entry request isEntry found
    (runner.processId_mem_reserved isEntry isOther).1 (runner.processId_mem_reserved found isFiller).1
    same.1.symm

theorem fill (runner : RunnerKept before) (now : Nat) (found : before.requests[index]? = some request)
    (isOwner : request.owner = some (.filler process)) :
    RunnerKept (((before.setRequest index { request with owner := none }).fill
      { processId := request.processId, workspaceId := request.workspaceId, process := process }
      now).setPhase process .running) := by
  have isFiller : request.filling = some process := by simp [SpawnRequest.filling, isOwner]
  obtain ⟨owned, isReserved⟩ := runner.processId_mem_reserved found isFiller
  refine ⟨?_, ?_, ?_, ?_⟩
  · exact runner.toSlotsKept.fill
      { processId := request.processId, workspaceId := request.workspaceId, process := process }
      ⟨nofun, nofun, nofun⟩ ⟨rfl, rfl⟩ now (runner.filling.filling index request process found isFiller)
      rfl rfl
  · exact runner.reserving.drop found owned rfl
  · exact runner.filling.fill found isFiller
      (fun _ _ isEntry isOther => runner.filler_alone found isFiller isEntry isOther) rfl
  · have evicted : (before.evictCompleted now).liveCount ≤ before.liveCount :=
      (Held.Thinned.evictCompleted runner.kept _ _ now).liveCount_le
    have filled : ((before.evictCompleted now).inner.put
        { processId := request.processId, workspaceId := request.workspaceId, process := process }).count
          (fun slot => !slot.eof) ≤ (before.evictCompleted now).liveCount + 1 := Table.count_put_le
    have fewer : (before.reserved.filter fun id => id ≠ request.processId).length <
        before.reserved.length :=
      List.length_filter_lt_length_iff_exists.mpr ⟨request.processId, isReserved, by simp⟩
    have bounded := runner.bounded
    change ((before.evictCompleted now).inner.put _).count (fun slot => !slot.eof) +
      (before.reserved.filter fun id => id ≠ request.processId).length ≤ before.limit
    omega

theorem step (runner : RunnerKept before) (stepped : SlotStep before notice after) :
    RunnerKept after := by
  cases stepped with
  | grants _ now fresh _ owned unfilled =>
      refine ⟨runner.toSlotsKept.thinned (.evictCompleted runner.kept _ _ now) rfl,
        runner.reserving.grant fresh owned, runner.filling.grant unfilled, ?_⟩
      change (before.evictCompleted now).liveCount + (before.reserved.length + 1) ≤ before.limit
      omega
  | refuses body now | passes now =>
      exact runner.thinned (.evictCompleted runner.kept _ _ now) rfl rfl rfl rfl
  | stays => exact runner
  | shifts _ found sameId sameOwned sameFilling =>
      exact ⟨⟨runner.kept, runner.fits⟩, runner.reserving.shift found sameId sameOwned,
        runner.filling.shift found (.inr sameId) sameFilling, runner.bounded⟩
  | @gives index request replacement found sameId owned unfilled gone =>
      have unfilledLater : replacement.filling = none := by simp [SpawnRequest.filling, gone]
      refine ⟨⟨runner.kept, runner.fits⟩, runner.reserving.drop found owned gone,
        runner.filling.shift found (.inl unfilled) (unfilledLater.trans unfilled.symm), ?_⟩
      have fewer := List.length_filter_le (fun id => decide (id ≠ request.processId)) before.reserved
      have bounded := runner.bounded
      change before.liveCount + List.length (before.reserved.filter fun id => id ≠ request.processId) ≤
        before.limit
      omega
  | @creates index request found owned =>
      have unfilled : request.filling = none := by simp [SpawnRequest.filling, owned]
      refine ⟨⟨runner.kept, fun id slot isSlot => ?_⟩, runner.reserving.shift found rfl (by simp [owned]),
        runner.filling.create found unfilled rfl rfl, runner.bounded⟩
      obtain ⟨phase, isPhase, rest⟩ := runner.fits id slot isSlot
      exact ⟨phase, getElem?_concat_of_some _ isPhase, rest⟩
  | fills now found owned => exact runner.fill now found owned
  | @drains process id running =>
      refine ⟨runner.toSlotsKept.drain running, runner.reserving,
        runner.filling.setPhase running nofun nofun, ?_⟩
      have fewer : (before.drain process).liveCount ≤ before.liveCount := by
        refine InProcessRunner.liveCount_le fun name left found live => ?_
        obtain ⟨slot, isSlot, rfl⟩ :=
          Option.map_eq_some_iff.mp (InProcessRunner.find?_drain.symm.trans found)
        refine ⟨slot, isSlot, ?_⟩
        simp only [HeldSlot.drain] at live
        split at live
        · cases live
        · exact live
      exact Nat.le_trans (Nat.add_le_add_right fewer _) runner.bounded
  | @completes process id now drained =>
      refine ⟨runner.toSlotsKept.complete now drained, runner.reserving,
        runner.filling.setPhase drained nofun nofun, ?_⟩
      have fewer : (before.complete process now).liveCount ≤ before.liveCount := by
        refine InProcessRunner.liveCount_le fun name left found live => ?_
        obtain ⟨slot, isSlot, rfl⟩ :=
          Option.map_eq_some_iff.mp (InProcessRunner.find?_complete.symm.trans found)
        refine ⟨slot, isSlot, ?_⟩
        simp only [HeldSlot.complete] at live
        split at live <;> exact live
      exact Nat.le_trans (Nat.add_le_add_right fewer _) runner.bounded
  | acknowledges processIds now =>
      exact runner.thinned (runner.toSlotsKept.acknowledge processIds now) rfl rfl rfl rfl
  | keeps => exact ⟨⟨runner.kept, runner.fits⟩, runner.reserving, runner.filling, runner.bounded⟩
  | rehashes same => exact runner.thinned (.reorder same) rfl rfl rfl rfl

end RunnerKept

end CodeSpace.Runner
