import CodeSpace.Data.Oldest
import CodeSpace.Data.Table

namespace CodeSpace.Runner

open Data

/-! `evict_completed` of `crates/runner/src/process.rs`: which ended processes a runner lets go of. The
order of the rows is the one the map is iterated in; times are those of one clock. -/

structure RetentionPolicy where
  ttl : Nat
  maxCompleted : Nat
deriving DecidableEq, Repr

/-- A slot of the runner's map. Its output and its end are shared with the tasks of the process that
fills it, which `process` numbers. -/
structure HeldSlot where
  processId : String
  workspaceId : String
  process : Nat
  eof : Bool := false
  completedAt : Option Nat := none
  released : Bool := false
  acknowledged : Option Nat := none
deriving DecidableEq, Repr

abbrev Held := Table HeldSlot.processId

namespace HeldSlot

def release (slot : HeldSlot) : HeldSlot :=
  { slot with released := true }

theorem release_processId (slot : HeldSlot) : slot.release.processId = slot.processId := rfl

def isEnded (slot : HeldSlot) : Bool :=
  slot.completedAt.isSome

/-- Its handle goes; without a controller to wait for, the whole slot goes. -/
def retired (keep : Option Nat) (slot : HeldSlot) : Option HeldSlot :=
  if keep.isSome && slot.acknowledged.isNone then some slot.release else none

/-- An acknowledged slot whose handle is gone stays for another `ttl`. -/
def isStale (retention : RetentionPolicy) (now : Nat) (slot : HeldSlot) : Bool :=
  slot.released && slot.acknowledged.any fun time => retention.ttl < now - time

end HeldSlot

namespace Held

def remove (held : Held) (processId : String) : Held :=
  held.deleteWhere fun slot => slot.processId = processId

def retire (keep : Option Nat) (held : Held) (processId : String) : Held :=
  match held.find? processId with
  | some slot =>
      if keep.isSome && slot.acknowledged.isNone then
        held.updateWhere (fun slot => slot.processId = processId) HeldSlot.release
          HeldSlot.release_processId
      else held.remove processId
  | none => held.remove processId

/-- The ended processes among some of the slots, with when they ended. -/
def endedWhere (test : HeldSlot → Bool) (held : Held) : List (String × Nat) :=
  (held.rows.filter test).filterMap fun slot => slot.completedAt.map fun time => (slot.processId, time)

/-- The entries of the loop that are not skipped. -/
def isPast (retention : RetentionPolicy) (now excess : Nat) (entry : (String × Nat) × Nat) : Bool :=
  !(excess ≤ entry.2 && now - entry.1.2 ≤ retention.ttl)

def pastIds (retention : RetentionPolicy) (now : Nat) (held : Held) : List String :=
  let ended := byTime Prod.snd (held.endedWhere fun slot => !slot.released)
  let excess := ended.length - retention.maxCompleted
  (ended.zipIdx.filter (isPast retention now excess)).map fun entry => entry.1.1

def surplusIds (keep : Nat) (held : Held) : List String :=
  let released := held.endedWhere HeldSlot.released
  if released.length ≤ keep then []
  else ((byTime Prod.snd released).take (released.length - keep)).map Prod.fst

def evictEnded (retention : RetentionPolicy) (keep : Option Nat) (now : Nat) (held : Held) : Held :=
  (held.pastIds retention now).foldl (retire keep) held

def evictStale (retention : RetentionPolicy) (now : Nat) (held : Held) : Held :=
  held.deleteWhere (HeldSlot.isStale retention now)

def evictSurplus (keep : Nat) (held : Held) : Held :=
  (held.surplusIds keep).foldl remove held

def evictCompleted (retention : RetentionPolicy) (keep : Option Nat) (now : Nat) (held : Held) : Held :=
  match keep with
  | none => held.evictEnded retention keep now
  | some limit => ((held.evictEnded retention keep now).evictStale retention now).evictSurplus limit

end Held

variable {retention : RetentionPolicy} {keep : Option Nat} {now limit : Nat} {held : Held}
  {slot : HeldSlot} {id other : String} {ids : List String} {test : HeldSlot → Bool} {time : Nat}

namespace HeldSlot

/-- Retiring twice is retiring once. -/
theorem retired_bind_retired (found : Option HeldSlot) :
    (found.bind (retired keep)).bind (retired keep) = found.bind (retired keep) := by
  cases found with
  | none => rfl
  | some =>
      simp only [Option.bind_some, retired]
      split
      next kept => simpa [retired, release] using kept
      · rfl

theorem retired_eq_some {kept : HeldSlot} (retires : slot.retired keep = some kept) :
    kept = slot.release ∧ keep.isSome = true ∧ slot.acknowledged = none := by
  unfold retired at retires
  split at retires
  next isKept =>
    simp only [Bool.and_eq_true, Option.isNone_iff_eq_none] at isKept
    cases retires
    exact ⟨rfl, isKept⟩
  · cases retires

end HeldSlot

namespace Held

@[simp]
theorem find?_remove : (held.remove other).find? id = if id = other then none else held.find? id := by
  unfold remove
  rw [Table.find?_deleteWhere]
  cases found : held.find? id with
  | none => simp
  | some =>
      have isSlot := (Table.find?_eq_some.mp found).2
      by_cases same : id = other <;> simp [Option.filter, isSlot, same]

theorem find?_removeAll :
    (ids.foldl remove held).find? id = if id ∈ ids then none else held.find? id := by
  induction ids generalizing held with
  | nil => simp
  | cons first _ ih =>
      rw [List.foldl_cons, ih, find?_remove]
      by_cases same : id = first <;> simp [same]

theorem find?_retire : (retire keep held other).find? id =
      if id = other then (held.find? id).bind (HeldSlot.retired keep) else held.find? id := by
  unfold retire
  cases found : held.find? other with
  | none =>
      by_cases same : id = other
      · simp [same, found]
      · simp [same]
  | some slot =>
      by_cases kept : (keep.isSome && slot.acknowledged.isNone) = true
      · simp only [kept, if_true, Table.find?_updateRow]
        by_cases same : id = other
        · subst same
          simp [found, HeldSlot.retired, kept, (Table.find?_eq_some.mp found).2]
        · simp only [same, if_false]
          cases isFound : held.find? id with
          | none => rfl
          | some =>
              have isRow := (Table.find?_eq_some.mp isFound).2
              simp [isRow, same]
      · simp only [kept, Bool.false_eq_true, if_false, find?_remove]
        by_cases same : id = other
        · subst same
          simp [found, HeldSlot.retired, kept]
        · simp [same]

theorem find?_retireAll : (ids.foldl (retire keep) held).find? id =
      if id ∈ ids then (held.find? id).bind (HeldSlot.retired keep) else held.find? id := by
  induction ids generalizing held with
  | nil => simp
  | cons first _ ih =>
      rw [List.foldl_cons, ih, find?_retire]
      by_cases same : id = first
      · simp [same, HeldSlot.retired_bind_retired]
      · simp [same]

theorem mem_endedWhere : (id, time) ∈ held.endedWhere test ↔
      ∃ slot, held.find? id = some slot ∧ test slot = true ∧ slot.completedAt = some time := by
  simp only [endedWhere, List.mem_filterMap, List.mem_filter, Option.map_eq_some_iff, Prod.mk.injEq,
    Table.find?_eq_some]
  constructor
  · rintro ⟨slot, ⟨member, passes⟩, found, ended, same, rfl⟩
    exact ⟨slot, ⟨member, same⟩, passes, ended⟩
  · rintro ⟨slot, ⟨member, same⟩, passes, ended⟩
    exact ⟨slot, ⟨member, passes⟩, time, ended, same, rfl⟩

theorem endedWhere_nodup (test : HeldSlot → Bool) (held : Held) :
    ((held.endedWhere test).map Prod.fst).Nodup := by
  have sublist : ((held.endedWhere test).map Prod.fst).Sublist (held.rows.map HeldSlot.processId) := by
    unfold endedWhere
    refine List.Sublist.trans ?_ ((List.filter_sublist (p := test)).map HeldSlot.processId)
    generalize held.rows.filter test = slots
    induction slots with
    | nil => exact .slnil
    | cons slot _ ih =>
        cases ended : slot.completedAt with
        | none => simpa [ended] using ih.cons slot.processId
        | some => simpa [ended] using ih.cons_cons slot.processId
  exact sublist.nodup held.distinct

/-- Other processes that are held and ended no earlier. -/
def NoEarlier (held : Held) (test : HeldSlot → Bool) (id : String) (time : Nat) (others : List String) :
    Prop :=
  others.Nodup ∧ id ∉ others ∧ ∀ other ∈ others, ∃ slot later, held.find? other = some slot ∧
    test slot = true ∧ slot.completedAt = some later ∧ time ≤ later

theorem noEarlier_of_mem_take {count : Nat}
    (early : (id, time) ∈ (byTime Prod.snd (held.endedWhere test)).take
      ((held.endedWhere test).length - count)) :
    ∃ others, others.length = count ∧ held.NoEarlier test id time others ∧
      ∀ other ∈ others, other ∉ ((byTime Prod.snd (held.endedWhere test)).take
        ((held.endedWhere test).length - count)).map Prod.fst := by
  have distinct : ((byTime Prod.snd (held.endedWhere test)).map Prod.fst).Nodup :=
    ((byTime_perm Prod.snd _).map Prod.fst).nodup_iff.mpr (held.endedWhere_nodup test)
  rw [← List.take_append_drop ((held.endedWhere test).length - count) (byTime Prod.snd _),
    List.map_append, List.nodup_append] at distinct
  refine ⟨((byTime Prod.snd (held.endedWhere test)).drop
    ((held.endedWhere test).length - count)).map Prod.fst, ?_, ⟨distinct.2.1, fun isOther => ?_,
    fun other isOther => ?_⟩, fun other isOther isTaken => distinct.2.2 other isTaken other isOther rfl⟩
  · rw [List.length_map, length_drop_of_mem_take early]
  · exact distinct.2.2 id (List.mem_map.mpr ⟨(id, time), early, rfl⟩) id isOther rfl
  · obtain ⟨⟨_, later⟩, late, rfl⟩ := List.mem_map.mp isOther
    obtain ⟨slot, isSlot, passes, ended⟩ := mem_endedWhere.mp (mem_byTime.mp (List.mem_of_mem_drop late))
    exact ⟨slot, later, isSlot, passes, ended, le_of_mem_take_drop early late⟩

theorem of_mem_pastIds (isPast : id ∈ held.pastIds retention now) :
    ∃ slot time, held.find? id = some slot ∧ slot.released = false ∧ slot.completedAt = some time ∧
      (retention.ttl < now - time ∨ ∃ others, others.length = retention.maxCompleted ∧
        held.NoEarlier (fun slot => !slot.released) id time others) := by
  simp only [pastIds, List.mem_map, List.mem_filter] at isPast
  obtain ⟨⟨⟨_, time⟩, index⟩, ⟨listed, past⟩, rfl⟩ := isPast
  have place := List.mk_mem_zipIdx_iff_getElem?.mp listed
  obtain ⟨slot, isSlot, unreleased, ended⟩ :=
    mem_endedWhere.mp (mem_byTime.mp (List.mem_of_getElem? place))
  refine ⟨slot, time, isSlot, by simpa using unreleased, ended, ?_⟩
  by_cases late : retention.ttl < now - time
  · exact .inl late
  · right
    have early : index < (held.endedWhere fun slot => !slot.released).length -
        retention.maxCompleted := by
      have fresh : now - time ≤ retention.ttl := Nat.le_of_not_lt late
      simpa [Held.isPast, fresh, Nat.lt_sub_iff_add_lt] using past
    have taken := List.mem_of_getElem? ((List.getElem?_take_of_lt early).trans place)
    obtain ⟨others, counted, behind, _⟩ := noEarlier_of_mem_take taken
    exact ⟨others, counted, behind⟩

theorem mem_drop_of_not_pastIds (isSlot : held.find? id = some slot) (unreleased : slot.released = false)
    (ended : slot.completedAt = some time) (kept : id ∉ held.pastIds retention now) :
    (id, time) ∈ (byTime Prod.snd (held.endedWhere fun slot => !slot.released)).drop
      ((held.endedWhere fun slot => !slot.released).length - retention.maxCompleted) := by
  have listed : (id, time) ∈ byTime Prod.snd (held.endedWhere fun slot => !slot.released) :=
    mem_byTime.mpr (mem_endedWhere.mpr ⟨slot, isSlot, by simp [unreleased], ended⟩)
  obtain ⟨index, place⟩ := List.mem_iff_getElem?.mp listed
  by_cases early : index < (held.endedWhere fun slot => !slot.released).length - retention.maxCompleted
  · refine absurd ?_ kept
    simp only [pastIds, List.mem_map, List.mem_filter]
    refine ⟨((id, time), index), ⟨List.mk_mem_zipIdx_iff_getElem?.mpr place, ?_⟩, rfl⟩
    have isEarly : ¬ (held.endedWhere fun slot => !slot.released).length - retention.maxCompleted ≤
        index := Nat.not_le_of_lt early
    simp only [isPast, length_byTime, isEarly, decide_false, Bool.false_and, Bool.not_false]
  · obtain ⟨_, same⟩ := Nat.exists_eq_add_of_le (Nat.le_of_not_lt early)
    rw [same, ← List.getElem?_drop] at place
    exact List.mem_of_getElem? place

theorem mem_surplusIds :
    id ∈ held.surplusIds limit ↔ id ∈ ((byTime Prod.snd (held.endedWhere HeldSlot.released)).take
      ((held.endedWhere HeldSlot.released).length - limit)).map Prod.fst := by
  simp only [surplusIds]
  split
  next within => simp [Nat.sub_eq_zero_of_le within]
  · rfl

theorem mem_drop_of_not_surplusIds (isSlot : held.find? id = some slot)
    (released : slot.released = true) (ended : slot.completedAt = some time)
    (kept : id ∉ held.surplusIds limit) :
    (id, time) ∈ (byTime Prod.snd (held.endedWhere HeldSlot.released)).drop
      ((held.endedWhere HeldSlot.released).length - limit) := by
  have listed : (id, time) ∈ byTime Prod.snd (held.endedWhere HeldSlot.released) :=
    mem_byTime.mpr (mem_endedWhere.mpr ⟨slot, isSlot, released, ended⟩)
  rw [← List.take_append_drop ((held.endedWhere HeldSlot.released).length - limit)
    (byTime Prod.snd _), List.mem_append] at listed
  rcases listed with early | late
  · exact absurd (mem_surplusIds.mpr (List.mem_map.mpr ⟨(id, time), early, rfl⟩)) kept
  · exact late

theorem find?_evictEnded : (held.evictEnded retention keep now).find? id =
      if id ∈ held.pastIds retention now then (held.find? id).bind (HeldSlot.retired keep)
      else held.find? id :=
  find?_retireAll

theorem find?_evictStale : (held.evictStale retention now).find? id =
      (held.find? id).filter fun slot => !slot.isStale retention now :=
  Table.find?_deleteWhere

theorem find?_evictSurplus : (held.evictSurplus limit).find? id =
      if id ∈ held.surplusIds limit then none else held.find? id :=
  find?_removeAll

end Held

structure HeldSlot.Kept (slot : HeldSlot) : Prop where
  drained : slot.completedAt.isSome = true → slot.eof = true
  released : slot.released = true → slot.completedAt.isSome = true
  acknowledged : slot.acknowledged.isSome = true → slot.completedAt.isSome = true

def HeldSlot.Passed (keep : Option Nat) (slot kept : HeldSlot) : Prop :=
  kept = slot ∨ kept = slot.release ∧ keep.isSome = true ∧ slot.isEnded = true

namespace Held

def AllKept (held : Held) : Prop :=
  ∀ id slot, held.find? id = some slot → slot.Kept

theorem find?_of_evictStale (found : (held.evictStale retention now).find? id = some slot) :
    held.find? id = some slot := by
  rw [find?_evictStale, Option.filter_eq_some_iff] at found
  exact found.1

theorem find?_of_evictSurplus (found : (held.evictSurplus limit).find? id = some slot) :
    held.find? id = some slot ∧ id ∉ held.surplusIds limit := by
  rw [find?_evictSurplus] at found
  split at found
  · cases found
  next kept => exact ⟨found, kept⟩

theorem find?_evictEnded_of_find? (found : (held.evictCompleted retention keep now).find? id = some slot) :
    (held.evictEnded retention keep now).find? id = some slot := by
  cases keep with
  | none => exact found
  | some => exact find?_of_evictStale (find?_of_evictSurplus found).1

/-- The slots a pass leaves: those of before, some of them without their handles. -/
theorem passed_of_find? {left : HeldSlot}
    (found : (held.evictCompleted retention keep now).find? id = some left) :
    ∃ slot, held.find? id = some slot ∧ slot.Passed keep left := by
  have found := find?_evictEnded_of_find? found
  rw [find?_evictEnded] at found
  split at found
  next past =>
    obtain ⟨slot, _, isSlot, _, ended, _⟩ := of_mem_pastIds past
    obtain ⟨same, isKept, _⟩ := HeldSlot.retired_eq_some (by simpa [isSlot] using found)
    exact ⟨slot, isSlot, .inr ⟨same, isKept, by simp [HeldSlot.isEnded, ended]⟩⟩
  · exact ⟨left, found, .inl rfl⟩

theorem AllKept.evictCompleted (allKept : held.AllKept) :
    (held.evictCompleted retention keep now).AllKept := by
  intro id left found
  obtain ⟨slot, isSlot, same | ⟨rfl, _, ended⟩⟩ := passed_of_find? found
  · exact same ▸ allKept id slot isSlot
  · have kept := allKept id slot isSlot
    exact ⟨kept.drained, fun _ => ended, kept.acknowledged⟩

theorem find?_of_running (allKept : held.AllKept) (isSlot : held.find? id = some slot)
    (running : slot.completedAt = none) :
    (held.evictCompleted retention keep now).find? id = some slot := by
  have unreleased : slot.released = false := by
    by_contra released
    have ended := (allKept id slot isSlot).released (eq_true_of_ne_false released)
    simp [running] at ended
  have first : (held.evictEnded retention keep now).find? id = some slot := by
    rw [find?_evictEnded, if_neg, isSlot]
    intro past
    obtain ⟨other, time, isOther, _, ended, _⟩ := of_mem_pastIds past
    rw [isSlot, Option.some.injEq] at isOther
    rw [← isOther, running] at ended
    cases ended
  cases keep with
  | none => exact first
  | some limit =>
      have second : ((held.evictEnded retention (some limit) now).evictStale retention now).find? id =
          some slot := by
        simp [find?_evictStale, first, Option.filter, HeldSlot.isStale, unreleased]
      unfold Held.evictCompleted
      rw [find?_evictSurplus, if_neg, second]
      intro surplus
      obtain ⟨⟨found, _⟩, taken, same⟩ := List.mem_map.mp (mem_surplusIds.mp surplus)
      obtain ⟨_, isOther, released, _⟩ := mem_endedWhere.mp (mem_byTime.mp (List.mem_of_mem_take taken))
      rw [show found = id from same, second, Option.some.injEq] at isOther
      rw [← isOther, unreleased] at released
      cases released

/-- A pass leaves at most `max_completed` ended processes with their handles. -/
theorem count_unreleased_le :
    (held.evictCompleted retention keep now).count (fun slot => !slot.released && slot.isEnded) ≤
      retention.maxCompleted := by
  let last := (byTime Prod.snd (held.endedWhere fun slot => !slot.released)).drop
    ((held.endedWhere fun slot => !slot.released).length - retention.maxCompleted)
  have few : last.length ≤ retention.maxCompleted := by
    rw [List.length_drop, length_byTime]
    omega
  refine (Table.count_le_length fun id slot found counted => ?_).trans
    ((List.length_map Prod.fst).le.trans few)
  simp only [Bool.and_eq_true, Bool.not_eq_true'] at counted
  obtain ⟨unreleased, ended⟩ := counted
  obtain ⟨time, ended⟩ := Option.isSome_iff_exists.mp ended
  have found := find?_evictEnded_of_find? found
  rw [find?_evictEnded] at found
  split at found
  · obtain ⟨_, _, retires⟩ := Option.bind_eq_some_iff.mp found
    rw [(HeldSlot.retired_eq_some retires).1] at unreleased
    cases unreleased
  next kept =>
    exact List.mem_map.mpr ⟨(id, time), mem_drop_of_not_pastIds found unreleased ended kept, rfl⟩

/-- A pass leaves at most `keep` processes without their handles. -/
theorem count_released_le (allKept : held.AllKept) :
    (held.evictCompleted retention (some limit) now).count HeldSlot.released ≤ limit := by
  let second := (held.evictEnded retention (some limit) now).evictStale retention now
  let last := (byTime Prod.snd (second.endedWhere HeldSlot.released)).drop
    ((second.endedWhere HeldSlot.released).length - limit)
  have few : last.length ≤ limit := by
    rw [List.length_drop, length_byTime]
    omega
  refine (Table.count_le_length fun id slot found released => ?_).trans
    ((List.length_map Prod.fst).le.trans few)
  have ended := (allKept.evictCompleted id slot found).released released
  obtain ⟨time, ended⟩ := Option.isSome_iff_exists.mp ended
  obtain ⟨found, kept⟩ := find?_of_evictSurplus found
  exact List.mem_map.mpr ⟨(id, time), mem_drop_of_not_surplusIds found released ended kept, rfl⟩

/-- Without controllers to wait for, a process goes when its time is over or others ended later. -/
theorem dropped_without_keep (isSlot : held.find? id = some slot) (ended : slot.completedAt = some time)
    (dropped : (held.evictCompleted retention none now).find? id = none) :
    retention.ttl < now - time ∨ ∃ others, others.length = retention.maxCompleted ∧
      held.NoEarlier HeldSlot.isEnded id time others := by
  unfold Held.evictCompleted at dropped
  simp only [find?_evictEnded] at dropped
  split at dropped
  next past =>
    obtain ⟨other, _, isOther, _, endedAt, cause⟩ := of_mem_pastIds past
    rw [isSlot, Option.some.injEq] at isOther
    rw [← isOther, ended, Option.some.injEq] at endedAt
    subst endedAt
    refine cause.imp_right ?_
    rintro ⟨others, counted, distinct, apart, behind⟩
    refine ⟨others, counted, distinct, apart, fun other isOther => ?_⟩
    obtain ⟨slot, later, isSlot, _, endedLater, noEarlier⟩ := behind other isOther
    exact ⟨slot, later, isSlot, by simp [HeldSlot.isEnded, endedLater], endedLater, noEarlier⟩
  · simp [isSlot] at dropped

/-- What no controller acknowledged goes only for others that ended later and stay. -/
theorem dropped_with_keep (isSlot : held.find? id = some slot)
    (ended : slot.completedAt = some time) (unacknowledged : slot.acknowledged = none)
    (dropped : (held.evictCompleted retention (some limit) now).find? id = none) :
    ∃ others, others.length = limit ∧
      (held.evictCompleted retention (some limit) now).NoEarlier HeldSlot.released id time others := by
  let second := (held.evictEnded retention (some limit) now).evictStale retention now
  have isSecond : ∃ left, second.find? id = some left ∧ left.completedAt = some time := by
    have first : ∃ left, (held.evictEnded retention (some limit) now).find? id = some left ∧
        left.completedAt = some time ∧ left.acknowledged = none := by
      rw [find?_evictEnded]
      split
      · exact ⟨slot.release, by simp [isSlot, HeldSlot.retired, unacknowledged], ended, unacknowledged⟩
      · exact ⟨slot, isSlot, ended, unacknowledged⟩
    obtain ⟨left, isLeft, endedAt, unanswered⟩ := first
    exact ⟨left, by simp [second, find?_evictStale, isLeft, Option.filter, HeldSlot.isStale, unanswered],
      endedAt⟩
  obtain ⟨left, isLeft, endedAt⟩ := isSecond
  have surplus : id ∈ second.surplusIds limit := by
    by_contra kept
    have found : (second.evictSurplus limit).find? id = some left := by
      rw [find?_evictSurplus, if_neg kept, isLeft]
    rw [show held.evictCompleted retention (some limit) now = second.evictSurplus limit from rfl,
      found] at dropped
    cases dropped
  obtain ⟨⟨found, earlier⟩, taken, same⟩ := List.mem_map.mp (mem_surplusIds.mp surplus)
  obtain rfl : found = id := same
  obtain ⟨other, isOther, _, endedEarlier⟩ :=
    mem_endedWhere.mp (mem_byTime.mp (List.mem_of_mem_take taken))
  obtain rfl : time = earlier := by
    rw [isLeft, Option.some.injEq] at isOther
    rw [← isOther, endedAt, Option.some.injEq] at endedEarlier
    exact endedEarlier
  obtain ⟨others, counted, ⟨distinct, apart, behind⟩, untaken⟩ := noEarlier_of_mem_take taken
  refine ⟨others, counted, distinct, apart, fun other isOther => ?_⟩
  obtain ⟨slot, later, isSlot, released, endedLater, noEarlier⟩ := behind other isOther
  refine ⟨slot, later, ?_, released, endedLater, noEarlier⟩
  change (second.evictSurplus limit).find? other = some slot
  rw [find?_evictSurplus, if_neg fun isSurplus => untaken other isOther (mem_surplusIds.mp isSurplus),
    isSlot]

end Held

end CodeSpace.Runner
