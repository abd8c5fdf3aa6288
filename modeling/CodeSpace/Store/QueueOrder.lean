import CodeSpace.Store.QueueRevision

namespace CodeSpace.Store

open Data Domain Transition

/-! The positions of queued intents: what `reorder_queued` writes is the order in which `claim_next`
hands the intents out. -/

/-- The intent a `claim_next` handed out. -/
def Exchange.handedOut (exchange : Exchange) : Option String :=
  match exchange.reply with
  | .ok (.claimed (some item)) => some item.intentId
  | _ => none

namespace Coordination

variable {db next : Coordination} {workId id : String} {work : Work} {state : WorkState}
  {ids : List String} {row left right : UserIntent} {tie : Nat}

/-! Renumbering. -/

theorem renumbered_cons (row : UserIntent) (head : String) (start : Nat) :
    ∃ other : UserIntent, other.intentId = row.intentId ∧ (head = row.intentId → other.position = start + 1) ∧
      renumbered ((head :: ids).zipIdx start) row = renumbered (ids.zipIdx (start + 1)) other :=
  ⟨{ row with position := if head = row.intentId then start + 1 else row.position }, rfl,
    fun same => if_pos same, rfl⟩

theorem renumbered_mem (start : Nat) (listed : row.intentId ∈ ids) :
    start < renumbered (ids.zipIdx start) row ∧
      renumbered (ids.zipIdx start) row ≤ start + ids.length := by
  induction ids generalizing start row with
  | nil => contradiction
  | cons head rest ih =>
      obtain ⟨_, same, numbered, moved⟩ := renumbered_cons row head start
      rw [moved, List.length_cons]
      by_cases again : row.intentId ∈ rest
      · have within := ih (start + 1) (same ▸ again)
        omega
      · have isHead : head = row.intentId := by
          rcases List.mem_cons.mp listed with named | later
          · exact named.symm
          · contradiction
        rw [renumbered_of_notMem (same ▸ again), numbered isHead]
        omega

theorem renumbered_pairwise (distinct : ids.Nodup) (start : Nat) :
    ids.Pairwise fun first second => ∀ {left right : UserIntent}, left.intentId = first →
      right.intentId = second →
        renumbered (ids.zipIdx start) left < renumbered (ids.zipIdx start) right := by
  induction ids generalizing start with
  | nil => exact .nil
  | cons head _ ih =>
      obtain ⟨once, others⟩ := List.nodup_cons.mp distinct
      refine .cons (fun second later {left right} isHead isSecond => ?_)
        ((ih others (start + 1)).imp fun {first second} ordered {left right} isFirst isSecond => ?_)
      all_goals
        obtain ⟨_, sameLeft, numbered, movedLeft⟩ := renumbered_cons left head start
        obtain ⟨_, sameRight, _, movedRight⟩ := renumbered_cons right head start
        rw [movedLeft, movedRight]
      · rw [renumbered_of_notMem (sameLeft ▸ isHead ▸ once), numbered isHead.symm]
        exact (renumbered_mem (start + 1) (sameRight ▸ isSecond ▸ later)).1
      · exact ordered (sameLeft.trans isFirst) (sameRight.trans isSecond)

/-! The order of the claims. -/

def isClaimable (db : Coordination) (workId : String) (state : WorkState) (id : String) : Bool :=
  (db.intent id).any (claimable workId state)

theorem isClaimable_iff : db.isClaimable workId state id = true ↔
    ∃ intent, db.intent id = some intent ∧ claimable workId state intent = true := by
  simp [isClaimable, Option.any_eq_true]

/-- The claimable intents of a work are the listed ones, in the order of their positions. -/
structure Lined (db : Coordination) (workId : String) (state : WorkState) (ids : List String) : Prop where
  stands : ∃ work, db.works.find? workId = some work ∧ work.state = state
  members : ∀ id, id ∈ ids ↔ db.isClaimable workId state id = true
  ordered : ids.Pairwise fun first second => ∀ {left right}, db.intent first = some left →
    db.intent second = some right → left.position < right.position

theorem Lined.nodup (lined : db.Lined workId state ids) : ids.Nodup := by
  refine lined.ordered.imp_of_mem fun {first second} firstIn _ ordered => ?_
  rintro rfl
  obtain ⟨_, stored, _⟩ := isClaimable_iff.mp ((lined.members first).mp firstIn)
  exact Nat.lt_irrefl _ (ordered stored stored)

theorem acceptsClaims_of_mem {delivery : DeliveryPolicy}
    (deliverable : delivery ∈ claimableDeliveries state) : state.acceptsClaims = true := by
  cases state with
  | active | closing => rfl
  | closed | cancelled => exact absurd deliverable List.not_mem_nil

theorem claimNext_isOk (found : db.works.find? workId = some work)
    (accepts : work.state.acceptsClaims = true) (tie : Nat) :
    ∃ item next, db.claimNext workId tie = .ok (item, next) := by
  have loaded := loadWork_eq_ok.mpr found
  simp only [claimNext, loaded, bind, Except.bind, accepts, if_true]
  split
  · exact ⟨_, _, rfl⟩
  · split <;> exact ⟨_, _, rfl⟩

theorem answer_claimNext {item : Option ClaimedIntent}
    (answered : db.claimNext workId tie = .ok (item, next)) :
    db.answer (.claimNext workId tie) = (⟨.claimNext workId tie, .ok (.claimed item)⟩, next) := by
  simp only [answer, perform, answered, Except.map]

theorem Lined.claim_nil (lined : db.Lined workId state []) (tie : Nat) :
    (db.answer (.claimNext workId tie)).1.handedOut = none ∧
      (db.answer (.claimNext workId tie)).2 = db := by
  cases claimed : db.claimNext workId tie with
  | error => simp [answer, perform, claimed, Except.map, Exchange.handedOut]
  | ok answer =>
      obtain ⟨_, _⟩ := answer
      rw [answer_claimNext claimed]
      obtain ⟨standing, isStanding, rfl⟩ := lined.stands
      obtain ⟨work, found, _, ⟨rfl, rfl, _⟩ | ⟨selected, stored, isClaimable, _⟩⟩ := claimNext_ok claimed
      · exact ⟨rfl, rfl⟩
      · obtain rfl : standing = work := Option.some.inj (isStanding.symm.trans found)
        exact absurd ((lined.members _).mpr (isClaimable_iff.mpr ⟨selected, stored, isClaimable⟩))
          List.not_mem_nil

theorem Lined.claim_cons (lined : db.Lined workId state (id :: ids)) (tie : Nat) :
    (db.answer (.claimNext workId tie)).1.handedOut = some id ∧
      (db.answer (.claimNext workId tie)).2.Lined workId state ids := by
  obtain ⟨work, found, rfl⟩ := lined.stands
  obtain ⟨first, isFirst, firstClaimable⟩ := isClaimable_iff.mp ((lined.members id).mp List.mem_cons_self)
  have accepts := acceptsClaims_of_mem (claimable_iff.mp firstClaimable).2.2
  obtain ⟨_, next, claimed⟩ := claimNext_isOk found accepts tie
  rw [answer_claimNext claimed]
  obtain ⟨standing, isStanding, _, ⟨_, _, nobody⟩ |
    ⟨selected, stored, selectedClaimable, rfl, least, works, intents⟩⟩ := claimNext_ok claimed
  all_goals obtain rfl : work = standing := Option.some.inj (found.symm.trans isStanding)
  · rw [nobody first (Table.find?_eq_some.mp isFirst).1] at firstClaimable
    contradiction
  have isHead : selected.intentId = id := by
    by_contra apart
    have listed := (lined.members selected.intentId).mpr
      (isClaimable_iff.mpr ⟨selected, stored, selectedClaimable⟩)
    have behind := (List.pairwise_cons.mp lined.ordered).1 _ (List.mem_of_ne_of_mem apart listed)
      isFirst stored
    exact absurd (least first (Table.find?_eq_some.mp isFirst).1 firstClaimable) (Nat.not_le.mpr behind)
  have once : id ∉ ids := (List.nodup_cons.mp lined.nodup).1
  have taken : next.isClaimable workId work.state id = false := by
    simp [isClaimable, intents, isFirst, intentId_of_intent isFirst, isHead, claimable]
  have elsewhere {other : String} (apart : other ≠ id) : next.intent other = db.intent other := by
    rw [intents]
    cases present : db.intent other with
    | none => rfl
    | some => rw [Option.map_some, if_neg (by rw [intentId_of_intent present, isHead]; exact apart)]
  refine ⟨congrArg some isHead, ⟨_, works ▸ bumpAttached_find? found, by split <;> rfl⟩, fun other => ?_, ?_⟩
  · by_cases same : other = id
    · simp [same, once, taken]
    · rw [isClaimable, elsewhere same, ← isClaimable, ← lined.members, List.mem_cons, or_iff_right same]
  · refine (List.pairwise_cons.mp lined.ordered).2.imp_of_mem fun {left right} leftIn rightIn ordered => ?_
    rw [elsewhere (ne_of_mem_of_not_mem leftIn once), elsewhere (ne_of_mem_of_not_mem rightIn once)]
    exact ordered

theorem Lined.claims (lined : db.Lined workId state ids) (ties : List Nat) :
    (db.replay (ties.map (.claimNext workId))).1.filterMap Exchange.handedOut = ids.take ties.length := by
  induction ties generalizing db ids with
  | nil => rfl
  | cons tie _ ih =>
      simp only [List.map_cons, replay, List.length_cons]
      cases ids with
      | nil =>
          obtain ⟨nothing, same⟩ := lined.claim_nil tie
          rw [List.filterMap_cons_none nothing, same, ih lined]
          simp
      | cons =>
          obtain ⟨handed, kept⟩ := lined.claim_cons tie
          rw [List.filterMap_cons_some handed, ih kept, List.take_succ_cons]

/-! What `reorder_queued` accepts and leaves. -/

theorem reorderQueued_isOk (found : db.works.find? workId = some work) :
    (∃ answer, db.reorderQueued workId ids = .ok answer) ↔
      (db.waiting workId).length = ids.length ∧ ∀ id ∈ ids, id ∈ db.waiting workId := by
  constructor
  · rintro ⟨⟨result, next⟩, answered⟩
    obtain ⟨sameLength, listed, _⟩ := reorderQueued_ok answered
    exact ⟨sameLength, listed⟩
  · rintro ⟨sameLength, listed⟩
    have accepted : ¬ ((db.waiting workId).length ≠ ids.length ∨ ¬ ids.all (· ∈ db.waiting workId)) := by
      simpa [sameLength] using listed
    have loaded := loadWork_eq_ok.mpr found
    simp only [reorderQueued, loaded, bind, Except.bind]
    exact ⟨_, if_neg accepted⟩

theorem waiting_nodup (db : Coordination) (workId : String) : (db.waiting workId).Nodup :=
  (List.filter_sublist.map _).nodup db.intents.distinct

theorem perm_waiting : ids.Perm (db.waiting workId) ↔
    ids.Nodup ∧ (db.waiting workId).length = ids.length ∧ ∀ id ∈ ids, id ∈ db.waiting workId := by
  constructor
  · intro permuted
    exact ⟨permuted.nodup_iff.mpr (db.waiting_nodup workId), permuted.length_eq.symm,
      fun id listed => permuted.subset listed⟩
  · rintro ⟨distinct, sameLength, listed⟩
    exact (List.subperm_of_subset distinct listed).perm_of_length_le sameLength.le

/-- A list with a repetition has another length than the queue or names something that is not in it. -/
def Discerned (db : Coordination) (workId : String) (ids : List String) : Prop :=
  ids.Nodup ∨ (db.waiting workId).length ≠ ids.length ∨ ∃ id ∈ ids, id ∉ db.waiting workId

theorem discerned_iff : db.Discerned workId ids ↔
    ((db.waiting workId).length = ids.length → (∀ id ∈ ids, id ∈ db.waiting workId) → ids.Nodup) := by
  constructor
  · rintro (distinct | longer | ⟨id, listed, other⟩) sameLength waits
    · exact distinct
    · exact absurd sameLength longer
    · exact absurd (waits id listed) other
  · intro only
    by_cases sameLength : (db.waiting workId).length = ids.length
    · by_cases waits : ∀ id ∈ ids, id ∈ db.waiting workId
      · exact .inl (only sameLength waits)
      · exact .inr (.inr (by simpa using waits))
    · exact .inr (.inl sameLength)

/-- After a reorder that lists nothing twice the claimable intents stand in the listed order. -/
theorem reorderQueued_lined {result : List UserIntent} (found : db.works.find? workId = some work)
    (distinct : ids.Nodup) (answered : db.reorderQueued workId ids = .ok (result, next)) :
    next.Lined workId work.state (ids.filter (db.isClaimable workId work.state)) := by
  obtain ⟨sameLength, listed, works, intents⟩ := reorderQueued_ok answered
  have permuted := perm_waiting.mpr ⟨distinct, sameLength, listed⟩
  have same (id : String) : next.isClaimable workId work.state id = db.isClaimable workId work.state id := by
    rw [isClaimable, isClaimable, intents]
    cases db.intent id with
    | none => rfl
    | some =>
        simp only [Option.map_some, Option.any_some]
        split <;> rfl
  have numbered {id : String} {later : UserIntent} (waits : id ∈ db.waiting workId)
      (present : next.intent id = some later) :
      ∃ row : UserIntent, row.intentId = id ∧ later.position = renumbered ids.zipIdx row := by
    obtain ⟨row, stored, _, isQueued⟩ := mem_waiting.mp waits
    rw [intents, stored, Option.map_some, if_pos isQueued] at present
    cases present
    exact ⟨row, intentId_of_intent stored, rfl⟩
  refine ⟨⟨_, works ▸ bumpAttached_find? found, by split <;> rfl⟩, fun id => ?_, ?_⟩
  · rw [List.mem_filter, same, and_iff_right_iff_imp]
    intro isClaimable
    obtain ⟨intent, stored, claims⟩ := isClaimable_iff.mp isClaimable
    obtain ⟨onWork, isQueued, _⟩ := claimable_iff.mp claims
    exact permuted.mem_iff.mpr (mem_waiting.mpr ⟨intent, stored, onWork, isQueued⟩)
  · refine ((renumbered_pairwise distinct 0).filter _).imp_of_mem fun {first second} firstIn secondIn
      ordered {left right} isLeft isRight => ?_
    obtain ⟨_, sameRow, position⟩ := numbered (listed first (List.mem_of_mem_filter firstIn)) isLeft
    obtain ⟨_, sameOther, otherPosition⟩ :=
      numbered (listed second (List.mem_of_mem_filter secondIn)) isRight
    rw [position, otherPosition]
    exact ordered sameRow sameOther

end Coordination

open Coordination in
/-- A reorder succeeds just when it lists the queued intents of the work, exactly for the lists that the
check discerns; a refused one changes nothing, and after an accepted one the claims follow the list. -/
theorem reorder_gives_the_claim_order {db : Coordination} {workId : String} {work : Work}
    {ids : List String} (found : db.works.find? workId = some work) :
    (((∃ answer, db.reorderQueued workId ids = .ok answer) ↔ ids.Perm (db.waiting workId)) ↔
      db.Discerned workId ids) ∧
    (∀ error, db.reorderQueued workId ids = .error error →
      db.answer (.reorderQueued workId ids) = (⟨.reorderQueued workId ids, .error error⟩, db)) ∧
    (db.Discerned workId ids →
      ∀ result next, db.reorderQueued workId ids = .ok (result, next) → ∀ ties : List Nat,
        (next.replay (ties.map (.claimNext workId))).1.filterMap Exchange.handedOut =
          (ids.filter (db.isClaimable workId work.state)).take ties.length) := by
  refine ⟨?_, fun error refused => ?_, fun discerned result next answered ties => ?_⟩
  · rw [reorderQueued_isOk found, perm_waiting, discerned_iff]
    tauto
  · simp only [answer, perform, refused, Except.map]
  · obtain ⟨sameLength, listed, _⟩ := reorderQueued_ok answered
    exact (reorderQueued_lined found (discerned_iff.mp discerned sameLength listed) answered).claims ties

/-- Two queued intents. -/
def twoQueued : Coordination :=
  (({} : Coordination).replay [.openWork "ws" none "w",
    .createDraft "w" ⟨"first", .note, .nextCheckpoint⟩ "a",
    .createDraft "w" ⟨"second", .note, .nextCheckpoint⟩ "b", .queueIntent "a" 1, .queueIntent "b" 1]).2

theorem second_is_claimed_first : (∃ answer, twoQueued.reorderQueued "w" ["b", "a"] = .ok answer) ∧
      ∀ result next, twoQueued.reorderQueued "w" ["b", "a"] = .ok (result, next) →
        (next.replay [.claimNext "w" 0, .claimNext "w" 0]).1.filterMap Exchange.handedOut = ["b", "a"] := by
  have found : twoQueued.works.find? "w" = some ⟨"w", "ws", none, .active, 5⟩ := by decide +kernel
  have discerned : twoQueued.Discerned "w" ["b", "a"] := .inl (by decide)
  obtain ⟨accepts, _, claims⟩ := reorder_gives_the_claim_order found
  refine ⟨(accepts.mpr discerned).mpr (by decide +kernel), fun result next answered => ?_⟩
  rw [show [CoordinationCall.claimNext "w" 0, .claimNext "w" 0] = [0, 0].map (.claimNext "w") from rfl,
    claims discerned result next answered]
  decide +kernel

/-- A list that names one queued intent twice and another not at all is accepted. -/
theorem reorder_accepts_a_repeated_id :
    coordinationSystem.Reachable twoQueued ∧ ¬ ["a", "a"].Perm (twoQueued.waiting "w") ∧
      ∃ answer, twoQueued.reorderQueued "w" ["a", "a"] = .ok answer := by
  refine ⟨⟨_, _, rfl, Coordination.run_replay _ _⟩, by decide +kernel, ?_⟩
  have found : twoQueued.works.find? "w" = some ⟨"w", "ws", none, .active, 5⟩ := by decide +kernel
  exact (Coordination.reorderQueued_isOk found).mpr (by decide +kernel)

end CodeSpace.Store
