import CodeSpace.Store.QueueOrder

namespace CodeSpace.Store

open Data Domain Transition

/-! Positions are given out by three rules: a new intent goes behind those of its work, a reorder numbers
the queued ones from 1, and an intent taken over from the workspace keeps its number. -/

namespace Coordination

variable {db next before after : Coordination} {workId workspaceId id first second minted onto : String}
  {row left right : UserIntent} {work : Work} {ids : List String} {call : CoordinationCall}
  {reply : CoordinationReply} {exchange : Exchange} {result : List UserIntent}

/-- The rows a new work takes over from its workspace. -/
def adopts (workspaceId : String) (intent : UserIntent) : Bool :=
  intent.workspaceId = workspaceId && intent.workId = none && intent.state.isEditable

/-- The calls that keep the positions apart: a reorder lists nothing twice, and no draft of the work has
one of the numbers it gives out; a new work takes over rows with different positions. -/
def Spaced (db : Coordination) : CoordinationCall → Prop
  | .openWork workspaceId _ _ =>
      ∀ left ∈ db.intents.rows, ∀ right ∈ db.intents.rows, adopts workspaceId left = true →
        adopts workspaceId right = true → left.position = right.position → left = right
  | .reorderQueued workId ids =>
      ids.Nodup ∧ ∀ row ∈ db.intents.rows, row.workId = some workId → row.state = .draft →
        ids.length < row.position
  | _ => True

/-- The intents of a work that are queued, or can come to be. -/
def Standing (db : Coordination) (workId id : String) (row : UserIntent) : Prop :=
  db.intent id = some row ∧ row.workId = some workId ∧ row.state.isEditable = true

structure Apart (db : Coordination) : Prop where
  known {id workId : String} {row : UserIntent} (stored : db.intent id = some row)
    (onWork : row.workId = some workId) : (db.works.find? workId).isSome = true
  positions {workId first second : String} {left right : UserIntent}
    (isLeft : db.Standing workId first left) (isRight : db.Standing workId second right)
    (same : left.position = right.position) : first = second

/-! The works of attached intents exist. -/

theorem perform_keeps_works (answered : db.perform call = .ok (reply, next))
    (present : (db.works.find? workId).isSome = true) : (next.works.find? workId).isSome = true := by
  rcases perform_touches answered with rfl | ⟨touched, touches⟩
  · exact present
  · obtain ⟨_, found⟩ := Option.isSome_iff_exists.mp present
    obtain ⟨_, kept, _⟩ := touches.works found
    rw [kept, Option.isSome_some]

theorem find?_of_home (found : db.works.find? id = some work) (isHome : home work = some workId) :
    db.works.find? workId = some work := by
  unfold home at isHome
  split at isHome
  · cases isHome
    exact (Table.find?_eq_some.mp found).2 ▸ found
  · contradiction

theorem perform_known (apart : db.Apart) (answered : db.perform call = .ok (reply, next))
    (stored : next.intent id = some row) (onWork : row.workId = some workId) :
    (next.works.find? workId).isSome = true := by
  have outcome := perform_intent answered id
  rw [stored] at outcome
  generalize found : db.intent id = old at outcome
  cases outcome with
  | created _ isNew =>
      cases isNew with
      | draft onFound | stopNotice onFound =>
          refine perform_keeps_works answered ?_
          rw [find?_of_home onFound onWork, Option.isSome_some]
  | stepped step =>
      cases step with
      | attached =>
          obtain ⟨_, replied, _⟩ := map_answer_eq_ok.mp answered
          obtain ⟨_, _, standing, _⟩ := openWork_ok replied
          cases onWork
          have opened := standing workId
          rw [if_pos rfl, Coordination.standing, Option.map_eq_some_iff] at opened
          obtain ⟨_, isOpened, _⟩ := opened
          rw [isOpened, Option.isSome_some]
      | detached => contradiction
      | _ => exact perform_keeps_works answered (apart.known found onWork)

/-! The positions, one lemma for each of the rules. -/

theorem positions_of_earlier (apart : db.Apart) (earlier : ∀ {id row}, next.Standing workId id row →
      ∃ old, db.Standing workId id old ∧ old.position = row.position)
    (isLeft : next.Standing workId first left)
    (isRight : next.Standing workId second right) (same : left.position = right.position) :
    first = second := by
  obtain ⟨_, stood, position⟩ := earlier isLeft
  obtain ⟨_, alsoStood, otherPosition⟩ := earlier isRight
  exact apart.positions stood alsoStood (position.trans (same.trans otherPosition.symm))

theorem standing_of_changed {change : UserIntent → UserIntent} {intentId : String} {current : UserIntent}
    (stored : db.intent intentId = some current)
    (same : ∀ id, next.intent id = (db.intent id).map fun row =>
      if row.intentId = intentId then change row else row)
    (stays : (change current).workId = current.workId ∧ (change current).position = current.position ∧
      ((change current).state.isEditable = true → current.state.isEditable = true))
    (isRow : next.Standing workId id row) :
    ∃ old, db.Standing workId id old ∧ old.position = row.position := by
  obtain ⟨present, onWork, editable⟩ := isRow
  rw [same] at present
  obtain ⟨old, isOld, changed⟩ := Option.map_eq_some_iff.mp present
  have named := intentId_of_intent isOld
  split at changed
  next isIt =>
    obtain rfl : current = old := Option.some.inj (stored.symm.trans (by rw [← isIt, named, isOld]))
    subst changed
    exact ⟨current, ⟨isOld, stays.1 ▸ onWork, stays.2.2 editable⟩, stays.2.1.symm⟩
  · subst changed
    exact ⟨old, ⟨isOld, onWork, editable⟩, rfl⟩

theorem lt_nextPosition (stored : db.intent id = some row) (onWork : row.workId = some workId)
    (workspaceId : String) : row.position < db.nextPosition (some workId) workspaceId := by
  have attached : row ∈ db.intents.rows.filter (attachedTo workId) :=
    List.mem_filter.mpr ⟨(Table.find?_eq_some.mp stored).1, by simp [attachedTo, onWork]⟩
  exact Nat.lt_succ_of_le (List.le_max?_getD_of_mem (List.mem_map_of_mem attached))

theorem positions_of_inserted (apart : db.Apart) {created : UserIntent}
    (same : ∀ id, next.intent id = if id = minted then some created else db.intent id)
    (behind : ∀ {workId}, created.workId = some workId →
      created.position = db.nextPosition (some workId) created.workspaceId)
    (isLeft : next.Standing workId first left)
    (isRight : next.Standing workId second right) (equal : left.position = right.position) :
    first = second := by
  have isNew {row : UserIntent} (isRow : next.Standing workId minted row) : row = created := by
    have present := isRow.1
    rw [same, if_pos rfl] at present
    exact (Option.some.inj present).symm
  have before {id : String} {row : UserIntent} (other : id ≠ minted) (isRow : next.Standing workId id row) :
      db.Standing workId id row :=
    ⟨((same id).trans (if_neg other)).symm.trans isRow.1, isRow.2⟩
  have ahead {id : String} {row : UserIntent} (other : id ≠ minted) (isRow : next.Standing workId id row)
      (onWork : created.workId = some workId) : row.position < created.position := by
    rw [behind onWork]
    exact lt_nextPosition (before other isRow).1 isRow.2.1 _
  by_cases firstNew : first = minted
  · by_cases secondNew : second = minted
    · exact firstNew.trans secondNew.symm
    · subst firstNew
      cases isNew isLeft
      exact absurd equal (ahead secondNew isRight isLeft.2.1).ne'
  · by_cases secondNew : second = minted
    · subst secondNew
      cases isNew isRight
      exact absurd equal (ahead firstNew isLeft isRight.2.1).ne
    · exact apart.positions (before firstNew isLeft) (before secondNew isRight) equal

theorem renumbered_injective (distinct : ids.Nodup) (leftIn : left.intentId ∈ ids)
    (rightIn : right.intentId ∈ ids)
    (equal : renumbered ids.zipIdx left = renumbered ids.zipIdx right) :
    left.intentId = right.intentId := by
  by_contra other
  obtain ⟨i, iIn, isLeft⟩ := List.getElem_of_mem leftIn
  obtain ⟨j, jIn, isRight⟩ := List.getElem_of_mem rightIn
  have ordered := List.pairwise_iff_getElem.mp (renumbered_pairwise distinct 0)
  rcases Nat.lt_trichotomy i j with less | same | more
  · exact absurd equal (ordered i j iIn jIn less isLeft.symm isRight.symm).ne
  · subst same
    exact other (isLeft.symm.trans isRight)
  · exact absurd equal (ordered j i jIn iIn more isRight.symm isLeft.symm).ne'

/-- A row behind a reorder of `workId`: a listed one with its number, or one that kept its position. -/
inductive Renumbered (db : Coordination) (workId : String) (ids : List String) (onto id : String)
    (position : Nat) : Prop
  | listed {old : UserIntent} (stood : db.Standing onto id old) (isListed : old.intentId ∈ ids)
      (onWork : onto = workId) (numbered : position = renumbered ids.zipIdx old)
  | kept {old : UserIntent} (stood : db.Standing onto id old) (unmoved : position = old.position)
      (behind : onto = workId → ids.length < position)

theorem renumbered_of_reordered (spaced : db.Spaced (.reorderQueued workId ids))
    (answered : db.reorderQueued workId ids = .ok (result, next)) (isRow : next.Standing onto id row) :
    Renumbered db workId ids onto id row.position := by
  obtain ⟨sameLength, listed, _, intents⟩ := reorderQueued_ok answered
  have permuted := perm_waiting.mpr ⟨spaced.1, sameLength, listed⟩
  obtain ⟨present, onWork, editable⟩ := isRow
  rw [intents] at present
  obtain ⟨old, isOld, changed⟩ := Option.map_eq_some_iff.mp present
  have named := intentId_of_intent isOld
  split at changed
  next isQueued =>
    subst changed
    have stood : db.Standing onto id old := ⟨isOld, onWork, editable⟩
    by_cases isListed : old.intentId ∈ ids
    · obtain ⟨_, isWaiting, onto', _⟩ := mem_waiting.mp (listed _ isListed)
      rw [named, isOld] at isWaiting
      cases isWaiting
      exact .listed stood isListed (Option.some.inj (onWork.symm.trans onto')) rfl
    · refine .kept stood (renumbered_of_notMem isListed 0) fun isIt => absurd ?_ isListed
      subst isIt
      exact permuted.mem_iff.mpr (mem_waiting.mpr ⟨old, named.symm ▸ isOld, onWork, isQueued⟩)
  next notQueued =>
    subst changed
    refine .kept ⟨isOld, onWork, editable⟩ rfl fun isIt => ?_
    subst isIt
    have isDraft : old.state = .draft := by
      cases state : old.state with
      | draft => rfl
      | queued => exact absurd state notQueued
      | _ => simp [state, IntentState.isEditable] at editable
    exact spaced.2 old (Table.find?_eq_some.mp isOld).1 onWork isDraft

theorem positions_of_reordered (apart : db.Apart) (spaced : db.Spaced (.reorderQueued workId ids))
    (answered : db.reorderQueued workId ids = .ok (result, next))
    (isLeft : next.Standing onto first left)
    (isRight : next.Standing onto second right) (equal : left.position = right.position) :
    first = second := by
  cases renumbered_of_reordered spaced answered isLeft with
  | listed stood isListed onWork numbered =>
      have named := intentId_of_intent stood.1
      cases renumbered_of_reordered spaced answered isRight with
      | listed alsoStood alsoListed _ alsoNumbered =>
          rw [← named, ← intentId_of_intent alsoStood.1]
          exact renumbered_injective spaced.1 isListed alsoListed (numbered ▸ alsoNumbered ▸ equal)
      | kept _ _ behind =>
          have within := (renumbered_mem 0 isListed).2
          have past := behind onWork
          omega
  | kept stood unmoved behind =>
      cases renumbered_of_reordered spaced answered isRight with
      | listed _ isListed onWork =>
          have within := (renumbered_mem 0 isListed).2
          have past := behind onWork
          omega
      | kept alsoStood alsoUnmoved =>
          exact apart.positions stood alsoStood (unmoved ▸ alsoUnmoved ▸ equal)

theorem positions_of_opened (apart : db.Apart) {title : Option String}
    (spaced : db.Spaced (.openWork workspaceId title minted)) {result : WorkOpenResult}
    (answered : db.openWork workspaceId title minted = .ok (result, next))
    (isLeft : next.Standing workId first left)
    (isRight : next.Standing workId second right) (equal : left.position = right.position) :
    first = second := by
  obtain ⟨_, _, _, intents⟩ := openWork_ok answered
  have origin {id : String} {row : UserIntent} (isRow : next.Standing workId id row) :
      ∃ old, db.intent id = some old ∧ old.position = row.position ∧
        if workId = minted then adopts workspaceId old = true else db.Standing workId id old := by
    obtain ⟨present, onWork, editable⟩ := isRow
    rw [intents] at present
    obtain ⟨old, isOld, changed⟩ := Option.map_eq_some_iff.mp present
    split at changed
    next adopted =>
      subst changed
      cases onWork
      exact ⟨old, isOld, rfl, by simpa [adopts] using adopted⟩
    · subst changed
      have other : workId ≠ minted := by
        rintro rfl
        have known := apart.known isOld onWork
        simp_all [standing]
      exact ⟨old, isOld, rfl, by rw [if_neg other]; exact ⟨isOld, onWork, editable⟩⟩
  obtain ⟨old, isOld, position, stood⟩ := origin isLeft
  obtain ⟨other, isOther, otherPosition, alsoStood⟩ := origin isRight
  have same := position.trans (equal.trans otherPosition.symm)
  split at stood
  next isNew =>
    rw [if_pos isNew] at alsoStood
    rw [← intentId_of_intent isOld, ← intentId_of_intent isOther]
    exact congrArg _ (spaced old (Table.find?_eq_some.mp isOld).1 other (Table.find?_eq_some.mp isOther).1
      stood alsoStood same)
  next notNew =>
    rw [if_neg notNew] at alsoStood
    exact apart.positions stood alsoStood same

/-! Whole runs. -/

theorem perform_positions (apart : db.Apart) (spaced : db.Spaced call)
    (answered : db.perform call = .ok (reply, next))
    (isLeft : next.Standing workId first left) (isRight : next.Standing workId second right)
    (equal : left.position = right.position) : first = second := by
  cases perform_cases answered with
  | opened isCall replied =>
      subst isCall
      exact positions_of_opened apart spaced replied isLeft isRight equal
  | added _ _ _ _ behind _ intents =>
      exact positions_of_inserted apart intents (fun isHome => isHome ▸ behind) isLeft isRight equal
  | changed _ stored _ stays _ intents =>
      exact positions_of_earlier apart (standing_of_changed stored intents stays) isLeft isRight equal
  | reordered isCall replied =>
      subst isCall
      exact positions_of_reordered apart spaced replied isLeft isRight equal
  | finished _ replied =>
      refine positions_of_earlier apart (fun {id row} isRow => ?_) isLeft isRight equal
      obtain ⟨_, _, _, finished⟩ := finishWork_ok replied
      cases finished with
      | reading => exact ⟨row, isRow, rfl⟩
      | closing _ _ _ _ intents =>
          rw [Standing, intent, intents] at isRow
          exact ⟨row, isRow, rfl⟩
      | closed _ _ _ _ intents =>
          obtain ⟨present, attached, editable⟩ := isRow
          rw [intents] at present
          obtain ⟨old, isOld, changed⟩ := Option.map_eq_some_iff.mp present
          split at changed
          · subst changed
            contradiction
          · subst changed
            exact ⟨old, ⟨isOld, attached, editable⟩, rfl⟩
  | unchanged _ same =>
      subst same
      exact apart.positions isLeft isRight equal

theorem Apart.step (spaced : before.Spaced exchange.call)
    (step : coordinationSystem.step before exchange after) (apart : before.Apart) : after.Apart := by
  rcases coordination_step_cases step with ⟨reply, _, answered⟩ | ⟨error, _, rfl⟩
  · exact ⟨perform_known apart answered, perform_positions apart spaced answered⟩
  · exact apart

theorem firstByPosition_tie {rows : List UserIntent}
    (distinct : rows.Pairwise fun left right => left.position ≠ right.position) (tie other : Nat) :
    firstByPosition rows tie = firstByPosition rows other := by
  unfold firstByPosition
  dsimp only
  generalize isFront : (rows.filter fun row => some row.position = (rows.map UserIntent.position).min?) =
    front
  have apart := isFront ▸ distinct.filter _
  have least : ∀ row ∈ front, some row.position = (rows.map UserIntent.position).min? := by
    intro row member
    rw [← isFront] at member
    exact of_decide_eq_true (List.mem_filter.mp member).2
  match front with
  | [] => rfl
  | [row] => simp [Nat.mod_one]
  | row :: second :: rest =>
      have same := (least row List.mem_cons_self).trans
        (least second (List.mem_cons_of_mem _ List.mem_cons_self)).symm
      exact absurd (Option.some.inj same) ((List.pairwise_cons.mp apart).1 second List.mem_cons_self)

theorem Apart.claimNext_tie (apart : db.Apart) (workId : String) (tie other : Nat) :
    db.claimNext workId tie = db.claimNext workId other := by
  cases found : db.works.find? workId with
  | none => simp [claimNext, loadWork, found, bind, Except.bind]
  | some work =>
      have standing {row : UserIntent}
          (member : row ∈ db.intents.rows.filter (claimable workId work.state)) :
          db.Standing workId row.intentId row := by
        obtain ⟨present, isClaimable⟩ := List.mem_filter.mp member
        obtain ⟨onWork, isQueued, _⟩ := claimable_iff.mp isClaimable
        exact ⟨intent_of_mem present, onWork, by rw [isQueued]; rfl⟩
      have distinct : (db.intents.rows.filter (claimable workId work.state)).Pairwise
          fun left right => left.position ≠ right.position :=
        ((List.pairwise_map.mp db.intents.distinct).filter _).imp_of_mem
          fun leftIn rightIn other same => other (apart.positions (standing leftIn) (standing rightIn) same)
      have loaded := loadWork_eq_ok.mpr found
      simp only [claimNext, loaded, bind, Except.bind, firstByPosition_tie distinct tie other]

end Coordination

/-- The runs in which every call is `Spaced`. -/
def spacedSystem : System Coordination Exchange :=
  coordinationSystem.restrict fun db exchange => db.Spaced exchange.call

def SpacedCalls (db : Coordination) : List CoordinationCall → Prop
  | [] => True
  | call :: calls => db.Spaced call ∧ SpacedCalls (db.answer call).2 calls

theorem spaced_run_replay {db : Coordination} {calls : List CoordinationCall}
    (spaced : SpacedCalls db calls) : spacedSystem.Run db (db.replay calls).1 (db.replay calls).2 := by
  induction calls generalizing db with
  | nil => exact .refl db
  | cons call _ ih =>
      have isSpaced : db.Spaced (db.answer call).1.call := by
        unfold Coordination.answer
        split <;> exact spaced.1
      exact .cons ⟨isSpaced, Coordination.step_answer db call⟩ (ih spaced.2)

/-- Queued intents of one work have different positions, so the positions alone decide which one
`claim_next` hands out. -/
theorem queued_positions_differ {db : Coordination} (reachable : spacedSystem.Reachable db) :
    (∀ {workId first second left right}, db.intent first = some left → db.intent second = some right →
      left.workId = some workId → right.workId = some workId → left.state = .queued →
      right.state = .queued → first ≠ second → left.position ≠ right.position) ∧
    ∀ workId tie other, db.claimNext workId tie = db.claimNext workId other := by
  have apart : db.Apart := by
    refine reachable.invariant Coordination.Apart (fun {state} isInitial => ?_) fun step => ?_
    · cases isInitial
      exact ⟨nofun, nofun⟩
    · exact Coordination.Apart.step step.1 step.2
  refine ⟨fun {workId first second left right} isLeft isRight leftOn rightOn leftQueued rightQueued other
    same => ?_, apart.claimNext_tie⟩
  have leftStands : db.Standing workId first left := ⟨isLeft, leftOn, by rw [leftQueued]; rfl⟩
  have rightStands : db.Standing workId second right := ⟨isRight, rightOn, by rw [rightQueued]; rfl⟩
  exact other (apart.positions leftStands rightStands same)

theorem two_queued_positions_differ :
    ∃ left right, twoQueued.intent "a" = some left ∧ twoQueued.intent "b" = some right ∧
      left.position ≠ right.position := by
  have reachable : spacedSystem.Reachable twoQueued := ⟨{}, _, rfl, spaced_run_replay
      ⟨fun left member => absurd member List.not_mem_nil, trivial, trivial, trivial, trivial, trivial⟩⟩
  have isLeft : twoQueued.intent "a" =
      some ⟨"a", some "w", "ws", 1, 2, .note, .nextCheckpoint, "first", .queued⟩ := by decide +kernel
  have isRight : twoQueued.intent "b" =
      some ⟨"b", some "w", "ws", 2, 2, .note, .nextCheckpoint, "second", .queued⟩ := by decide +kernel
  obtain ⟨differ, _⟩ := queued_positions_differ reachable
  exact ⟨_, _, isLeft, isRight, differ isLeft isRight rfl rfl rfl rfl (by decide)⟩

/-- A reorder gives the queued intent the position of a draft, which is then queued beside it: which
of the two is handed out is left to the database. -/
def collided : Coordination :=
  (({} : Coordination).replay [.openWork "ws" none "w",
    .createDraft "w" ⟨"first", .note, .nextCheckpoint⟩ "a",
    .createDraft "w" ⟨"second", .note, .nextCheckpoint⟩ "b", .queueIntent "b" 1,
    .reorderQueued "w" ["b"], .queueIntent "a" 1]).2

theorem queued_positions_collide : coordinationSystem.Reachable collided ∧
      (collided.intent "a").map (fun row => (row.workId, row.state, row.position)) =
        some (some "w", .queued, 1) ∧
      (collided.intent "b").map (fun row => (row.workId, row.state, row.position)) =
        some (some "w", .queued, 1) ∧
      (collided.answer (.claimNext "w" 0)).1.handedOut ≠
        (collided.answer (.claimNext "w" 1)).1.handedOut := by
  refine ⟨⟨_, _, rfl, Coordination.run_replay _ _⟩, ?_⟩
  decide +kernel

end CodeSpace.Store
