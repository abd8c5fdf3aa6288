import CodeSpace.Data.Outcome
import CodeSpace.Store.Coordination

namespace CodeSpace.Store

open Data Domain

/-- The body a call that answers writes to the intent with this id. -/
def CoordinationCall.writes (id : String) : CoordinationCall → Option String
  | .createDraft _ create minted => if minted = id then some create.body else none
  | .insertStopNotice _ reason minted =>
      if minted = id then some (Coordination.stopNoticeBody reason) else none
  | .editIntent intentId _ body _ => if intentId = id then some body else none
  | _ => none

inductive IntentStep : CoordinationCall → UserIntent → UserIntent → Prop
  | kept {call : CoordinationCall} {intent : UserIntent}
      (unwritten : call.writes intent.intentId = none) : IntentStep call intent intent
  | attached {intent : UserIntent} {workspaceId minted : String} {title : Option String}
      (detached : intent.workId = none) (sameWorkspace : intent.workspaceId = workspaceId)
      (editable : intent.state.isEditable = true) :
      IntentStep (.openWork workspaceId title minted) intent
        { intent with
          workId := some minted
          delivery := if intent.delivery = .nextWork then .afterCurrentWork else intent.delivery
          revision := intent.revision + 1 }
  | edited {intent : UserIntent} {body : String} {delivery : Option DeliveryPolicy}
      (editable : intent.state.isEditable = true) :
      IntentStep (.editIntent intent.intentId intent.revision body delivery) intent
        { intent with
          body := body
          delivery := delivery.getD intent.delivery
          revision := intent.revision + 1 }
  | queued {intent : UserIntent} (draft : intent.state = .draft) :
      IntentStep (.queueIntent intent.intentId intent.revision) intent
        { intent with state := .queued, revision := intent.revision + 1 }
  | reordered {intent : UserIntent} {workId : String} {intentIds : List String}
      (waiting : intent.state = .queued) (position : Nat) :
      IntentStep (.reorderQueued workId intentIds) intent { intent with position := position }
  | claimed {intent : UserIntent} {workId : String} {tie : Nat} (waiting : intent.state = .queued)
      (onWork : intent.workId = some workId) (deliverable : intent.delivery ≠ .nextWork) :
      IntentStep (.claimNext workId tie) intent { intent with state := .claimed }
  | completed {intent : UserIntent} {workId : String} {outcome : SteerOutcome}
      (read : intent.state = .claimed) (onWork : intent.workId = some workId) :
      IntentStep (.completeIntent workId intent.intentId outcome) intent
        { intent with state := outcome.intentState }
  | cancelled {intent : UserIntent} (editable : intent.state.isEditable = true) :
      IntentStep (.cancelIntent intent.intentId) intent { intent with state := .cancelled }
  | detached {intent : UserIntent} {workId : String} (onWork : intent.workId = some workId)
      (leftOver : intent.state.isEditable = true ∨ intent.delivery = .nextWork) :
      IntentStep (.finishWork workId) intent { intent with workId := none }

/-- What one call can do to the workspace and state of one work. -/
inductive StandingStep : CoordinationCall → String → Option (String × WorkState) →
    Option (String × WorkState) → Prop
  | kept (call : CoordinationCall) (workId : String) (standing : Option (String × WorkState)) :
      StandingStep call workId standing standing
  | opened (workspaceId : String) (title : Option String) (minted : String) :
      StandingStep (.openWork workspaceId title minted) minted none (some (workspaceId, .active))
  | closing (workId workspaceId : String) :
      StandingStep (.finishWork workId) workId (some (workspaceId, .active))
        (some (workspaceId, .closing))
  | closed (workId workspaceId : String) {state : WorkState} (isOpen : state.isOpen = true) :
      StandingStep (.finishWork workId) workId (some (workspaceId, state))
        (some (workspaceId, .closed))

variable {call : CoordinationCall}

theorem StandingStep.of_eq {workId : String}
    {before after : Option (String × WorkState)} (same : after = before) :
    StandingStep call workId before after := by
  rw [same]
  exact .kept _ _ _

namespace Coordination

/-- What the barrier reads of a work: its workspace and its state. -/
def standing (db : Coordination) (workId : String) : Option (String × WorkState) :=
  (db.works.find? workId).map fun work => (work.workspaceId, work.state)

variable {db next : Coordination} {workId intentId workspaceId minted body : String}
  {intent result : UserIntent} {work : Work} {id : String} {attached : Option String}
  {rows : List UserIntent} {tie revision : Nat} {state : WorkState} {delivery : DeliveryPolicy}
  {change : UserIntent → UserIntent} {reply : CoordinationReply}

theorem loadWork_eq_ok : db.loadWork workId = .ok work ↔ db.works.find? workId = some work := by
  cases found : db.works.find? workId <;> simp [loadWork, found]

theorem loadIntent_eq_ok : db.loadIntent intentId = .ok intent ↔ db.intent intentId = some intent := by
  cases found : db.intent intentId <;> simp [loadIntent, found]

theorem intentId_of_intent (found : db.intent id = some intent) : intent.intentId = id :=
  (Table.find?_eq_some.mp found).2

theorem intent_of_mem (member : intent ∈ db.intents.rows) : db.intent intent.intentId = some intent :=
  Table.find?_of_mem member

@[simp]
theorem bumpAttached_intent : (db.bumpAttached attached).intent id = db.intent id := by
  cases attached <;> rfl

@[simp]
theorem bumpRevision_standing : (db.bumpRevision workId).standing id = db.standing id := by
  simp only [standing, bumpRevision, Table.find?_updateWhere, Option.map_map]
  refine Option.map_congr fun work _ => ?_
  simp only [Function.comp_apply]
  split <;> rfl

@[simp]
theorem bumpAttached_standing : (db.bumpAttached attached).standing id = db.standing id := by
  cases attached
  · rfl
  · exact bumpRevision_standing

theorem bumpAttached_works (same : next.works = db.works) :
    (next.bumpAttached attached).works = (db.bumpAttached attached).works := by
  cases attached <;> simp [bumpAttached, bumpRevision, same]

theorem standing_congr (same : next.works = db.works) : next.standing id = db.standing id := by
  rw [standing, standing, same]

theorem standing_of_bumped
    (works : next.works = (db.bumpAttached attached).works) : next.standing id = db.standing id :=
  (standing_congr works).trans bumpAttached_standing

theorem standing_of_find? (found : db.works.find? id = some work) :
    db.standing id = some (work.workspaceId, work.state) := by
  rw [standing, found, Option.map_some]

/-! What an answered call did to the tables, one lemma for each operation. -/

theorem openWork_ok {title : Option String} {result : WorkOpenResult}
    (answered : db.openWork workspaceId title minted = .ok (result, next)) :
    db.standing minted = none ∧ result = ⟨minted, workspaceId, .active⟩ ∧
    (∀ id, next.standing id = if id = minted then some (workspaceId, .active) else db.standing id) ∧
    ∀ id, next.intent id = (db.intent id).map fun intent =>
      if intent.workspaceId = workspaceId && intent.workId = none && intent.state.isEditable then
        { intent with
          workId := some minted
          delivery := if intent.delivery = .nextWork then .afterCurrentWork else intent.delivery
          revision := intent.revision + 1 }
      else intent := by
  unfold openWork at answered
  split at answered
  · contradiction
  next inserted =>
    cases answered
    have fresh := (Table.insert?_eq_some.mp inserted).1
    refine ⟨by rw [standing, fresh, Option.map_none], rfl, fun id => ?_,
      fun id => Table.find?_updateWhere (by intro row; rfl)⟩
    rw [bumpRevision_standing]
    simp only [standing, Table.find?_insert? inserted]
    split <;> rfl

theorem firstByPosition_mem (selected : firstByPosition rows tie = some intent) : intent ∈ rows:=
  List.mem_of_mem_filter (List.mem_of_getElem? selected)

theorem firstByPosition_isSome (tie : Nat) (member : intent ∈ rows) :
    ∃ selected, firstByPosition rows tie = some selected := by
  have inhabited : rows.map UserIntent.position ≠ [] := by
    simpa using List.ne_nil_of_mem member
  obtain ⟨least, isLeast⟩ : ∃ least, (rows.map UserIntent.position).min? = some least := by
    cases stored : (rows.map UserIntent.position).min? with
    | none => exact absurd (List.min?_eq_none_iff.mp stored) inhabited
    | some least => exact ⟨least, rfl⟩
  obtain ⟨first, isMember, atLeast⟩ := List.mem_map.mp (List.min?_mem isLeast)
  have present : first ∈ rows.filter fun row => some row.position = (rows.map UserIntent.position).min? :=
    List.mem_filter.mpr ⟨isMember, by simp [isLeast, atLeast]⟩
  have positive := List.length_pos_of_mem present
  refine ⟨_, List.getElem?_eq_getElem (Nat.mod_lt tie positive)⟩

theorem firstByPosition_least {row : UserIntent}
    (selected : firstByPosition rows tie = some intent) (member : row ∈ rows) :
    intent.position ≤ row.position := by
  have atLeast : some intent.position = (rows.map UserIntent.position).min? :=
    of_decide_eq_true (List.mem_filter.mp (List.mem_of_getElem? selected)).2
  exact (List.min?_eq_some_iff.mp atLeast.symm).2 row.position (List.mem_map_of_mem member)

theorem claimable_iff : claimable workId state intent = true ↔
    intent.workId = some workId ∧ intent.state = .queued ∧
      intent.delivery ∈ claimableDeliveries state := by
  simp [claimable, attachedTo, and_assoc]

theorem ne_nextWork_of_claimable
    (deliverable : delivery ∈ claimableDeliveries state) : delivery ≠ .nextWork := by
  rintro rfl
  cases state <;> simp [claimableDeliveries] at deliverable

theorem claimNext_ok {item : Option ClaimedIntent}
    (answered : db.claimNext workId tie = .ok (item, next)) :
    ∃ work, db.works.find? workId = some work ∧ work.state.acceptsClaims = true ∧
      ((item = none ∧ next = db ∧
          ∀ intent ∈ db.intents.rows, claimable workId work.state intent = false) ∨
        ∃ selected, db.intent selected.intentId = some selected ∧
          claimable workId work.state selected = true ∧
          item = some ⟨selected.intentId, selected.revision, selected.kind, selected.delivery,
            selected.body⟩ ∧
          (∀ row ∈ db.intents.rows, claimable workId work.state row = true →
            selected.position ≤ row.position) ∧
          next.works = (db.bumpAttached (some workId)).works ∧
          ∀ id, next.intent id = (db.intent id).map fun intent =>
            if intent.intentId = selected.intentId then { intent with state := .claimed } else intent) := by
  obtain ⟨work, loaded, rest⟩ := bind_eq_ok.mp answered
  split at rest
  next accepts =>
    refine ⟨work, loadWork_eq_ok.mp loaded, accepts, ?_⟩
    split at rest
    next nobody =>
      cases rest
      refine .inl ⟨rfl, rfl, fun intent member => ?_⟩
      refine Bool.eq_false_iff.mpr fun isClaimable => ?_
      obtain ⟨selected, picked⟩ := firstByPosition_isSome tie
        (List.mem_filter.mpr ⟨member, isClaimable⟩)
      cases picked.symm.trans nobody
    next selected picked =>
      obtain ⟨member, isClaimable⟩ := List.mem_filter.mp (firstByPosition_mem picked)
      have stored := intent_of_mem member
      have isQueued : selected.state = .queued := (claimable_iff.mp isClaimable).2.1
      have passes : ∀ {intent}, db.intents.find? selected.intentId = some intent →
          (intent.state = .queued && intent.revision = selected.revision) = true := by
        intro intent found
        have same : intent = selected := Option.some.inj (found.symm.trans stored)
        simp [same, isQueued]
      have one : db.intents.count (fun intent => intent.intentId = selected.intentId &&
          (intent.state = .queued && intent.revision = selected.revision)) = 1 :=
        Table.count_key_of_find? stored (passes stored)
      rw [if_neg (by simp [one])] at rest
      cases rest
      refine .inr ⟨selected, stored, isClaimable, rfl, fun row present isAlso => ?_, rfl, fun id =>
        Table.find?_updateKey (by intro row; rfl) passes⟩
      exact firstByPosition_least picked (List.mem_filter.mpr ⟨present, isAlso⟩)
  · contradiction

theorem completeIntent_ok {outcome : SteerOutcome}
    (answered : db.completeIntent workId intentId outcome = .ok (result, next)) :
    ∃ intent, db.intent intentId = some intent ∧ intent.workId = some workId ∧
      intent.state = .claimed ∧ next.works = (db.bumpAttached (some workId)).works ∧
      ∀ id, next.intent id = (db.intent id).map fun row =>
        if row.intentId = intentId then { row with state := outcome.intentState } else row := by
  obtain ⟨intent, loaded, rest⟩ := bind_eq_ok.mp answered
  split at rest
  · contradiction
  next onWork =>
    split at rest
    · contradiction
    next read =>
      cases rest
      refine ⟨intent, loadIntent_eq_ok.mp loaded, by simpa using onWork, by simpa using read, rfl,
        fun id => ?_⟩
      exact Table.find?_updateRow (by intro row; rfl)

theorem editIntent_ok {delivery : Option DeliveryPolicy}
    (answered : db.editIntent intentId revision body delivery = .ok (result, next)) :
    ∃ current, db.intent intentId = some current ∧ current.state.isEditable = true ∧
      current.revision = revision ∧ next.works = (db.bumpAttached current.workId).works ∧
      ∀ id, next.intent id = (db.intent id).map fun row =>
        if row.intentId = intentId then
          { row with
            body := body
            delivery := delivery.getD current.delivery
            revision := row.revision + 1 }
        else row := by
  obtain ⟨current, loaded, rest⟩ := bind_eq_ok.mp answered
  have stored := loadIntent_eq_ok.mp loaded
  split at rest
  · contradiction
  split at rest
  · contradiction
  next editable =>
    split at rest
    · contradiction
    next revisionMatches =>
      dsimp only at rest
      split at rest
      · contradiction
      · obtain ⟨_, _, answer⟩ := bind_eq_ok.mp rest
        cases answer
        have isEditable : current.state.isEditable = true := by simpa using editable
        have sameRevision : current.revision = revision := by simpa using revisionMatches
        refine ⟨current, stored, isEditable, sameRevision, bumpAttached_works rfl, fun id => ?_⟩
        rw [bumpAttached_intent]
        refine Table.find?_updateKey (by intro row; rfl) fun {row} found => ?_
        have same : row = current := Option.some.inj (found.symm.trans stored)
        simp [same, isEditable, sameRevision]

theorem queueIntent_ok (answered : db.queueIntent intentId revision = .ok (result, next)) :
    ∃ current, db.intent intentId = some current ∧ current.state = .draft ∧
      current.revision = revision ∧ next.works = (db.bumpAttached current.workId).works ∧
      ∀ id, next.intent id = (db.intent id).map fun row =>
        if row.intentId = intentId then
          { row with state := .queued, revision := row.revision + 1 }
        else row := by
  obtain ⟨current, loaded, rest⟩ := bind_eq_ok.mp answered
  have stored := loadIntent_eq_ok.mp loaded
  split at rest
  · contradiction
  next draft =>
    split at rest
    · contradiction
    next revisionMatches =>
      dsimp only at rest
      split at rest
      · contradiction
      · obtain ⟨_, _, answer⟩ := bind_eq_ok.mp rest
        cases answer
        have isDraft : current.state = .draft := by simpa using draft
        have sameRevision : current.revision = revision := by simpa using revisionMatches
        refine ⟨current, stored, isDraft, sameRevision, bumpAttached_works rfl, fun id => ?_⟩
        rw [bumpAttached_intent]
        refine Table.find?_updateKey (by intro row; rfl) fun {row} found => ?_
        have same : row = current := Option.some.inj (found.symm.trans stored)
        simp [same, isDraft, sameRevision]

theorem cancelIntent_ok (answered : db.cancelIntent intentId = .ok (result, next)) :
    ∃ current, db.intent intentId = some current ∧ current.state.isEditable = true ∧
      next.works = (db.bumpAttached current.workId).works ∧
      ∀ id, next.intent id = (db.intent id).map fun row =>
        if row.intentId = intentId then { row with state := .cancelled } else row := by
  obtain ⟨current, loaded, rest⟩ := bind_eq_ok.mp answered
  split at rest
  · contradiction
  next editable =>
    cases rest
    refine ⟨current, loadIntent_eq_ok.mp loaded, by simpa using editable, bumpAttached_works rfl,
      fun id => ?_⟩
    rw [bumpAttached_intent]
    exact Table.find?_updateRow (by intro row; rfl)

/-- The position a row has once the listed ids are renumbered one after the other. -/
def renumbered (listed : List (String × Nat)) (row : UserIntent) : Nat :=
  listed.foldl (fun position entry => if entry.1 = row.intentId then entry.2 + 1 else position) row.position

private theorem reordered_find? (listed : List (String × Nat)) (intents : Table UserIntent.intentId) :
    (listed.foldl (fun intents (listed : String × Nat) =>
      intents.updateWhere (fun intent => intent.intentId = listed.1 && intent.state = .queued)
        (fun intent => { intent with position := listed.2 + 1 }) fun _ => rfl) intents).find? id =
      (intents.find? id).map fun row =>
        if row.state = .queued then { row with position := renumbered listed row } else row := by
  induction listed generalizing intents with
  | nil =>
      rw [List.foldl_nil]
      cases found : intents.find? id with
      | none => rfl
      | some => simp [renumbered]
  | cons head _ ih =>
      rw [List.foldl_cons, ih, Table.find?_updateWhere, Option.map_map]
      refine Option.map_congr fun row _ => ?_
      by_cases waiting : row.state = .queued
      · by_cases named : row.intentId = head.1
        · simp [waiting, named, renumbered]
        · simp [waiting, named, Ne.symm named, renumbered]
      · simp [waiting]

def waitsOn (workId : String) (intent : UserIntent) : Bool :=
  attachedTo workId intent && intent.state = .queued

def waiting (db : Coordination) (workId : String) : List String :=
  (db.intents.rows.filter (waitsOn workId)).map UserIntent.intentId

theorem mem_waiting : id ∈ db.waiting workId ↔
    ∃ intent, db.intent id = some intent ∧ intent.workId = some workId ∧ intent.state = .queued := by
  simp only [waiting, List.mem_map, List.mem_filter, waitsOn, attachedTo, Bool.and_eq_true,
    decide_eq_true_eq]
  constructor
  · rintro ⟨intent, ⟨member, selected⟩, rfl⟩
    exact ⟨intent, intent_of_mem member, selected⟩
  · rintro ⟨intent, stored, selected⟩
    exact ⟨intent, ⟨(Table.find?_eq_some.mp stored).1, selected⟩, intentId_of_intent stored⟩

theorem reorderQueued_ok {intentIds : List String} {result : List UserIntent}
    (answered : db.reorderQueued workId intentIds = .ok (result, next)) :
    (db.waiting workId).length = intentIds.length ∧ (∀ id ∈ intentIds, id ∈ db.waiting workId) ∧
      next.works = (db.bumpAttached (some workId)).works ∧
      ∀ id, next.intent id = (db.intent id).map fun row =>
        if row.state = .queued then { row with position := renumbered intentIds.zipIdx row } else row := by
  obtain ⟨_, _, rest⟩ := bind_eq_ok.mp answered
  dsimp only at rest
  split at rest
  · contradiction
  next accepted =>
    cases rest
    rw [not_or, Decidable.not_not, Decidable.not_not, List.all_eq_true] at accepted
    refine ⟨accepted.1, fun id listed => ?_, rfl, fun id => reordered_find? intentIds.zipIdx db.intents⟩
    exact of_decide_eq_true (accepted.2 id listed)

/-- The work an inserted intent goes to. -/
def home (work : Work) : Option String :=
  if work.state.isOpen then some work.workId else none

theorem insertIntent_ok {kind : IntentKind} {state : IntentState}
    (answered : db.insertIntent work minted kind delivery body state = .ok (result, next)) :
    db.intent minted = none ∧
      result = ⟨minted, home work, work.workspaceId, db.nextPosition (home work) work.workspaceId, 1,
        kind, delivery, body, state⟩ ∧
      next.works = (db.bumpAttached (home work)).works ∧
      ∀ id, next.intent id = if id = minted then some result else db.intent id := by
  unfold insertIntent at answered
  dsimp only at answered
  split at answered
  · contradiction
  next inserted =>
    cases answered
    refine ⟨(Table.insert?_eq_some.mp inserted).1, rfl, ?_, fun id => ?_⟩
    · rw [home]
      split <;> rfl
    · rw [bumpAttached_intent]
      exact Table.find?_insert? inserted

/-- The three answers of `finish_work`: items to read first, only items for after the work, none. -/
inductive Finished (db : Coordination) (workId workspaceId : String) (state : WorkState) :
    WorkFinishResult → Coordination → Prop
  | reading {queued : Nat}
      (unread : 0 < db.countState workId .claimed ∨ 0 < db.countDelivery workId .queued .nextCheckpoint) :
      Finished db workId workspaceId state
        ⟨workId, false, some finishReasonPending, queued, state⟩ db
  | closing {next : Coordination} {queued : Nat} (read : db.countState workId .claimed = 0)
      (passed : db.countDelivery workId .queued .nextCheckpoint = 0)
      (after : 0 < db.countDelivery workId .queued .afterCurrentWork)
      (standing : ∀ id, next.standing id =
        if id = workId then some (workspaceId, .closing) else db.standing id)
      (intents : next.intents = db.intents) :
      Finished db workId workspaceId state
        ⟨workId, false, some finishReasonPending, queued, .closing⟩ next
  | closed {next : Coordination} (read : db.countState workId .claimed = 0)
      (passed : db.countDelivery workId .queued .nextCheckpoint = 0)
      (after : db.countDelivery workId .queued .afterCurrentWork = 0)
      (standing : ∀ id, next.standing id =
        if id = workId then some (workspaceId, .closed) else db.standing id)
      (intents : ∀ id, next.intent id = (db.intent id).map fun intent =>
        if attachedTo workId intent && (intent.state.isEditable || intent.delivery = .nextWork) then
          { intent with workId := none }
        else intent) :
      Finished db workId workspaceId state ⟨workId, true, none, 0, .closed⟩ next

private theorem standing_setState {change : Work → Work}
    (keeps : ∀ row : Work, (change row).workId = row.workId) (found : db.works.find? workId = some work)
    (works : next.works = db.works.updateWhere (fun row => row.workId = workId) change keeps)
    (changed : ∀ row, (change row).workspaceId = row.workspaceId ∧ (change row).state = state) :
    next.standing id = if id = workId then some (work.workspaceId, state) else db.standing id := by
  rw [standing, works, Table.find?_updateRow]
  by_cases same : id = workId
  · subst same
    have named : work.workId = id := (Table.find?_eq_some.mp found).2
    simp [found, named, changed work]
  · rw [if_neg same, standing, Option.map_map]
    refine Option.map_congr fun row stored => ?_
    have apart : row.workId ≠ workId := fun named => same ((Table.find?_eq_some.mp stored).2 ▸ named)
    simp [apart]

theorem finishWork_ok {result : WorkFinishResult} (answered : db.finishWork workId = .ok (result, next)) :
    ∃ work, db.works.find? workId = some work ∧ work.state.isOpen = true ∧
      Finished db workId work.workspaceId work.state result next := by
  obtain ⟨work, loaded, rest⟩ := bind_eq_ok.mp answered
  have found := loadWork_eq_ok.mp loaded
  have named : work.workId = workId := (Table.find?_eq_some.mp found).2
  split at rest
  next isOpen =>
    refine ⟨work, found, isOpen, ?_⟩
    dsimp only at rest
    split at rest
    next unread =>
      cases rest
      rw [named]
      exact .reading unread
    · obtain ⟨read, passed⟩ : db.countState workId .claimed = 0 ∧
          db.countDelivery workId .queued .nextCheckpoint = 0 := by
        omega
      split at rest
      next after =>
        split at rest
        · cases rest
          rw [named]
          refine .closing read passed after (fun id => ?_) rfl
          rw [bumpRevision_standing]
          exact standing_setState (by intro row; rfl) found rfl fun row => ⟨rfl, rfl⟩
        · cases rest
          rw [named]
          have isClosing : work.state = .closing := by
            cases state : work.state <;> simp_all [WorkState.isOpen]
          refine .closing read passed after (fun id => ?_) rfl
          split
          next same =>
            rw [same, standing_of_find? found, isClosing]
          · rfl
      · cases rest
        rw [named]
        refine .closed read passed (by omega) (fun id => ?_) fun id => Table.find?_updateWhere
          (by intro row; rfl)
        exact standing_setState (by intro row; rfl) found rfl fun row => ⟨rfl, rfl⟩
  · contradiction

/-! Every answered call as a step of each stored row. -/

inductive IntentCreated (db : Coordination) : CoordinationCall → UserIntent → Prop
  | draft {workId minted : String} {create : CreateIntent} {work : Work} {position : Nat}
      (onWork : db.works.find? workId = some work) :
      IntentCreated db (.createDraft workId create minted)
        ⟨minted, home work, work.workspaceId, position, 1, create.kind,
          if work.state.isOpen then create.delivery else .nextWork, create.body, .draft⟩
  | stopNotice {workId reason minted : String} {work : Work} {position : Nat}
      (onWork : db.works.find? workId = some work) :
      IntentCreated db (.insertStopNotice workId reason minted)
        ⟨minted, home work, work.workspaceId, position, 1, .stopNotice, .nextCheckpoint,
          stopNoticeBody reason, if work.state.isOpen then .claimed else .queued⟩

inductive IntentOutcome (db : Coordination) (call : CoordinationCall) (id : String) :
    Option UserIntent → Option UserIntent → Prop
  | absent (unwritten : call.writes id = none) : IntentOutcome db call id none none
  | created {intent : UserIntent} (named : intent.intentId = id) (isNew : IntentCreated db call intent) :
      IntentOutcome db call id none (some intent)
  | stepped {before after : UserIntent} (step : IntentStep call before after) :
      IntentOutcome db call id (some before) (some after)

theorem IntentOutcome.of_map
    (silent : ∀ id, call.writes id = none) (same : next.intent id = (db.intent id).map change)
    (steps : ∀ {intent}, db.intent id = some intent → IntentStep call intent (change intent)) :
    IntentOutcome db call id (db.intent id) (next.intent id) := by
  rw [same]
  cases found : db.intent id with
  | none => exact .absent (silent id)
  | some => exact .stepped (steps found)

theorem IntentOutcome.of_eq (silent : ∀ id, call.writes id = none)
    (same : next.intent id = db.intent id) :
    IntentOutcome db call id (db.intent id) (next.intent id) :=
  .of_map silent (same.trans Option.map_id'.symm) fun _ => .kept (silent _)

theorem IntentOutcome.of_insert {created : UserIntent}
    (elsewhere : ∀ {id}, id ≠ minted → call.writes id = none)
    (same : next.intent id = if id = minted then some created else db.intent id)
    (fresh : db.intent minted = none) (named : created.intentId = minted)
    (isNew : IntentCreated db call created) :
    IntentOutcome db call id (db.intent id) (next.intent id) := by
  rw [same]
  split
  next isMinted =>
    rw [isMinted, fresh]
    exact .created named isNew
  next apart =>
    cases found : db.intent id with
    | none => exact .absent (elsewhere apart)
    | some =>
        refine .stepped (.kept ?_)
        rw [intentId_of_intent found]
        exact elsewhere apart

theorem IntentOutcome.of_row
    {current : UserIntent} (elsewhere : ∀ {id}, id ≠ intentId → call.writes id = none)
    (stored : db.intent intentId = some current) (same : next.intent id = (db.intent id).map fun row =>
      if row.intentId = intentId then change row else row)
    (step : IntentStep call current (change current)) :
    IntentOutcome db call id (db.intent id) (next.intent id) := by
  rw [same]
  by_cases named : id = intentId
  · have isCurrent : current.intentId = intentId := intentId_of_intent stored
    rw [named, stored, Option.map_some, if_pos isCurrent]
    exact .stepped step
  · cases found : db.intent id with
    | none => exact .absent (elsewhere named)
    | some intent =>
        have isOther : intent.intentId = id := intentId_of_intent found
        rw [Option.map_some, if_neg (isOther ▸ named)]
        exact .stepped (.kept (isOther ▸ elsewhere named))

/-- What an answered call did. -/
inductive Performed (db : Coordination) (call : CoordinationCall) (next : Coordination) : Prop
  | opened {workspaceId minted : String} {title : Option String} {result : WorkOpenResult}
      (isCall : call = .openWork workspaceId title minted)
      (replied : db.openWork workspaceId title minted = .ok (result, next))
  | added {minted : String} {created : UserIntent} (elsewhere : ∀ {id}, id ≠ minted → call.writes id = none)
      (fresh : db.intent minted = none) (named : created.intentId = minted)
      (isNew : IntentCreated db call created)
      (behind : created.position = db.nextPosition created.workId created.workspaceId)
      (works : next.works = (db.bumpAttached created.workId).works)
      (intents : ∀ id, next.intent id = if id = minted then some created else db.intent id)
  | changed {intentId : String} {current : UserIntent} {change : UserIntent → UserIntent}
      (elsewhere : ∀ {id}, id ≠ intentId → call.writes id = none) (stored : db.intent intentId = some current)
      (step : IntentStep call current (change current))
      (stays : (change current).workId = current.workId ∧ (change current).position = current.position ∧
        ((change current).state.isEditable = true → current.state.isEditable = true))
      (works : next.works = (db.bumpAttached current.workId).works)
      (intents : ∀ id, next.intent id = (db.intent id).map fun row =>
        if row.intentId = intentId then change row else row)
  | reordered {workId : String} {intentIds : List String} {result : List UserIntent}
      (isCall : call = .reorderQueued workId intentIds)
      (replied : db.reorderQueued workId intentIds = .ok (result, next))
  | finished {workId : String} {result : WorkFinishResult} (isCall : call = .finishWork workId)
      (replied : db.finishWork workId = .ok (result, next))
  | unchanged (silent : ∀ id, call.writes id = none) (same : next = db)

variable (answered : db.perform call = .ok (reply, next))
include answered

theorem perform_cases : Performed db call next := by
  cases call <;> obtain ⟨_, replied, _⟩ := map_answer_eq_ok.mp answered
  case openWork => exact .opened rfl replied
  case createDraft =>
    obtain ⟨work, loaded, inserted⟩ := bind_eq_ok.mp replied
    obtain ⟨fresh, rfl, works, intents⟩ := insertIntent_ok inserted
    exact .added (fun apart => if_neg apart.symm) fresh rfl (.draft (loadWork_eq_ok.mp loaded)) rfl works
      intents
  case editIntent =>
    obtain ⟨current, stored, editable, rfl, works, intents⟩ := editIntent_ok replied
    cases intentId_of_intent stored
    exact .changed (fun apart => if_neg apart.symm) stored (.edited editable) ⟨rfl, rfl, id⟩ works intents
  case queueIntent =>
    obtain ⟨current, stored, draft, rfl, works, intents⟩ := queueIntent_ok replied
    cases intentId_of_intent stored
    exact .changed (fun _ => rfl) stored (.queued draft) ⟨rfl, rfl, fun _ => by rw [draft]; rfl⟩ works intents
  case reorderQueued => exact .reordered rfl replied
  case claimNext =>
    obtain ⟨work, _, _, ⟨_, same, _⟩ | ⟨selected, stored, isClaimable, _, _, works, intents⟩⟩ :=
      claimNext_ok replied
    · exact .unchanged (fun _ => rfl) same
    · obtain ⟨onWork, waiting, deliverable⟩ := claimable_iff.mp isClaimable
      exact .changed (fun _ => rfl) stored (.claimed waiting onWork (ne_nextWork_of_claimable deliverable))
        ⟨rfl, rfl, by simp [IntentState.isEditable]⟩ (onWork ▸ works) intents
  case completeIntent =>
    obtain ⟨current, stored, onWork, read, works, intents⟩ := completeIntent_ok replied
    cases intentId_of_intent stored
    refine .changed (fun _ => rfl) stored (.completed read onWork) ⟨rfl, rfl, ?_⟩ (onWork ▸ works) intents
    cases ‹SteerOutcome› <;> simp [SteerOutcome.intentState, IntentState.isEditable]
  case cancelIntent =>
    obtain ⟨_, stored, editable, works, intents⟩ := cancelIntent_ok replied
    cases intentId_of_intent stored
    exact .changed (fun _ => rfl) stored (.cancelled editable) ⟨rfl, rfl, fun _ => editable⟩ works intents
  case insertStopNotice =>
    obtain ⟨_, loaded, inserted⟩ := bind_eq_ok.mp replied
    obtain ⟨fresh, rfl, works, intents⟩ := insertIntent_ok inserted
    exact .added (fun apart => if_neg apart.symm) fresh rfl (.stopNotice (loadWork_eq_ok.mp loaded)) rfl
      works intents
  case finishWork => exact .finished rfl replied

theorem perform_intent (id : String) : IntentOutcome db call id (db.intent id) (next.intent id) := by
  cases perform_cases answered with
  | opened isCall replied =>
      subst isCall
      obtain ⟨_, _, _, intents⟩ := openWork_ok replied
      refine .of_map (fun _ => rfl) (intents id) fun {intent} _ => ?_
      split
      next selected =>
        simp only [Bool.and_eq_true, decide_eq_true_eq] at selected
        exact .attached selected.1.2 selected.1.1 selected.2
      · exact .kept rfl
  | added elsewhere fresh named isNew _ _ intents =>
      exact .of_insert elsewhere (intents id) fresh named isNew
  | changed elsewhere stored step _ _ intents => exact .of_row elsewhere stored (intents id) step
  | reordered isCall replied =>
      subst isCall
      obtain ⟨_, _, _, intents⟩ := reorderQueued_ok replied
      refine .of_map (fun _ => rfl) (intents id) fun {intent} _ => ?_
      split
      next waiting => exact .reordered waiting _
      · exact .kept rfl
  | finished isCall replied =>
      subst isCall
      obtain ⟨_, _, _, finished⟩ := finishWork_ok replied
      cases finished with
      | reading => exact .of_eq (fun _ => rfl) rfl
      | closing _ _ _ _ intents => exact .of_eq (fun _ => rfl) (by rw [intent, intent, intents])
      | closed _ _ _ _ intents =>
          refine .of_map (fun _ => rfl) (intents id) fun {intent} _ => ?_
          split
          next selected =>
            simp only [attachedTo, Bool.and_eq_true, Bool.or_eq_true, decide_eq_true_eq] at selected
            exact .detached selected.1 selected.2
          · exact .kept rfl
  | unchanged silent same => exact .of_eq silent (by rw [same])

theorem perform_standing (id : String) : StandingStep call id (db.standing id) (next.standing id) := by
  cases perform_cases answered with
  | @opened workspaceId minted title _ isCall replied =>
      subst isCall
      obtain ⟨fresh, _, standing, _⟩ := openWork_ok replied
      by_cases named : id = minted
      · rw [standing id, if_pos named, named, fresh]
        exact .opened workspaceId title minted
      · exact .of_eq ((standing id).trans (if_neg named))
  | added _ _ _ _ _ works | changed _ _ _ _ works => exact .of_eq (standing_of_bumped works)
  | reordered _ replied =>
      obtain ⟨_, _, works, _⟩ := reorderQueued_ok replied
      exact .of_eq (standing_of_bumped works)
  | @finished workId _ isCall replied =>
      subst isCall
      obtain ⟨work, found, isOpen, finished⟩ := finishWork_ok replied
      have stands := standing_of_find? found
      cases finished with
      | reading => exact .of_eq rfl
      | closing _ _ _ standing =>
          by_cases named : id = workId
          · rw [standing id, if_pos named, named, stands]
            cases state : work.state with
            | active => exact .closing workId _
            | closing => exact .kept _ _ _
            | closed | cancelled => simp [state, WorkState.isOpen] at isOpen
          · exact .of_eq ((standing id).trans (if_neg named))
      | closed _ _ _ standing =>
          by_cases named : id = workId
          · rw [standing id, if_pos named, named, stands]
            exact .closed workId _ isOpen
          · exact .of_eq ((standing id).trans (if_neg named))
  | unchanged _ same => exact .of_eq (by rw [same])

end Coordination

end CodeSpace.Store
