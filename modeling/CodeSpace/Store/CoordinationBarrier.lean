import CodeSpace.Store.CoordinationHistory

namespace CodeSpace.Store

open Data Domain

/-! The barrier of `finish_work`. It counts items by state and delivery, while `claim_next` picks
them by the state of the work and `pending_user_items` by a third condition; the three agree because
a claimed item never waits for the next work. -/

/-- Fewer intents are on the work than a `u32` can count. -/
def Coordination.Countable (db : Coordination) (workId : String) : Prop :=
  db.intents.count (Coordination.attachedTo workId) < 2 ^ 32

/-- Where `finish_work` is called it can count what is on the work. -/
def Counted (db : Coordination) (exchange : Exchange) : Prop :=
  match exchange.call with
  | .finishWork workId => db.Countable workId
  | _ => True

/-- Still to be read or answered. -/
def unsettled (intent : UserIntent) : Bool :=
  intent.state.isEditable || intent.state = .claimed

structure Coherent (db : Coordination) : Prop where
  live {id workId workspaceId : String} {intent : UserIntent} {state : WorkState}
    (stored : db.intent id = some intent) (onWork : intent.workId = some workId)
    (pending : unsettled intent = true) (stands : db.standing workId = some (workspaceId, state)) :
    state.isOpen = true
  deliverable {id : String} {intent : UserIntent} (stored : db.intent id = some intent)
    (read : intent.state = .claimed) : intent.delivery ≠ .nextWork

variable {call : CoordinationCall} {earlier later intent : UserIntent}
  {db next before after : Coordination} {id workId workspaceId minted : String} {exchange : Exchange}
  {trace labels : List Exchange} {reply : CoordinationReply} {state : WorkState} {work : Work}

theorem unsettled_of_isEditable (editable : intent.state.isEditable = true) :
    unsettled intent = true := by
  simp [unsettled, editable]

theorem IntentStep.deliverable (step : IntentStep call earlier later)
    (before : earlier.state = .claimed → earlier.delivery ≠ .nextWork)
    (read : later.state = .claimed) : later.delivery ≠ .nextWork := by
  cases step with
  | kept | reordered | detached => exact before read
  | attached _ _ editable | edited editable =>
      rw [show earlier.state = .claimed from read] at editable
      contradiction
  | queued | cancelled => contradiction
  | claimed _ _ deliverable => exact deliverable
  | completed =>
      rename_i outcome _ _
      cases outcome <;> contradiction

/-- Only `open_work` and `finish_work` move an intent to or from a work, and no other call makes a
settled intent pending. -/
theorem IntentStep.stays_on_work (step : IntentStep call earlier later)
    (notOpened : ∀ workspaceId title minted, call ≠ .openWork workspaceId title minted)
    (notFinished : ∀ workId, call ≠ .finishWork workId) (pending : unsettled later = true) :
    later.workId = earlier.workId ∧ unsettled earlier = true := by
  cases step with
  | kept | edited | reordered => exact ⟨rfl, pending⟩
  | attached => exact absurd rfl (notOpened _ _ _)
  | detached => exact absurd rfl (notFinished _)
  | queued draft => exact ⟨rfl, by simp [unsettled, draft, IntentState.isEditable]⟩
  | claimed waiting => exact ⟨rfl, by simp [unsettled, waiting, IntentState.isEditable]⟩
  | completed read => exact ⟨rfl, by simp [unsettled, read]⟩
  | cancelled editable => exact ⟨rfl, unsettled_of_isEditable editable⟩

theorem StandingStep.eq_of_other {before after : Option (String × WorkState)}
    (step : StandingStep call workId before after)
    (notOpened : ∀ workspaceId title minted, call ≠ .openWork workspaceId title minted)
    (notFinished : ∀ workId, call ≠ .finishWork workId) : after = before := by
  cases step with
  | kept => rfl
  | opened => exact absurd rfl (notOpened _ _ _)
  | closing | closed => exact absurd rfl (notFinished _)

namespace Coordination

theorem home_eq_some : home work = some workId ↔ work.state.isOpen = true ∧ work.workId = workId := by
  simp [home]

theorem IntentCreated.live (isNew : IntentCreated db call intent) (onWork : intent.workId = some workId)
    (stands : db.standing workId = some (workspaceId, state)) : state.isOpen = true := by
  cases isNew with
  | draft found | stopNotice found =>
      obtain ⟨isOpen, named⟩ := home_eq_some.mp onWork
      have isFound := (Table.find?_eq_some.mp found).2
      rw [isFound] at named
      subst named
      rw [standing_of_find? found] at stands
      cases stands
      exact isOpen

theorem IntentCreated.deliverable (isNew : IntentCreated db call intent)
    (read : intent.state = .claimed) : intent.delivery ≠ .nextWork := by
  cases isNew with
  | draft => contradiction
  | stopNotice => simp

end Coordination

theorem Coherent.perform_deliverable (coherent : Coherent before)
    (answered : before.perform call = .ok (reply, after)) (stored : after.intent id = some intent)
    (read : intent.state = .claimed) : intent.delivery ≠ .nextWork := by
  have outcome := Coordination.perform_intent answered id
  have deliverable : ∀ {old}, before.intent id = some old → old.state = .claimed →
      old.delivery ≠ .nextWork := coherent.deliverable
  rw [stored] at outcome
  generalize before.intent id = found at outcome deliverable
  cases outcome with
  | created _ isNew => exact isNew.deliverable read
  | stepped step => exact step.deliverable (deliverable rfl) read

namespace Coordination

variable {test : UserIntent → Bool}

/-- A count of some of the intents on a work is exact where all of them can be counted. -/
theorem Countable.mod_eq_zero (countable : db.Countable workId)
    (onWork : ∀ intent, test intent = true → attachedTo workId intent = true) :
    db.intents.count test % 2 ^ 32 = 0 ↔ ∀ intent ∈ db.intents.rows, ¬ test intent = true := by
  have fewer : db.intents.count test ≤ db.intents.count (attachedTo workId) :=
    List.countP_mono_left fun intent _ => onWork intent
  rw [Nat.mod_eq_of_lt (Nat.lt_of_le_of_lt fewer countable)]
  exact List.countP_eq_zero

theorem exists_of_count (positive : 0 < db.intents.count test % 2 ^ 32) :
    ∃ intent ∈ db.intents.rows, test intent = true := by
  refine List.countP_pos_iff.mp (Nat.pos_of_ne_zero fun none => ?_)
  rw [Table.count, none] at positive
  exact Nat.lt_irrefl 0 positive

theorem attachedTo_of_inState {state : IntentState} (intent : UserIntent)
    (counted : inState workId state intent = true) : attachedTo workId intent = true :=
  (Bool.and_eq_true_iff.mp counted).1

end Coordination

/-- A closing call leaves no pending intent behind. -/
theorem Coordination.unsettled_false_of_closed (countable : before.Countable workId)
    (read : before.countState workId .claimed = 0)
    (intents : ∀ id, after.intent id = (before.intent id).map fun intent =>
      if attachedTo workId intent && (intent.state.isEditable || intent.delivery = .nextWork) then
        { intent with workId := none }
      else intent)
    (stored : after.intent id = some intent) (onWork : intent.workId = some workId) :
    unsettled intent = false := by
  rw [intents] at stored
  obtain ⟨old, found, rfl⟩ := Option.map_eq_some_iff.mp stored
  split at onWork
  · contradiction
  next kept =>
    rw [if_neg kept]
    have member := (Table.find?_eq_some.mp found).1
    have unread : ¬ old.state = .claimed := by
      simpa [inState, attachedTo, onWork] using
        (countable.mod_eq_zero attachedTo_of_inState).mp read old member
    have fixed : old.state.isEditable = false := by
      simp only [attachedTo, onWork, decide_true, Bool.true_and, Bool.or_eq_true, not_or] at kept
      simpa using kept.1
    simp [unsettled, fixed, unread]

theorem Coherent.perform_live (coherent : Coherent before)
    (countable : ∀ workId, call = .finishWork workId → before.Countable workId)
    (answered : before.perform call = .ok (reply, after)) (stored : after.intent id = some intent)
    (onWork : intent.workId = some workId) (pending : unsettled intent = true)
    (stands : after.standing workId = some (workspaceId, state)) : state.isOpen = true := by
  by_cases opened : ∃ workspaceId title minted, call = .openWork workspaceId title minted
  · obtain ⟨space, title, minted, rfl⟩ := opened
    obtain ⟨result, replied, _⟩ := map_answer_eq_ok.mp answered
    obtain ⟨_, _, standing, intents⟩ := Coordination.openWork_ok replied
    rw [standing] at stands
    split at stands
    · cases stands; rfl
    next apart =>
      rw [intents] at stored
      obtain ⟨old, found, rfl⟩ := Option.map_eq_some_iff.mp stored
      split at onWork
      · exact absurd (Option.some.inj onWork).symm apart
      next kept =>
        rw [if_neg kept] at pending
        exact coherent.live found onWork pending stands
  by_cases finished : ∃ workId, call = .finishWork workId
  · obtain ⟨_, rfl⟩ := finished
    obtain ⟨_, replied, _⟩ := map_answer_eq_ok.mp answered
    obtain ⟨_, _, _, finished⟩ := Coordination.finishWork_ok replied
    cases finished with
    | reading => exact coherent.live stored onWork pending stands
    | closing _ _ _ standing intents =>
        rw [standing] at stands
        split at stands
        · cases stands; rfl
        · rw [Coordination.intent, intents] at stored
          exact coherent.live stored onWork pending stands
    | closed read _ _ standing intents =>
        rw [standing] at stands
        split at stands
        next named =>
          rw [Coordination.unsettled_false_of_closed (countable _ rfl) read intents stored
            (named ▸ onWork)] at pending
          contradiction
        · rw [intents] at stored
          obtain ⟨old, found, rfl⟩ := Option.map_eq_some_iff.mp stored
          split at onWork
          · contradiction
          next kept =>
            rw [if_neg kept] at pending
            exact coherent.live found onWork pending stands
  · have notOpened : ∀ workspaceId title minted, call ≠ .openWork workspaceId title minted :=
      fun space title minted same => opened ⟨space, title, minted, same⟩
    have notFinished : ∀ workId, call ≠ .finishWork workId := fun id same => finished ⟨id, same⟩
    rw [(Coordination.perform_standing answered workId).eq_of_other notOpened notFinished] at stands
    have outcome := Coordination.perform_intent answered id
    have live : ∀ {old}, before.intent id = some old → old.workId = some workId →
        unsettled old = true → state.isOpen = true :=
      fun found on waits => coherent.live found on waits stands
    rw [stored] at outcome
    generalize before.intent id = found at outcome live
    cases outcome with
    | created _ isNew => exact isNew.live onWork stands
    | stepped step =>
        obtain ⟨sameWork, waits⟩ := step.stays_on_work notOpened notFinished pending
        exact live rfl (sameWork ▸ onWork) waits

theorem Coherent.step (step : (coordinationSystem.restrict Counted).step before exchange after)
    (coherent : Coherent before) : Coherent after := by
  obtain ⟨counted, step⟩ := step
  rcases coordination_step_cases step with ⟨reply, _, answered⟩ | ⟨error, _, rfl⟩
  · refine ⟨coherent.perform_live (fun workId isFinish => ?_) answered,
      coherent.perform_deliverable answered⟩
    rwa [Counted, isFinish] at counted
  · exact coherent

theorem coherent_of_reachable (reachable : (coordinationSystem.restrict Counted).Reachable db) :
    Coherent db := by
  refine reachable.invariant Coherent (fun {state} isInitial => ?_) Coherent.step
  rw [show state = {} from isInitial]
  exact ⟨fun stored => by contradiction, fun stored => by contradiction⟩

/-! The three ways of counting agree. -/

theorem Coherent.pends_iff (coherent : Coherent db) (member : intent ∈ db.intents.rows) :
    Coordination.pends workId intent = true ↔ Coordination.inState workId .claimed intent = true ∨
      (Coordination.inState workId .queued intent && intent.delivery = .nextCheckpoint) = true ∨
      (Coordination.inState workId .queued intent && intent.delivery = .afterCurrentWork) = true := by
  have deliverable := coherent.deliverable (Coordination.intent_of_mem member)
  cases state : intent.state <;> cases delivery : intent.delivery <;>
    simp_all [Coordination.pends, Coordination.inState]

theorem Coherent.pendingUserItems_eq_zero (coherent : Coherent db) (countable : db.Countable workId) :
    db.pendingUserItems workId = 0 ↔ db.countState workId .claimed = 0 ∧
      db.countDelivery workId .queued .nextCheckpoint = 0 ∧
      db.countDelivery workId .queued .afterCurrentWork = 0 := by
  have onWork {delivery : DeliveryPolicy} (intent : UserIntent)
      (counted : (Coordination.inState workId .queued intent && intent.delivery = delivery) = true) :
      Coordination.attachedTo workId intent = true :=
    Coordination.attachedTo_of_inState intent (Bool.and_eq_true_iff.mp counted).1
  rw [Coordination.pendingUserItems, Coordination.countState, Coordination.countDelivery,
    Coordination.countDelivery, countable.mod_eq_zero Coordination.attachedTo_of_inState,
    countable.mod_eq_zero onWork, countable.mod_eq_zero onWork,
    countable.mod_eq_zero (by simp +contextual [Coordination.pends])]
  constructor
  · intro nothing
    refine ⟨fun intent member counted => ?_, fun intent member counted => ?_,
      fun intent member counted => ?_⟩
    · exact nothing intent member ((coherent.pends_iff member).mpr (.inl counted))
    · exact nothing intent member ((coherent.pends_iff member).mpr (.inr (.inl counted)))
    · exact nothing intent member ((coherent.pends_iff member).mpr (.inr (.inr counted)))
  · rintro ⟨read, passed, done⟩ intent member pending
    rcases (coherent.pends_iff member).mp pending with counted | counted | counted
    · exact read intent member counted
    · exact passed intent member counted
    · exact done intent member counted

namespace Coordination

section

variable (found : db.works.find? workId = some work)
include found

theorem finishWork_answers (isOpen : work.state.isOpen = true) :
    ∃ result next, db.finishWork workId = .ok (result, next) := by
  simp only [finishWork, loadWork_eq_ok.mpr found, bind, Except.bind, isOpen, if_true]
  split
  · exact ⟨_, _, rfl⟩
  split
  · split <;> exact ⟨_, _, rfl⟩
  · exact ⟨_, _, rfl⟩

theorem claimNext_answers (accepts : work.state.acceptsClaims = true) (tie : Nat) :
    ∃ item next, db.claimNext workId tie = .ok (item, next) := by
  simp only [claimNext, loadWork_eq_ok.mpr found, bind, Except.bind, accepts, if_true]
  split
  · exact ⟨_, _, rfl⟩
  · split <;> exact ⟨_, _, rfl⟩

/-- `claim_next` returns an item whenever the work accepts claims and has one for its state. -/
theorem claimNext_progress (accepts : work.state.acceptsClaims = true) (member : intent ∈ db.intents.rows)
    (isClaimable : claimable workId work.state intent = true) (tie : Nat) :
    ∃ item next, db.claimNext workId tie = .ok (some item, next) := by
  obtain ⟨_, next, answered⟩ := claimNext_answers found accepts tie
  obtain ⟨same, stored, _, ⟨_, _, nothing⟩ | ⟨selected, _, _, rfl, _⟩⟩ := claimNext_ok answered
  · cases found.symm.trans stored
    rw [nothing intent member] at isClaimable
    contradiction
  · exact ⟨_, next, answered⟩

end

theorem exists_of_countDelivery {state : IntentState} {delivery : DeliveryPolicy}
    (positive : 0 < db.countDelivery workId state delivery) :
    ∃ intent ∈ db.intents.rows, intent.workId = some workId ∧ intent.state = state ∧
      intent.delivery = delivery := by
  obtain ⟨intent, member, counted⟩ := exists_of_count positive
  simp only [inState, attachedTo, Bool.and_eq_true, decide_eq_true_eq] at counted
  exact ⟨intent, member, counted.1.1, counted.1.2, counted.2⟩

theorem work_of_standing (stands : db.standing workId = some (workspaceId, state)) :
    ∃ work, db.works.find? workId = some work ∧ work.workspaceId = workspaceId ∧ work.state = state := by
  obtain ⟨work, found, same⟩ := Option.map_eq_some_iff.mp stands
  cases same
  exact ⟨work, found, rfl, rfl⟩

variable {result : WorkFinishResult}

/-- What `finish_work` leaves when it does not close: something read, or something to claim. -/
theorem Finished.progress (found : db.works.find? workId = some work) (isOpen : work.state.isOpen = true)
    (finished : Finished db workId work.workspaceId work.state result next)
    (unfinished : result.closed = false) :
    0 < next.countState workId .claimed ∨
      ∀ tie, ∃ item after, next.claimNext workId tie = .ok (some item, after) := by
  cases finished with
  | reading unread =>
      rcases unread with read | queued
      · exact .inl read
      · obtain ⟨intent, member, onWork, waiting, delivery⟩ := exists_of_countDelivery queued
        refine .inr fun tie => ?_
        have isClaimable : claimable workId work.state intent = true := by
          refine claimable_iff.mpr ⟨onWork, waiting, ?_⟩
          rw [delivery]
          cases state : work.state <;> simp_all [claimableDeliveries, WorkState.isOpen]
        have accepts : work.state.acceptsClaims = true := by
          cases state : work.state <;> simp_all [WorkState.acceptsClaims, WorkState.isOpen]
        exact claimNext_progress found accepts member isClaimable tie
  | closing _ _ after standing intents =>
      obtain ⟨intent, member, onWork, waiting, delivery⟩ := exists_of_countDelivery after
      refine .inr fun tie => ?_
      have stands := standing workId
      rw [if_pos rfl] at stands
      obtain ⟨closing, stored, _, state⟩ := work_of_standing stands
      have isClaimable : claimable workId closing.state intent = true := by
        refine claimable_iff.mpr ⟨onWork, waiting, ?_⟩
        simp [state, delivery, claimableDeliveries]
      refine claimNext_progress stored ?_ (intents ▸ member) isClaimable tie
      rw [state]
      rfl
  | closed => contradiction

theorem Finished.closed_iff (coherent : Coherent db) (countable : db.Countable workId)
    (finished : Finished db workId work.workspaceId work.state result next) :
    result.closed = true ↔ db.pendingUserItems workId = 0 := by
  rw [coherent.pendingUserItems_eq_zero countable]
  cases finished with
  | reading | closing =>
      simp only [Bool.false_eq_true, false_iff]
      omega
  | closed read passed after => exact ⟨fun _ => ⟨read, passed, after⟩, fun _ => rfl⟩

theorem Finished.standing_iff
    (found : db.works.find? workId = some work) (isOpen : work.state.isOpen = true)
    (finished : Finished db workId work.workspaceId work.state result next) :
    result.closed = true ↔ next.standing workId = some (work.workspaceId, .closed) := by
  cases finished with
  | reading =>
      rw [standing_of_find? found]
      cases state : work.state <;> simp_all [WorkState.isOpen]
  | closing _ _ _ standing | closed _ _ _ standing => simp [standing]

theorem Finished.detaches (finished : Finished db workId work.workspaceId work.state result next)
    (isClosed : result.closed = true) (stored : db.intent id = some intent)
    (onWork : intent.workId = some workId) (editable : intent.state.isEditable = true) :
    next.intent id = some { intent with workId := none } := by
  cases finished with
  | reading | closing => contradiction
  | closed _ _ _ _ intents => simp [intents, stored, attachedTo, onWork, editable]

end Coordination

/-! Intents left over by a closed work. -/

/-- A successful `open_work` in this workspace. -/
def Exchange.opens (workspaceId : String) (exchange : Exchange) : Bool :=
  match exchange.call, exchange.reply with
  | .openWork space _ _, .ok _ => space = workspaceId
  | _, _ => false

/-- Waiting in its workspace, or cancelled by a call of the trace. -/
def Carried (id workspaceId : String) (trace : List Exchange) (db : Coordination) : Prop :=
  ∃ intent, db.intent id = some intent ∧ intent.workId = none ∧ intent.workspaceId = workspaceId ∧
    (intent.state.isEditable = true ∨ ∃ exchange ∈ trace, exchange.call = .cancelIntent id)

theorem IntentStep.carried (step : IntentStep call earlier later)
    (elsewhere : ∀ title minted, call ≠ .openWork earlier.workspaceId title minted)
    (loose : earlier.workId = none) :
    later.workId = none ∧ later.workspaceId = earlier.workspaceId ∧ (earlier.state.isEditable = true →
        later.state.isEditable = true ∨ call = .cancelIntent earlier.intentId) := by
  cases step with
  | kept | edited | reordered => exact ⟨loose, rfl, .inl⟩
  | attached _ sameWorkspace =>
      subst sameWorkspace
      exact absurd rfl (elsewhere _ _)
  | queued => exact ⟨loose, rfl, fun _ => .inl rfl⟩
  | cancelled => exact ⟨loose, rfl, fun _ => .inr rfl⟩
  | claimed _ onWork | completed _ onWork | detached onWork =>
      cases loose.symm.trans onWork

theorem Carried.step (carried : Carried id workspaceId trace before)
    (step : coordinationSystem.step before exchange after)
    (elsewhere : exchange.opens workspaceId = false) :
    Carried id workspaceId (trace ++ [exchange]) after := by
  obtain ⟨intent, stored, loose, rfl, alive⟩ := carried
  have extended : (∃ past ∈ trace, past.call = .cancelIntent id) →
      ∃ past ∈ trace ++ [exchange], past.call = .cancelIntent id :=
    fun ⟨past, member, called⟩ => ⟨past, List.mem_append_left _ member, called⟩
  rcases coordination_step_cases step with ⟨reply, replied, answered⟩ | ⟨error, _, rfl⟩
  · obtain ⟨later, found, moved | rfl⟩ := coordination_step_intent step stored
    · have notOpened : ∀ title minted, exchange.call ≠ .openWork intent.workspaceId title minted := by
        intro title minted called
        simp [Exchange.opens, called, replied] at elsewhere
      obtain ⟨stillLoose, sameWorkspace, moves⟩ := moved.carried notOpened loose
      refine ⟨later, found, stillLoose, sameWorkspace, ?_⟩
      rcases alive with editable | cancelled
      · rcases moves editable with still | called
        · exact .inl still
        · rw [Coordination.intentId_of_intent stored] at called
          exact .inr ⟨exchange, by simp, called⟩
      · exact .inr (extended cancelled)
    · exact ⟨later, found, loose, rfl, alive.imp_right extended⟩
  · exact ⟨intent, stored, loose, rfl, alive.imp_right extended⟩

theorem carried_of_run (run : coordinationSystem.Run before labels after)
    (elsewhere : ∀ exchange ∈ labels, exchange.opens workspaceId = false)
    (carried : Carried id workspaceId trace before) :
    Carried id workspaceId (trace ++ labels) after := by
  induction run generalizing trace with
  | refl => simpa using carried
  | cons head _ ih =>
      have here := carried.step head (elsewhere _ List.mem_cons_self)
      simpa using ih (fun exchange member => elsewhere exchange (List.mem_cons_of_mem _ member)) here

theorem body_of_run (run : coordinationSystem.Run before labels after) (id : String) :
    (after.intent id).map UserIntent.body =
      (lastBody id labels).or ((before.intent id).map UserIntent.body) := by
  let Tracked (past : List Exchange) (db : Coordination) : Prop :=
    (db.intent id).map UserIntent.body = (lastBody id past).or ((before.intent id).map UserIntent.body)
  have start : Tracked [] before := rfl
  have tracked := run.records Tracked (fun {past _ _ label} holds step => by
    simp only [Tracked] at holds ⊢
    rw [coordination_step_body step, holds, lastBody_append, Option.or_assoc]) start
  simpa using tracked

theorem Coordination.openWork_attaches {title : Option String} {result : WorkOpenResult}
    (opened : db.openWork workspaceId title minted = .ok (result, next))
    (stored : db.intent id = some intent) (loose : intent.workId = none)
    (sameWorkspace : intent.workspaceId = workspaceId) (editable : intent.state.isEditable = true) :
    ∃ attached, next.intent id = some attached ∧ attached.workId = some minted ∧
      attached.body = intent.body ∧ attached.state = intent.state ∧ attached.delivery ≠ .nextWork := by
  obtain ⟨_, _, _, intents⟩ := openWork_ok opened
  rw [intents, stored, Option.map_some, if_pos (by simp [loose, sameWorkspace, editable])]
  refine ⟨_, rfl, rfl, rfl, rfl, ?_⟩
  dsimp only
  split
  · simp
  next other => exact other

/-- Where works keep to fewer intents than a `u32` counts, in every reachable state: an open work closes
exactly when nothing is pending, otherwise there is progress to make; a closed work has nothing pending;
and what a close detaches waits for the next work of its workspace. -/
theorem finish_work_closes_iff_nothing_pending
    (reachable : (coordinationSystem.restrict Counted).Reachable db) :
    (∀ workId workspaceId state, db.standing workId = some (workspaceId, state) →
      state.isOpen = true → db.Countable workId →
      ∃ result next, db.finishWork workId = .ok (result, next) ∧
        (result.closed = true ↔ db.pendingUserItems workId = 0) ∧
        (result.closed = true ↔ next.standing workId = some (workspaceId, .closed)) ∧
        (result.closed = false → 0 < next.countState workId .claimed ∨
          ∀ tie, ∃ item after, next.claimNext workId tie = .ok (some item, after)) ∧
        (result.closed = true → ∀ id intent, db.intent id = some intent →
          intent.workId = some workId → intent.state.isEditable = true →
          next.intent id = some { intent with workId := none })) ∧
    (∀ workId workspaceId, db.standing workId = some (workspaceId, .closed) →
      ∀ id intent, db.intent id = some intent → intent.workId = some workId → unsettled intent = false) ∧
    (∀ id intent, db.intent id = some intent → intent.workId = none → intent.state.isEditable = true →
      ∀ trace later, coordinationSystem.Run db trace later →
        (∀ exchange ∈ trace, exchange.opens intent.workspaceId = false) →
        ∃ kept, later.intent id = some kept ∧ kept.workId = none ∧ kept.workspaceId = intent.workspaceId ∧
          some kept.body = (lastBody id trace).or (some intent.body) ∧
          (kept.state.isEditable = true ∨ ∃ exchange ∈ trace, exchange.call = .cancelIntent id) ∧
          (kept.state.isEditable = true → ∀ title minted result opened,
            later.openWork intent.workspaceId title minted = .ok (result, opened) →
            ∃ attached, opened.intent id = some attached ∧ attached.workId = some minted ∧
              attached.body = kept.body ∧ attached.state = kept.state ∧
              (kept.state = .queued → Coordination.pends minted attached = true ∧
                (opened.Countable minted → 0 < opened.pendingUserItems minted)))) := by
  have coherent := coherent_of_reachable reachable
  refine ⟨fun workId workspaceId state stands isOpen countable => ?_,
    fun workId workspaceId stands id intent stored onWork => ?_,
    fun id intent stored loose editable trace later run elsewhere => ?_⟩
  · obtain ⟨_, found, rfl, rfl⟩ := Coordination.work_of_standing stands
    obtain ⟨result, next, answered⟩ := Coordination.finishWork_answers found isOpen
    obtain ⟨_, stored, _, finished⟩ := Coordination.finishWork_ok answered
    cases found.symm.trans stored
    exact ⟨result, next, answered, finished.closed_iff coherent countable, finished.standing_iff found isOpen,
      finished.progress found isOpen,
      fun isClosed id intent present onWork editable =>
        finished.detaches isClosed present onWork editable⟩
  · refine Bool.eq_false_iff.mpr fun pending => ?_
    have isOpen := coherent.live stored onWork pending stands
    contradiction
  · have start : Carried id intent.workspaceId [] db := ⟨intent, stored, loose, rfl, .inl editable⟩
    obtain ⟨kept, found, stillLoose, sameWorkspace, alive⟩ := carried_of_run run elsewhere start
    have body := body_of_run run id
    rw [found, stored, Option.map_some, Option.map_some] at body
    refine ⟨kept, found, stillLoose, sameWorkspace, body, by simpa using alive,
      fun still title minted result opened answered => ?_⟩
    obtain ⟨attached, present, onWork, sameBody, sameState, delivered⟩ :=
      Coordination.openWork_attaches answered found stillLoose sameWorkspace still
    refine ⟨attached, present, onWork, sameBody, sameState, fun waiting => ?_⟩
    have pending : Coordination.pends minted attached = true := by
      simp [Coordination.pends, Coordination.attachedTo, onWork, sameState, waiting, delivered]
    refine ⟨pending, fun countable => Nat.pos_of_ne_zero fun none => ?_⟩
    exact (countable.mod_eq_zero (by simp +contextual [Coordination.pends])).mp none attached
      (Table.find?_eq_some.mp present).1 pending

theorem Coordination.answer_call (db : Coordination) (call : CoordinationCall) :
    (db.answer call).1.call = call := by
  unfold answer
  split <;> rfl

theorem Coordination.counted_replay (db : Coordination) (calls : List CoordinationCall)
    (unfinished : ∀ workId, .finishWork workId ∉ calls) :
    (coordinationSystem.restrict Counted).Run db (db.replay calls).1 (db.replay calls).2 := by
  induction calls generalizing db with
  | nil => exact .refl db
  | cons call _ ih =>
      refine .cons ⟨?_, step_answer db call⟩ (ih _ fun workId later =>
        unfinished workId (List.mem_cons_of_mem _ later))
      rw [Counted, answer_call]
      split
      next workId => exact absurd List.mem_cons_self (unfinished workId)
      · trivial

/-- A queued item for the next work does not hold the close back and pends on the next work. -/
theorem next_work_item_pends_on_the_next_work :
    let unfinished := (Coordination.replay {} [.openWork "space" none "first",
      .createDraft "first" ⟨"later", .followUp, .nextWork⟩ "intent", .queueIntent "intent" 1]).2
    let finished := (unfinished.answer (.finishWork "first")).2
    let reopened := (finished.answer (.openWork "space" none "second")).2
    (∃ result next, unfinished.finishWork "first" = .ok (result, next) ∧ result.closed = true) ∧
    ∃ attached, reopened.intent "intent" = some attached ∧ attached.body = "later" ∧
      Coordination.pends "second" attached = true := by
  intro unfinished finished reopened
  have run := Coordination.counted_replay {} [.openWork "space" none "first",
    .createDraft "first" ⟨"later", .followUp, .nextWork⟩ "intent", .queueIntent "intent" 1] (by simp)
  have countable : unfinished.Countable "first" := show 1 < 2 ^ 32 by decide
  have closes := (finish_work_closes_iff_nothing_pending ⟨{}, _, rfl, run⟩).1 "first" "space" .active
    rfl rfl countable
  have carries := (finish_work_closes_iff_nothing_pending
    ⟨{}, _, rfl, run.snoc ⟨by rwa [Counted, Coordination.answer_call],
      unfinished.step_answer (.finishWork "first")⟩⟩).2.2 "intent"
      ⟨"intent", none, "space", 1, 2, .followUp, .nextWork, "later", .queued⟩ rfl rfl rfl
      [] finished (.refl finished) (by simp)
  obtain ⟨result, next, answered, iff, _⟩ := closes
  obtain ⟨_, stored, _, _, _, _, attaches⟩ := carries
  cases stored
  obtain ⟨attached, present, _, body, _, pends⟩ := attaches rfl none "second"
    ⟨"second", "space", .active⟩ reopened rfl
  exact ⟨⟨result, next, answered, iff.mpr rfl⟩, attached, present, body, (pends rfl).1⟩

/-! The barrier of a work with as many stop notices as there are values of a `u32`. -/

def stoppedWork : Nat → Coordination
  | 0 => (({} : Coordination).answer (.openWork "ws" none "w")).2
  | count + 1 => ((stoppedWork count).answer
      (.insertStopNotice "w" "" (String.ofList (List.replicate count 'a')))).2

theorem stoppedWork_reachable (count : Nat) : coordinationSystem.Reachable (stoppedWork count) := by
  induction count with
  | zero => exact ⟨{}, _, rfl, .cons (Coordination.step_answer _ _) (.refl _)⟩
  | succ _ ih =>
      obtain ⟨start, _, isInitial, run⟩ := ih
      exact ⟨start, _, isInitial, run.snoc (Coordination.step_answer _ _)⟩

theorem Coordination.insertStopNotice_of_open (found : db.works.find? workId = some work)
    (isOpen : work.state.isOpen = true) (fresh : db.intent minted = none) (reason : String) :
    ∃ row next, db.insertStopNotice workId reason minted = .ok (row, next) ∧
      next.intents.rows = db.intents.rows ++ [row] ∧ (∀ id, next.standing id = db.standing id) ∧
      row.workId = some workId ∧ row.state = .claimed ∧ row.delivery = .nextCheckpoint ∧
      row.intentId = minted := by
  have named : work.workId = workId := (Table.find?_eq_some.mp found).2
  simp only [insertStopNotice, loadWork_eq_ok.mpr found, bind, Except.bind, insertIntent, isOpen,
    if_true, named]
  split
  next taken =>
    have untaken : minted ∉ db.intents.rows.map UserIntent.intentId := by
      simpa [intent, Table.find?_eq_none] using fresh
    rw [Table.insert?, dif_neg untaken] at taken
    cases taken
  next inserted =>
    exact ⟨_, _, rfl, (Table.insert?_eq_some.mp inserted).2, fun id => bumpRevision_standing, rfl, rfl,
      rfl, rfl⟩

theorem stoppedWork_rows (count : Nat) : (stoppedWork count).standing "w" = some ("ws", .active) ∧
      (stoppedWork count).intents.rows.length = count ∧
      ∀ row ∈ (stoppedWork count).intents.rows, row.workId = some "w" ∧ row.state = .claimed ∧
        row.delivery = .nextCheckpoint ∧ row.intentId.toList.length < count := by
  induction count with
  | zero => exact ⟨rfl, rfl, nofun⟩
  | succ count ih =>
      obtain ⟨stands, length, rows⟩ := ih
      obtain ⟨_, found, _, isActive⟩ := Coordination.work_of_standing stands
      have fresh : (stoppedWork count).intent (String.ofList (List.replicate count 'a')) = none := by
        refine Option.eq_none_iff_forall_ne_some.mpr fun row stored => ?_
        obtain ⟨member, named⟩ := Table.find?_eq_some.mp stored
        have shorter := (rows row member).2.2.2
        rw [named] at shorter
        simp at shorter
      obtain ⟨_, next, answered, added, same, onWork, isClaimed, delivery, named⟩ :=
        Coordination.insertStopNotice_of_open found (by rw [isActive]; rfl) fresh ""
      have isNext : stoppedWork (count + 1) = next := by
        simp only [stoppedWork, Coordination.answer, Coordination.perform, answered, Except.map]
      rw [isNext, added]
      refine ⟨(same "w").trans stands, by simp [length], fun other isOther => ?_⟩
      rcases List.mem_append.mp isOther with earlier | isRow
      · obtain ⟨onWork, isClaimed, delivery, shorter⟩ := rows other earlier
        exact ⟨onWork, isClaimed, delivery, Nat.lt_succ_of_lt shorter⟩
      · rw [List.mem_singleton.mp isRow]
        exact ⟨onWork, isClaimed, delivery, by simp [named]⟩

theorem closes_where_the_count_wraps {count : Nat} (wraps : count % 2 ^ 32 = 0) (positive : 0 < count) :
    ∃ db, coordinationSystem.Reachable db ∧ db.standing "w" = some ("ws", .active) ∧
      ∃ result next, db.finishWork "w" = .ok (result, next) ∧ next.standing "w" = some ("ws", .closed) ∧
        ∃ id intent, next.intent id = some intent ∧ intent.workId = some "w" ∧
          intent.state = .claimed := by
  obtain ⟨stands, length, rows⟩ := stoppedWork_rows count
  obtain ⟨_, found, workspace, isActive⟩ := Coordination.work_of_standing stands
  have read : (stoppedWork count).countState "w" .claimed = 0 := by
    have all : (stoppedWork count).intents.count (Coordination.inState "w" .claimed) = count := by
      refine (List.countP_eq_length.mpr fun row member => ?_).trans length
      simp [Coordination.inState, Coordination.attachedTo, rows row member]
    rw [Coordination.countState, all, wraps]
  have unqueued (delivery : DeliveryPolicy) :
      ¬ 0 < (stoppedWork count).countDelivery "w" .queued delivery := fun waits => by
    obtain ⟨row, member, _, isQueued, _⟩ := Coordination.exists_of_countDelivery waits
    cases isQueued.symm.trans (rows row member).2.1
  obtain ⟨result, next, answered⟩ := Coordination.finishWork_answers found (by rw [isActive]; rfl)
  obtain ⟨_, stored, _, finished⟩ := Coordination.finishWork_ok answered
  cases found.symm.trans stored
  refine ⟨_, stoppedWork_reachable count, stands, result, next, answered, ?_⟩
  cases finished with
  | reading unread =>
      rw [read] at unread
      exact absurd unread (not_or.mpr ⟨Nat.lt_irrefl 0, unqueued _⟩)
  | closing _ _ after => exact absurd after (unqueued _)
  | closed _ _ _ standing intents =>
      obtain ⟨row, member⟩ := List.exists_mem_of_length_pos (length ▸ positive)
      obtain ⟨onWork, isClaimed, delivery, _⟩ := rows row member
      refine ⟨by simp [standing, workspace], row.intentId, row, ?_, onWork, isClaimed⟩
      rw [intents, Coordination.intent_of_mem member, Option.map_some, if_neg]
      simp [isClaimed, delivery, IntentState.isEditable]

/-- With that many claimed notices the counts are zero, and the work is closed with all of them on it. -/
theorem uncounted_notices_stay_on_a_closed_work :
    ∃ db, coordinationSystem.Reachable db ∧ db.standing "w" = some ("ws", .active) ∧
      ∃ result next, db.finishWork "w" = .ok (result, next) ∧ next.standing "w" = some ("ws", .closed) ∧
        ∃ id intent, next.intent id = some intent ∧ intent.workId = some "w" ∧ intent.state = .claimed :=
  closes_where_the_count_wraps (Nat.mod_self (2 ^ 32)) (by decide)

end CodeSpace.Store
