import CodeSpace.Store.CoordinationSteps

namespace CodeSpace.Store

open Data Domain

/-! What a whole history of calls says about one intent: its lifecycle, the text a claim returns,
and which edits were accepted. -/

inductive IntentMove : IntentState → IntentState → Prop
  | stays (state : IntentState) : IntentMove state state
  | queue : IntentMove .draft .queued
  | claim : IntentMove .queued .claimed
  | complete : IntentMove .claimed .done
  | block : IntentMove .claimed .blocked
  | withdraw : IntentMove .draft .cancelled
  | cancel : IntentMove .queued .cancelled

/-- The states of an intent whose body was handed out, or never needs to be. -/
def wasRead : IntentState → Bool
  | .claimed | .done | .blocked => true
  | _ => false

namespace Exchange

/-- The body this exchange wrote to an intent: by its creation or by a successful edit. -/
def written (id : String) (exchange : Exchange) : Option String :=
  match exchange.reply with
  | .ok _ => exchange.call.writes id
  | .error _ => none

/-- A `claim_next` that returned this intent. -/
def claims (id : String) (exchange : Exchange) : Bool :=
  match exchange.reply with
  | .ok (.claimed (some item)) => item.intentId = id
  | _ => false

/-- A successful `edit_intent` or `queue_intent` of this intent at this revision. -/
def revises (id : String) (revision : Nat) (exchange : Exchange) : Bool :=
  match exchange.call, exchange.reply with
  | .editIntent intentId expected _ _, .ok _ => intentId = id ∧ expected = revision
  | .queueIntent intentId expected, .ok _ => intentId = id ∧ expected = revision
  | _, _ => false

end Exchange

def lastBody (id : String) (trace : List Exchange) : Option String :=
  trace.reverse.findSome? (Exchange.written id)

theorem lastBody_append {id : String} {trace : List Exchange} {exchange : Exchange} :
    lastBody id (trace ++ [exchange]) = (exchange.written id).or (lastBody id trace) := by
  rw [lastBody, List.reverse_append, List.reverse_singleton, List.singleton_append, List.findSome?_cons]
  cases exchange.written id <;> rfl

variable {call : CoordinationCall} {earlier later : UserIntent} {db next before after : Coordination}
  {id : String} {exchange other : Exchange} {trace : List Exchange} {state : IntentState}
  {revision : Nat}

/-! One step. -/

theorem IntentMove.of_isEditable (editable : state.isEditable = true) : IntentMove state .cancelled := by
  cases state with
  | draft => exact .withdraw
  | queued => exact .cancel
  | _ => contradiction

theorem IntentMove.of_outcome (outcome : SteerOutcome) : IntentMove .claimed outcome.intentState := by
  cases outcome with
  | done => exact .complete
  | blocked => exact .block

theorem wasRead_intentState (outcome : SteerOutcome) : wasRead outcome.intentState = true := by
  cases outcome <;> rfl

theorem wasRead_false_of_isEditable (editable : state.isEditable = true) : wasRead state = false := by
  cases state <;> first | rfl | contradiction

section

variable (step : IntentStep call earlier later)
include step

theorem IntentStep.moves : IntentMove earlier.state later.state := by
  cases step with
  | kept | attached | edited | reordered | detached => exact .stays _
  | queued draft =>
      rw [draft]
      exact .queue
  | claimed waiting =>
      rw [waiting]
      exact .claim
  | completed read =>
      rw [read]
      exact .of_outcome _
  | cancelled editable => exact .of_isEditable editable

theorem IntentStep.revision_le : earlier.revision ≤ later.revision := by
  cases step with
  | attached | edited | queued => exact Nat.le_succ _
  | _ => exact Nat.le_refl _

theorem IntentStep.body : some later.body = (call.writes earlier.intentId).or (some earlier.body) := by
  cases step with
  | kept unwritten => rw [unwritten, Option.none_or]
  | edited => simp [CoordinationCall.writes]
  | _ => rfl

/-- A read intent stays read, with the body it was read with. -/
theorem IntentStep.keeps_read (read : wasRead earlier.state = true) :
    wasRead later.state = true ∧ later.body = earlier.body := by
  cases step with
  | kept | attached | reordered | detached => exact ⟨read, rfl⟩
  | claimed => exact ⟨rfl, rfl⟩
  | completed => exact ⟨wasRead_intentState _, rfl⟩
  | queued draft =>
      rw [draft] at read
      contradiction
  | edited editable | cancelled editable =>
      rw [wasRead_false_of_isEditable editable] at read
      contradiction

end

theorem Coordination.IntentCreated.body {intent : UserIntent} (isNew : IntentCreated db call intent) :
    call.writes intent.intentId = some intent.body := by
  cases isNew <;> simp [CoordinationCall.writes]

section

variable (step : coordinationSystem.step before exchange after)
include step

theorem coordination_step_cases :
    (∃ reply, exchange.reply = .ok reply ∧ before.perform exchange.call = .ok (reply, after)) ∨
      ∃ error, exchange.reply = .error error ∧ after = before := by
  simp only [coordinationSystem] at step
  split at step
  next reply _ answered =>
    obtain ⟨replied, rfl⟩ := step
    exact .inl ⟨reply, replied, answered⟩
  next error _ => exact .inr ⟨error, step⟩

theorem coordination_step_intent (stored : before.intent id = some earlier) :
    ∃ later, after.intent id = some later ∧
      (IntentStep exchange.call earlier later ∨ later = earlier) := by
  rcases coordination_step_cases step with ⟨reply, _, answered⟩ | ⟨error, _, rfl⟩
  · have outcome := Coordination.perform_intent answered id
    rw [stored] at outcome
    generalize after.intent id = found at outcome
    cases outcome with
    | stepped moved => exact ⟨_, rfl, .inl moved⟩
  · exact ⟨earlier, stored, .inr rfl⟩

theorem coordination_step_body (id : String) : (after.intent id).map UserIntent.body =
      (exchange.written id).or ((before.intent id).map UserIntent.body) := by
  rcases coordination_step_cases step with ⟨reply, replied, answered⟩ | ⟨error, refused, rfl⟩
  · have outcome := Coordination.perform_intent answered id
    have named : ∀ {intent}, before.intent id = some intent → intent.intentId = id :=
      Coordination.intentId_of_intent
    simp only [Exchange.written, replied]
    generalize before.intent id = old at outcome named
    generalize after.intent id = found at outcome
    cases outcome with
    | absent unwritten => simp [unwritten]
    | created isNamed isNew =>
        have body := isNew.body
        rw [isNamed] at body
        rw [body, Option.map_some, Option.some_or]
    | stepped moved => simpa [named rfl] using moved.body
  · simp [Exchange.written, refused]

/-- A returned item was queued just before, and is read just after. -/
theorem coordination_step_claims
    {item : ClaimedIntent} (returned : exchange.reply = .ok (.claimed (some item))) :
    ∃ intent, before.intent item.intentId = some intent ∧ intent.state = .queued ∧
      intent.body = item.content ∧ intent.revision = item.revision ∧
      after.intent item.intentId = some { intent with state := .claimed } := by
  rcases coordination_step_cases step with ⟨reply, replied, answered⟩ | ⟨error, refused, _⟩
  · cases Except.ok.inj (replied.symm.trans returned)
    cases called : exchange.call with
    | claimNext =>
        rw [called] at answered
        obtain ⟨result, claimed, same⟩ := map_answer_eq_ok.mp answered
        cases same
        obtain ⟨work, _, _, ⟨nothing, _, _⟩ | ⟨selected, stored, isClaimable, same, _, intents⟩⟩ :=
          Coordination.claimNext_ok claimed
        · contradiction
        · cases same
          refine ⟨selected, stored, (Coordination.claimable_iff.mp isClaimable).2.1, rfl, rfl, ?_⟩
          simp [intents, stored]
    | _ =>
        rw [called] at answered
        obtain ⟨_, _, _⟩ := map_answer_eq_ok.mp answered
        contradiction
  · cases refused.symm.trans returned

/-- An accepted edit names the revision it finds and leaves a higher one. -/
theorem coordination_step_revises (revised : exchange.revises id revision = true) :
    (∃ intent, before.intent id = some intent ∧ intent.revision = revision) ∧
      ∃ intent, after.intent id = some intent ∧ revision < intent.revision := by
  rcases coordination_step_cases step with ⟨reply, replied, answered⟩ | ⟨error, refused, _⟩
  · cases called : exchange.call with
    | editIntent intentId expected =>
        obtain ⟨rfl, rfl⟩ : intentId = id ∧ expected = revision := by
          simpa [Exchange.revises, called, replied] using revised
        rw [called] at answered
        obtain ⟨result, edited, _⟩ := map_answer_eq_ok.mp answered
        obtain ⟨current, stored, _, same, _, intents⟩ := Coordination.editIntent_ok edited
        refine ⟨⟨current, stored, same⟩, ?_⟩
        simp [intents, stored, Coordination.intentId_of_intent stored, same]
    | queueIntent intentId expected =>
        obtain ⟨rfl, rfl⟩ : intentId = id ∧ expected = revision := by
          simpa [Exchange.revises, called, replied] using revised
        rw [called] at answered
        obtain ⟨_, queued, _⟩ := map_answer_eq_ok.mp answered
        obtain ⟨current, stored, _, same, _, intents⟩ := Coordination.queueIntent_ok queued
        refine ⟨⟨current, stored, same⟩, ?_⟩
        simp [intents, stored, Coordination.intentId_of_intent stored, same]
    | _ => simp [Exchange.revises, called] at revised
  · simp only [Exchange.revises, refused] at revised
    split at revised <;> contradiction

end

/-! A whole history. -/

/-- What the calls so far say about the stored intents. -/
structure Recorded (trace : List Exchange) (db : Coordination) : Prop where
  body (id : String) : (db.intent id).map UserIntent.body = lastBody id trace
  claimed {exchange : Exchange} {id : String} (past : exchange ∈ trace)
    (claims : exchange.claims id = true) :
    ∃ intent, db.intent id = some intent ∧ wasRead intent.state = true
  revised {exchange : Exchange} {id : String} {revision : Nat} (past : exchange ∈ trace)
    (revises : exchange.revises id revision = true) :
    ∃ intent, db.intent id = some intent ∧ revision < intent.revision

theorem Exchange.exists_of_claims (claims : exchange.claims id = true) :
    ∃ item, exchange.reply = .ok (.claimed (some item)) ∧ item.intentId = id := by
  unfold Exchange.claims at claims
  split at claims
  next item returned => exact ⟨item, returned, by simpa using claims⟩
  · contradiction

theorem coordination_step_keeps_read {body : String}
    (step : coordinationSystem.step before exchange after)
    (read : ∃ intent, before.intent id = some intent ∧ wasRead intent.state = true ∧ intent.body = body) :
    ∃ intent, after.intent id = some intent ∧ wasRead intent.state = true ∧ intent.body = body := by
  obtain ⟨_, stored, isRead, rfl⟩ := read
  obtain ⟨later, found, moved | rfl⟩ := coordination_step_intent step stored
  · exact ⟨later, found, moved.keeps_read isRead⟩
  · exact ⟨later, found, isRead, rfl⟩

theorem Recorded.step (recorded : Recorded trace before)
    (step : coordinationSystem.step before exchange after) :
    Recorded (trace ++ [exchange]) after where
  body id := by rw [coordination_step_body step, recorded.body, lastBody_append]
  claimed {past id} member claims := by
    rcases List.mem_append.mp member with old | new
    · obtain ⟨intent, stored, isRead⟩ := recorded.claimed old claims
      obtain ⟨later, found, stillRead, _⟩ :=
        coordination_step_keeps_read step ⟨intent, stored, isRead, rfl⟩
      exact ⟨later, found, stillRead⟩
    · rw [List.mem_singleton.mp new] at claims
      obtain ⟨_, returned, rfl⟩ := Exchange.exists_of_claims claims
      obtain ⟨intent, _, _, _, _, found⟩ := coordination_step_claims step returned
      exact ⟨_, found, rfl⟩
  revised {past id revision} member revises := by
    rcases List.mem_append.mp member with old | new
    · obtain ⟨_, stored, below⟩ := recorded.revised old revises
      obtain ⟨later, found, moved | rfl⟩ := coordination_step_intent step stored
      · exact ⟨later, found, Nat.lt_of_lt_of_le below moved.revision_le⟩
      · exact ⟨later, found, below⟩
    · rw [List.mem_singleton.mp new] at revises
      exact (coordination_step_revises step revises).2

theorem recorded_of_run (run : coordinationSystem.Run {} trace db) : Recorded trace db := by
  have start : Recorded [] {} := ⟨fun _ => rfl, by simp, by simp⟩
  simpa using run.records Recorded (fun recorded step => recorded.step step) start

theorem Recorded.unclaimed (recorded : Recorded trace before)
    (step : coordinationSystem.step before exchange after) (claims : exchange.claims id = true)
    (past : other ∈ trace) : other.claims id = false := by
  refine Bool.eq_false_iff.mpr fun claimed => ?_
  obtain ⟨_, stored, isRead⟩ := recorded.claimed past claimed
  obtain ⟨_, returned, rfl⟩ := Exchange.exists_of_claims claims
  obtain ⟨_, present, waiting, _⟩ := coordination_step_claims step returned
  cases stored.symm.trans present
  rw [waiting] at isRead
  contradiction

theorem Recorded.unrevised (recorded : Recorded trace before)
    (step : coordinationSystem.step before exchange after)
    (revises : exchange.revises id revision = true) (past : other ∈ trace) :
    other.revises id revision = false := by
  refine Bool.eq_false_iff.mpr fun revised => ?_
  obtain ⟨_, stored, below⟩ := recorded.revised past revised
  obtain ⟨⟨_, present, same⟩, _⟩ := coordination_step_revises step revises
  cases stored.symm.trans present
  exact absurd same (Nat.ne_of_gt below)

/-- A fact of two exchanges of one run that excludes the second after the first. -/
theorem excluded_later {test : Exchange → Bool} {rest : List Exchange}
    (run : coordinationSystem.Run {} trace before)
    (step : coordinationSystem.step before exchange after)
    (continued : coordinationSystem.Run after rest db) (passes : test exchange = true)
    (exclusive : ∀ {trace before after exchange}, Recorded trace before →
      coordinationSystem.step before exchange after → test exchange = true →
      ∀ {other}, other ∈ trace → test other = false) :
    ∀ other ∈ trace ++ rest, test other = false := by
  intro other member
  rcases List.mem_append.mp member with past | future
  · exact exclusive (recorded_of_run run) step passes past
  · obtain ⟨_, _, rfl⟩ := List.append_of_mem future
    obtain ⟨_, soFar, continued⟩ := continued.split
    cases continued with
    | cons head =>
        refine Bool.eq_false_iff.mpr fun again => ?_
        have recorded := recorded_of_run (run.append (.cons step soFar))
        have first := exclusive recorded head again
          (List.mem_append_right trace (List.mem_cons_self (a := exchange)))
        cases passes.symm.trans first

/-- How an intent can start: as a draft, or as a stop notice, which a work that is still open has
already read. -/
def StartsAs (db : Coordination) (call : CoordinationCall) (intent : UserIntent) : Prop :=
  intent.state = .draft ∨ ∃ workId reason workspaceId state,
    call = .insertStopNotice workId reason intent.intentId ∧
    db.standing workId = some (workspaceId, state) ∧
    intent.state = if state.isOpen then .claimed else .queued

theorem coordination_step_starts (step : coordinationSystem.step before exchange after)
    (absent : before.intent id = none) (stored : after.intent id = some later) :
    StartsAs before exchange.call later := by
  rcases coordination_step_cases step with ⟨reply, _, answered⟩ | ⟨error, _, rfl⟩
  · have outcome := Coordination.perform_intent answered id
    rw [absent, stored] at outcome
    generalize exchange.call = call at outcome
    cases outcome with
    | created _ isNew =>
        cases isNew with
        | draft => exact .inl rfl
        | stopNotice onWork =>
            exact .inr ⟨_, _, _, _, rfl, Coordination.standing_of_find? onWork, rfl⟩
  · cases absent.symm.trans stored

/-- At any step of any history: intents only move along their lifecycle; an item `claim_next`
returns was queued, is returned by no other call, and carries the body written last, which no later
call changes; and an edit is accepted once for each revision. -/
theorem intent_is_claimed_once_with_its_last_body {rest : List Exchange}
    (run : coordinationSystem.Run {} trace before)
    (step : coordinationSystem.step before exchange after)
    (continued : coordinationSystem.Run after rest db) :
    (∀ id intent, before.intent id = some intent →
      ∃ moved, after.intent id = some moved ∧ IntentMove intent.state moved.state) ∧
    (∀ id intent, before.intent id = none → after.intent id = some intent →
      StartsAs before exchange.call intent) ∧
    (∀ item, exchange.reply = .ok (.claimed (some item)) →
      (∀ other ∈ trace ++ rest, other.claims item.intentId = false) ∧
      (∃ intent, before.intent item.intentId = some intent ∧ intent.state = .queued) ∧
      lastBody item.intentId trace = some item.content ∧
      (∃ intent, db.intent item.intentId = some intent ∧ intent.body = item.content) ∧
      lastBody item.intentId (trace ++ exchange :: rest) = some item.content) ∧
    ∀ id revision, exchange.revises id revision = true →
      ∀ other ∈ trace ++ rest, other.revises id revision = false := by
  refine ⟨fun id intent stored => ?_, fun id intent absent stored => ?_, fun item returned => ?_,
    fun id revision revises => ?_⟩
  · obtain ⟨moved, found, stepped | rfl⟩ := coordination_step_intent step stored
    · exact ⟨moved, found, stepped.moves⟩
    · exact ⟨moved, found, .stays _⟩
  · exact coordination_step_starts step absent stored
  · obtain ⟨intent, stored, waiting, content, _, read⟩ := coordination_step_claims step returned
    have claims : exchange.claims item.intentId = true := by simp [Exchange.claims, returned]
    have written := (recorded_of_run run).body item.intentId
    rw [stored, Option.map_some, content] at written
    obtain ⟨final, found, _, kept⟩ := continued.keeps _
      (fun step read => coordination_step_keeps_read step read) ⟨_, read, rfl, content⟩
    have whole := (recorded_of_run (run.append (.cons step continued))).body item.intentId
    rw [found, Option.map_some, kept] at whole
    exact ⟨excluded_later run step continued claims
        fun recorded step claims _ past => recorded.unclaimed step claims past,
      ⟨intent, stored, waiting⟩, written.symm, ⟨final, found, kept⟩, whole.symm⟩
  · exact excluded_later run step continued revises
      fun recorded step revises _ past => recorded.unrevised step revises past

/-- A draft that was edited once and queued is returned with the edited body. -/
theorem edited_draft_is_claimed_with_its_last_body :
    let calls : List CoordinationCall := [.openWork "space" none "work",
      .createDraft "work" ⟨"first", .followUp, .nextCheckpoint⟩ "intent",
      .editIntent "intent" 1 "second" none, .queueIntent "intent" 2]
    let before := Coordination.replay {} calls
    (before.2.answer (.claimNext "work" 0)).1.reply =
      .ok (.claimed (some ⟨"intent", 3, .followUp, .nextCheckpoint, "second"⟩)) ∧
    lastBody "intent" before.1 = some "second" := by
  intro calls before
  have returned : (before.2.answer (.claimNext "work" 0)).1.reply =
      .ok (.claimed (some ⟨"intent", 3, .followUp, .nextCheckpoint, "second"⟩)) := rfl
  have history := intent_is_claimed_once_with_its_last_body (Coordination.run_replay {} calls)
    (Coordination.step_answer before.2 (.claimNext "work" 0)) (.refl _)
  exact ⟨returned, (history.2.2.1 _ returned).2.2.1⟩

end CodeSpace.Store
