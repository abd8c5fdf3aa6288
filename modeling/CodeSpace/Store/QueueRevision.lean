import CodeSpace.Store.CoordinationHistory

namespace CodeSpace.Store

open Data Domain

/-! `queue_revision`, the number that clients poll: it tells two states of a work's queue apart. -/

variable {db next before after : Coordination} {workId intentId id : String} {work later : Work}
  {touched : Option String} {call : CoordinationCall} {reply : CoordinationReply}
  {trace : List Exchange}

/-- The call bumps the revision of `touched`, if there is such a work, and no other work is changed, nor
an intent that is attached to one. -/
structure Touches (db next : Coordination) (touched : Option String) : Prop where
  works {workId : String} {work : Work} (found : db.works.find? workId = some work) :
    ∃ later, next.works.find? workId = some later ∧
      if touched = some workId then work.queueRevision < later.queueRevision else later = work
  attached {workId : String} (known : (db.works.find? workId).isSome = true)
    (apart : touched ≠ some workId) (id : String) :
    (next.intent id).filter (Coordination.attachedTo workId) =
      (db.intent id).filter (Coordination.attachedTo workId)

namespace Coordination

theorem updateRow_find? {change : Work → Work} (keeps : ∀ row : Work, (change row).workId = row.workId)
    (found : db.works.find? id = some work) :
    (db.works.updateWhere (fun row => row.workId = workId) change keeps).find? id =
      some (if workId = id then change work else work) := by
  have named : work.workId = id := (Table.find?_eq_some.mp found).2
  rw [Table.find?_updateRow, found, Option.map_some, named]
  simp only [eq_comm]

theorem bumpRevision_find? (found : db.works.find? id = some work) :
    (db.bumpRevision workId).works.find? id =
      some (if workId = id then { work with queueRevision := work.queueRevision + 1 } else work) :=
  updateRow_find? (by intro row; rfl) found

theorem bumpAttached_find? (found : db.works.find? workId = some work) :
    (db.bumpAttached touched).works.find? workId =
      some (if touched = some workId then { work with queueRevision := work.queueRevision + 1 }
        else work) := by
  cases touched with
  | none => simp [bumpAttached, found]
  | some =>
      rw [bumpAttached, bumpRevision_find? found]
      simp only [Option.some.injEq]

theorem touches_of_bumped (works : next.works = (db.bumpAttached touched).works)
    (attached : ∀ {workId}, touched ≠ some workId → ∀ id,
      (next.intent id).filter (attachedTo workId) = (db.intent id).filter (attachedTo workId)) :
    Touches db next touched where
  works {workId work} found := by
    refine ⟨_, by rw [works]; exact bumpAttached_find? found, ?_⟩
    split
    · simp
    · rfl
  attached _ apart id := attached apart id

variable {row : UserIntent} {minted : String} {ids : List String}

theorem filter_attachedTo_none (onWork : row.workId = touched)
    (apart : touched ≠ some workId) : (some row).filter (attachedTo workId) = none := by
  simp [attachedTo, onWork, apart]

theorem filter_changed {change : UserIntent → UserIntent} {current : UserIntent}
    (stored : db.intent intentId = some current)
    (same : ∀ id, next.intent id = (db.intent id).map fun row =>
      if row.intentId = intentId then change row else row)
    (onWork : current.workId = touched) (stays : (change current).workId = current.workId)
    (apart : touched ≠ some workId) (id : String) :
    (next.intent id).filter (attachedTo workId) = (db.intent id).filter (attachedTo workId) := by
  rw [same]
  by_cases named : id = intentId
  · have isCurrent : current.intentId = intentId := intentId_of_intent stored
    rw [named, stored, Option.map_some, if_pos isCurrent, filter_attachedTo_none (stays.trans onWork) apart,
      filter_attachedTo_none onWork apart]
  · cases found : db.intent id with
    | none => rfl
    | some row =>
        have isOther : row.intentId = id := intentId_of_intent found
        rw [Option.map_some, if_neg (isOther ▸ named)]

theorem filter_inserted {created : UserIntent} (fresh : db.intent minted = none)
    (same : ∀ id, next.intent id = if id = minted then some created else db.intent id)
    (onWork : created.workId = touched) (apart : touched ≠ some workId) (id : String) :
    (next.intent id).filter (attachedTo workId) = (db.intent id).filter (attachedTo workId) := by
  rw [same]
  split
  next isMinted =>
    rw [isMinted, fresh, filter_attachedTo_none onWork apart]
    rfl
  · rfl

theorem renumbered_of_notMem (unlisted : row.intentId ∉ ids)
    (start : Nat) : renumbered (ids.zipIdx start) row = row.position := by
  unfold renumbered
  induction ids generalizing start with
  | nil => rfl
  | cons _ _ ih =>
      rw [List.mem_cons, not_or] at unlisted
      rw [List.zipIdx_cons, List.foldl_cons, if_neg (Ne.symm unlisted.1)]
      exact ih unlisted.2 (start + 1)

theorem reorderQueued_touches {result : List UserIntent}
    (answered : db.reorderQueued workId ids = .ok (result, next)) : Touches db next (some workId) := by
  obtain ⟨_, listed, works, intents⟩ := reorderQueued_ok answered
  refine touches_of_bumped works fun {other} apart id => ?_
  rw [intents]
  cases found : db.intent id with
  | none => rfl
  | some row =>
      have named := intentId_of_intent found
      rw [Option.map_some]
      by_cases inList : id ∈ ids
      · obtain ⟨stored, isStored, onWork, isQueued⟩ := mem_waiting.mp (listed id inList)
        obtain rfl : stored = row := Option.some.inj (isStored.symm.trans found)
        rw [if_pos isQueued, filter_attachedTo_none onWork apart]
        exact filter_attachedTo_none onWork apart
      · rw [renumbered_of_notMem (named ▸ inList), ite_self]

theorem openWork_touches {workspaceId : String} {title : Option String} {result : WorkOpenResult}
    (answered : db.openWork workspaceId title minted = .ok (result, next)) :
    Touches db next (some minted) := by
  have spec := openWork_ok answered
  have fresh : db.works.find? minted = none := by simpa [standing] using spec.1
  refine ⟨fun {workId work} found => ?_, fun {workId} known apart id => ?_⟩
  · have other : workId ≠ minted := by
      rintro rfl
      simp [found] at fresh
    unfold openWork at answered
    split at answered
    · contradiction
    next works inserted =>
      cases answered
      have kept : works.find? workId = some work := by
        rw [Table.find?_insert? inserted, if_neg other, found]
      refine ⟨work, ?_, ?_⟩
      · rw [show ∀ db : Coordination, db.bumpRevision minted = db.bumpAttached (some minted) from
          fun _ => rfl, bumpAttached_find? kept, if_neg (by simpa using Ne.symm other)]
      · rw [if_neg (by simpa using Ne.symm other)]
  · rw [spec.2.2.2]
    cases found : db.intent id with
    | none => rfl
    | some =>
        rw [Option.map_some]
        split
        next selected =>
          simp only [Bool.and_eq_true, decide_eq_true_eq] at selected
          rw [filter_attachedTo_none rfl apart, filter_attachedTo_none selected.1.2 (by simp)]
        · rfl

theorem finishWork_touches {result : WorkFinishResult}
    (answered : db.finishWork workId = .ok (result, next)) :
    next = db ∨ Touches db next (some workId) := by
  obtain ⟨_, _, rest⟩ := bind_eq_ok.mp answered
  split at rest
  · dsimp only at rest
    split at rest
    · cases rest
      exact .inl rfl
    split at rest
    · split at rest
      · cases rest
        refine .inr ⟨fun {id row} found =>
          ⟨_, bumpRevision_find? (updateRow_find? (by intro row; rfl) found), ?_⟩, fun _ _ _ => rfl⟩
        by_cases same : workId = id <;> simp [same]
      · cases rest
        exact .inl rfl
    · cases rest
      refine .inr ⟨fun {id row} found => ⟨_, updateRow_find? (by intro row; rfl) found, ?_⟩,
        fun {other} _ apart id => ?_⟩
      · by_cases same : workId = id <;> simp [same]
      · rw [intent, Table.find?_updateWhere, ← intent]
        cases db.intent id with
        | none => rfl
        | some row =>
            rw [Option.map_some]
            split
            next selected =>
              have onWork : row.workId = some workId := by
                simp only [attachedTo, Bool.and_eq_true, decide_eq_true_eq] at selected
                exact selected.1
              rw [filter_attachedTo_none onWork apart]
              exact filter_attachedTo_none rfl (by simp)
            · rfl
  · contradiction

/-- Every answered call, with the work whose revision it bumps. -/
theorem perform_touches (answered : db.perform call = .ok (reply, next)) :
    next = db ∨ ∃ touched, Touches db next touched := by
  cases perform_cases answered with
  | opened _ replied => exact .inr ⟨_, openWork_touches replied⟩
  | added _ fresh _ _ _ works intents =>
      exact .inr ⟨_, touches_of_bumped works (filter_inserted fresh intents rfl)⟩
  | changed _ stored _ stays works intents =>
      exact .inr ⟨_, touches_of_bumped works (filter_changed stored intents rfl stays.1)⟩
  | reordered _ replied => exact .inr ⟨_, reorderQueued_touches replied⟩
  | finished _ replied => exact (finishWork_touches replied).imp_right fun touches => ⟨_, touches⟩
  | unchanged _ same => exact .inl same

end Coordination

/-! What a poll of one work sees. -/

/-- What a poll of a work shows: its state and the counts of its intents, before their casts. -/
structure QueueView where
  state : WorkState
  queued : Nat
  claimed : Nat
  claimable : Nat
  pendingUserItems : Nat
deriving DecidableEq, Repr

namespace Coordination

def view (db : Coordination) (work : Work) : QueueView where
  state := work.state
  queued := db.intents.count (inState work.workId .queued)
  claimed := db.intents.count (inState work.workId .claimed)
  claimable := db.intents.count (claimable work.workId work.state)
  pendingUserItems := db.intents.count (pends work.workId)

theorem count_attached {test : UserIntent → Bool}
    (onWork : ∀ intent, test intent = true → attachedTo workId intent = true)
    (same : ∀ id, (next.intent id).filter (attachedTo workId) = (db.intent id).filter (attachedTo workId)) :
    next.intents.count test = db.intents.count test := by
  refine Table.count_congr fun id => ?_
  have narrowed (stored : Option UserIntent) :
      stored.filter test = (stored.filter (attachedTo workId)).filter test := by
    rw [Option.filter_filter]
    congr 1
    funext intent
    cases tested : test intent with
    | false => simp
    | true => simp [onWork intent tested]
  have view := same id
  rw [intent, intent] at view
  rw [narrowed, view, ← narrowed]

theorem view_of_attached (same : ∀ id, (next.intent id).filter (attachedTo work.workId) =
      (db.intent id).filter (attachedTo work.workId)) :
    next.view work = db.view work := by
  have states (state : IntentState) :
      next.intents.count (inState work.workId state) = db.intents.count (inState work.workId state) :=
    count_attached (by simp +contextual [inState]) same
  have claimables : next.intents.count (claimable work.workId work.state) =
      db.intents.count (claimable work.workId work.state) :=
    count_attached (by simp +contextual [claimable]) same
  have pending : next.intents.count (pends work.workId) = db.intents.count (pends work.workId) :=
    count_attached (by simp +contextual [pends]) same
  simp [view, states, claimables, pending]

theorem steerStatus_of_find? (found : db.works.find? workId = some work) :
    db.steerStatus workId = .ok ⟨workId, work.state, db.countState workId .queued,
      db.countState workId .claimed, db.countClaimable workId work.state, work.queueRevision⟩ := by
  have named : work.workId = workId := (Table.find?_eq_some.mp found).2
  rw [steerStatus, loadWork_eq_ok.mpr found, ← named]
  rfl

theorem steerStatus_of_view (found : db.works.find? workId = some work)
    (kept : next.works.find? workId = some later) (same : next.view later = db.view work)
    (revision : later.queueRevision = work.queueRevision) :
    next.steerStatus workId = db.steerStatus workId := by
  have named : work.workId = workId := (Table.find?_eq_some.mp found).2
  have laterNamed : later.workId = workId := (Table.find?_eq_some.mp kept).2
  simp only [view, QueueView.mk.injEq, named, laterNamed] at same
  obtain ⟨sameState, queued, claimed, claimables, _⟩ := same
  rw [sameState] at claimables
  rw [steerStatus_of_find? found, steerStatus_of_find? kept, countState, countState, countState,
    countState, countClaimable, countClaimable, queued, claimed, sameState, claimables, revision]

end Coordination

/-- The work of one state in a later one: the revision does not fall, and while it stands the view does. -/
structure Followed (before after : Coordination) (work later : Work) : Prop where
  stored : after.works.find? work.workId = some later
  le : work.queueRevision ≤ later.queueRevision
  view : later.queueRevision = work.queueRevision → after.view later = before.view work

theorem Followed.trans {middle : Work} (first : Followed before db work middle)
    (second : Followed db after middle later) : Followed before after work later where
  stored := by
    have named : middle.workId = work.workId := (Table.find?_eq_some.mp first.stored).2
    rw [← named]
    exact second.stored
  le := first.le.trans second.le
  view same := by
    have unmoved : middle.queueRevision = work.queueRevision :=
      Nat.le_antisymm (same ▸ second.le) first.le
    rw [second.view (same.trans unmoved.symm), first.view unmoved]

theorem coordination_step_followed {exchange : Exchange}
    (step : coordinationSystem.step before exchange after)
    (found : before.works.find? work.workId = some work) : ∃ later, Followed before after work later := by
  rcases coordination_step_cases step with ⟨reply, _, answered⟩ | ⟨error, _, rfl⟩
  · rcases Coordination.perform_touches answered with rfl | ⟨touched, touches⟩
    · exact ⟨work, found, Nat.le_refl _, fun _ => rfl⟩
    · obtain ⟨later, kept, moved⟩ := touches.works found
      by_cases isTouched : touched = some work.workId
      · rw [if_pos isTouched] at moved
        exact ⟨later, kept, moved.le, fun same => absurd same moved.ne'⟩
      · rw [if_neg isTouched] at moved
        subst moved
        exact ⟨later, kept, Nat.le_refl _, fun _ =>
          Coordination.view_of_attached (touches.attached (by simp [found]) isTouched)⟩
  · exact ⟨work, found, Nat.le_refl _, fun _ => rfl⟩

theorem coordination_run_followed (run : coordinationSystem.Run before trace after)
    (found : before.works.find? work.workId = some work) : ∃ later, Followed before after work later := by
  induction run generalizing work with
  | refl => exact ⟨work, found, Nat.le_refl _, fun _ => rfl⟩
  | cons step _ ih =>
      obtain ⟨middle, first⟩ := coordination_step_followed step found
      have named : middle.workId = work.workId := (Table.find?_eq_some.mp first.stored).2
      obtain ⟨later, second⟩ := ih (named ▸ first.stored)
      exact ⟨later, first.trans second⟩

/-- The revision of a work never falls; it grows with every change of what is shown of the work, so two
polls with the same revision got the same answer. -/
theorem queue_revision_tells_changes (run : coordinationSystem.Run before trace after)
    (found : before.works.find? workId = some work) :
    ∃ later, after.works.find? workId = some later ∧ work.queueRevision ≤ later.queueRevision ∧
      (after.view later ≠ before.view work → work.queueRevision < later.queueRevision) ∧
      (later.queueRevision = work.queueRevision →
        after.steerStatus workId = before.steerStatus workId) := by
  have named : work.workId = workId := (Table.find?_eq_some.mp found).2
  obtain ⟨later, followed⟩ := coordination_run_followed run (named.symm ▸ found)
  have kept : after.works.find? workId = some later := named ▸ followed.stored
  refine ⟨later, kept, followed.le, fun changed => ?_, fun same => ?_⟩
  · exact lt_of_le_of_ne followed.le fun same => changed (followed.view same.symm)
  · exact Coordination.steerStatus_of_view found kept (followed.view same) same

/-- A work with one draft. -/
def oneDraft : Coordination :=
  (({} : Coordination).replay [.openWork "ws" none "w",
    .createDraft "w" ⟨"look at the logs", .note, .nextCheckpoint⟩ "a"]).2

theorem queueing_a_draft_bumps_the_revision : ∃ work later, oneDraft.works.find? "w" = some work ∧
      (oneDraft.replay [.queueIntent "a" 1]).2.works.find? "w" = some later ∧
      work.queueRevision < later.queueRevision := by
  have found : oneDraft.works.find? "w" = some ⟨"w", "ws", none, .active, 2⟩ := by decide +kernel
  obtain ⟨later, kept, _, grows, _⟩ :=
    queue_revision_tells_changes (oneDraft.run_replay [.queueIntent "a" 1]) found
  refine ⟨_, later, found, kept, grows fun same => ?_⟩
  have counts := congrArg QueueView.queued same
  have named : later.workId = "w" := (Table.find?_eq_some.mp kept).2
  simp only [Coordination.view, named] at counts
  exact absurd counts (by decide +kernel)

end CodeSpace.Store
