import CodeSpace.Store.ApprovalSteps

namespace CodeSpace.Store

open Data Domain

/-! The life of an approval: which parts of its row go with which state, and what a finished resume
leaves for the next one. -/

variable {before after approvals : Approvals} {row next : ApprovalRow}
  {id fingerprint workspaceId : String} {start store last : ApprovalStore} {trace later : List Answered}
  {outcome : Except ErrorBody OperationResumeResult} {failNext : Bool}

def ApprovalState.isFinal (state : ApprovalState) : Prop :=
  state = .denied ∨ state = .consumed

theorem RowStep.of_final (step : RowStep row next) (final : ApprovalState.isFinal row.state) :
    next = row := by
  unfold ApprovalState.isFinal at final
  cases step with
  | kept => rfl
  | granted _ state | denied _ state | queued state | marked state | returned state =>
      simp [state] at final
  | consumed _ state => rcases state with state | state <;> simp [state] at final

theorem RowStep.holds (step : RowStep row next)
    (active : Approvals.holds workspaceId fingerprint next = true) :
    Approvals.holds workspaceId fingerprint row = true := by
  simp only [Approvals.holds, Bool.and_eq_true, decide_eq_true_eq] at active ⊢
  cases step with
  | kept => exact active
  | granted _ state | queued state | marked state | returned state =>
      exact ⟨active.1, by rw [state]; rfl⟩
  | denied | consumed =>
      have inactive := active.2
      contradiction

structure ApprovalRow.Sound (row : ApprovalRow) : Prop where
  result : row.resultJson.isSome = true ↔ row.state = .consumed
  readable : row.state = .consumed →
    ∃ outcome, row.resultJson = some (PersistedResume.codec.encode (.of outcome))
  params : ApprovalState.isFinal row.state → row.paramsJson = row.scrubbed

variable {admits : ApprovalRow → Prop}

theorem Opened.live (opened : Opened admits before row) : ¬ ApprovalState.isFinal row.state := by
  simp [ApprovalState.isFinal, opened.state]

theorem Opened.sound (opened : Opened admits before row) : row.Sound where
  result := by simp [opened.result, opened.state]
  readable consumed := by
    rw [opened.state] at consumed
    contradiction
  params final := absurd final opened.live

/-- A change of state among those that are not final. -/
theorem ApprovalRow.Sound.restate (sound : row.Sound) (live : ¬ ApprovalState.isFinal row.state)
    {state : ApprovalState} {resolvedAt : Option Nat} (alsoLive : ¬ ApprovalState.isFinal state) :
    { row with state := state, resolvedAt := resolvedAt }.Sound where
  result := by
    have open_ : ¬ row.state = .consumed := fun consumed => live (.inr consumed)
    have alsoOpen : ¬ state = .consumed := fun consumed => alsoLive (.inr consumed)
    simp only [sound.result, open_, alsoOpen]
  readable consumed := absurd (.inr consumed) alsoLive
  params final := absurd final alsoLive

theorem RowStep.sound (step : RowStep row next) (sound : row.Sound) : next.Sound := by
  cases step with
  | kept => exact sound
  | granted _ state | queued state | marked state | returned state =>
      exact sound.restate (by simp [ApprovalState.isFinal, state]) (by simp [ApprovalState.isFinal])
  | denied _ state =>
      have unfinished : row.resultJson.isSome = false := by
        have result := sound.result
        simpa [state] using result
      exact ⟨by simp [unfinished], nofun, fun _ => rfl⟩
  | consumed outcome =>
      exact ⟨by simp [ApprovalRow.consumedBy], fun _ => ⟨outcome, rfl⟩, fun _ => rfl⟩

theorem RowStep.creating (step : RowStep row next) (live : ¬ ApprovalState.isFinal next.state) :
    ApprovalStore.creating next = ApprovalStore.creating row ∧ ¬ ApprovalState.isFinal row.state := by
  cases step with
  | kept => exact ⟨rfl, live⟩
  | granted _ state | queued state | marked state | returned state =>
      exact ⟨rfl, by simp [ApprovalState.isFinal, state]⟩
  | denied => exact absurd (.inl rfl) live
  | consumed => exact absurd (.inr rfl) live

/-- Every row is sound, and no two active ones are for the same request. -/
structure Approvals.Sound (approvals : Approvals) : Prop where
  rows {id : String} {row : ApprovalRow} (stored : approvals.find? id = some row) : row.Sound
  single {id other : String} {row next : ApprovalRow} {workspaceId fingerprint : String}
    (stored : approvals.find? id = some row) (alsoStored : approvals.find? other = some next)
    (active : holds workspaceId fingerprint row = true)
    (alsoActive : holds workspaceId fingerprint next = true) : id = other

theorem Opened.alone_of_holds (opened : Opened admits before next)
    (active : Approvals.holds workspaceId fingerprint next = true) (stored : before.find? id = some row) :
    Approvals.holds workspaceId fingerprint row = false := by
  have free := List.find?_eq_none.mp opened.alone row (Table.find?_eq_some.mp stored).1
  simp only [Approvals.holds, Bool.and_eq_true, decide_eq_true_eq] at active
  rw [active.1.1, active.1.2] at free
  simpa using free

theorem Approvals.Sound.step (sound : Approvals.Sound before) (step : RowsStep admits before after) :
    Approvals.Sound after where
  rows stored := by
    rcases step.known stored with ⟨row, old, moved⟩ | ⟨_, opened⟩
    · exact moved.sound (sound.rows old)
    · exact opened.sound
  single {id other row next workspaceId fingerprint} stored alsoStored active alsoActive := by
    rcases step.known stored with ⟨old, found, moved⟩ | ⟨fresh, opened⟩
    · rcases step.known alsoStored with ⟨alsoOld, alsoFound, alsoMoved⟩ | ⟨_, opened⟩
      · exact sound.single found alsoFound (moved.holds active) (alsoMoved.holds alsoActive)
      · have free := opened.alone_of_holds alsoActive found
        rw [moved.holds active] at free
        contradiction
    · rcases step.known alsoStored with ⟨alsoOld, alsoFound, alsoMoved⟩ | ⟨alsoFresh, alsoOpened⟩
      · have free := opened.alone_of_holds active alsoFound
        rw [alsoMoved.holds alsoActive] at free
        contradiction
      · exact step.single fresh alsoFresh stored alsoStored

theorem approvals_sound (reachable : approvalSystem.Reachable store) : store.approvals.Sound := by
  refine reachable.invariant (fun store => store.approvals.Sound) (fun isInitial => ?_)
    fun stepped sound => sound.step (ApprovalStore.step_rowsStep stepped)
  cases isInitial
  exact ⟨nofun, nofun⟩

/-- A row that is not final was created as it is now but for its state. -/
def Approvals.CreatedIn (trace : List Answered) (approvals : Approvals) : Prop :=
  ∀ id row, approvals.find? id = some row → ¬ ApprovalState.isFinal row.state →
    ∃ answered ∈ trace, answered.event = ApprovalStore.creating row

theorem approvals_created (isInitial : approvalSystem.initial start)
    (run : approvalSystem.Run start trace store) : store.approvals.CreatedIn trace := by
  have atStart : start.approvals.CreatedIn [] := by
    cases isInitial
    exact fun id row stored => by cases stored
  refine run.records (fun trace store => store.approvals.CreatedIn trace)
    (fun {earlier before after label} created stepped id row stored live => ?_) atStart
  rcases (ApprovalStore.step_rowsStep stepped).known stored with ⟨old, found, moved⟩ | ⟨_, opened⟩
  · obtain ⟨same, wasLive⟩ := moved.creating live
    obtain ⟨answered, isAnswered, isCreation⟩ := created id old found wasLive
    exact ⟨answered, List.mem_append_left _ isAnswered, isCreation.trans same.symm⟩
  · exact ⟨label, List.mem_append_right _ (List.mem_singleton_self label), opened.admitted⟩

theorem final_row_stays (run : approvalSystem.Run store later last)
    (stored : store.approvals.find? id = some row) (final : ApprovalState.isFinal row.state) :
    last.approvals.find? id = some row := by
  refine run.keeps (fun store => store.approvals.find? id = some row) (fun stepped known => ?_) stored
  obtain ⟨_, found, moved⟩ := (ApprovalStore.step_rowsStep stepped).kept known
  rw [found, moved.of_final final]

/-- The claim that replays how a resume ended. -/
def replayOf : Except ErrorBody OperationResumeResult → ResumeClaim
  | .ok result => .replaySuccess result
  | .error error => .replayError error

theorem Approvals.lookClaim_consumed (stored : approvals.find? id = some row)
    (consumed : row.state = .consumed)
    (result : row.resultJson = some (PersistedResume.codec.encode (.of outcome))) :
    approvals.lookClaim id = some (.ok (replayOf outcome)) := by
  cases outcome with
  | ok | error =>
      simp [lookClaim, stored, consumed, result, replayConsumed, PersistedResume.of, replayOf]

theorem Approvals.writeFinish_ok (written : (approvals.writeFinish failNext id outcome).1 = .ok ()) :
    ∃ row : ApprovalRow,
      (approvals.writeFinish failNext id outcome).2.find? id = some (row.consumedBy outcome) := by
  unfold writeFinish at written ⊢
  split at written
  · contradiction
  next hook =>
    rw [if_neg hook]
    split at written
    · contradiction
    next row stored =>
      split at written
      next claimed =>
        refine ⟨row, ?_⟩
        have named := (Table.find?_eq_some.mp stored).2
        simp only [stored, claimed, if_true, Table.find?_updateWhere, Option.map_some]
        rw [if_pos (inState_iff.mpr ⟨named, claimed⟩)]
        rfl
      · contradiction

theorem Approvals.readFinish_granted (stored : approvals.find? id = some row)
    (leaves : row.state = .granted ∨ row.state = .queued ∧ leavesQueued outcome = true) :
    approvals.readFinish id outcome = .ok true := by
  rcases leaves with granted | ⟨queued, refused⟩
  · simp [readFinish, stored, granted]
  · simp [readFinish, stored, queued, refused]

theorem Approvals.writeFinish_granted
    (stored : approvals.find? id = some row) (granted : row.state = .granted) :
    (approvals.writeFinish failNext id outcome).2 = approvals := by
  cases failNext with
  | false => simp [writeFinish, stored, granted]
  | true => simp [writeFinish]

theorem ApprovalStore.step_continues {index : Nat} {call : Call} {answer : ApprovalAnswer}
    (inProgress : store.calls.lookup index = some call)
    (stepped : approvalSystem.step store ⟨.continues index, answer⟩ last) :
    store.advance index call = (answer, last) := by
  have advanced : (store.calls.lookup index).map (store.advance index) = some (answer, last) := stepped
  rw [inProgress] at advanced
  exact Option.some.inj advanced

/-- In every state of every run: the result and the arguments of a row are what its state says, unless it
was created with the placeholder; equal requests have one active hold; a final row stays as it is, and
every later claim of a consumed one replays its result, which is the one its resume was finished with; and
a finished resume leaves alone an approval that it finds granted, and one that it first finds queued and
that was refused before it was dispatched. -/
theorem approval_is_consumed_once_with_its_result (isInitial : approvalSystem.initial start)
    (run : approvalSystem.Run start trace store) :
    (∀ row ∈ store.approvals.rows, (row.resultJson.isSome = true ↔ row.state = .consumed) ∧
      (row.state = .denied ∨ row.state = .consumed → row.paramsJson = row.scrubbed) ∧
      (row.paramsJson = row.scrubbed → row.state = .denied ∨ row.state = .consumed ∨
        ∃ answered ∈ trace, answered.event = .createApproval row.approvalId row.workspaceId row.tool
          row.fingerprint row.scrubbed)) ∧
    (∀ row ∈ store.approvals.rows, ∀ other ∈ store.approvals.rows,
      row.workspaceId = other.workspaceId → row.fingerprint = other.fingerprint →
      row.state.isActive = true → other.state.isActive = true → row = other) ∧
    (∀ row ∈ store.approvals.rows, row.state = .denied ∨ row.state = .consumed →
      ∀ later last, approvalSystem.Run store later last → row ∈ last.approvals.rows) ∧
    (∀ row ∈ store.approvals.rows, row.state = .consumed →
      ∃ outcome, row.resultJson = some (PersistedResume.codec.encode (.of outcome)) ∧
        ∀ later last call answer next, approvalSystem.Run store later last →
          last.calls.lookup call = some (.claim row.approvalId) →
          approvalSystem.step last ⟨.continues call, answer⟩ next →
          answer = .claim (.ok (replayOf outcome))) ∧
    (∀ call id outcome next, store.calls.lookup call = some (.finishWrite id outcome) →
      approvalSystem.step store ⟨.continues call, .done (.ok ())⟩ next →
      ∃ row, next.approvals.find? id = some row ∧ row.state = .consumed ∧
        row.resultJson = some (PersistedResume.codec.encode (.of outcome))) ∧
    (∀ call id outcome row answer next, store.calls.lookup call = some (.finish id outcome) →
      store.approvals.find? id = some row →
      row.state = .granted ∨ row.state = .queued ∧ Approvals.leavesQueued outcome = true →
      approvalSystem.step store ⟨.continues call, answer⟩ next →
      answer = .done (.ok ()) ∧ next.approvals = store.approvals ∧ next.calls.lookup call = none) ∧
    ∀ call id outcome row answer next, store.calls.lookup call = some (.finishWrite id outcome) →
      store.approvals.find? id = some row → row.state = .granted →
      approvalSystem.step store ⟨.continues call, answer⟩ next → next.approvals = store.approvals := by
  have sound := approvals_sound ⟨start, trace, isInitial, run⟩
  refine ⟨fun row member => ?_,
    fun row member other present sameWorkspace sameRequest active alsoActive => ?_,
    fun row member final later last continued => ?_, fun row member consumed => ?_,
    fun call id outcome next writes stepped => ?_,
    fun call id outcome row answer next finishes stored leaves stepped => ?_,
    fun call id outcome row answer next writes stored granted stepped => ?_⟩
  · have own := sound.rows (Table.find?_of_mem member)
    refine ⟨own.result, own.params, fun scrubbed => ?_⟩
    by_cases final : ApprovalState.isFinal row.state
    · exact final.imp_right .inl
    · obtain ⟨answered, isAnswered, isCreation⟩ :=
        approvals_created isInitial run _ row (Table.find?_of_mem member) final
      rw [ApprovalStore.creating, scrubbed] at isCreation
      exact .inr (.inr ⟨answered, isAnswered, isCreation⟩)
  · have holding : Approvals.holds row.workspaceId row.fingerprint row = true := by
      simp [Approvals.holds, active]
    have alsoHolding : Approvals.holds row.workspaceId row.fingerprint other = true := by
      simp [Approvals.holds, sameWorkspace, sameRequest, alsoActive]
    exact Table.row_eq member present (sound.single (Table.find?_of_mem member)
      (Table.find?_of_mem present) holding alsoHolding)
  · have stays := final_row_stays continued (Table.find?_of_mem member) final
    exact (Table.find?_eq_some.mp stays).1
  · obtain ⟨outcome, result⟩ := (sound.rows (Table.find?_of_mem member)).readable consumed
    refine ⟨outcome, result, fun later last call answer next continued claims stepped => ?_⟩
    have stays := final_row_stays continued (Table.find?_of_mem member) (.inr consumed)
    have advanced := ApprovalStore.step_continues claims stepped
    simp only [ApprovalStore.advance, Approvals.lookClaim_consumed stays consumed result] at advanced
    exact (Prod.mk.inj advanced).1.symm
  · have advanced := ApprovalStore.step_continues writes stepped
    obtain ⟨answered, rfl⟩ := Prod.mk.inj advanced
    obtain ⟨_, stored⟩ := Approvals.writeFinish_ok (ApprovalAnswer.done.inj answered)
    exact ⟨_, stored, rfl, rfl⟩
  · have advanced := ApprovalStore.step_continues finishes stepped
    simp only [ApprovalStore.advance, Approvals.readFinish_granted stored leaves] at advanced
    obtain ⟨rfl, rfl⟩ := Prod.mk.inj advanced
    exact ⟨rfl, rfl, AList.lookup_erase _ _⟩
  · have advanced := ApprovalStore.step_continues writes stepped
    obtain ⟨_, rfl⟩ := Prod.mk.inj advanced
    exact Approvals.writeFinish_granted stored granted

/-- A patch is held, granted, resumed and finished, and the next claim replays its result. -/
theorem finished_patch_is_replayed :
    let result : OperationResumeResult := ⟨"hold", .consumed, some ⟨.applied, "op", false, ["a"], [],
      none, none⟩, none⟩
    let events : List ApprovalEvent := [
      .createApproval "hold" "space" .applyPatch "sha256:patch" (.obj [("patch", .str "p")]),
      .resolveApproval "hold" .grant 7, .claimResume "hold", .continues 0, .continues 0, .continues 0,
      .markResuming "hold", .finishResume "hold" (.ok result), .continues 1, .continues 1, .continues 0,
      .claimResume "hold"]
    ∃ trace store next, ApprovalStore.replay {} events = some (trace, store) ∧
      (∃ row ∈ store.approvals.rows, row.state = .consumed ∧ row.paramsJson = row.scrubbed) ∧
      approvalSystem.step store ⟨.continues 2, .claim (.ok (.replaySuccess result))⟩ next := by
  intro result events
  obtain ⟨trace, store, next, row, replayed, member, consumed, stepped⟩ : ∃ trace store next row,
      ApprovalStore.replay {} events = some (trace, store) ∧ row ∈ store.approvals.rows ∧
      row.state = .consumed ∧
      approvalSystem.step store ⟨.continues 2, .claim (.ok (.replaySuccess result))⟩ next :=
    ⟨_, _, _, _, rfl, .head _, rfl, rfl⟩
  have life := approval_is_consumed_once_with_its_result rfl (ApprovalStore.run_of_replay replayed)
  exact ⟨trace, store, next, replayed,
    ⟨row, member, consumed, (life.1 row member).2.1 (.inr consumed)⟩, stepped⟩

/-- A refusal whose first section found the approval being resumed, and the last one finds it queued
again, consumes it; and an approval may be created with the placeholder. -/
theorem late_refusal_consumes_a_queued_approval :
    let busy : ErrorBody := { code := .workspaceBusy, message := "workspace has a busy shell" }
    (∃ trace store row next, approvalSystem.Run {} trace store ∧
      store.approvals.find? "hold" = some row ∧ row.state = .queued ∧
      Approvals.leavesQueued (.error busy) = true ∧
      store.calls.lookup 1 = some (.finishWrite "hold" (.error busy)) ∧
      approvalSystem.step store ⟨.continues 1, .done (.ok ())⟩ next ∧
      ∃ consumed, next.approvals.find? "hold" = some consumed ∧ consumed.state = .consumed) ∧
    ∃ trace store row, approvalSystem.Run {} trace store ∧ row ∈ store.approvals.rows ∧
      row.state = .pending ∧ row.paramsJson = row.scrubbed := by
  intro busy
  constructor
  · obtain ⟨trace, store, row, next, replayed, stored, isQueued, refused, writes, stepped, consumes⟩ :
        ∃ trace store row next, ApprovalStore.replay {}
            [.createApproval "hold" "space" .applyPatch "sha256:patch" (.obj [("patch", .str "p")]),
              .resolveApproval "hold" .grant 7, .claimResume "hold", .continues 0, .continues 0,
              .continues 0, .markResuming "hold", .finishResume "hold" (.error busy), .continues 1,
              .returnResume "hold", .continues 0, .claimResume "hold", .continues 2, .continues 2,
              .continues 2] = some (trace, store) ∧
          store.approvals.find? "hold" = some row ∧ row.state = .queued ∧
          Approvals.leavesQueued (.error busy) = true ∧
          store.calls.lookup 1 = some (.finishWrite "hold" (.error busy)) ∧
          approvalSystem.step store ⟨.continues 1, .done (.ok ())⟩ next ∧
          ∃ consumed, next.approvals.find? "hold" = some consumed ∧ consumed.state = .consumed :=
      ⟨_, _, _, _, rfl, rfl, rfl, rfl, rfl, rfl, _, rfl, rfl⟩
    exact ⟨trace, store, row, next, ApprovalStore.run_of_replay replayed, stored, isQueued, refused, writes,
      stepped, consumes⟩
  · obtain ⟨trace, store, row, replayed, member, isPending, scrubbed⟩ : ∃ trace store row,
        ApprovalStore.replay {} [.createApproval "hold" "space" .applyPatch "sha256:patch"
          (scrubbedParams .applyPatch "space" "sha256:patch")] = some (trace, store) ∧
        row ∈ store.approvals.rows ∧ row.state = .pending ∧ row.paramsJson = row.scrubbed :=
      ⟨_, _, _, rfl, .head _, rfl, rfl⟩
    exact ⟨trace, store, row, ApprovalStore.run_of_replay replayed, member, isPending, scrubbed⟩

end CodeSpace.Store
