import CodeSpace.Data.Outcome
import CodeSpace.Store.ApprovalCalls

namespace CodeSpace.Store

open Data Domain

variable {approvals before after : Approvals} {row next : ApprovalRow} {id : String}
  {outcome : Except ErrorBody OperationResumeResult} {change : ApprovalRow → ApprovalRow}

/-- A row consumed with the outcome of its resume. -/
def ApprovalRow.consumedBy (row : ApprovalRow)
    (outcome : Except ErrorBody OperationResumeResult) : ApprovalRow :=
  { row with
    state := .consumed
    resultJson := some (PersistedResume.codec.encode (.of outcome))
    paramsJson := row.scrubbed }

inductive RowStep (row : ApprovalRow) : ApprovalRow → Prop
  | kept : RowStep row row
  | granted (now : Nat) (pending : row.state = .pending) :
      RowStep row { row with state := .granted, resolvedAt := some now }
  | denied (now : Nat) (pending : row.state = .pending) :
      RowStep row { row with state := .denied, resolvedAt := some now, paramsJson := row.scrubbed }
  | queued (granted : row.state = .granted) : RowStep row { row with state := .queued }
  | marked (queued : row.state = .queued) : RowStep row { row with state := .resuming }
  | returned (resuming : row.state = .resuming) : RowStep row { row with state := .granted }
  | consumed (outcome : Except ErrorBody OperationResumeResult)
      (claimed : row.state = .queued ∨ row.state = .resuming) : RowStep row (row.consumedBy outcome)

/-- A row as `create_approval` inserts it, where nothing active is in its way. -/
structure Opened (admits : ApprovalRow → Prop) (before : Approvals) (row : ApprovalRow) : Prop where
  state : row.state = .pending
  result : row.resultJson = none
  unresolved : row.resolvedAt = none
  admitted : admits row
  alone : before.loadActiveByFingerprint row.workspaceId row.fingerprint = none

/-- What one step may do to the table: no row is lost, and a new one is a new hold of an admitted kind. -/
structure RowsStep (admits : ApprovalRow → Prop) (before after : Approvals) : Prop where
  kept {id : String} {row : ApprovalRow} (stored : before.find? id = some row) :
    ∃ next, after.find? id = some next ∧ RowStep row next
  known {id : String} {next : ApprovalRow} (stored : after.find? id = some next) :
    (∃ row, before.find? id = some row ∧ RowStep row next) ∨
      before.find? id = none ∧ Opened admits before next
  single {id other : String} {row next : ApprovalRow} (fresh : before.find? id = none)
    (alsoFresh : before.find? other = none) (stored : after.find? id = some row)
    (alsoStored : after.find? other = some next) : id = other

variable {admits : ApprovalRow → Prop}

theorem RowsStep.refl (approvals : Approvals) : RowsStep admits approvals approvals where
  kept stored := ⟨_, stored, .kept⟩
  known stored := .inl ⟨_, stored, .kept⟩
  single fresh _ stored _ := by
    cases fresh.symm.trans stored

theorem RowsStep.of_map (found : ∀ id, after.find? id = (before.find? id).map change)
    (changes : ∀ row, RowStep row (change row)) : RowsStep admits before after where
  kept {id row} stored := ⟨change row, by rw [found, stored, Option.map_some], changes row⟩
  known {id next} stored := by
    rw [found] at stored
    obtain ⟨row, old, rfl⟩ := Option.map_eq_some_iff.mp stored
    exact .inl ⟨row, old, changes row⟩
  single fresh _ stored _ := by
    rw [found, fresh] at stored
    contradiction

namespace Approvals

variable {states : List ApprovalState}

theorem inState_iff : inState id states row = true ↔ row.approvalId = id ∧ row.state ∈ states := by
  simp [inState]

theorem update_rowsStep (keeps : ∀ row, (change row).approvalId = row.approvalId)
    (changes : ∀ row, row.state ∈ states → RowStep row (change row)) :
    RowsStep admits approvals (approvals.updateWhere (inState id states) change keeps) := by
  refine .of_map (fun _ => Table.find?_updateWhere keeps) fun row => ?_
  split
  next selected => exact changes row (inState_iff.mp selected).2
  · exact .kept

theorem createApproval_rowsStep (approvals : Approvals) {approvalId workspaceId fingerprint : String}
    {tool : ApprovalTargetTool} {params : Json}
    (admitted : admits { approvalId := approvalId, workspaceId := workspaceId, tool := tool
                         fingerprint := fingerprint, paramsJson := params, state := .pending }) :
    RowsStep admits approvals
      (approvals.createApproval approvalId workspaceId tool fingerprint params).2 := by
  unfold createApproval
  split
  · exact .refl approvals
  next alone =>
    dsimp only
    split
    next inserted fits =>
      have only {id : String} {row : ApprovalRow} (fresh : approvals.find? id = none)
          (stored : inserted.find? id = some row) : id = approvalId := by
        rw [Table.find?_insert? fits] at stored
        split at stored
        next same => exact same
        · cases fresh.symm.trans stored
      refine ⟨fun {id row} stored => ?_, fun {id next} stored => ?_,
        fun fresh alsoFresh stored alsoStored =>
          (only fresh stored).trans (only alsoFresh alsoStored).symm⟩
      · exact ⟨row, Table.find?_insert?_of_stored fits stored, .kept⟩
      · rw [Table.find?_insert? fits] at stored
        split at stored
        next same =>
          cases stored
          rw [same]
          exact .inr ⟨(Table.insert?_eq_some.mp fits).1, rfl, rfl, rfl, admitted, alone⟩
        · exact .inl ⟨next, stored, .kept⟩
    · exact .refl approvals

theorem resolveApproval_rowsStep (approvals : Approvals) (id : String) (decision : ApprovalDecision)
    (now : Nat) : RowsStep admits approvals (approvals.resolveApproval id decision now).2 := by
  unfold resolveApproval
  split
  · exact .refl approvals
  · split
    · exact .refl approvals
    · cases decision with
      | grant =>
          refine update_rowsStep (by intro; rfl) fun row selected => ?_
          exact .granted now (by simpa using selected)
      | deny =>
          refine update_rowsStep (by intro; rfl) fun row selected => ?_
          exact .denied now (by simpa using selected)

theorem takeClaim_rowsStep (approvals : Approvals) (id : String) :
    RowsStep admits approvals (approvals.takeClaim id).2 := by
  unfold takeClaim
  split
  · exact .refl approvals
  · split
    · refine update_rowsStep (by intro; rfl) fun row selected => ?_
      exact .queued (by simpa using selected)
    all_goals exact .refl approvals

theorem markResuming_rowsStep (approvals : Approvals) (id : String) :
    RowsStep admits approvals (approvals.markResuming id).2 := by
  unfold markResuming
  split
  · exact .refl approvals
  · split
    · exact .refl approvals
    · refine update_rowsStep (by intro; rfl) fun row selected => ?_
      exact .marked (by simpa using selected)
    · exact .refl approvals

theorem returnResume_rowsStep (approvals : Approvals) (id : String) :
    RowsStep admits approvals (approvals.returnResume id).2 := by
  unfold returnResume
  split
  · refine update_rowsStep (by intro; rfl) fun row selected => ?_
    exact .returned (by simpa using selected)
  · exact .refl approvals

theorem writeFinish_rowsStep (approvals : Approvals) (failNext : Bool) (id : String)
    (outcome : Except ErrorBody OperationResumeResult) :
    RowsStep admits approvals (approvals.writeFinish failNext id outcome).2 := by
  unfold writeFinish
  split
  · exact .refl approvals
  · split
    · exact .refl approvals
    · split
      · refine update_rowsStep (by intro; rfl) fun row selected => ?_
        exact .consumed outcome (by simpa using selected)
      · exact .refl approvals

end Approvals

theorem ProcessRecords.recordDispatch_eq_ok {records : ProcessRecords} {approvals : Approvals}
    {record : ProcessRecord} {answer : Approvals × ProcessRecords}
    (recorded : records.recordDispatch approvals record = .ok answer) :
    markFor approvals record.approvalId = .ok answer.1 ∧
      records.insert? record.stored = some answer.2 := by
  obtain ⟨marked, isMarked, inserted⟩ := bind_eq_ok.mp recorded
  split at inserted
  next fits =>
    cases inserted
    exact ⟨isMarked, fits⟩
  · contradiction

theorem ProcessRecords.recordDispatch_rowsStep {records : ProcessRecords} {record : ProcessRecord}
    {answer : Approvals × ProcessRecords}
    (recorded : records.recordDispatch before record = .ok answer) :
    RowsStep admits before answer.1 := by
  obtain ⟨_, _⟩ := answer
  have isMarked := (recordDispatch_eq_ok recorded).1
  unfold markFor at isMarked
  split at isMarked
  next approvalId _ =>
    obtain ⟨_, _, rfl⟩ := map_eq_ok.mp isMarked
    exact Approvals.markResuming_rowsStep before approvalId
  · cases isMarked
    exact .refl _

namespace ApprovalStore

variable {store : ApprovalStore}

theorem markInflight_approvals {marked : ApprovalStore}
    (isMarked : store.markInflight id = some marked) : marked.approvals = store.approvals := by
  unfold markInflight at isMarked
  split at isMarked
  · contradiction
  · cases isMarked
    rfl

theorem advance_rowsStep (store : ApprovalStore) (index : Nat) (call : Call) :
    RowsStep admits store.approvals (store.advance index call).2.approvals := by
  cases call with
  | claim | finish | settleFinish =>
      dsimp only [advance]
      split <;> exact .refl _
  | claimMark id | settle id started =>
      dsimp only [advance]
      split
      next isMarked =>
        dsimp only [setCall]
        rw [markInflight_approvals isMarked]
        exact .refl _
      · exact .refl _
  | claimTake id =>
      have taken : RowsStep admits _ _ := store.approvals.takeClaim_rowsStep id
      dsimp only [advance]
      split
      next answered =>
        rw [answered] at taken
        exact taken
      next answered =>
        rw [answered] at taken
        exact taken
  | claimRetry id | guarded id => exact .refl _
  | finishWrite id outcome => exact store.approvals.writeFinish_rowsStep _ id outcome
  | settleRead =>
      dsimp only [advance]
      split
      · exact .refl _
      · split
        · exact .refl _
        · split <;> exact .refl _
  | settleReturn id => exact store.approvals.returnResume_rowsStep id
  | settleFinishWrite id result => exact store.approvals.writeFinish_rowsStep _ id (.ok result)

/-- The call that creates a row as it is. -/
def creating (row : ApprovalRow) : ApprovalEvent :=
  .createApproval row.approvalId row.workspaceId row.tool row.fingerprint row.paramsJson

theorem step_rowsStep {next : ApprovalStore} {event : ApprovalEvent} {answer : ApprovalAnswer}
    (stepped : store.step event = some (answer, next)) :
    RowsStep (fun row => event = creating row) store.approvals next.approvals := by
  cases event with
  | createApproval =>
      cases stepped
      exact store.approvals.createApproval_rowsStep rfl
  | resolveApproval id decision now =>
      cases stepped
      exact store.approvals.resolveApproval_rowsStep id decision now
  | markResuming id =>
      cases stepped
      exact store.approvals.markResuming_rowsStep id
  | returnResume id =>
      cases stepped
      exact store.approvals.returnResume_rowsStep id
  | recordDispatch =>
      dsimp only [step] at stepped
      split at stepped
      next recorded =>
        cases stepped
        exact ProcessRecords.recordDispatch_rowsStep recorded
      · cases stepped
        exact .refl _
  | continues index =>
      obtain ⟨call, _, same⟩ := Option.map_eq_some_iff.mp stepped
      have advanced : RowsStep (fun row => .continues index = creating row) _ _ :=
        store.advance_rowsStep index call
      rw [same] at advanced
      exact advanced
  | claimResume id | finishResume id outcome | settleInterruptedResume id started
  | failNextFinish | reopens =>
      cases stepped
      exact .refl _

end ApprovalStore

end CodeSpace.Store
