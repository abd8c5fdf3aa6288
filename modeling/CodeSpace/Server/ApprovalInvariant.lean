import CodeSpace.Server.ResumeFrame

namespace CodeSpace.Server

open Domain Store

/-! What holds of every approval along a run, kept by every step that moves the approvals as described. -/

variable {config : Config} {before after shared : Shared} {trace : List Label} {label : Label}
  {touched : Option String} {id processId : String} {row : ApprovalRow}

/-- The approval is of an execution, and resolved. -/
def ForExecution (approvals : Approvals) (id : String) : Prop :=
  ∃ row, approvals.find? id = some row ∧ row.state ≠ .pending ∧ row.tool = .execCommand

/-- What a step does, as far as the approvals are concerned. -/
structure SharedMove (config : Config) (trace : List Label) (label : Label) (before after : Shared)
    (touched : Option String) : Prop where
  approvals : ApprovalMove config trace before after label.report touched
  records : RecordsMove before.processes after.processes (disproved (trace ++ [label]))
    (ForExecution before.approvals)
  minted : before.minted ⊆ after.minted
  dated {operationId : String} {next : OperationRow} (known : operationId ∈ before.minted)
    (stored : after.operations.find? operationId = some next) :
    ∃ row, before.operations.find? operationId = some row ∧ row.createdAt = next.createdAt
  clock : before.now ≤ after.now

structure ApprovalsOnce (config : Config) (trace : List Label) (shared : Shared) : Prop where
  arguments {id : String} {row : ApprovalRow} (stored : shared.approvals.find? id = some row)
    (live : row.state.isActive = true) : ∃ params : ToolParams,
      row.paramsJson = params.toJson ∧ row.tool = params.tool ∧ row.workspaceId = params.workspaceId
  resolved {id : String} {row : ApprovalRow} (stored : shared.approvals.find? id = some row) :
    row.resolvedAt.all (· ≤ shared.now) = true
  spare {id : String} (idle : ∀ row, shared.approvals.find? id = some row →
    row.state ≠ .resuming ∧ row.state ≠ .consumed) : loose trace id = []
  once (id : String) : (loose trace id).length ≤ 1
  sentFor {send : Send} {id : String} (isSent : send ∈ sends trace)
    (approval : send.approval = some id) : ∃ row, shared.approvals.find? id = some row ∧
      row.state ≠ .pending ∧ SentFor config shared id row send.request
  records {processId : String} {record : ProcessRecord}
    (stored : shared.processes.find? processId = some record) :
    (∀ id ∈ record.approvalId, ForExecution shared.approvals id) ∧
      (record.outcome = some .notStarted → processId ∈ disproved trace)

namespace SharedMove

section

variable (move : SharedMove config trace label before after touched)
include move

theorem row_later (stored : before.approvals.find? id = some row) (resolved : row.state ≠ .pending) :
    ∃ next, after.approvals.find? id = some next ∧ RowLater row next := by
  obtain ⟨next, found, moved⟩ := move.approvals.rowsStep.kept stored
  exact ⟨next, found, moved.later resolved⟩

theorem forExecution (known : ForExecution before.approvals id) : ForExecution after.approvals id := by
  obtain ⟨_, stored, resolved, tool⟩ := known
  obtain ⟨next, found, later⟩ := move.row_later stored resolved
  exact ⟨next, found, later.state, later.tool.trans tool⟩

theorem recordedFor (recorded : RecordedFor before.processes id processId) :
    RecordedFor after.processes id processId := by
  obtain ⟨_, stored, approval⟩ := recorded
  obtain ⟨next, found, same⟩ := move.records.kept stored
  exact ⟨next, found, same.trans approval⟩

end

variable {next : ApprovalRow}

theorem begunAfter {operationId : String} (move : SharedMove config trace label before after touched)
    (same : next.resolvedAt = row.resolvedAt) (known : operationId ∈ before.minted)
    (begun : BegunAfter before.operations row operationId) :
    BegunAfter after.operations next operationId := by
  intro operation stored
  obtain ⟨old, found, created⟩ := move.dated known stored
  rw [same, ← created]
  exact begun old found

theorem sentFor {request : Request}
    (move : SharedMove config trace label before after touched) (later : RowLater row next)
    (isFor : SentFor config before id row request) : SentFor config after id next request := by
  cases request with
  | applyPatch =>
      obtain ⟨tool, decoded, minted, begun⟩ := isFor
      refine ⟨later.tool.trans tool, fun open_ => ?_, move.minted minted,
        move.begunAfter later.resolvedAt minted begun⟩
      obtain ⟨same, wasOpen⟩ := later.params open_
      rw [same]
      exact decoded wasOpen
  | exec =>
      exact ⟨later.tool.trans isFor.1, fun independent => move.recordedFor (isFor.2 independent)⟩

end SharedMove

namespace ApprovalsOnce

variable (holds : ApprovalsOnce config trace before)
include holds

variable (move : SharedMove config trace label before after touched)
include move

theorem arguments_step (stored : after.approvals.find? id = some row) (live : row.state.isActive = true) :
    ∃ params : ToolParams, row.paramsJson = params.toJson ∧ row.tool = params.tool ∧
      row.workspaceId = params.workspaceId := by
  rcases move.approvals.rowsStep.known stored with ⟨old, found, moved⟩ | ⟨_, opened⟩
  · cases moved with
    | kept => exact holds.arguments found live
    | granted _ state | queued state | marked state | returned state =>
        have wasLive : old.state.isActive = true := by
          rw [state]
          rfl
        obtain ⟨params, same⟩ := holds.arguments found wasLive
        exact ⟨params, same⟩
    | denied | consumed => contradiction
  · exact opened.admitted

theorem resolved_step (stored : after.approvals.find? id = some row) :
    row.resolvedAt.all (· ≤ after.now) = true := by
  have later {at_ : Option Nat} (early : at_.all (· ≤ before.now) = true) :
      at_.all (· ≤ after.now) = true := by
    cases at_ with
    | none => rfl
    | some => exact decide_eq_true (Nat.le_trans (of_decide_eq_true early) move.clock)
  rcases move.approvals.rowsStep.known stored with ⟨old, found, moved⟩ | ⟨_, opened⟩
  · have early := holds.resolved found
    cases moved with
    | kept | queued | marked | returned | consumed => exact later early
    | granted _ pending | denied _ pending =>
        rcases move.approvals.row_of_pending found pending stored with same | ⟨decision, same⟩
        · rw [same]
          exact later early
        · rw [same]
          cases decision <;> exact decide_eq_true move.clock
  · rw [opened.unresolved]
    rfl

theorem spare_step (idle : ∀ row, after.approvals.find? id = some row →
      row.state ≠ .resuming ∧ row.state ≠ .consumed) : loose (trace ++ [label]) id = [] := by
  rcases move.approvals.loose_cases id with fewer | ⟨_, _, _, row, _, found, resuming⟩
  · have was : loose trace id = [] := by
      by_contra some_
      obtain ⟨row, stored, claimed⟩ : ∃ row, before.approvals.find? id = some row ∧
          (row.state = .resuming ∨ row.state = .consumed) := by
        by_contra none_
        refine some_ (holds.spare fun row stored => ?_)
        exact not_or.mp fun claimed => none_ ⟨row, stored, claimed⟩
      rcases move.approvals.claimed_stays stored claimed with spared | ⟨next, found, still⟩
      · exact some_ spared
      · obtain ⟨unmarked, unconsumed⟩ := idle next found
        exact still.elim unmarked unconsumed
    exact List.eq_nil_of_sublist_nil (was ▸ fewer)
  · exact absurd resuming (idle row found).1

theorem once_step (id : String) : (loose (trace ++ [label]) id).length ≤ 1 := by
  rcases move.approvals.loose_cases id with fewer | ⟨_, _, single, _⟩
  · exact Nat.le_trans fewer.length_le (holds.once id)
  · exact single

theorem sentFor_step {send : Send}
    (isSent : send ∈ sends (trace ++ [label])) (approval : send.approval = some id) :
    ∃ row, after.approvals.find? id = some row ∧ row.state ≠ .pending ∧
      SentFor config after id row send.request := by
  obtain ⟨row, stored, resolved, isFor⟩ : ∃ row, before.approvals.find? id = some row ∧
      row.state ≠ .pending ∧ SentFor config before id row send.request := by
    rw [sends_snoc] at isSent
    rcases List.mem_append.mp isSent with earlier | now
    · exact holds.sentFor earlier approval
    · have approvals := move.approvals
      generalize label.report = report at now approvals
      cases approvals with
      | still _ unsent =>
          rw [unsent send (Option.mem_toList.mp now)] at approval
          contradiction
      | sent _ alsoApproval _ stored resuming isFor =>
          cases List.mem_singleton.mp now
          cases alsoApproval.symm.trans approval
          exact ⟨_, stored, by simp [resuming], isFor⟩
      | _ => contradiction
  obtain ⟨next, found, later⟩ := move.row_later stored resolved
  exact ⟨next, found, later.state, move.sentFor later isFor⟩

theorem records_step {record : ProcessRecord} (stored : after.processes.find? processId = some record) :
    (∀ id ∈ record.approvalId, ForExecution after.approvals id) ∧
      (record.outcome = some .notStarted → processId ∈ disproved (trace ++ [label])) := by
  rcases move.records.known stored with ⟨old, found, same, unstarted⟩ | ⟨started, opened⟩
  · refine ⟨fun id isFor => move.forExecution ((holds.records found).1 id (same ▸ isFor)), fun said => ?_⟩
    rcases unstarted said with already | gone
    · exact disproved_snoc_of_mem ((holds.records found).2 already)
    · exact gone
  · exact ⟨fun id isFor => move.forExecution (opened id isFor), fun said => absurd said started⟩

theorem step : ApprovalsOnce config (trace ++ [label]) after where
  arguments := holds.arguments_step move
  resolved := holds.resolved_step move
  spare := holds.spare_step move
  once := holds.once_step move
  sentFor := holds.sentFor_step move
  records := holds.records_step move

end ApprovalsOnce

end CodeSpace.Server
