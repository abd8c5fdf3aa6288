import CodeSpace.Server.Gateway
import CodeSpace.Store.ApprovalRows

namespace CodeSpace.Server

open Data Domain Store

/-! What one step of a gateway may do to the approvals, to the requests sent for them and to the process
records. -/

variable {config : Config} {before after : Shared} {trace : List Label} {label : Label}
  {report : Report} {id : String}

theorem mem_loose {send : Send} : send ∈ loose trace id ↔
    send ∈ sends trace ∧ send.approval = some id ∧ send.request.id ∉ disproved trace := by
  rw [loose, List.mem_filter, Bool.and_eq_true, decide_eq_true_eq, decide_eq_true_eq]

theorem loose_snoc_sublist : (loose (trace ++ [label]) id).Sublist
    (loose trace id ++ label.report.send?.toList.filter fun send => send.approval = some id) := by
  have weaker (requests : List Send) {gone left : List String} (more : left ⊆ gone) :
      (requests.filter fun send => send.approval = some id && send.request.id ∉ gone).Sublist
        (requests.filter fun send => send.approval = some id && send.request.id ∉ left) := by
    refine List.monotone_filter_right requests fun send chosen => ?_
    simp only [Bool.and_eq_true, decide_eq_true_eq] at chosen ⊢
    exact ⟨chosen.1, fun isLeft => chosen.2 (more isLeft)⟩
  rw [loose, sends_snoc, List.filter_append]
  refine List.Sublist.append (weaker _ ?_) (List.monotone_filter_right _ fun send chosen => ?_)
  · rw [disproved_snoc]
    exact List.subset_append_left _ _
  · exact ((Bool.and_eq_true _ _).mp chosen).1

theorem loose_snoc_of_unsent (unsent : ∀ send ∈ label.report.send?, send.approval ≠ some id) :
    (loose (trace ++ [label]) id).Sublist (loose trace id) := by
  have nothing : label.report.send?.toList.filter (fun send => send.approval = some id) = [] := by
    refine List.filter_eq_nil_iff.mpr fun send isSent => ?_
    simpa using unsent send (Option.mem_toList.mp isSent)
  have kept : (loose (trace ++ [label]) id).Sublist (loose trace id ++
      label.report.send?.toList.filter fun send => send.approval = some id) := loose_snoc_sublist
  rwa [nothing, List.append_nil] at kept

/-- An execution for the approval is recorded under this identifier. -/
def RecordedFor (processes : ProcessRecords) (id processId : String) : Prop :=
  ∃ record, processes.find? processId = some record ∧ record.approvalId = some id

/-- The operation, while there is one, began after the approval was resolved. -/
def BegunAfter (operations : Operations) (row : ApprovalRow) (operationId : String) : Prop :=
  ∀ operation, operations.find? operationId = some operation →
    row.resolvedAt.all (· ≤ operation.createdAt) = true

/-- The request is that of the approval, and what it is known by is there. -/
def SentFor (config : Config) (shared : Shared) (id : String) (row : ApprovalRow) : Request → Prop
  | .applyPatch operationId params =>
      row.tool = .applyPatch ∧
      (row.state ≠ .consumed → ApplyPatchParams.codec.decode row.paramsJson = some params) ∧
      operationId ∈ shared.minted ∧ BegunAfter shared.operations row operationId
  | .exec processId _ =>
      row.tool = .execCommand ∧
      (config.independent = true → RecordedFor shared.processes id processId)

/-- A row that holds the arguments of its tool. -/
def ApprovalRow.IsTyped (row : ApprovalRow) : Prop :=
  ∃ params : ToolParams, row.paramsJson = params.toJson ∧ row.tool = params.tool ∧
    row.workspaceId = params.workspaceId

/-- What a step does to the approvals. All but the outside events touch only the approval that the
task marked in flight. -/
inductive ApprovalMove (config : Config) (trace : List Label) (before after : Shared) :
    Report → Option String → Prop
  | still {report : Report} (approvals : after.approvals = before.approvals)
      (unsent : ∀ send ∈ report.send?, send.approval = none) :
      ApprovalMove config trace before after report none
  | opened (approvalId : String) (params : ToolParams)
      (approvals : after.approvals = (before.approvals.createApproval approvalId params.workspaceId
        params.tool (config.fingerprint params) params.toJson).2) :
      ApprovalMove config trace before after .quiet none
  | resolved (id : String) (decision : ApprovalDecision)
      (approvals : after.approvals = (before.approvals.resolveApproval id decision before.now).2) :
      ApprovalMove config trace before after .quiet none
  | taken (id : String) (approvals : after.approvals = (before.approvals.takeClaim id).2) :
      ApprovalMove config trace before after .quiet (some id)
  | marked (id : String) (approvals : after.approvals = (before.approvals.markResuming id).2) :
      ApprovalMove config trace before after .quiet (some id)
  | sent {id : String} {row : ApprovalRow} {send : Send} (approvals : after.approvals = before.approvals)
      (approval : send.approval = some id) (spared : loose trace id = [])
      (stored : before.approvals.find? id = some row) (resuming : row.state = .resuming)
      (sentFor : SentFor config before id row send.request) :
      ApprovalMove config trace before after (.sent send) (some id)
  | returned (id : String) (approvals : after.approvals = (before.approvals.returnResume id).2)
      (spared : loose trace id = []) : ApprovalMove config trace before after .quiet (some id)
  | finished (id : String) (failNext : Bool) (outcome : Except ErrorBody OperationResumeResult)
      (approvals : after.approvals = (before.approvals.writeFinish failNext id outcome).2) :
      ApprovalMove config trace before after .quiet (some id)

namespace ApprovalMove

variable {touched : Option String} {row : ApprovalRow}

section

variable (move : ApprovalMove config trace before after report touched)
include move

theorem rowsStep : RowsStep ApprovalRow.IsTyped before.approvals after.approvals := by
  cases move with
  | still approvals | sent approvals =>
      rw [approvals]
      exact .refl _
  | opened _ params approvals =>
      rw [approvals]
      exact Approvals.createApproval_rowsStep _ ⟨params, rfl, rfl, rfl⟩
  | resolved _ _ approvals =>
      rw [approvals]
      exact Approvals.resolveApproval_rowsStep _ _ _ _
  | taken _ approvals =>
      rw [approvals]
      exact Approvals.takeClaim_rowsStep _ _
  | marked _ approvals =>
      rw [approvals]
      exact Approvals.markResuming_rowsStep _ _
  | returned _ approvals =>
      rw [approvals]
      exact Approvals.returnResume_rowsStep _ _
  | finished _ _ _ approvals =>
      rw [approvals]
      exact Approvals.writeFinish_rowsStep _ _ _ _

theorem row_of_ne (apart : touched ≠ some id) (stored : before.approvals.find? id = some row)
    (resolved : row.state ≠ .pending) : after.approvals.find? id = some row := by
  have other {touchedId : String} (same : touched = some touchedId) : id ≠ touchedId := by
    rintro rfl
    exact apart same
  cases move with
  | still approvals | sent approvals => rw [approvals, stored]
  | opened _ _ approvals =>
      rw [approvals]
      exact Approvals.createApproval_of_stored stored
  | resolved _ _ approvals =>
      rw [approvals]
      exact Approvals.find?_resolveApproval.trans
        (Approvals.changed_of_state stored (by simpa using resolved))
  | taken _ approvals => rw [approvals, Approvals.takeClaim_of_ne (other rfl), stored]
  | marked _ approvals => rw [approvals, Approvals.markResuming_of_ne (other rfl), stored]
  | returned _ approvals => rw [approvals, Approvals.returnResume_of_ne (other rfl), stored]
  | finished _ _ _ approvals => rw [approvals, Approvals.writeFinish_of_ne (other rfl), stored]

theorem row_of_pending {next : ApprovalRow}
    (stored : before.approvals.find? id = some row) (pending : row.state = .pending)
    (found : after.approvals.find? id = some next) :
    next = row ∨ ∃ decision, next = Approvals.resolvedRow decision before.now row := by
  have same {states : List ApprovalState} {change : ApprovalRow → ApprovalRow} {other : String}
      (is : after.approvals.find? id = before.approvals.changed other states change id)
      (outside : .pending ∉ states) : next = row ∨
        ∃ decision, next = Approvals.resolvedRow decision before.now row := by
    rw [is, Approvals.changed_of_state stored (pending ▸ outside)] at found
    exact .inl (Option.some.inj found).symm
  have unchanged (is : after.approvals.find? id = some row) : next = row ∨
      ∃ decision, next = Approvals.resolvedRow decision before.now row :=
    .inl (Option.some.inj (found.symm.trans is))
  cases move with
  | still approvals | sent approvals => exact unchanged (by rw [approvals, stored])
  | opened _ _ approvals =>
      exact unchanged (by rw [approvals, Approvals.createApproval_of_stored stored])
  | resolved _ decision approvals =>
      rw [approvals, Approvals.find?_resolveApproval, Approvals.changed, stored, Option.map_some] at found
      cases found
      split
      · exact .inr ⟨decision, rfl⟩
      · exact .inl rfl
  | taken _ approvals => exact same (by rw [approvals, Approvals.find?_takeClaim]) (by simp)
  | marked _ approvals => exact same (by rw [approvals, Approvals.find?_markResuming]) (by simp)
  | returned _ approvals => exact same (by rw [approvals, Approvals.find?_returnResume]) (by simp)
  | finished other failNext outcome approvals =>
      cases failNext with
      | true =>
          refine unchanged ?_
          rw [approvals, Approvals.find?_writeFinish, if_pos rfl, stored]
      | false =>
          have written : after.approvals.find? id = before.approvals.changed other
              [.queued, .resuming] (·.consumedBy outcome) id := by
            rw [approvals, Approvals.find?_writeFinish]
            exact if_neg Bool.false_ne_true
          exact same written (by simp)

end

/-- A step sends nothing for an approval, or it is the first request that could be loose, and the
approval is being resumed. -/
theorem loose_cases (move : ApprovalMove config trace before after label.report touched) (id : String) :
    (loose (trace ++ [label]) id).Sublist (loose trace id) ∨
      touched = some id ∧ loose trace id = [] ∧ (loose (trace ++ [label]) id).length ≤ 1 ∧
        ∃ row, before.approvals.find? id = some row ∧ after.approvals.find? id = some row ∧
          row.state = .resuming := by
  have unsent (nothing : ∀ send ∈ label.report.send?, send.approval ≠ some id) :
      (loose (trace ++ [label]) id).Sublist (loose trace id) := loose_snoc_of_unsent nothing
  generalize same : label.report = report at move unsent
  cases move with
  | still _ none_ =>
      refine .inl (unsent fun send isSent => ?_)
      rw [none_ send isSent]
      exact nofun
  | @sent sentId row send approvals approval spared stored resuming sentFor =>
      by_cases own : sentId = id
      · subst own
        refine .inr ⟨rfl, spared, ?_, row, stored, by rw [approvals, stored], resuming⟩
        have listed : (loose (trace ++ [label]) sentId).Sublist (loose trace sentId ++
            label.report.send?.toList.filter fun send => send.approval = some sentId) :=
          loose_snoc_sublist
        rw [spared, same] at listed
        exact Nat.le_trans listed.length_le (List.length_filter_le _ _)
      · refine .inl (unsent fun other isSent => ?_)
        cases isSent
        rw [approval]
        simpa using own
  | _ => exact .inl (unsent fun send isSent => by contradiction)

theorem loose_of_ne (move : ApprovalMove config trace before after label.report touched)
    (apart : touched ≠ some id) : (loose (trace ++ [label]) id).Sublist (loose trace id) := by
  rcases move.loose_cases id with fewer | ⟨own, _⟩
  · exact fewer
  · exact absurd own apart

/-- An approval that is being resumed or consumed stays so, unless it is given back without any loose
request. -/
theorem claimed_stays (move : ApprovalMove config trace before after report touched)
    (stored : before.approvals.find? id = some row)
    (claimed : row.state = .resuming ∨ row.state = .consumed) :
    loose trace id = [] ∨ ∃ next, after.approvals.find? id = some next ∧
      (next.state = .resuming ∨ next.state = .consumed) := by
  have unchanged (same : after.approvals.find? id = some row) : loose trace id = [] ∨
      ∃ next, after.approvals.find? id = some next ∧
        (next.state = .resuming ∨ next.state = .consumed) := .inr ⟨row, same, claimed⟩
  have outside {states : List ApprovalState} (without : .resuming ∉ states ∧ .consumed ∉ states) :
      row.state ∉ states := by
    rcases claimed with state | state
    · exact state ▸ without.1
    · exact state ▸ without.2
  cases move with
  | still approvals | sent approvals => exact unchanged (by rw [approvals, stored])
  | opened _ _ approvals =>
      exact unchanged (by rw [approvals, Approvals.createApproval_of_stored stored])
  | resolved _ _ approvals =>
      refine unchanged ?_
      rw [approvals, Approvals.find?_resolveApproval]
      exact Approvals.changed_of_state stored (outside (by simp))
  | taken _ approvals =>
      refine unchanged ?_
      rw [approvals, Approvals.find?_takeClaim]
      exact Approvals.changed_of_state stored (outside (by simp))
  | marked _ approvals =>
      refine unchanged ?_
      rw [approvals, Approvals.find?_markResuming]
      exact Approvals.changed_of_state stored (outside (by simp))
  | returned other approvals spared =>
      by_cases own : id = other
      · exact .inl (own ▸ spared)
      · exact unchanged (by rw [approvals, Approvals.returnResume_of_ne own, stored])
  | finished _ _ _ approvals =>
      rw [approvals, Approvals.find?_writeFinish]
      split
      · exact .inr ⟨row, stored, claimed⟩
      · rw [Approvals.changed, stored, Option.map_some]
        refine .inr ⟨_, rfl, ?_⟩
        split
        · exact .inr rfl
        · exact claimed

end ApprovalMove

/-- What a step does to the process records: none is lost or changes its approval, one that newly says
its execution never started is among `gone`, and a new one is for an approval that is `opened`. -/
structure RecordsMove (before after : ProcessRecords) (gone : List String) (opened : String → Prop) :
    Prop where
  kept {processId : String} {record : ProcessRecord} (stored : before.find? processId = some record) :
    ∃ next, after.find? processId = some next ∧ next.approvalId = record.approvalId
  known {processId : String} {next : ProcessRecord} (stored : after.find? processId = some next) :
    (∃ record, before.find? processId = some record ∧ next.approvalId = record.approvalId ∧
      (next.outcome = some .notStarted → record.outcome = some .notStarted ∨ processId ∈ gone)) ∨
    next.outcome ≠ some .notStarted ∧ ∀ id ∈ next.approvalId, opened id

namespace RecordsMove

variable {records : ProcessRecords} {gone : List String} {opened : String → Prop}

theorem refl (records : ProcessRecords) : RecordsMove records records gone opened where
  kept stored := ⟨_, stored, rfl⟩
  known stored := .inl ⟨_, stored, rfl, .inl⟩

theorem of_map {next : ProcessRecords} {change : ProcessRecord → ProcessRecord}
    (found : ∀ processId, next.find? processId = (records.find? processId).map change)
    (approvals : ∀ record, (change record).approvalId = record.approvalId)
    (outcomes : ∀ record, (change record).outcome = some .notStarted →
      record.outcome = some .notStarted ∨ record.processId ∈ gone) :
    RecordsMove records next gone opened where
  kept {processId record} stored :=
    ⟨change record, by rw [found, stored, Option.map_some], approvals record⟩
  known {processId next} stored := by
    rw [found] at stored
    obtain ⟨record, old, rfl⟩ := Option.map_eq_some_iff.mp stored
    have named := (Table.find?_eq_some.mp old).2
    exact .inl ⟨record, old, approvals record, fun said => named ▸ outcomes record said⟩

theorem of_insert {record : ProcessRecord} {inserted : ProcessRecords}
    (fits : records.insert? record = some inserted) (open_ : record.outcome ≠ some .notStarted)
    (opens : ∀ id ∈ record.approvalId, opened id) : RecordsMove records inserted gone opened where
  kept stored := ⟨_, Table.find?_insert?_of_stored fits stored, rfl⟩
  known {processId next} stored := by
    rw [Table.find?_insert? fits] at stored
    split at stored
    · cases stored
      exact .inr ⟨open_, opens⟩
    · exact .inl ⟨next, stored, rfl, .inl⟩

theorem recordRunning (runner : RunnerRef) (processId : String) (root : Option RootProcess)
    (deadlineAtMs : Option Nat) : RecordsMove records
      (records.recordRunning runner processId root deadlineAtMs) gone opened := by
  refine of_map (fun other => records.find?_recordRunning runner processId other root deadlineAtMs)
    (fun record => ?_) fun record said => ?_
  · split <;> rfl
  · split at said <;> exact .inl said

theorem recordOutput (runner : RunnerRef) (processId : String) (cursor : Nat) :
    RecordsMove records (records.recordOutput runner processId cursor) gone opened := by
  refine of_map (fun other => records.find?_recordOutput runner processId other cursor)
    (fun record => ?_) fun record said => ?_
  · split
    · exact record.observedOutput_approvalId cursor
    · rfl
  · split at said
    · exact .inl ((record.observedOutput_outcome cursor).symm.trans said)
    · exact .inl said

theorem recordEnd {runner : RunnerRef} {processId : String} {how : ProcessEnd}
    (unstarted : how = .notStarted → processId ∈ gone) :
    RecordsMove records (records.recordEnd runner processId how) gone opened := by
  refine of_map (fun other => records.find?_recordEnd runner processId other how)
    (fun record => ?_) fun record said => ?_
  · split
    · exact record.ended_approvalId how
    · rfl
  · split at said
    next selected =>
      simp only [Bool.and_eq_true, decide_eq_true_eq] at selected
      rcases record.ended_outcome said with already | same
      · exact .inl already
      · exact .inr (selected.1 ▸ unstarted same)
    · exact .inl said

theorem recordRunnerLost (lost : RunnerRef) (loss : ProcessLoss) :
    RecordsMove records (records.recordRunnerLost lost loss) gone opened := by
  refine of_map (fun other => records.find?_recordRunnerLost lost other loss) (fun record => ?_)
    fun record said => ?_
  · split <;> rfl
  · split at said <;> exact .inl said

theorem releaseRecord (processId : String) (nowMs : Nat) :
    RecordsMove records (records.releaseRecord processId nowMs) gone opened := by
  refine of_map (fun other => records.find?_releaseRecord processId other nowMs) (fun record => ?_)
    fun record said => ?_
  · split <;> rfl
  · split at said <;> exact .inl said

end RecordsMove

end CodeSpace.Server
