import CodeSpace.Store.ApprovalSteps

namespace CodeSpace.Store

open Data Domain

/-! What the sections of a resume do to the rows: each of them changes the row of its approval, in some
of its states, and leaves every other row alone. -/

variable {approvals : Approvals} {row next : ApprovalRow} {id other : String}
  {outcome : Except ErrorBody OperationResumeResult} {failNext : Bool}

namespace Approvals

section Select

variable {states : List ApprovalState} {change : ApprovalRow → ApprovalRow}

/-- The rows after a change of one approval in some of its states. -/
def changed (approvals : Approvals) (id : String) (states : List ApprovalState)
    (change : ApprovalRow → ApprovalRow) (other : String) : Option ApprovalRow :=
  (approvals.find? other).map fun row => if inState id states row then change row else row

theorem changed_of_state (stored : approvals.find? other = some row) (outside : row.state ∉ states) :
    approvals.changed id states change other = some row := by
  have unselected : ¬ inState id states row = true := fun selected =>
    outside (inState_iff.mp selected).2
  rw [changed, stored, Option.map_some, if_neg unselected]

theorem changed_of_ne (apart : other ≠ id) :
    approvals.changed id states change other = approvals.find? other := by
  unfold changed
  cases stored : approvals.find? other with
  | none => rfl
  | some row =>
      have named := (Table.find?_eq_some.mp stored).2
      have unselected : ¬ inState id states row = true := fun selected =>
        apart (named.symm.trans (inState_iff.mp selected).1)
      rw [Option.map_some, if_neg unselected]

theorem changed_self (stored : approvals.find? id = some row) (inside : row.state ∈ states) :
    approvals.changed id states change id = some (change row) := by
  have named := (Table.find?_eq_some.mp stored).2
  rw [changed, stored, Option.map_some, if_pos (inState_iff.mpr ⟨named, inside⟩)]

theorem find?_eq_changed (stored : approvals.find? id = some row) (outside : row.state ∉ states) :
    approvals.find? other = approvals.changed id states change other := by
  by_cases same : other = id
  · subst same
    exact stored.trans (changed_of_state stored outside).symm
  · exact (changed_of_ne same).symm

theorem find?_eq_changed_of_absent (absent : approvals.find? id = none) :
    approvals.find? other = approvals.changed id states change other := by
  by_cases same : other = id
  · subst same
    rw [changed, absent, Option.map_none]
  · exact (changed_of_ne same).symm

end Select

theorem changed_eq_some (found : approvals.changed id states change other = some next) :
    ∃ row, approvals.find? other = some row ∧ (next = row ∨ next = change row) := by
  obtain ⟨row, stored, same⟩ := Option.map_eq_some_iff.mp found
  refine ⟨row, stored, ?_⟩
  split at same
  · exact .inr same.symm
  · exact .inl same.symm

theorem find?_takeClaim : (approvals.takeClaim id).2.find? other =
    approvals.changed id [.granted] (fun row => { row with state := .queued }) other := by
  unfold takeClaim
  split
  next absent => exact find?_eq_changed_of_absent absent
  next stored =>
    split
    · exact Table.find?_updateWhere (by intro; rfl)
    all_goals
      next state =>
        exact find?_eq_changed stored (by simp [state])

theorem find?_markResuming : (approvals.markResuming id).2.find? other =
    approvals.changed id [.queued] (fun row => { row with state := .resuming }) other := by
  unfold markResuming
  split
  next absent => exact find?_eq_changed_of_absent absent
  next stored =>
    split
    next state => exact find?_eq_changed stored (by simp [state])
    · exact Table.find?_updateWhere (by intro; rfl)
    next unqueued => exact find?_eq_changed stored (by simpa using unqueued)

theorem find?_returnResume : (approvals.returnResume id).2.find? other =
    approvals.changed id [.resuming] (fun row => { row with state := .granted }) other := by
  unfold returnResume
  split
  · exact Table.find?_updateWhere (by intro; rfl)
  next none_ =>
    cases stored : approvals.find? id with
    | none => exact find?_eq_changed_of_absent stored
    | some =>
        exact find?_eq_changed stored fun inside =>
          none_ (Table.count_key_of_find? stored (decide_eq_true inside))

theorem find?_writeFinish : (approvals.writeFinish failNext id outcome).2.find? other =
    if failNext then approvals.find? other
    else approvals.changed id [.queued, .resuming] (·.consumedBy outcome) other := by
  unfold writeFinish
  split
  · rfl
  · split
    next absent => exact find?_eq_changed_of_absent absent
    next stored =>
      split
      · exact Table.find?_updateWhere (by intro; rfl)
      next outside => exact find?_eq_changed stored outside

section

variable (apart : other ≠ id)
include apart

theorem takeClaim_of_ne : (approvals.takeClaim id).2.find? other = approvals.find? other :=
  find?_takeClaim.trans (changed_of_ne apart)

theorem markResuming_of_ne : (approvals.markResuming id).2.find? other = approvals.find? other :=
  find?_markResuming.trans (changed_of_ne apart)

theorem returnResume_of_ne : (approvals.returnResume id).2.find? other = approvals.find? other :=
  find?_returnResume.trans (changed_of_ne apart)

theorem writeFinish_of_ne :
    (approvals.writeFinish failNext id outcome).2.find? other = approvals.find? other := by
  rw [find?_writeFinish]
  split
  · rfl
  · exact changed_of_ne apart

end

variable {record : ApprovalRecord} {approvalId fingerprint workspaceId : String} {params : Json}
  {tool : ApprovalTargetTool}

theorem takeClaim_execute (taken : (approvals.takeClaim id).1 = some (.ok (.execute record))) :
    ∃ row, approvals.find? id = some row ∧ (row.state = .granted ∨ row.state = .queued) ∧
      row.intoRecord = record ∧
      (approvals.takeClaim id).2.find? id = some { row with state := .queued } := by
  rw [find?_takeClaim]
  unfold takeClaim at taken
  split at taken
  · cases taken
  next row stored =>
    split at taken
    next granted =>
      cases taken
      exact ⟨row, stored, .inl granted, rfl, changed_self stored (by simp [granted])⟩
    next queued =>
      cases taken
      refine ⟨row, stored, .inr queued, rfl, ?_⟩
      rw [changed_of_state stored (by simp [queued]), ← queued]
    all_goals cases taken

theorem takeClaim_reconcile (taken : (approvals.takeClaim id).1 = some (.ok (.reconcile record))) :
    ∃ row, approvals.find? id = some row ∧ row.state = .resuming ∧ row.intoRecord = record ∧
      (approvals.takeClaim id).2.find? id = some row := by
  rw [find?_takeClaim]
  unfold takeClaim at taken
  split at taken
  · cases taken
  next row stored =>
    split at taken
    · cases taken
    · cases taken
    next resuming =>
      cases taken
      exact ⟨row, stored, resuming, rfl, changed_of_state stored (by simp [resuming])⟩
    all_goals cases taken

theorem markResuming_ok (marked : (approvals.markResuming id).1 = .ok ()) :
    ∃ row, approvals.find? id = some row ∧ (row.state = .queued ∨ row.state = .resuming) ∧
      (approvals.markResuming id).2.find? id = some { row with state := .resuming } := by
  rw [find?_markResuming]
  unfold markResuming at marked
  split at marked
  · cases marked
  next row stored =>
    split at marked
    next resuming =>
      refine ⟨row, stored, .inr resuming, ?_⟩
      rw [changed_of_state stored (by simp [resuming]), ← resuming]
    next queued => exact ⟨row, stored, .inl queued, changed_self stored (by simp [queued])⟩
    · cases marked

theorem createApproval_of_stored (stored : approvals.find? id = some row) :
    (approvals.createApproval approvalId workspaceId tool fingerprint params).2.find? id = some row := by
  unfold createApproval
  split
  · exact stored
  · dsimp only
    split
    next fits => exact Table.find?_insert?_of_stored fits stored
    · exact stored

theorem createApproval_opens (fresh : approvals.find? id = none)
    (stored : (approvals.createApproval approvalId workspaceId tool fingerprint params).2.find? id =
      some row) :
    row =
      { approvalId := approvalId, workspaceId := workspaceId, tool := tool
        fingerprint := fingerprint, paramsJson := params, state := .pending } := by
  unfold createApproval at stored
  split at stored
  · cases fresh.symm.trans stored
  · dsimp only at stored
    split at stored
    next fits =>
      rw [Table.find?_insert? fits] at stored
      split at stored
      · exact (Option.some.inj stored).symm
      · cases fresh.symm.trans stored
    · cases fresh.symm.trans stored

/-- What `resolve_approval` makes of a pending row. -/
def resolvedRow (decision : ApprovalDecision) (now : Nat) (row : ApprovalRow) : ApprovalRow :=
  match decision with
  | .grant => { row with state := .granted, resolvedAt := some now }
  | .deny => { row with state := .denied, resolvedAt := some now, paramsJson := row.scrubbed }

theorem find?_resolveApproval {decision : ApprovalDecision} {now : Nat} :
    (approvals.resolveApproval id decision now).2.find? other =
      approvals.changed id [.pending] (resolvedRow decision now) other := by
  unfold resolveApproval
  split
  next absent => exact find?_eq_changed_of_absent absent
  next stored =>
    split
    next unpending => exact find?_eq_changed stored (by simpa using unpending)
    · cases decision <;> exact Table.find?_updateWhere (by intro; rfl)

end Approvals

/-- What is left of a row that was resolved: its request and when it was resolved, and its arguments
until it is consumed. -/
structure RowLater (row next : ApprovalRow) : Prop where
  tool : next.tool = row.tool
  workspaceId : next.workspaceId = row.workspaceId
  resolvedAt : next.resolvedAt = row.resolvedAt
  state : next.state ≠ .pending
  params : next.state ≠ .consumed → next.paramsJson = row.paramsJson ∧ row.state ≠ .consumed

theorem RowLater.refl (resolved : row.state ≠ .pending) : RowLater row row :=
  ⟨rfl, rfl, rfl, resolved, fun open_ => ⟨rfl, open_⟩⟩

theorem RowStep.later (step : RowStep row next)
    (resolved : row.state ≠ .pending) : RowLater row next := by
  cases step with
  | kept => exact .refl resolved
  | granted _ pending | denied _ pending => exact absurd pending resolved
  | queued state | marked state | returned state =>
      exact ⟨rfl, rfl, rfl, by simp, fun _ => ⟨rfl, by simp [state]⟩⟩
  | consumed =>
      exact ⟨rfl, rfl, rfl, by simp [ApprovalRow.consumedBy], fun open_ => absurd rfl open_⟩

end CodeSpace.Store
