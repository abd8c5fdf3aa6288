import Mathlib.Data.List.Dedup
import CodeSpace.Server.ApprovalInvariant
import CodeSpace.Server.Decisions
import CodeSpace.Server.LedgerInvariant
import CodeSpace.Server.ResumeKnowledge

namespace CodeSpace.Server

open Data Domain Store

/-! How what the tasks know is carried along: by the steps of other tasks, and by their own. -/

variable {config : Config} {env : Environment} {before after : Shared} {trace : List Label}
  {label : Label} {touched : Option String} {id : String} {call : ResumeCall}
  {params : ApplyPatchParams} {pass : Pass} {record : ProcessRecord} {row : ApprovalRow} {task : Task}
  {tool : ApprovalTargetTool}

theorem loose_eq_nil (fewer : (loose (trace ++ [label]) id).Sublist (loose trace id))
    (spared : loose trace id = []) : loose (trace ++ [label]) id = [] :=
  List.eq_nil_of_sublist_nil (spared ▸ fewer)

theorem PatchStage.Knows.keep {stage : PatchStage} (knows : stage.Knows trace before id row params)
    (move : SharedMove config trace label before after touched)
    (fewer : (loose (trace ++ [label]) id).Sublist (loose trace id)) :
    stage.Knows (trace ++ [label]) after id row params := by
  cases stage with
  | waits | asks | admits | marks | begins => exact ⟨loose_eq_nil fewer knows.1, knows.2⟩
  | sends =>
      obtain ⟨spared, decoded, resuming, minted, begun⟩ := knows
      exact ⟨loose_eq_nil fewer spared, decoded, resuming, move.minted minted,
        move.begunAfter rfl minted begun⟩
  | awaits => exact fun send isLoose => knows send (fewer.subset isLoose)
  | abandons | givesBack => exact loose_eq_nil fewer knows
  | finishes | rejects | returns => trivial

theorem ExecStage.Knows.keep {stage : ExecStage} (knows : stage.Knows config trace before id row)
    (move : SharedMove config trace label before after touched)
    (fewer : (loose (trace ++ [label]) id).Sublist (loose trace id)) :
    stage.Knows config (trace ++ [label]) after id row := by
  cases stage with
  | waits | asks | admits | dispatches | recordsNotStarted | givesBack => exact loose_eq_nil fewer knows
  | sends =>
      obtain ⟨spared, resuming, recorded⟩ := knows
      exact ⟨loose_eq_nil fewer spared, resuming,
        fun independent => move.recordedFor (recorded independent)⟩
  | awaits => exact fun send isLoose => knows send (fewer.subset isLoose)
  | recordsRunning | returns => trivial

theorem Claimed.keep (claimed : Claimed before id tool row)
    (move : SharedMove config trace label before after touched) (apart : touched ≠ some id) :
    Claimed after id tool row :=
  ⟨move.approvals.row_of_ne apart claimed.stored claimed.resolved, claimed.resolved, claimed.tool⟩

theorem Reading.keep {record : ApprovalRecord} (reading : Reading before id record row)
    (move : SharedMove config trace label before after touched) (apart : touched ≠ some id) :
    Reading after id record row :=
  ⟨reading.toClaimed.keep move apart, reading.resuming, reading.read⟩

theorem ResumeCall.knows_keep (knows : call.stage.Knows config trace before call.approvalId)
    (move : SharedMove config trace label before after touched)
    (apart : call.isGuarding = true → touched ≠ some call.approvalId) :
    call.stage.Knows config (trace ++ [label]) after call.approvalId := by
  obtain ⟨_, stage⟩ := call
  cases stage with
  | patches | execs =>
      obtain ⟨resumes, row, claimed, inside⟩ := knows
      have other := apart rfl
      exact ⟨resumes, row, claimed.keep move other, inside.keep move (move.approvals.loose_of_ne other)⟩
  | looksUpKey =>
      obtain ⟨decoded, row, reading⟩ := knows
      exact ⟨decoded, row, reading.keep move (apart rfl)⟩
  | looksUpFingerprint =>
      obtain ⟨named, row, reading⟩ := knows
      exact ⟨named, row, reading.keep move (apart rfl)⟩
  | _ => trivial

theorem Pass.Knows.records_keep (knows : pass.Knows trace before)
    (move : SharedMove config trace label before after touched) (taken : record ∈ pass.records) :
    (∃ now, after.processes.find? record.processId = some now ∧ now.approvalId = record.approvalId) ∧
      (record.outcome = some .notStarted → record.processId ∈ disproved (trace ++ [label])) := by
  obtain ⟨⟨_, stored, same⟩, unstarted⟩ := knows.records taken
  obtain ⟨next, found, kept⟩ := move.records.kept stored
  exact ⟨⟨next, found, kept.trans same⟩, fun said => disproved_snoc_of_mem (unstarted said)⟩

theorem Pass.Knows.keep (knows : pass.Knows trace before)
    (move : SharedMove config trace label before after touched)
    (apart : ∀ id, pass.guarding = some id → touched ≠ some id) :
    pass.Knows (trace ++ [label]) after where
  records := knows.records_keep move
  links linked := disproved_snoc_of_mem (knows.links linked)
  ahead := knows.ahead
  stage := by
    have spared {id : String} (guards : pass.guarding = some id) (was : loose trace id = []) :
        loose (trace ++ [label]) id = [] :=
      loose_eq_nil (move.approvals.loose_of_ne (apart id guards)) was
    have known := knows.stage
    obtain ⟨_, _, _, _, _, _, stage⟩ := pass
    cases stage with
    | settleReads _ started =>
        cases started with
        | none => exact ⟨known.1, spared rfl known.2⟩
        | some => exact known
    | settleReturns => exact ⟨known.1, spared rfl known.2⟩
    | settleMarks _ started => cases started <;> exact known
    | _ => exact known

theorem Task.Knows.keep (knows : task.Knows config trace before)
    (move : SharedMove config trace label before after touched)
    (apart : ∀ id, task.guarding = some id → touched ≠ some id) :
    task.Knows config (trace ++ [label]) after where
  own := by
    have known := knows.own
    cases task with
    | patch | exec => exact known
    | resume call =>
        refine call.knows_keep known move fun guards => apart _ ?_
        simp only [Task.guarding, guards, if_true]
    | recovery => exact ⟨known.1, known.2.keep move apart⟩
  unstarted executes stage := disproved_snoc_of_mem (knows.unstarted executes stage)

section Own

theorem loose_of_quiet (unsent : label.report.send? = none) :
    (loose (trace ++ [label]) id).Sublist (loose trace id) :=
  loose_snoc_of_unsent fun send isSent => by simp [unsent] at isSent

theorem loose_of_sent {send : Send} (spared : loose trace id = []) (reported : label.report = .sent send) :
    ∀ other ∈ loose (trace ++ [label]) id, other = send := by
  intro other isLoose
  have listed : (loose (trace ++ [label]) id).Sublist (loose trace id ++
      label.report.send?.toList.filter fun send => send.approval = some id) := loose_snoc_sublist
  rw [spared, reported, List.nil_append] at listed
  exact List.mem_singleton.mp (List.mem_of_mem_filter (listed.subset isLoose))

theorem loose_of_disproved {requestId : String}
    (only : ∀ send ∈ loose trace id, send.request.id = requestId)
    (reported : label.report = .disproved requestId) : loose (trace ++ [label]) id = [] := by
  refine List.eq_nil_iff_forall_not_mem.mpr fun send isLoose => ?_
  have unsent : label.report.send? = none := by
    rw [reported]
    rfl
  have named := only send ((loose_of_quiet unsent).subset isLoose)
  have acted := (mem_loose.mp isLoose).2.2
  simp [reported, Report.disproved?, named] at acted

section

variable (claimed : Claimed before id tool row)
include claimed

theorem Claimed.later {approvals : Approvals}
    (rows : RowsStep (fun _ => False) before.approvals approvals) :
    ∃ next, approvals.find? id = some next ∧ next.state ≠ .pending ∧ next.tool = tool := by
  obtain ⟨next, found, moved⟩ := rows.kept claimed.stored
  have later := moved.later claimed.resolved
  exact ⟨next, found, later.state, later.tool.trans claimed.tool⟩

theorem Claimed.same (approvals : after.approvals = before.approvals) : Claimed after id tool row :=
  ⟨approvals ▸ claimed.stored, claimed.resolved, claimed.tool⟩

theorem Claimed.mark (approvals : after.approvals = (before.approvals.markResuming id).2)
    (marked : (before.approvals.markResuming id).1 = .ok ()) :
    Claimed after id tool { row with state := .resuming } := by
  obtain ⟨_, stored, _, found⟩ := Approvals.markResuming_ok marked
  cases claimed.stored.symm.trans stored
  exact ⟨approvals ▸ found, by simp, claimed.tool⟩

end

variable {epoch : Option Nat}

theorem PatchCall.afterAnswer_knows {operationId : String} {answer : Except RunnerError Applied}
    (only : ∀ send ∈ loose trace id, send.request.id = operationId)
    (reported : label.report = answerReport operationId answer) :
    (afterAnswer operationId answer).Knows (trace ++ [label]) after id row params := by
  unfold afterAnswer
  split
  · trivial
  · split
    next refused =>
      refine loose_of_disproved only ?_
      rw [reported, answerReport, if_pos refused]
    · trivial
  all_goals trivial

theorem PatchCall.advance_knows {call : PatchCall}
    (resumes : call.resume = some id) (claimed : Claimed before id .applyPatch row)
    (knows : call.stage.Knows trace before id row call.params)
    (holds : ApprovalsOnce config trace before)
    (reported : label.report = (call.advance config before env).report) :
    ∃ next, Claimed (call.advance config before env).shared id .applyPatch next ∧
      (call.advance config before env).stage.Knows (trace ++ [label])
        (call.advance config before env).shared id next call.params := by
  obtain ⟨params, _, stage⟩ := call
  subst resumes
  have quiet (unsent : label.report.send? = none) (spared : loose trace id = []) :
      loose (trace ++ [label]) id = [] := loose_eq_nil (loose_of_quiet unsent) spared
  cases stage with
  | waits | asks =>
      refine ⟨row, claimed, ?_⟩
      dsimp only [PatchCall.advance]
      split
      · trivial
      · exact ⟨quiet (by rw [reported]; rfl) knows.1, knows.2⟩
  | admits =>
      refine ⟨row, claimed.same rfl, ?_⟩
      dsimp only [PatchCall.advance, PatchCall.after]
      split
      · exact ⟨quiet (by rw [reported]; rfl) knows.1, knows.2⟩
      · trivial
  | marks =>
      cases marked : (before.approvals.markResuming id).1 with
      | ok =>
          refine ⟨_, claimed.mark rfl marked, ?_⟩
          dsimp only [PatchCall.advance, markFor]
          rw [marked]
          exact ⟨quiet (by rw [reported]; rfl) knows.1, knows.2, rfl⟩
      | error =>
          obtain ⟨next, found, resolved, tool⟩ :=
            claimed.later (Approvals.markResuming_rowsStep before.approvals id)
          refine ⟨next, ⟨found, resolved, tool⟩, ?_⟩
          dsimp only [PatchCall.advance, markFor]
          rw [marked]
          trivial
  | begins =>
      refine ⟨row, claimed.same rfl, ?_⟩
      obtain ⟨_, _, begun, spec⟩ := begin_cases config before env params
      dsimp only [PatchCall.advance]
      simp only [begun]
      cases spec with
      | conflict | replayed | taken => trivial
      | fresh _ inserted =>
          refine ⟨quiet (by rw [reported]; rfl) knows.1, knows.2.1, knows.2.2, List.mem_cons_self,
            fun operation stored => ?_⟩
          cases stored.symm.trans ((Table.find?_insert? inserted).trans (if_pos rfl))
          exact holds.resolved claimed.stored
  | sends =>
      refine ⟨row, claimed, fun send isLoose => ?_⟩
      rw [loose_of_sent knows.1 reported send isLoose]
      rfl
  | awaits => exact ⟨row, claimed, afterAnswer_knows knows reported⟩
  | finishes =>
      refine ⟨row, claimed.same rfl, ?_⟩
      dsimp only [PatchCall.advance, PatchCall.after]
      split <;> trivial
  | abandons => exact ⟨row, claimed.same rfl, quiet (by rw [reported]; rfl) knows⟩
  | givesBack =>
      obtain ⟨next, found, resolved, tool⟩ :=
        claimed.later (Approvals.returnResume_rowsStep before.approvals id)
      exact ⟨next, ⟨found, resolved, tool⟩, trivial⟩
  | rejects => exact ⟨row, claimed.same rfl, trivial⟩
  | returns => exact ⟨row, claimed, trivial⟩

variable {processId : String} {gateway : Gateway} {next : Task} {decision : Decision} {written : Bool}
  {rest : List String} {inner : ExecCall}

/-- An execution is sent only once its approval is marked, and recorded where executions are. -/
theorem ExecCall.dispatch_knows {params : ExecCommandParams}
    (claimed : Claimed before id .execCommand row)
    (dispatched : (dispatch config before ⟨params, some id, .dispatches processId epoch⟩ processId
      epoch).1 = .ok ())
    (approvals : after.approvals = (dispatch config before
      ⟨params, some id, .dispatches processId epoch⟩ processId epoch).2.1)
    (processes : after.processes = (dispatch config before
      ⟨params, some id, .dispatches processId epoch⟩ processId epoch).2.2) :
    Claimed after id .execCommand { row with state := .resuming } ∧
      (config.independent = true → RecordedFor after.processes id processId) := by
  unfold dispatch at dispatched approvals processes
  split at dispatched
  next independent =>
    rw [if_pos independent] at approvals processes
    split at dispatched
    next recorded =>
      rw [recorded] at approvals processes
      obtain ⟨_, isMarked, inserted⟩ := bind_eq_ok.mp recorded
      obtain ⟨_, ok, rfl⟩ := map_eq_ok.mp isMarked
      split at inserted
      next fits =>
        cases inserted
        refine ⟨claimed.mark approvals ok, fun _ => ?_⟩
        refine ⟨(ExecCall.record ⟨params, some id, .dispatches processId epoch⟩ before.runner
          processId epoch).stored, ?_, rfl⟩
        rw [processes]
        exact (Table.find?_insert? fits).trans (if_pos rfl)
      · contradiction
    · cases dispatched
  next direct =>
    rw [if_neg direct] at approvals
    exact ⟨claimed.mark approvals dispatched, fun independent => absurd independent direct⟩

theorem ExecCall.afterAnswer_knows
    {answer : Except RunnerError Started} (only : ∀ send ∈ loose trace id, send.request.id = processId)
    (reported : label.report = answerReport processId answer) (hint : Option CoordinationHint) :
    (afterAnswer processId hint answer).Knows config (trace ++ [label]) after id row := by
  cases answer with
  | ok => trivial
  | error error =>
      cases error with
      | transportAmbiguous => trivial
      | execution | transportBeforeDispatch => exact loose_of_disproved only reported

theorem ExecCall.advance_knows {call : ExecCall}
    (resumes : call.resume = some id) (claimed : Claimed before id .execCommand row)
    (knows : call.stage.Knows config trace before id row)
    (reported : label.report = (call.advance config before env).report) :
    ∃ next, Claimed (call.advance config before env).shared id .execCommand next ∧
      (call.advance config before env).stage.Knows config (trace ++ [label])
        (call.advance config before env).shared id next := by
  obtain ⟨params, _, stage⟩ := call
  subst resumes
  have quiet (unsent : label.report.send? = none) (spared : loose trace id = []) :
      loose (trace ++ [label]) id = [] := loose_eq_nil (loose_of_quiet unsent) spared
  cases stage with
  | waits | asks processId =>
      refine ⟨row, claimed.same rfl, ?_⟩
      dsimp only [ExecCall.advance]
      split
      · trivial
      · exact quiet (by rw [reported]; rfl) knows
  | admits =>
      refine ⟨row, claimed.same rfl, ?_⟩
      dsimp only [ExecCall.advance, ExecCall.after]
      split
      · exact quiet (by rw [reported]; rfl) knows
      · trivial
  | dispatches processId epoch =>
      cases dispatched : (dispatch config before ⟨params, some id, .dispatches processId epoch⟩
          processId epoch).1 with
      | ok =>
          have marked : Claimed (ExecCall.advance config before env
              ⟨params, some id, .dispatches processId epoch⟩).shared id .execCommand
                { row with state := .resuming } ∧
              (config.independent = true → RecordedFor (ExecCall.advance config before env
                ⟨params, some id, .dispatches processId epoch⟩).shared.processes id processId) :=
            dispatch_knows claimed dispatched rfl rfl
          refine ⟨_, marked.1, ?_⟩
          dsimp only [ExecCall.advance]
          rw [dispatched]
          exact ⟨quiet (by rw [reported]; rfl) knows, rfl, marked.2⟩
      | error =>
          have rows : RowsStep (fun _ => False) before.approvals (dispatch config before
              ⟨params, some id, .dispatches processId epoch⟩ processId epoch).2.1 := by
            have left : (dispatch config before ⟨params, some id, .dispatches processId epoch⟩
              processId epoch).2.1 = _ ∨ _ = _ := dispatch_resume before processId epoch rfl
            rcases left with same | marked
            · rw [same]
              exact .refl _
            · rw [marked]
              exact Approvals.markResuming_rowsStep _ _
          obtain ⟨next, found, resolved, tool⟩ := claimed.later rows
          refine ⟨next, ⟨found, resolved, tool⟩, ?_⟩
          dsimp only [ExecCall.advance]
          rw [dispatched]
          trivial
  | sends =>
      refine ⟨row, claimed, fun send isLoose => ?_⟩
      rw [loose_of_sent knows.1 reported send isLoose]
      rfl
  | awaits => exact ⟨row, claimed, afterAnswer_knows knows reported env.hint⟩
  | recordsNotStarted =>
      refine ⟨row, claimed.same rfl, ?_⟩
      dsimp only [ExecCall.advance]
      split
      · exact quiet (by rw [reported]; rfl) knows
      · trivial
  | givesBack =>
      obtain ⟨next, found, resolved, tool⟩ :=
        claimed.later (Approvals.returnResume_rowsStep before.approvals id)
      exact ⟨next, ⟨found, resolved, tool⟩, trivial⟩
  | recordsRunning => exact ⟨row, claimed.same rfl, trivial⟩
  | returns => exact ⟨row, claimed, trivial⟩

theorem ResumeCall.execute_knows {record : ApprovalRecord}
    (stored : after.approvals.find? id = some row) (resolved : row.state ≠ .pending)
    (tool : row.tool = record.tool) (params : row.paramsJson = record.paramsJson)
    (named : record.approvalId = id) (spared : loose trace id = []) :
    (execute config record).Knows config trace after id := by
  unfold execute
  split
  next isPatch =>
    split
    next decoded =>
      exact ⟨congrArg some named, row, ⟨stored, resolved, tool.trans isPatch⟩, spared, params ▸ decoded⟩
    · trivial
  next isExec =>
    split
    · exact ⟨congrArg some named, row, ⟨stored, resolved, tool.trans isExec⟩, spared⟩
    · trivial

theorem ResumeCall.reconcile_knows {record : ApprovalRecord}
    (stored : after.approvals.find? id = some row) (resuming : row.state = .resuming)
    (read : row.intoRecord = record) : (reconcile config record).Knows config trace after id := by
  have reading (isPatch : record.tool = .applyPatch) : Reading after id record row := by
    refine ⟨⟨stored, by simp [resuming], ?_⟩, resuming, read⟩
    rw [← isPatch, ← read]
    rfl
  unfold reconcile
  split
  · trivial
  next isPatch =>
    split
    next decoded =>
      split
      · exact ⟨decoded, row, reading isPatch⟩
      · refine ⟨fun other alsoDecoded => ?_, row, reading isPatch⟩
        cases decoded.symm.trans alsoDecoded
        rfl
    next undecoded =>
      refine ⟨fun other alsoDecoded => ?_, row, reading isPatch⟩
      cases undecoded.symm.trans alsoDecoded

theorem ResumeCall.claim_knows (holds : ApprovalsOnce config trace before)
    (left : after.approvals = (before.approvals.takeClaim id).2)
    (unsent : label.report.send? = none) :
    (afterClaim config (before.approvals.takeClaim id).1).Knows config (trace ++ [label]) after id := by
  unfold afterClaim
  split
  case h_5 record taken =>
    obtain ⟨row, stored, claimable, read, found⟩ := Approvals.takeClaim_execute taken
    have named := (Table.find?_eq_some.mp stored).2
    have spared : loose trace id = [] := by
      refine holds.spare fun other alsoStored => ?_
      cases stored.symm.trans alsoStored
      rcases claimable with state | state <;> simp [state]
    subst read
    rw [← left] at found
    exact execute_knows found nofun rfl rfl named (loose_eq_nil (loose_of_quiet unsent) spared)
  case h_6 record taken =>
    obtain ⟨_, _, resuming, read, found⟩ := Approvals.takeClaim_reconcile taken
    exact reconcile_knows (left ▸ found) resuming read
  all_goals trivial

/-- A patch that was sent for the approval and not disproved is found by its fingerprint. -/
theorem ResumeCall.found_by_fingerprint
    {record : ApprovalRecord} {fingerprint : String} (ledger : Ledger config trace gateway)
    (holds : ApprovalsOnce config trace gateway.shared) (reading : Reading gateway.shared id record row)
    (named : ∀ params, ApplyPatchParams.codec.decode record.paramsJson = some params →
      fingerprint = config.fingerprint (.applyPatch params))
    (absent : gateway.shared.operations.findOperationByFingerprint record.workspaceId fingerprint
      record.resolvedAt = none) : loose trace id = [] := by
  refine List.eq_nil_iff_forall_not_mem.mpr fun send isLoose => ?_
  obtain ⟨isSent, approval, acted⟩ := mem_loose.mp isLoose
  obtain ⟨other, stored, _, isFor⟩ := holds.sentFor isSent approval
  cases reading.stored.symm.trans stored
  have read := reading.read
  subst read
  cases request : send.request with
  | exec =>
      rw [request] at isFor
      have tools := reading.tool.symm.trans isFor.1
      contradiction
  | applyPatch _ params =>
      rw [request] at isFor acted
      obtain ⟨_, decoded, _, begun⟩ := isFor
      have sameParams := decoded (by simp [reading.resuming])
      obtain ⟨operation, found, begunFor⟩ := ledger.held isSent request acted
      obtain ⟨arguments, json, tool, workspaceId⟩ :=
        holds.arguments stored (by rw [reading.resuming]; rfl)
      have workspace : row.workspaceId = params.workspaceId := by
        cases arguments with
        | applyPatch other =>
            rw [json] at sameParams
            cases (ApplyPatchParams.codec.decode_encode other).symm.trans sameParams
            exact workspaceId
        | execCommand => cases reading.tool.symm.trans tool
      refine Operations.findOperationByFingerprint_of_matching found ?_ absent
      simpa [Operations.matching, begunFor.workspace, begunFor.fingerprint, named params sameParams,
        ← workspace, ApprovalRow.intoRecord] using begun operation found

theorem ResumeCall.advance_knows (knows : call.stage.Knows config trace gateway.shared call.approvalId)
    (ledger : Ledger config trace gateway) (holds : ApprovalsOnce config trace gateway.shared)
    (reported : label.report = (call.advance config gateway.shared env).report) :
    (call.advance config gateway.shared env).stage.Knows config (trace ++ [label])
      (call.advance config gateway.shared env).shared call.approvalId := by
  obtain ⟨_, stage⟩ := call
  cases stage with
  | claimTakes => exact claim_knows holds rfl (by rw [reported]; rfl)
  | patches inner =>
      obtain ⟨resumes, row, claimed, inside⟩ := knows
      have next (own : label.report = (inner.advance config gateway.shared env).report) :=
        inner.advance_knows resumes claimed inside holds own
      obtain ⟨params, resume, stage⟩ := inner
      cases stage with
      | returns => trivial
      | _ => exact ⟨resumes, next reported⟩
  | execs inner =>
      obtain ⟨resumes, row, claimed, inside⟩ := knows
      have next (own : label.report = (inner.advance config gateway.shared env).report) :=
        inner.advance_knows resumes claimed inside own
      obtain ⟨_, _, stage⟩ := inner
      cases stage with
      | returns => trivial
      | _ => exact ⟨resumes, next reported⟩
  | looksUpKey =>
      obtain ⟨decoded, row, reading⟩ := knows
      dsimp only [advance, afterKey]
      split
      · trivial
      · split
        · refine ⟨fun other alsoDecoded => ?_, row, reading⟩
          cases decoded.symm.trans alsoDecoded
          rfl
        · trivial
  | looksUpFingerprint =>
      obtain ⟨named, _, reading⟩ := knows
      dsimp only [advance, afterFingerprint]
      split
      · trivial
      next absent =>
        split
        · trivial
        · have spared := found_by_fingerprint ledger holds reading named absent
          refine execute_knows reading.stored reading.resolved ?_ ?_ ?_
            (loose_eq_nil (loose_of_quiet (by rw [reported]; rfl)) spared)
          · rw [← reading.read]
            rfl
          · rw [← reading.read]
            rfl
          · rw [← reading.read]
            exact (Table.find?_eq_some.mp reading.stored).2
  | asks | looks _ | admits _ _ | claims | claimMarks | looksUpId _ _ | readsRecords _ | commits _ =>
      dsimp only [advance, commitStored, afterRecords, afterRead]
      split <;> trivial
  | _ => trivial

/-- What a step of the reconciliation adds to the links it has made. -/
theorem Pass.link_disproved (knows : pass.Knows trace before) (taken : record ∈ pass.records)
    (settled : decision = .settled false → record.outcome = some .notStarted)
    (linked : decision.link record.processId written = .notStarted)
    (reported : label.report = applyReport record.processId written decision) :
    record.processId ∈ disproved (trace ++ [label]) := by
  cases decision with
  | notStarted =>
      cases written with
      | true => simp [reported, applyReport, Report.disproved?]
      | false => contradiction
  | settled started =>
      cases started with
      | true => contradiction
      | false => exact disproved_snoc_of_mem ((knows.records taken).2 (settled rfl))
  | running | ended | pending | blocked => contradiction

/-- An approval all of whose executions the reconciliation took up and found not started. -/
theorem Pass.spared_of_covers (knows : pass.Knows trace before)
    (holds : ApprovalsOnce config trace before) (independent : config.independent = true)
    (stage : pass.stage = .settleMarks id none rest) (covers : pass.covers before id = true) :
    loose trace id = [] := by
  have known := knows.stage
  rw [stage] at known
  obtain ⟨linked, unstarted⟩ := known
  obtain ⟨_, taken, isFor⟩ := knows.ahead (by rw [stage]; exact List.mem_cons_self)
  obtain ⟨⟨_, stored, same⟩, _⟩ := knows.records taken
  obtain ⟨_, found, _, isExec⟩ := (holds.records stored).1 id (same.trans isFor)
  refine List.eq_nil_iff_forall_not_mem.mpr fun send isLoose => ?_
  obtain ⟨isSent, approval, acted⟩ := mem_loose.mp isLoose
  obtain ⟨_, alsoFound, _, sentFor⟩ := holds.sentFor isSent approval
  cases found.symm.trans alsoFound
  cases request : send.request with
  | applyPatch =>
      rw [request] at sentFor
      cases isExec.symm.trans sentFor.1
  | exec =>
      rw [request] at sentFor acted
      obtain ⟨execution, recorded, itsApproval⟩ := sentFor.2 independent
      obtain ⟨member, named⟩ := Table.find?_eq_some.mp recorded
      have listed : execution ∈ before.processes.recordsOfApproval id :=
        List.mem_filter.mpr ⟨member, decide_eq_true itsApproval⟩
      obtain ⟨_, isTaken, same⟩ := List.any_eq_true.mp (List.all_eq_true.mp covers _ listed)
      have sameId := (of_decide_eq_true same).trans named
      obtain ⟨⟨_, isStored, kept⟩, _⟩ := knows.records isTaken
      rw [sameId] at isStored
      cases recorded.symm.trans isStored
      rw [← linked] at isTaken
      obtain ⟨⟨_, link⟩, isLinked, rfl⟩ := List.mem_map.mp isTaken
      have isOurs : link ∈ linksOf pass.links id :=
        List.mem_map_of_mem (List.mem_filter.mpr ⟨isLinked, decide_eq_true (kept.symm.trans itsApproval)⟩)
      rw [unstarted link isOurs] at isLinked
      exact acted (sameId ▸ knows.links isLinked)

theorem Pass.read_records {epoch : Nat} (holds : ApprovalsOnce config trace before)
    (read : record ∈ before.processes.recordsToReconcile before.approvals before.runner epoch) :
    (∃ now, before.processes.find? record.processId = some now ∧ now.approvalId = record.approvalId) ∧
      (record.outcome = some .notStarted → record.processId ∈ disproved trace) := by
  have stored := Table.find?_of_mem (List.mem_of_mem_filter read)
  exact ⟨⟨record, stored, rfl⟩, (holds.records stored).2⟩

theorem Pass.mem_resumed {links : List (ProcessRecord × Link)} (resumed_ : id ∈ resumed links) :
    ∃ record ∈ links.map Prod.fst, record.approvalId = some id := by
  rw [resumed, List.mem_insertionSort, List.mem_dedup] at resumed_
  obtain ⟨link, linked, isFor⟩ := List.mem_filterMap.mp resumed_
  exact ⟨link.1, List.mem_map_of_mem linked, isFor⟩

theorem Pass.settle_knows (knows : pass.Knows trace before) (stage : pass.stage = .settles (id :: rest)) :
    Knows trace before { pass with stage := pass.settle before id rest } := by
  have staged := knows.stage
  have ahead {other : String} (left : other ∈ id :: rest) :
      ∃ record ∈ pass.records, record.approvalId = some other := knows.ahead (by rwa [stage])
  rw [stage] at staged
  have others : Knows trace before { pass with stage := .settles rest } :=
    ⟨knows.records, knows.links, fun left => ahead (List.mem_cons_of_mem _ left), staged⟩
  unfold settle
  split
  · split
    · exact ⟨knows.records, knows.links, ahead, staged⟩
    · split
      next unstarted =>
        refine ⟨knows.records, knows.links, ahead, staged, fun link linked => ?_⟩
        exact of_decide_eq_true (List.all_eq_true.mp unstarted link linked)
      · exact others
  · exact others

theorem Pass.apply_knows {rest : List (ProcessRecord × Decision)} {bars : Bars}
    (knows : pass.Knows (trace ++ [label]) after) (earlier : pass.Knows trace before)
    (stage : pass.stage = .applies ((record, decision) :: rest))
    (reported : label.report = applyReport record.processId written decision) :
    Knows (trace ++ [label]) after
      { pass with
        links := pass.links ++ [(record, decision.link record.processId written)]
        bars := bars
        stage := .applies rest } := by
  have staged := knows.stage
  rw [stage] at staged
  obtain ⟨listed, settled⟩ := staged
  have taken : record ∈ pass.records := by
    rw [← listed]
    simp
  refine ⟨knows.records, fun {other} linked => ?_, nofun, ?_, ?_⟩
  · rcases List.mem_append.mp linked with known | new
    · exact knows.links known
    · simp only [List.mem_singleton, Prod.mk.injEq] at new
      obtain ⟨rfl, link⟩ := new
      exact link_disproved earlier taken
        (fun same => settled other (same ▸ List.mem_cons_self)) link.symm reported
  · simpa using listed
  · exact fun other decided => settled other (List.mem_cons_of_mem _ decided)

/-- What is known of the records that were taken up, as long as no record changes. -/
theorem Pass.Knows.records_snoc (knows : pass.Knows trace before) (label : Label)
    (taken : record ∈ pass.records) :
    (∃ now, before.processes.find? record.processId = some now ∧ now.approvalId = record.approvalId) ∧
      (record.outcome = some .notStarted → record.processId ∈ disproved (trace ++ [label])) :=
  (knows.records taken).imp_right fun unstarted said => disproved_snoc_of_mem (unstarted said)

theorem Pass.reads_knows (knows : pass.Knows trace before) (holds : ApprovalsOnce config trace before)
    (stage : pass.stage = .reads) :
    (pass.advance config before env).stage.Knows (trace ++ [label])
      (pass.advance config before env).shared := by
  have staged := knows.stage
  rw [stage] at staged
  have links {record : ProcessRecord} (linked : (record, Link.notStarted) ∈ pass.links) :
      record.processId ∈ disproved (trace ++ [label]) := disproved_snoc_of_mem (knows.links linked)
  rw [advance, stage]
  dsimp only [Shared.readRecords]
  split
  · exact ⟨knows.records_snoc label, links, nofun, trivial⟩
  · split
    · exact ⟨knows.records_snoc label, links, nofun, trivial⟩
    next read =>
      split at read
      · contradiction
      · cases read
        refine ⟨fun isTaken => ?_, links, nofun, staged⟩
        exact (read_records holds isTaken).imp_right fun unstarted said =>
          disproved_snoc_of_mem (unstarted said)

/-- A decision that leaves a record as settled without a start was made on a record that says so. -/
theorem Pass.decided_settled {devguard : Bool} {ours : RunnerRef} {losses : Losses}
    {recalled : Except String (List (String × Recalled))}
    {attempts : List (String × Attempt)} {records : List ProcessRecord}
    (decided : (record, Decision.settled false) ∈
      records.map fun record => (record, decideFor devguard ours losses recalled attempts record)) :
    record.outcome = some .notStarted := by
  obtain ⟨other, _, same⟩ := List.mem_map.mp decided
  injection same with sameRecord settled
  have decided := decideFor_decided devguard ours losses recalled attempts other
  rw [settled, sameRecord] at decided
  simpa using decided.settled_started.2

theorem Pass.advance_knows (knows : pass.Knows trace before)
    (holds : ApprovalsOnce config trace before) (independent : config.independent = true)
    (known : ∀ id rest, pass.stage = .settleMarks id none rest → pass.covers before id = true)
    (move : SharedMove config trace label before (pass.advance config before env).shared touched)
    (reported : label.report = (pass.advance config before env).report) :
    (pass.advance config before env).stage.Knows (trace ++ [label])
      (pass.advance config before env).shared := by
  have records {record : ProcessRecord} : record ∈ pass.records → _ := knows.records_keep move
  have unmoved {record : ProcessRecord} : record ∈ pass.records → _ := knows.records_snoc label
  have links {record : ProcessRecord} (linked : (record, Link.notStarted) ∈ pass.links) :
      record.processId ∈ disproved (trace ++ [label]) := disproved_snoc_of_mem (knows.links linked)
  have quiet {id : String} (unsent : label.report.send? = none) (spared : loose trace id = []) :
      loose (trace ++ [label]) id = [] := loose_eq_nil (loose_of_quiet unsent) spared
  have nothing {id : String} {Fact : Prop} (left : id ∈ ([] : List String)) : Fact :=
    absurd left List.not_mem_nil
  have staged := knows.stage
  have ahead {id : String} (left : id ∈ pass.stage.ahead) :
      ∃ record ∈ pass.records, record.approvalId = some id := knows.ahead left
  have spares {id : String} {rest : List String} (stage : pass.stage = .settleMarks id none rest) :=
    spared_of_covers knows holds independent stage (known id rest stage)
  obtain ⟨_, taken, _, _, made, _, stage⟩ := pass
  cases stage with
  | accounts => exact ⟨records, links, nothing, staged⟩
  | reads => exact reads_knows knows holds rfl
  | loses runners => cases runners <;> exact ⟨records, links, nothing, staged⟩
  | asks =>
      refine ⟨records, links, nothing, ?_, fun record decided => decided_settled decided⟩
      rw [show made = [] from staged]
      simp [advance, Function.comp_def]
  | applies decided =>
      cases decided with
      | nil =>
          obtain ⟨listed, _⟩ := staged
          rw [List.map_nil, List.append_nil] at listed
          exact ⟨records, links, fun isResumed => listed ▸ mem_resumed isResumed, listed⟩
      | cons => exact apply_knows ⟨records, links, nothing, staged⟩ knows rfl reported
  | settles approvals =>
      cases approvals with
      | nil => exact ⟨records, links, nothing, trivial⟩
      | cons =>
          dsimp only [advance]
          split
          · exact ⟨records, links, fun left => ahead (List.mem_cons_of_mem _ left), staged⟩
          · exact settle_knows ⟨records, links, ahead, staged⟩ rfl
  | settleMarks _ started =>
      dsimp only [advance]
      split
      · refine ⟨unmoved, links, fun left => ahead (List.mem_cons_of_mem _ left), ?_⟩
        cases started with
        | none => exact staged.1
        | some => exact staged
      · refine ⟨unmoved, links, ahead, ?_⟩
        cases started with
        | none =>
            refine ⟨staged.1, quiet ?_ (spares rfl)⟩
            rw [reported]
            dsimp only [advance]
            split <;> rfl
        | some => exact staged
  | settleReads _ started =>
      have listed : made.map Prod.fst = taken := by
        cases started with
        | none => exact staged.1
        | some => exact staged
      dsimp only [advance]
      split
      · exact ⟨records, links, ahead, listed⟩
      · split
        · exact ⟨records, links, ahead, listed⟩
        · cases started with
          | none => exact ⟨records, links, ahead, listed, quiet (by rw [reported]; rfl) staged.2⟩
          | some => exact ⟨records, links, ahead, listed⟩
  | settleFinishes =>
      dsimp only [advance]
      split <;> exact ⟨records, links, ahead, staged⟩
  | settleReturns => exact ⟨records, links, ahead, staged.1⟩
  | settleFinishWrites => exact ⟨records, links, ahead, staged⟩
  | settleEnds => exact ⟨records, links, fun left => ahead (List.mem_cons_of_mem _ left), staged⟩
  | tells | ended => exact ⟨records, links, nothing, trivial⟩

theorem ExecCall.advance_unstarted {call : ExecCall} {error : ErrorBody}
    (stage : (call.advance config before env).stage = .recordsNotStarted processId error) :
    (call.advance config before env).report = .disproved processId := by
  obtain ⟨_, _, current⟩ := call
  cases current with
  | awaits =>
      dsimp only [advance, afterAnswer] at stage ⊢
      cases answer : env.exec with
      | ok =>
          rw [answer] at stage
          contradiction
      | error error =>
          rw [answer] at stage
          cases error with
          | transportAmbiguous => contradiction
          | _ =>
              cases stage
              rfl
  | waits | asks | recordsNotStarted =>
      dsimp only [advance] at stage
      split at stage <;> contradiction
  | admits | dispatches =>
      dsimp only [advance, after] at stage
      split at stage <;> contradiction
  | sends | recordsRunning | givesBack | returns => contradiction

theorem ResumeStage.Begins.executing {stage : ResumeStage} (begins : stage.Begins)
    (id : String) (executes : (Task.resume ⟨id, stage⟩).executing = some inner) :
    inner.stage = .waits := by
  cases stage with
  | execs =>
      cases executes
      exact begins
  | _ => contradiction

/-- The execution that a section of a task leaves running: one that just began, or one whose section it
was. -/
theorem Task.advance_executing (stage : (task.advance config before env).stage = some next)
    (executes : next.executing = some inner) :
    inner.stage = .waits ∨ ∃ old, task.executing = some old ∧
      inner.stage = (old.advance config before env).stage ∧
      (task.advance config before env).report = (old.advance config before env).report := by
  cases task with
  | patch call =>
      obtain ⟨params, resume, current⟩ := call
      cases current with
      | returns => contradiction
      | _ =>
          cases stage
          contradiction
  | exec call =>
      obtain ⟨params, resume, current⟩ := call
      cases current with
      | returns => contradiction
      | _ =>
          cases stage
          cases executes
          exact .inr ⟨_, rfl, rfl, rfl⟩
  | resume call =>
      have begins (unpatched : ∀ inner, call.stage ≠ .patches inner)
          (unexecuted : ∀ inner, call.stage ≠ .execs inner) :
          (call.advance config before env).stage.Begins :=
        call.advance_begins before unpatched unexecuted
      obtain ⟨id, current⟩ := call
      cases current with
      | patches call =>
          obtain ⟨params, resume, current⟩ := call
          cases current <;> cases stage <;> contradiction
      | execs call =>
          obtain ⟨_, _, current⟩ := call
          cases current with
          | returns =>
              cases stage
              contradiction
          | _ =>
              cases stage
              cases executes
              exact .inr ⟨_, rfl, rfl, rfl⟩
      | answers => contradiction
      | _ =>
          cases stage
          exact .inl ((begins (fun _ same => by contradiction)
            fun _ same => by contradiction).executing id executes)
  | recovery =>
      dsimp only [Task.advance] at stage
      split at stage
      · contradiction
      · cases stage
        contradiction

theorem Task.resume_advance (stage : ((Task.resume call).advance config before env).stage = some next) :
    (Task.resume call).advance config before env =
      { report := (call.advance config before env).report
        shared := (call.advance config before env).shared
        stage := some (.resume { call with stage := (call.advance config before env).stage }) } := by
  obtain ⟨_, current⟩ := call
  cases current with
  | answers => contradiction
  | _ => rfl

theorem Task.recovery_advance
    (stage : ((Task.recovery pass).advance config before env).stage = some next) :
    (Task.recovery pass).advance config before env =
      { report := (pass.advance config before env).report
        shared := (pass.advance config before env).shared
        stage := some (.recovery (pass.advance config before env).stage) } := by
  dsimp only [Task.advance] at stage ⊢
  split at stage
  · contradiction
  · rfl

theorem Task.advance_knows
    (knows : task.Knows config trace gateway.shared) (ledger : Ledger config trace gateway)
    (holds : ApprovalsOnce config trace gateway.shared)
    (known : ∀ pass id rest, task = .recovery pass → pass.stage = .settleMarks id none rest →
      pass.covers gateway.shared id = true)
    (move : SharedMove config trace label gateway.shared
      (task.advance config gateway.shared env).shared touched)
    (reported : label.report = (task.advance config gateway.shared env).report)
    (stage : (task.advance config gateway.shared env).stage = some next) :
    next.Knows config (trace ++ [label]) (task.advance config gateway.shared env).shared where
  own := by
    have own := knows.own
    cases task with
    | patch call | exec call =>
        obtain ⟨_, resume, current⟩ := call
        cases current with
        | returns => contradiction
        | _ =>
            cases stage
            exact own
    | resume call =>
        have turn := resume_advance stage
        rw [turn] at stage reported ⊢
        cases stage
        exact call.advance_knows own ledger holds reported
    | recovery pass =>
        have turn := recovery_advance stage
        rw [turn] at stage reported move ⊢
        cases stage
        exact ⟨own.1, pass.advance_knows own.2 holds own.1 (fun id rest => known pass id rest rfl) move
          reported⟩
  unstarted {inner processId error} executes current := by
    rcases advance_executing stage executes with began | ⟨old, _, moved, same⟩
    · cases began.symm.trans current
    · rw [moved] at current
      have said := ExecCall.advance_unstarted current
      rw [← same, ← reported] at said
      simp [said, Report.disproved?]

end Own

end CodeSpace.Server
