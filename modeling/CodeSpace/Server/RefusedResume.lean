import CodeSpace.Server.ApprovalTurns

namespace CodeSpace.Server

open Data Domain Store Transition

/-! A resume that is refused before anything was done for it leaves its approval to be resumed again. -/

variable {config : Config} {env : Environment} {shared : Shared} {before after gateway : Gateway}
  {trace : List Label} {label : Label} {id : String} {error : ErrorBody} {call : ResumeCall}
  {row : ApprovalRow} {task : Task}

/-- The error is one with which the scheduler, the admission or a Runner refuses what it did not act
on. -/
def IsRefusal (error : ErrorBody) : Prop :=
  Approvals.leavesQueued (.error error) = true

instance (error : ErrorBody) : Decidable (IsRefusal error) :=
  inferInstanceAs (Decidable (_ = true))

def Resumable (state : ApprovalState) : Prop :=
  state = .granted ∨ state = .queued

/-- What a patch leaves of the approval it resumes, by the state of its row. -/
def PatchStage.Spares (state : ApprovalState) : PatchStage → Prop
  | .waits | .asks | .admits _ | .marks _ => state = .queued ∨ state = .resuming
  | .begins _ | .sends _ _ | .awaits _ | .finishes _ _ | .abandons _ _ | .givesBack _ =>
      state = .resuming
  | .rejects _ error => ¬ IsRefusal error
  | .returns (.error error) => IsRefusal error → Resumable state
  | .returns (.ok _) => True

def ExecStage.Spares (state : ApprovalState) : ExecStage → Prop
  | .waits | .asks _ | .admits _ _ | .dispatches _ _ => state = .queued
  | .sends _ _ | .awaits _ | .recordsRunning _ | .givesBack _ => state = .resuming
  | .recordsNotStarted _ error => state = .resuming ∧ (IsRefusal error → neverSent error = true)
  | .returns (.error error) => IsRefusal error → Resumable state
  | .returns (.ok _) => True

/-- What a resume leaves of its approval when it is refused. -/
def ResumeStage.Spares (approvals : Approvals) (id : String) : ResumeStage → Prop
  | .patches call => ∃ row, approvals.find? id = some row ∧ row.state ≠ .pending ∧ call.stage.Spares row.state
  | .execs call => ∃ row, approvals.find? id = some row ∧ row.state ≠ .pending ∧ call.stage.Spares row.state
  | .looksUpKey record _ _ | .looksUpFingerprint record _ =>
      record.tool = .applyPatch ∧ ∃ row, approvals.find? id = some row ∧ row.state = .resuming
  | .commits (.error error) | .ends (.error error) =>
      IsRefusal error → ∃ row, approvals.find? id = some row ∧ Resumable row.state
  | .commitWrites (.error error) => ¬ IsRefusal error
  | _ => True

/-- A Runner's answer is no refusal that the gateway takes for an answer to what was done. -/
def unhindered {Answer : Type} : Except RunnerError Answer → Bool
  | .error (.execution error) => error.code ∉ [.workspaceBusy, .resourceQueueFull]
  | _ => true

theorem neverSent_of_isRefusal (refused : IsRefusal error)
    (unhindered_ : error.code ∉ [.workspaceBusy, .resourceQueueFull]) : neverSent error = true := by
  simp only [IsRefusal, Approvals.leavesQueued, decide_eq_true_eq] at refused
  simp only [neverSent, decide_eq_true_eq]
  simp only [List.mem_cons, List.not_mem_nil, or_false, not_or] at refused unhindered_ ⊢
  tauto

/-- The lease, the link or the admission refuses the patch before it begins its operation. -/
def PatchCall.isRefused (config : Config) (shared : Shared) (env : Environment) (call : PatchCall) :
    Bool :=
  match call.stage with
  | .waits => env.refusal.isSome
  | .asks => !(shared.dispatchEpoch config).isOk
  | .admits epoch => !(shared.admitWork env.unreadable call.params.workspaceId epoch).1.isOk
  | _ => false

section Calls

variable {row : ApprovalRow} {operations : Operations} {now : Nat}

theorem markResuming_of_claimed (stored : shared.approvals.find? id = some row)
    (claimed : row.state = .queued ∨ row.state = .resuming) :
    (shared.approvals.markResuming id).1 = .ok () := by
  rcases claimed with state | state <;> simp [Approvals.markResuming, stored, state]

theorem returnResume_of_resuming (stored : shared.approvals.find? id = some row)
    (resuming : row.state = .resuming) :
    (shared.approvals.returnResume id).2.find? id = some { row with state := .granted } :=
  Approvals.find?_returnResume.trans (Approvals.changed_self stored (by simp [resuming]))

theorem not_isRefusal_of_notFound {message : String} :
    ¬ IsRefusal (Operations.operationNotFound message) := by
  simp [IsRefusal, Approvals.leavesQueued, Operations.operationNotFound]

theorem statusLookup_error {key : String}
    (failed : operations.statusLookup none (some key) = .error error) :
    error.code = .operationNotFound := by
  unfold Operations.statusLookup at failed
  dsimp only at failed
  split at failed
  · contradiction
  · cases failed
    rfl

theorem begin_not_refused {newId workspaceId fingerprint : String} {operationKey : Option String}
    (failed : (operations.begin newId operationKey workspaceId fingerprint now).1 = .error error) :
    ¬ IsRefusal error := by
  unfold Operations.begin at failed
  split at failed
  · split at failed
    · cases failed
      simp [IsRefusal, Approvals.leavesQueued, Operations.keyConflict]
    · contradiction
  · split at failed
    · contradiction
    · cases failed
      exact not_isRefusal_of_notFound

theorem finish_not_refused {operationId : String} {result : ApplyPatchResult}
    (failed : (operations.finish operationId result now).1 = .error error) :
    ¬ IsRefusal error := by
  unfold Operations.finish at failed
  split at failed
  · cases failed
    exact not_isRefusal_of_notFound
  · contradiction

theorem PatchCall.advance_spares {call : PatchCall} (resumes : call.resume = some id)
    (stored : shared.approvals.find? id = some row) (resolved : row.state ≠ .pending)
    (spares : call.stage.Spares row.state)
    (unrefused : call.isRefused config shared env = true → row.state ≠ .resuming)
    (answered : ∀ operationId, call.stage = .awaits operationId → unhindered env.patch = true) :
    ∃ next, (call.advance config shared env).shared.approvals.find? id = some next ∧
      next.state ≠ .pending ∧ (call.advance config shared env).stage.Spares next.state := by
  obtain ⟨params, _, stage⟩ := call
  subst resumes
  cases stage with
  | waits =>
      refine ⟨row, stored, resolved, ?_⟩
      dsimp only [PatchCall.advance, PatchCall.isRefused] at unrefused ⊢
      cases refused : env.refusal with
      | none => exact spares
      | some =>
          rw [refused] at unrefused
          exact fun _ => .inr (spares.resolve_right (unrefused rfl))
  | asks =>
      refine ⟨row, stored, resolved, ?_⟩
      dsimp only [PatchCall.advance, PatchCall.isRefused] at unrefused ⊢
      cases refused : shared.dispatchEpoch config with
      | ok => exact spares
      | error =>
          rw [refused] at unrefused
          exact fun _ => .inr (spares.resolve_right (unrefused rfl))
  | admits epoch =>
      refine ⟨row, stored, resolved, ?_⟩
      dsimp only [PatchCall.advance, PatchCall.isRefused] at unrefused ⊢
      cases refused : (shared.admitWork env.unreadable params.workspaceId epoch).1 with
      | ok => exact spares
      | error =>
          rw [refused] at unrefused
          exact fun _ => .inr (spares.resolve_right (unrefused rfl))
  | marks =>
      have marked := markResuming_of_claimed stored spares
      obtain ⟨_, _, _, found⟩ := Approvals.markResuming_ok marked
      refine ⟨_, found, nofun, ?_⟩
      dsimp only [PatchCall.advance, markFor, PatchCall.after]
      rw [marked]
      rfl
  | begins =>
      refine ⟨row, stored, resolved, ?_⟩
      dsimp only [PatchCall.advance]
      cases begun : (shared.operations.begin env.newId params.operationKey params.workspaceId
        (config.fingerprint (.applyPatch params)) shared.now).1 with
      | error => exact fun refused => absurd refused (begin_not_refused begun)
      | ok answer =>
          cases answer with
          | fresh => exact spares
          | replayed => trivial
  | sends | abandons | returns => exact ⟨row, stored, resolved, spares⟩
  | awaits operationId =>
      refine ⟨row, stored, resolved, ?_⟩
      have heard := answered operationId rfl
      dsimp only [PatchCall.advance]
      generalize env.patch = answer at heard
      unfold afterAnswer
      split
      · exact spares
      · split
        · exact spares
        next isSent =>
          exact fun refused => isSent (neverSent_of_isRefusal refused (of_decide_eq_true heard))
      all_goals exact spares
  | finishes operationId result =>
      refine ⟨row, stored, resolved, ?_⟩
      dsimp only [PatchCall.advance, PatchCall.after]
      cases finished : (shared.operations.finish operationId result shared.now).1 with
      | ok => trivial
      | error => exact fun refused => absurd refused (finish_not_refused finished)
  | rejects => exact ⟨row, stored, resolved, fun refused => absurd refused spares⟩
  | givesBack => exact ⟨_, returnResume_of_resuming stored spares, nofun, fun _ => .inl rfl⟩

theorem ExecCall.dispatch_queued (call : ExecCall) {processId : String} {epoch : Option Nat}
    (resumes : call.resume = some id) (stored : shared.approvals.find? id = some row)
    (queued : row.state = .queued) :
    ((dispatch config shared call processId epoch).1 = .ok () ∧
        (dispatch config shared call processId epoch).2.1.find? id =
          some { row with state := .resuming }) ∨
      ∃ error, (dispatch config shared call processId epoch).1 = .error error ∧
        (dispatch config shared call processId epoch).2.1.find? id = some row := by
  have marks : (shared.approvals.markResuming id).2.find? id = some { row with state := .resuming } :=
    Approvals.find?_markResuming.trans (Approvals.changed_self stored (by simp [queued]))
  unfold dispatch
  split
  · split
    next recorded =>
      obtain ⟨_, isMarked, inserted⟩ := bind_eq_ok.mp recorded
      simp only [ExecCall.record, ProcessRecords.markFor, resumes] at isMarked
      obtain ⟨_, _, rfl⟩ := map_eq_ok.mp isMarked
      split at inserted
      · cases inserted
        exact .inl ⟨rfl, marks⟩
      · contradiction
    · exact .inr ⟨_, rfl, stored⟩
  · rw [resumes]
    exact .inl ⟨markResuming_of_claimed stored (.inl queued), marks⟩

theorem ExecCall.advance_spares {call : ExecCall} (resumes : call.resume = some id)
    (stored : shared.approvals.find? id = some row) (resolved : row.state ≠ .pending)
    (spares : call.stage.Spares row.state)
    (answered : ∀ processId, call.stage = .awaits processId → unhindered env.exec = true) :
    ∃ next, (call.advance config shared env).shared.approvals.find? id = some next ∧
      next.state ≠ .pending ∧ (call.advance config shared env).stage.Spares next.state := by
  obtain ⟨params, _, stage⟩ := call
  subst resumes
  cases stage with
  | waits | asks =>
      refine ⟨row, stored, resolved, ?_⟩
      dsimp only [ExecCall.advance]
      split
      · exact fun _ => .inr spares
      · exact spares
  | admits =>
      refine ⟨row, stored, resolved, ?_⟩
      dsimp only [ExecCall.advance, after]
      split
      · exact spares
      · exact fun _ => .inr spares
  | dispatches processId epoch =>
      dsimp only [ExecCall.advance]
      rcases dispatch_queued ⟨params, some id, .dispatches processId epoch⟩ rfl stored spares with
        ⟨ok, found⟩ | ⟨error, failed, found⟩
      · refine ⟨_, found, nofun, ?_⟩
        rw [ok]
        rfl
      · refine ⟨row, found, resolved, ?_⟩
        rw [failed]
        exact fun _ => .inr spares
  | sends | returns => exact ⟨row, stored, resolved, spares⟩
  | awaits processId =>
      refine ⟨row, stored, resolved, ?_⟩
      have heard := answered processId rfl
      dsimp only [ExecCall.advance]
      generalize env.exec = answer at heard
      cases answer with
      | ok => exact spares
      | error error =>
          cases error with
          | execution =>
              exact ⟨spares, fun refused => neverSent_of_isRefusal refused (of_decide_eq_true heard)⟩
          | transportBeforeDispatch =>
              exact ⟨spares, fun refused => by
                simp [IsRefusal, Approvals.leavesQueued, RunnerError.intoErrorBody] at refused⟩
          | transportAmbiguous => trivial
  | recordsRunning => exact ⟨row, stored, resolved, trivial⟩
  | recordsNotStarted =>
      refine ⟨row, stored, resolved, ?_⟩
      obtain ⟨resuming, unsent⟩ := spares
      dsimp only [ExecCall.advance]
      split
      · exact resuming
      next sent => exact fun refused => absurd (unsent refused) sent
  | givesBack => exact ⟨_, returnResume_of_resuming stored spares, nofun, fun _ => .inl rfl⟩

end Calls

/-- A step of a resume is no refusal that its approval is not spared: a patch whose approval an earlier
resume left `resuming` is not refused before it begins its operation, and the Runner answers with no
code of the scheduler's. -/
def ResumeCall.sparesRefused (config : Config) (shared : Shared) (env : Environment)
    (call : ResumeCall) : Bool :=
  match call.stage with
  | .patches inner =>
      match inner.stage with
      | .awaits _ => unhindered env.patch
      | _ => !inner.isRefused config shared env ||
          (shared.approvals.find? call.approvalId).all fun row => row.state ≠ .resuming
  | .execs inner =>
      match inner.stage with
      | .awaits _ => unhindered env.exec
      | _ => true
  | _ => true

section Resumes

variable {approvals next : Approvals} {record : ApprovalRecord}
  {outcome : Except ErrorBody OperationResumeResult}

theorem ResumeCall.execute_spares (stored : approvals.find? id = some row)
    (queued : row.state = .queued) : (execute config record).Spares approvals id := by
  have resolved : row.state ≠ .pending := by simp [queued]
  unfold execute
  split
  · split
    · exact ⟨row, stored, resolved, .inl queued⟩
    · exact fun refused => by simp [IsRefusal, Approvals.leavesQueued] at refused
  · split
    · exact ⟨row, stored, resolved, queued⟩
    · exact fun refused => by simp [IsRefusal, Approvals.leavesQueued] at refused

theorem ResumeCall.execute_again_spares (patches : record.tool = .applyPatch)
    (stored : approvals.find? id = some row) (resuming : row.state = .resuming) :
    (execute config record).Spares approvals id := by
  unfold execute
  rw [patches]
  dsimp only
  split
  · exact ⟨row, stored, by simp [resuming], .inr resuming⟩
  · exact fun refused => by simp [IsRefusal, Approvals.leavesQueued] at refused

theorem ResumeCall.reconcile_spares (stored : approvals.find? id = some row)
    (resuming : row.state = .resuming) : (reconcile config record).Spares approvals id := by
  unfold reconcile
  split
  · trivial
  next patches =>
    split
    · split <;> exact ⟨patches, row, stored, resuming⟩
    · exact ⟨patches, row, stored, resuming⟩

theorem ResumeCall.afterClaim_spares (approvals : Approvals) (id : String) :
    (afterClaim config (approvals.takeClaim id).1).Spares (approvals.takeClaim id).2 id := by
  cases taken : (approvals.takeClaim id).1 with
  | none => trivial
  | some answer =>
      cases answer with
      | error =>
          unfold Approvals.takeClaim at taken
          split at taken
          · cases taken
            exact fun refused => by simp [IsRefusal, Approvals.leavesQueued, Approvals.notFound] at refused
          · split at taken <;> cases taken
      | ok claim =>
          cases claim with
          | execute =>
              obtain ⟨row, _, _, _, found⟩ := Approvals.takeClaim_execute taken
              exact execute_spares found rfl
          | reconcile =>
              obtain ⟨_, _, resuming, _, found⟩ := Approvals.takeClaim_reconcile taken
              exact reconcile_spares found resuming
          | replaySuccess => trivial
          | replayError =>
              unfold Approvals.takeClaim at taken
              split at taken
              · cases taken
              · split at taken <;> cases taken

/-- What could not be stored is ambiguous, which is no refusal. -/
theorem ResumeCall.commitAnswer_spares
    {finished : Except ErrorBody Unit} (spares : (ResumeStage.ends outcome).Spares approvals id) :
    (ResumeStage.ends (commitAnswer id outcome finished)).Spares approvals id := by
  unfold commitAnswer
  split
  · dsimp only
    split
    next ambiguous =>
      exact fun refused => by simp [IsRefusal, Approvals.leavesQueued, ambiguous] at refused
    · exact fun refused => by simp [IsRefusal, Approvals.leavesQueued] at refused
  · exact spares

theorem ResumeCall.afterRead_spares (spares : (ResumeStage.commits outcome).Spares approvals id) :
    (afterRead id outcome (approvals.readFinish id outcome)).Spares approvals id := by
  have ends : (ResumeStage.ends outcome).Spares approvals id := by
    cases outcome with
    | ok => trivial
    | error => exact spares
  unfold afterRead
  split
  · exact commitAnswer_spares ends
  · exact commitAnswer_spares ends
  next read =>
    cases outcome with
    | ok => trivial
    | error =>
        intro refused
        obtain ⟨_, stored, resumable⟩ := spares refused
        simp only [Approvals.readFinish, stored, Except.ok.injEq, Bool.or_eq_false_iff,
          decide_eq_false_iff_not, Bool.and_eq_false_iff] at read
        rcases resumable with granted | queued
        · exact read.1 granted
        · exact read.2.elim (· queued) fun spent => absurd refused (by simp [IsRefusal, spent])

theorem ResumeCall.commits_spares {Answer : Type} {outcome : Except ErrorBody Answer}
    {result : Answer → OperationResumeResult} (stored : approvals.find? id = some row)
    (spares : ∀ error, outcome = .error error → IsRefusal error → Resumable row.state) :
    (ResumeStage.commits (outcome.map result)).Spares approvals id := by
  cases outcome with
  | ok => trivial
  | error error => exact fun refused => ⟨row, stored, spares error rfl refused⟩

theorem ResumeCall.advance_spares (linked : call.stage.Linked call.approvalId)
    (spares : call.stage.Spares shared.approvals call.approvalId)
    (spared : call.sparesRefused config shared env = true) :
    (call.advance config shared env).stage.Spares (call.advance config shared env).shared.approvals
      call.approvalId := by
  obtain ⟨id, stage⟩ := call
  cases stage with
  | patches inner =>
      obtain ⟨row, stored, resolved, keeps⟩ := spares
      have advanced : ∃ next, (inner.advance config shared env).shared.approvals.find? id = some next ∧
          next.state ≠ .pending ∧ (inner.advance config shared env).stage.Spares next.state := by
        refine inner.advance_spares linked stored resolved keeps (fun refused => ?_)
          fun operationId stage => ?_
        · cases stage : inner.stage with
          | awaits => simp [PatchCall.isRefused, stage] at refused
          | _ => simpa [sparesRefused, stage, refused, stored] using spared
        · simpa [sparesRefused, stage] using spared
      obtain ⟨params, resume, stage⟩ := inner
      cases stage with
      | returns =>
          refine commits_spares stored fun error failed => ?_
          subst failed
          exact keeps
      | _ => exact advanced
  | execs inner =>
      obtain ⟨row, stored, resolved, keeps⟩ := spares
      have advanced : ∃ next, (inner.advance config shared env).shared.approvals.find? id = some next ∧
          next.state ≠ .pending ∧ (inner.advance config shared env).stage.Spares next.state := by
        refine inner.advance_spares linked stored resolved keeps fun processId stage => ?_
        simpa [sparesRefused, stage] using spared
      obtain ⟨_, _, stage⟩ := inner
      cases stage with
      | returns =>
          refine commits_spares stored fun error failed => ?_
          subst failed
          exact keeps
      | _ => exact advanced
  | claimTakes => exact afterClaim_spares shared.approvals id
  | looksUpKey =>
      dsimp only [ResumeCall.advance, afterKey]
      split
      · trivial
      next failed =>
        split
        · exact spares
        next unexpected => exact absurd (statusLookup_error failed) unexpected
  | looksUpId =>
      dsimp only [ResumeCall.advance]
      split
      · trivial
      next failed =>
        unfold Operations.get at failed
        split at failed
        · cases failed
        · cases failed
          exact fun refused => absurd refused not_isRefusal_of_notFound
  | looksUpFingerprint =>
      obtain ⟨patches, _, stored, resuming⟩ := spares
      dsimp only [ResumeCall.advance, afterFingerprint]
      split
      · trivial
      · split
        · exact fun refused => by simp [IsRefusal, Approvals.leavesQueued, Approvals.ambiguous] at refused
        · exact execute_again_spares patches stored resuming
  | readsRecords =>
      dsimp only [ResumeCall.advance, afterRecords]
      split
      · trivial
      · exact fun refused => by simp [IsRefusal, Approvals.leavesQueued, Approvals.ambiguous] at refused
  | commits => exact afterRead_spares spares
  | commitWrites outcome =>
      refine commitAnswer_spares ?_
      cases outcome with
      | ok => trivial
      | error => exact fun refused => absurd refused spares
  | asks | looks _ | admits _ _ | claims | claimMarks =>
      dsimp only [ResumeCall.advance]
      split <;> trivial
  | claimRetries | ends _ | answers _ => trivial

theorem ResumeCall.spares_of_idle (idle : call.isGuarding = false) : call.stage.Spares approvals id := by
  obtain ⟨_, stage⟩ := call
  cases stage with
  | asks | looks _ | admits _ _ | claims | claimMarks | answers _ => trivial
  | _ => contradiction

theorem ResumeStage.Spares.keep {stage : ResumeStage} (spares : stage.Spares approvals id)
    (kept : ∀ row, approvals.find? id = some row → row.state ≠ .pending → next.find? id = some row) :
    stage.Spares next id := by
  have resumable : (∃ row, approvals.find? id = some row ∧ Resumable row.state) →
      ∃ row, next.find? id = some row ∧ Resumable row.state := by
    rintro ⟨row, stored, granted | queued⟩
    · exact ⟨row, kept row stored (by simp [granted]), .inl granted⟩
    · exact ⟨row, kept row stored (by simp [queued]), .inr queued⟩
  cases stage with
  | patches call | execs call =>
      obtain ⟨row, stored, resolved, spares⟩ := spares
      exact ⟨row, kept row stored resolved, resolved, spares⟩
  | looksUpKey record params key | looksUpFingerprint record fingerprint =>
      obtain ⟨patches, row, stored, resuming⟩ := spares
      exact ⟨patches, row, kept row stored (by simp [resuming]), resuming⟩
  | commits outcome | ends outcome =>
      cases outcome with
      | ok => trivial
      | error => exact fun refused => resumable (spares refused)
  | commitWrites outcome =>
      cases outcome with
      | ok => trivial
      | error => exact spares
  | _ => trivial

end Resumes

def Gateway.sparesRefused (config : Config) (gateway : Gateway) : Event → Bool
  | .continues index env =>
      match gateway.tasks.lookup index with
      | some (.resume call) => call.sparesRefused config gateway.shared env
      | _ => true
  | _ => true

def SparesRefused (config : Config) (gateway : Gateway) (label : Label) : Prop :=
  gateway.sparesRefused config label.event = true

/-- The stored result is no refusal. -/
def ApprovalRow.Spared (row : ApprovalRow) : Prop :=
  ∀ error, row.resultJson.bind PersistedResume.codec.decode = some (.failed error) → ¬ IsRefusal error

/-- What holds of a gateway that consumes no approval whose resume was refused. -/
structure Spared (gateway : Gateway) : Prop where
  linked : gateway.Linked
  guarded : Guarded gateway
  calls {index : Nat} {call : ResumeCall} (running : gateway.tasks.lookup index = some (.resume call)) :
    call.stage.Spares gateway.shared.approvals call.approvalId
  rows {id : String} {row : ApprovalRow} (stored : gateway.shared.approvals.find? id = some row) :
    ApprovalRow.Spared row

theorem Task.advance_resume (stage : (task.advance config shared env).stage = some (.resume call)) :
    ∃ earlier, task = .resume earlier := by
  cases task with
  | resume earlier => exact ⟨earlier, rfl⟩
  | _ =>
      dsimp only [Task.advance] at stage
      split at stage <;> cases stage

namespace Spared

theorem calls_step (holds : Spared before) (spared : SparesRefused config before label)
    (stepped : before.step config label.event = some (label.report, after)) {index : Nat}
    (running : after.tasks.lookup index = some (.resume call)) :
    call.stage.Spares after.shared.approvals call.approvalId := by
  cases Gateway.step_task stepped running with
  | started starts =>
      cases starts
      trivial
  | kept ran other =>
      cases guards : call.isGuarding with
      | false => exact call.spares_of_idle guards
      | true =>
          refine (holds.calls ran).keep fun row stored resolved => ?_
          refine Gateway.step_row holds.linked stepped stored resolved
            fun moved env mover event moves held => ?_
          have own : (Task.resume call).guarding = some call.approvalId := by
            simp [Task.guarding, guards]
          cases holds.guarded.single ran own moves held
          exact other env event
  | advanced _ _ continued ran stage shared =>
      obtain ⟨earlier, rfl⟩ := Task.advance_resume stage
      have turn := Task.resume_advance stage
      rw [turn] at stage shared
      cases stage
      rw [shared]
      refine earlier.advance_spares (holds.linked index _ ran) (holds.calls ran) ?_
      simpa [SparesRefused, Gateway.sparesRefused, continued, ran] using spared

theorem rows_step (holds : Spared before)
    (stepped : before.step config label.event = some (label.report, after))
    (stored : after.shared.approvals.find? id = some row) :
    ApprovalRow.Spared row := by
  intro error failed
  obtain ⟨_, has, decoded⟩ := Option.bind_eq_some_iff.mp failed
  rcases Gateway.step_result holds.linked stepped stored has with
    ⟨old, found, had⟩ | ⟨index, task, outcome, running, commits, rfl⟩
  · exact holds.rows found error (by rw [had]; exact decoded)
  · rw [PersistedResume.codec.decode_encode] at decoded
    cases task with
    | patch | exec => contradiction
    | resume call =>
        obtain ⟨_, stage⟩ := call
        cases stage with
        | commitWrites =>
            cases commits
            cases outcome with
            | ok => cases decoded
            | error =>
                cases decoded
                exact holds.calls running
        | _ => contradiction
    | recovery pass =>
        obtain ⟨_, _, _, _, _, _, stage⟩ := pass
        cases stage with
        | settleFinishWrites =>
            cases commits
            cases decoded
        | _ => contradiction

theorem step (holds : Spared before)
    (stepped : ((gatewaySystem config).restrict (SparesRefused config)).step before label after) :
    Spared after := by
  obtain ⟨spared, stepped⟩ := stepped
  exact ⟨holds.linked.step stepped, holds.guarded.step stepped, holds.calls_step spared stepped,
    holds.rows_step stepped⟩

theorem initial (isInitial : (gatewaySystem config).initial gateway) : Spared gateway := by
  obtain ⟨runner, link, rfl⟩ := isInitial
  refine ⟨fun index task running => by contradiction, ⟨nofun, nofun⟩,
    fun running => by contradiction, fun {id row} stored => ?_⟩
  rw [(Shared.opened_stored config { runner := runner, link := link } runner link).1] at stored
  contradiction

end Spared

/-- The answer with which a resume gives its approval up. -/
def Task.answering : Task → Option (String × Except ErrorBody OperationResumeResult)
  | .resume call =>
      match call.stage with
      | .ends answer => some (call.approvalId, answer)
      | _ => none
  | _ => none

theorem Task.answering_eq_some {answer : Except ErrorBody OperationResumeResult}
    (answers : task.answering = some (id, answer)) : task = .resume ⟨id, .ends answer⟩ := by
  cases task with
  | resume call =>
      obtain ⟨_, stage⟩ := call
      cases stage with
      | ends =>
          cases answers
          rfl
      | _ => contradiction
  | _ => contradiction

theorem ResumeCall.advance_idle (idle : call.isGuarding = false) :
    ((Task.resume call).advance config shared env).shared.approvals = shared.approvals := by
  obtain ⟨_, stage⟩ := call
  cases stage with
  | claimMarks =>
      dsimp only [Task.advance, ResumeCall.advance]
      split <;> rfl
  | asks | looks _ | admits _ _ | claims | answers _ => rfl
  | _ => contradiction

/-- No approval is consumed with a refusal. A resume that is refused once it holds its approval leaves
it to be resumed, and one that is refused before leaves every approval as it is. -/
theorem refused_resume_spares_its_approval (isInitial : (gatewaySystem config).initial before)
    (run : ((gatewaySystem config).restrict (SparesRefused config)).Run before trace after) :
    (∀ id row error, after.shared.approvals.find? id = some row →
        row.resultJson.bind PersistedResume.codec.decode = some (.failed error) → ¬ IsRefusal error) ∧
      (∀ index task id error, after.tasks.lookup index = some task →
        task.answering = some (id, .error error) → IsRefusal error →
        ∃ row, after.shared.approvals.find? id = some row ∧ Resumable row.state) ∧
      ∀ index call env report next, after.tasks.lookup index = some (.resume call) →
        call.isGuarding = false → after.step config (.continues index env) = some (report, next) →
        next.shared.approvals = after.shared.approvals := by
  have holds : Spared after := run.keeps Spared (fun stepped holds => holds.step stepped)
    (Spared.initial isInitial)
  refine ⟨fun id row error stored => holds.rows stored error,
    fun index task id error running answers refused => ?_,
    fun index call env report next running idle stepped => ?_⟩
  · cases Task.answering_eq_some answers
    exact holds.calls running refused
  · generalize is : Event.continues index env = event at stepped
    cases Gateway.step_cases stepped with
    | @continued moved moves task fresh ran =>
        cases is
        cases running.symm.trans ran
        rw [Gateway.setTask_shared]
        exact call.advance_idle idle
    | started _ other | outside _ other => exact absurd is.symm (other index env)
    | dropped | reopened => contradiction

/-- The Runner refuses an execution under an earlier Claim: its approval is given back. -/
theorem stale_resume_spares_its_approval :
    let config : Config := { independent := true, hash := fun _ => "f", unreadableParams := fun _ => "" }
    let runner : RunnerRef := { bootId := none, pid := 1, startedAtMs := 0, nonce := "n" }
    let link : RunnerLink := .linked (some { epoch := 1 })
    let stale : ErrorBody :=
      { code := .staleController, message := "a later controller claimed the Runner" }
    let start : Gateway :=
      { shared := Shared.opened config { runner := runner, link := link } runner link }
    let events : List Event :=
      [.createApproval "a" (.execCommand { workspaceId := "w", command := ["make"] }),
        .resolveApproval "a" .grant, .operationResume "a"] ++ turns 0 6 ++
      [.continues 0 { newId := "p" }] ++ turns 0 4 ++
      [.continues 0 { exec := .error (.execution stale) }] ++ turns 0 4
    ∃ trace last, replay (Gateway.stepWhere config (Gateway.sparesRefused config)) Label.mk start
        events = some (trace, last) ∧
      (sends trace).length = 1 ∧
      (last.tasks.lookup 0).bind Task.answering = some ("a", .error stale) ∧
      ∃ row, last.shared.approvals.find? "a" = some row ∧ Resumable row.state := by
  intro config runner link stale start events
  have ended : (replay (Gateway.stepWhere config (Gateway.sparesRefused config)) Label.mk start
      events).map (fun run => ((sends run.1).length, (run.2.tasks.lookup 0).bind Task.answering)) =
        some (1, some ("a", .error stale)) := by decide +kernel
  obtain ⟨⟨trace, last⟩, replayed, answered⟩ := Option.map_eq_some_iff.mp ended
  obtain ⟨sent, answers⟩ := Prod.mk.inj answered
  obtain ⟨task, running, refuses⟩ := Option.bind_eq_some_iff.mp answers
  exact ⟨trace, last, replayed, sent, answers,
    (refused_resume_spares_its_approval ⟨runner, link, rfl⟩ (Gateway.run_of_replayWhere replayed)).2.1
      0 task "a" stale running refuses (by decide)⟩

/-- A gateway crashes between marking the approval of a patch and beginning its operation; the next
resume waits for the workspace and is refused, and the approval is consumed with the refusal. The same
becomes of an execution that the Runner has no slot for. -/
theorem refused_resume_consumes_its_approval :
    let config : Config := { independent := true, hash := fun _ => "f", unreadableParams := fun _ => "" }
    let busy : ErrorBody := { code := .workspaceBusy, message := "workspace has a busy shell" }
    let full : ErrorBody := { code := .workspaceBusy, message := "live process limit reached" }
    (∃ before trace after, (gatewaySystem config).initial before ∧
      (gatewaySystem config).Run before trace after ∧ sends trace = [] ∧
      (after.tasks.lookup 1).bind Task.answering = some ("a", .error busy) ∧
      (after.shared.approvals.find? "a").map ApprovalRow.state = some .consumed) ∧
    ∃ before trace after, (gatewaySystem config).initial before ∧
      (gatewaySystem config).Run before trace after ∧ disproved trace = ["p"] ∧
      (after.tasks.lookup 0).bind Task.answering = some ("a", .error full) ∧
      (after.shared.approvals.find? "a").map ApprovalRow.state = some .consumed := by
  intro config busy full
  let runner : RunnerRef := { bootId := none, pid := 1, startedAtMs := 0, nonce := "n" }
  let link : RunnerLink := .linked (some { epoch := 1 })
  let start : Gateway :=
    { shared := Shared.opened config { runner := runner, link := link } runner link }
  have interrupted : (start.replay config
      ([.createApproval "a" (.applyPatch { workspaceId := "w", patch := "p" }),
        .resolveApproval "a" .grant, .operationResume "a"] ++ turns 0 10 ++
      [.reopens runner link, .operationResume "a"] ++ turns 1 7 ++
      [.continues 1 { refusal := some busy }] ++ turns 1 3)).map (fun run =>
        ((sends run.1).length, (run.2.tasks.lookup 1).bind Task.answering,
          (run.2.shared.approvals.find? "a").map ApprovalRow.state)) =
        some (0, some ("a", .error busy), some .consumed) := by decide +kernel
  have unplaced : (start.replay config
      ([.createApproval "a" (.execCommand { workspaceId := "w", command := ["make"] }),
        .resolveApproval "a" .grant, .operationResume "a"] ++ turns 0 6 ++
      [.continues 0 { newId := "p" }] ++ turns 0 4 ++
      [.continues 0 { exec := .error (.execution full) }] ++ turns 0 4)).map (fun run =>
        (disproved run.1, (run.2.tasks.lookup 0).bind Task.answering,
          (run.2.shared.approvals.find? "a").map ApprovalRow.state)) =
        some (["p"], some ("a", .error full), some .consumed) := by decide +kernel
  obtain ⟨⟨trace, after⟩, replayed, same⟩ := Option.map_eq_some_iff.mp interrupted
  obtain ⟨⟨other, last⟩, alsoReplayed, alsoSame⟩ := Option.map_eq_some_iff.mp unplaced
  simp only [Prod.mk.injEq] at same alsoSame
  exact ⟨⟨start, trace, after, ⟨runner, link, rfl⟩, Gateway.run_of_replay replayed,
      List.length_eq_zero_iff.mp same.1, same.2⟩,
    start, other, last, ⟨runner, link, rfl⟩, Gateway.run_of_replay alsoReplayed, alsoSame⟩

end CodeSpace.Server
