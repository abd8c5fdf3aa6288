import CodeSpace.Runner.ApplyPatch

namespace CodeSpace.Runner

open Data Domain

/-! What the parts of the patch transaction read and tell, and the ways the whole of it ends. -/

variable {sandbox : PathSandbox} {helper : PatchHelper} {request : RunnerApplyPatchRequest}
  {start ready host after : Host} {result : RunnerApplyPatchResult} {prepared : Preparation}
  {before : List (String × String)} {snaps : List FileSnapshot} {failure : ErrorBody}

theorem snapshotOne_reads (relative : String) : Reads (snapshotOne sandbox relative) := by
  refine (PathSandbox.resolve_reads relative).bind fun path =>
    (sandbox.fs.metadata_reads path).attempt.bind fun found => ?_
  rcases found with failure | found
  · cases failure with
    | notFound => exact .pure _
    | _ => exact .throw _
  · dsimp only
    split
    · exact (sandbox.fs.read_reads path).mapFailure.bind fun _ =>
        (unixMode_reads path).mapFailure.bind fun _ => .pure _
    · exact .pure _

theorem snapshot_reads (relatives : List String) : Reads (snapshot sandbox relatives) := by
  induction relatives with
  | nil => exact .pure _
  | cons relative _ ih => exact (snapshotOne_reads relative).bind fun _ => ih.bind fun _ => .pure _

theorem overlayBefore_reads (changes : List FileChange) : Reads (overlayBefore sandbox changes) := by
  induction changes with
  | nil => exact .pure _
  | cons change _ ih =>
      exact (PathSandbox.version_reads change.path).bind fun _ => ih.bind fun _ => .pure _

theorem checkVersions_reads (expected : List (String × String)) :
    Reads (checkVersions sandbox expected) := by
  induction expected with
  | nil => exact .pure _
  | cons pair _ ih =>
      refine (PathSandbox.version_reads pair.1).bind fun actual => ?_
      split
      · exact ih
      · exact .throw _

theorem verifyChange_reads (change : FileChange) : Reads (verifyChange sandbox before change) := by
  refine (PathSandbox.version_reads change.path).bind fun actual => ?_
  dsimp only
  split
  · split
    · exact .pure _
    · exact .throw _
  · split
    · exact .throw _
    · split
      · exact .pure _
      · exact .throw _

theorem verifyChanges_reads (changes : List FileChange) :
    Reads (verifyChanges sandbox before changes) := by
  induction changes with
  | nil => exact .pure _
  | cons change _ ih => exact (verifyChange_reads change).bind fun _ => ih.bind fun _ => .pure _

theorem verifyDiskMatchesClaimed_reads (claimed : List FileChange) :
    Reads (verifyDiskMatchesClaimed sandbox claimed before) := by
  unfold verifyDiskMatchesClaimed
  split
  · exact .throw _
  · exact verifyChanges_reads claimed

theorem preview_reads (patch : String) : Reads (preview sandbox helper patch) :=
  (helper.preflight_reads patch).bind fun shown => (overlayBefore_reads shown.changes).bind fun _ => .pure _

theorem prepare_reads (patch : String) : Reads (prepare sandbox helper patch) :=
  (helper.preflight_reads patch).bind fun planned => (overlayBefore_reads planned.changes).bind fun _ =>
    (snapshot_reads planned.files).bind fun _ => .pure _

/-- What is known before the helper may write was read off the disk as it was at the call. -/
structure Prepared (sandbox : PathSandbox) (helper : PatchHelper) (request : RunnerApplyPatchRequest)
    (start ready : Host) (prepared : Preparation) : Prop where
  expected : ∃ after, checkVersions sandbox request.expectedVersions start = .ok () after
  preflight : ∃ host after, helper.preflight request.patch host = .ok prepared.planned after
  overlaid : ∃ host after changes, host.disk = start.disk ∧
    overlayBefore sandbox prepared.planned.changes host = .ok (changes, prepared.before) after
  snapped : ∃ host after, host.disk = start.disk ∧
    snapshot sandbox prepared.planned.files host = .ok prepared.snaps after
  reading : Reading start ready

theorem prepare_eq_ok {checked : Host}
    (checks : checkVersions sandbox request.expectedVersions start = .ok () checked)
    (ran : prepare sandbox helper request.patch checked = .ok prepared ready) :
    Prepared sandbox helper request start ready prepared := by
  have readChecks : Reading start checked := (checkVersions_reads _).ok checks
  have readAll : Reading checked ready := (prepare_reads _).ok ran
  obtain ⟨_, viewed, preflighted, ran⟩ := Action.bind_eq_ok.mp ran
  have readViewed : Reading checked viewed := (helper.preflight_reads _).ok preflighted
  obtain ⟨⟨changes, _⟩, overlaid, overlays, ran⟩ := Action.bind_eq_ok.mp ran
  have readOverlaid : Reading viewed overlaid := (overlayBefore_reads _).ok overlays
  obtain ⟨_, _, snapped, answered⟩ := Action.bind_eq_ok.mp ran
  obtain ⟨rfl, _⟩ := Action.pure_eq_ok.mp answered
  have sameViewed : start.disk = viewed.disk := readChecks.disk.trans readViewed.disk
  exact {
    expected := ⟨checked, checks⟩
    preflight := ⟨checked, viewed, preflighted⟩
    overlaid := ⟨viewed, overlaid, changes, sameViewed.symm, overlays⟩
    snapped := ⟨overlaid, _, (sameViewed.trans readOverlaid.disk).symm, snapped⟩
    reading := IsTrans.trans _ _ _ readChecks readAll }

inductive Answer (sandbox : PathSandbox) (helper : PatchHelper) (request : RunnerApplyPatchRequest)
    (start after : Host) (result : RunnerApplyPatchResult) : Prop
  | checked (status : result.status = .checked) (reading : Reading start after)
  | applied {ready left : Host} {prepared : Preparation} {applied : HelperSuccess}
      (isPrepared : Prepared sandbox helper request start ready prepared)
      (worked : helper.apply request.patch ready = .ok applied left)
      (verified : verifyDiskMatchesClaimed sandbox applied.changes prepared.before left =
        .ok result.changes after)
      (status : result.status = .applied)
  | failed {ready left : Host} {prepared : Preparation} {failure : ErrorBody} {complete : Bool}
      (isPrepared : Prepared sandbox helper request start ready prepared)
      (stopped : helper.apply request.patch ready = .error failure left)
      (restored : restore sandbox prepared.snaps left = .ok complete after)
      (status : result.status = if complete then .failedRolledBack else .failedPartial)

theorem applyPatchTxn_eq_ok (answered : applyPatchTxn sandbox helper request start = .ok result after) :
    Answer sandbox helper request start after result := by
  obtain ⟨_, _, required, rest⟩ := Action.bind_eq_ok.mp answered
  obtain ⟨_, rfl⟩ := Action.lift_eq_ok.mp required
  obtain ⟨_, checked, checks, rest⟩ := Action.bind_eq_ok.mp rest
  have readChecks : Reading start checked := (checkVersions_reads _).ok checks
  by_cases isCheck : request.checkOnly = true
  · rw [if_pos isCheck] at rest
    have readPreview : Reading checked after := (preview_reads _).ok rest
    obtain ⟨_, _, _, rest⟩ := Action.bind_eq_ok.mp rest
    obtain ⟨_, _, _, rest⟩ := Action.bind_eq_ok.mp rest
    obtain ⟨rfl, _⟩ := Action.pure_eq_ok.mp rest
    exact .checked rfl (IsTrans.trans _ _ _ readChecks readPreview)
  · rw [if_neg isCheck] at rest
    obtain ⟨_, _, prepares, rest⟩ := Action.bind_eq_ok.mp rest
    have isPrepared := prepare_eq_ok checks prepares
    obtain ⟨outcome, _, ran, rest⟩ := Action.bind_eq_ok.mp rest
    cases outcome with
    | ok =>
        obtain ⟨_, _, verifies, rest⟩ := Action.bind_eq_ok.mp rest
        obtain ⟨rfl, rfl⟩ := Action.pure_eq_ok.mp rest
        exact .applied isPrepared (Action.attempt_eq_ok.mp ran) verifies rfl
    | error =>
        obtain ⟨_, _, restored, rest⟩ := Action.bind_eq_ok.mp rest
        obtain ⟨rfl, rfl⟩ := Action.pure_eq_ok.mp rest
        exact .failed isPrepared (Action.attempt_eq_ok_error.mp ran) restored rfl

theorem restore_ne_error : restore sandbox snaps host ≠ .error failure after := by
  induction snaps generalizing host with
  | nil => exact fun failed => (Action.pure_eq_error.mp failed).elim
  | cons _ _ ih =>
      intro failed
      rcases Action.bind_eq_error.mp failed with tried | ⟨_, middle, _, failed⟩
      · exact (Action.attempt_eq_error.mp tried).elim
      rcases Action.bind_eq_error.mp failed with later | ⟨_, _, _, answered⟩
      · exact ih later
      · exact (Action.pure_eq_error.mp answered).elim

/-- The transaction fails while it has only read, or when what the helper did is not found on the
disk. -/
theorem applyPatchTxn_eq_error
    (failed : applyPatchTxn sandbox helper request start = .error failure after) :
    Reading start after ∨ ∃ ready left prepared applied, request.checkOnly = false ∧
        Prepared sandbox helper request start ready prepared ∧
        helper.apply request.patch ready = .ok applied left ∧
        verifyDiskMatchesClaimed sandbox applied.changes prepared.before left = .error failure after := by
  rcases Action.bind_eq_error.mp failed with required | ⟨_, allowed, required, rest⟩
  · exact .inl ((Action.Moves.lift _).error required)
  obtain ⟨_, rfl⟩ := Action.lift_eq_ok.mp required
  rcases Action.bind_eq_error.mp rest with checks | ⟨_, checked, checks, rest⟩
  · exact .inl ((checkVersions_reads _).error checks)
  have readChecks : Reading start checked := (checkVersions_reads _).ok checks
  by_cases isCheck : request.checkOnly = true
  · rw [if_pos isCheck] at rest
    exact .inl (IsTrans.trans _ _ _ readChecks ((preview_reads _).error rest))
  · rw [if_neg isCheck] at rest
    rcases Action.bind_eq_error.mp rest with prepares | ⟨prepared, ready, prepares, rest⟩
    · exact .inl (IsTrans.trans _ _ _ readChecks ((prepare_reads _).error prepares))
    have isPrepared := prepare_eq_ok checks prepares
    rcases Action.bind_eq_error.mp rest with tried | ⟨outcome, left, ran, rest⟩
    · exact (Action.attempt_eq_error.mp tried).elim
    cases outcome with
    | ok applied =>
        rcases Action.bind_eq_error.mp rest with verifies | ⟨_, _, _, answered⟩
        · exact .inr ⟨ready, left, prepared, applied, eq_false_of_ne_true isCheck,
            isPrepared, Action.attempt_eq_ok.mp ran, verifies⟩
        · exact (Action.pure_eq_error.mp answered).elim
    | error =>
        rcases Action.bind_eq_error.mp rest with restored | ⟨_, _, _, answered⟩
        · exact absurd restored restore_ne_error
        · exact (Action.pure_eq_error.mp answered).elim

end CodeSpace.Runner
