import CodeSpace.Runner.PatchPlan

namespace CodeSpace.Runner

open Data Domain

/-! The versions an applied patch reports are the disk's, before and after. -/

variable {sandbox : PathSandbox} {helper : PatchHelper} {request : RunnerApplyPatchRequest}
  {start host after : Host} {result : RunnerApplyPatchResult} {before : List (String × String)}
  {change claimed : FileChange} {changes overlay verified : List FileChange}

/-- The version that a text gives for a path, as the disk has it. -/
def VersionedAs (sandbox : PathSandbox) (disk : Disk) (relative version : String) : Prop :=
  ∃ path, resolvePath sandbox.workspace relative = .ok path ∧
    sandbox.VersionAt disk path (reportedVersion version)

theorem version_versionedAs {relative version : String}
    (ran : sandbox.version relative host = .ok version after) :
    VersionedAs sandbox host.disk relative version :=
  PathSandbox.version_eq_ok ran

theorem checkVersions_eq_ok {expected : List (String × String)} {value : Unit}
    (ran : checkVersions sandbox expected host = .ok value after) :
    ∀ pair ∈ expected, VersionedAs sandbox host.disk pair.1 pair.2 := by
  induction expected generalizing host with
  | nil => exact fun pair absurd => nomatch absurd
  | cons first _ ih =>
      obtain ⟨actual, middle, versioned, ran⟩ := Action.bind_eq_ok.mp ran
      have unchanged : host.disk = middle.disk := ((PathSandbox.version_reads first.1).ok versioned).disk
      by_cases agrees : actual = first.2
      · rw [if_pos agrees] at ran
        intro pair isPair
        rcases List.mem_cons.mp isPair with rfl | later
        · exact agrees ▸ version_versionedAs versioned
        · rw [unchanged]
          exact ih ran pair later
      · rw [if_neg agrees] at ran
        exact (Action.throw_eq_ok.mp ran).elim

/-- The table of versions before the call has every changed path, as the disk had it. -/
theorem overlayBefore_eq_ok (ran : overlayBefore sandbox changes host = .ok (overlay, before) after) :
    (∀ pair ∈ before, VersionedAs sandbox host.disk pair.1 pair.2) ∧
      ∀ change ∈ changes, change.path ∈ before.map Prod.fst := by
  induction changes generalizing host overlay before after with
  | nil =>
      obtain ⟨same, _⟩ := Action.pure_eq_ok.mp ran
      cases same
      exact ⟨fun pair absurd => (nomatch absurd), fun change absurd => (nomatch absurd)⟩
  | cons first _ ih =>
      obtain ⟨_, middle, versioned, ran⟩ := Action.bind_eq_ok.mp ran
      have unchanged : host.disk = middle.disk := ((PathSandbox.version_reads first.path).ok versioned).disk
      obtain ⟨⟨_, _⟩, _, overlaid, answered⟩ := Action.bind_eq_ok.mp ran
      obtain ⟨same, _⟩ := Action.pure_eq_ok.mp answered
      cases same
      obtain ⟨truthful, covers⟩ := ih overlaid
      constructor
      · intro pair isPair
        rcases List.mem_append.mp isPair with isLater | isFirst
        · rw [unchanged]
          exact truthful pair isLater
        · rw [List.mem_singleton.mp isFirst]
          exact version_versionedAs versioned
      · intro change isChange
        rw [List.map_append, List.mem_append]
        rcases List.mem_cons.mp isChange with rfl | isLater
        · exact .inr (by simp)
        · exact .inl (covers change isLater)

/-- What a verified change reports: the table's version from before, and the disk's own. -/
structure VerifiedChange (sandbox : PathSandbox) (disk : Disk) (before : List (String × String))
    (claimed change : FileChange) : Prop where
  path : change.path = claimed.path
  kind : change.kind = claimed.kind
  beforeVersion : change.beforeVersion = (before.lookup change.path).bind reportedVersion
  onDisk : ∃ path, resolvePath sandbox.workspace change.path = .ok path ∧
    sandbox.VersionAt disk path change.afterVersion
  deleted : change.kind = .delete → change.afterVersion = none

theorem verifyChange_eq_ok (ran : verifyChange sandbox before claimed host = .ok change after) :
    VerifiedChange sandbox host.disk before claimed change := by
  obtain ⟨actual, _, versioned, ran⟩ := Action.bind_eq_ok.mp ran
  have onDisk := version_versionedAs versioned
  by_cases deletes : claimed.kind = .delete
  · by_cases gone : actual = versionAbsent
    · simp only [deletes, gone, if_true, Action.pure_eq_ok] at ran
      obtain ⟨rfl, _⟩ := ran
      rw [gone] at onDisk
      exact ⟨rfl, deletes.symm, rfl, onDisk, fun _ => rfl⟩
    · simp only [deletes, gone, if_true, if_false, Action.throw_eq_ok] at ran
  · simp only [deletes, if_false] at ran
    cases claims : claimed.afterVersion with
    | none => simp only [claims, Action.throw_eq_ok] at ran
    | some version =>
        by_cases agrees : actual = version
        · simp only [claims, agrees, if_true, Action.pure_eq_ok] at ran
          obtain ⟨rfl, _⟩ := ran
          rw [agrees] at onDisk
          exact ⟨rfl, rfl, rfl, onDisk, fun isDelete => absurd isDelete deletes⟩
        · simp only [claims, agrees, if_false, Action.throw_eq_ok] at ran

theorem verifyChanges_eq_ok {claimed : List FileChange}
    (ran : verifyChanges sandbox before claimed host = .ok verified after) :
    ∀ change ∈ verified, ∃ original ∈ claimed,
      VerifiedChange sandbox host.disk before original change := by
  induction claimed generalizing host verified after with
  | nil =>
      obtain ⟨rfl, _⟩ := Action.pure_eq_ok.mp ran
      exact fun change absurd => nomatch absurd
  | cons first _ ih =>
      obtain ⟨_, middle, verifiedFirst, ran⟩ := Action.bind_eq_ok.mp ran
      have unchanged : host.disk = middle.disk := ((verifyChange_reads first).ok verifiedFirst).disk
      obtain ⟨_, _, verifiedRest, answered⟩ := Action.bind_eq_ok.mp ran
      obtain ⟨rfl, _⟩ := Action.pure_eq_ok.mp answered
      intro told isTold
      rcases List.mem_cons.mp isTold with rfl | isLater
      · exact ⟨first, List.mem_cons_self, verifyChange_eq_ok verifiedFirst⟩
      · obtain ⟨original, isOriginal, holds⟩ := ih verifiedRest told isLater
        exact ⟨original, List.mem_cons_of_mem _ isOriginal, unchanged ▸ holds⟩

/-- A reported change gives the versions that its path had before and has after. -/
def ReportsDisk (sandbox : PathSandbox) (before after : Disk) (change : FileChange) : Prop :=
  ∃ path, resolvePath sandbox.workspace change.path = .ok path ∧
    sandbox.VersionAt before path change.beforeVersion ∧
    sandbox.VersionAt after path change.afterVersion ∧
    (change.kind = .delete → after.entries path = none)

theorem VerifiedChange.reportsDisk {old new : Disk}
    (told : VerifiedChange sandbox new before claimed change)
    (truthful : ∀ pair ∈ before, VersionedAs sandbox old pair.1 pair.2)
    (covered : change.path ∈ before.map Prod.fst) : ReportsDisk sandbox old new change := by
  obtain ⟨path, resolved, now⟩ := told.onDisk
  obtain ⟨version, found⟩ : ∃ version, before.lookup change.path = some version := by
    cases found : before.lookup change.path with
    | some version => exact ⟨version, rfl⟩
    | none =>
        obtain ⟨pair, isPair, isPath⟩ := List.mem_map.mp covered
        have differs := List.lookup_eq_none_iff.mp found pair isPair
        simp [isPath] at differs
  obtain ⟨_, _, held⟩ := List.lookup_eq_some_iff.mp found
  obtain ⟨_, resolvedBefore, was⟩ := truthful (change.path, version) (by rw [held.1]; simp)
  cases resolvedBefore.symm.trans resolved
  refine ⟨path, resolved, ?_, now, fun isDelete => ?_⟩
  · rw [told.beforeVersion, found]
    exact was
  · have gone := told.deleted isDelete
    rw [gone] at now
    cases now with
    | absent missing => exact missing

/-- An applied patch found every expected version, and its changes report the versions that their paths
had before the call and have after it. -/
theorem applied_patch_reports_the_disk (sameChanges : helper.SameChanges)
    (answered : applyPatchTxn sandbox helper request start = .ok result after)
    (isApplied : result.status = .applied) :
    (∀ expected ∈ request.expectedVersions, VersionedAs sandbox start.disk expected.1 expected.2) ∧
      ∀ change ∈ result.changes, ReportsDisk sandbox start.disk after.disk change := by
  cases applyPatchTxn_eq_ok answered with
  | checked status => cases status.symm.trans isApplied
  | failed _ _ _ status =>
      rw [isApplied] at status
      split at status <;> cases status
  | @applied ready left prepared applied isPrepared worked verified _ =>
      obtain ⟨_, checked⟩ := isPrepared.expected
      obtain ⟨_, _, preflighted⟩ := isPrepared.preflight
      obtain ⟨_, _, _, sameDisk, overlaid⟩ := isPrepared.overlaid
      obtain ⟨truthful, covers⟩ := overlayBefore_eq_ok overlaid
      rw [sameDisk] at truthful
      refine ⟨checkVersions_eq_ok checked, fun change isChange => ?_⟩
      have untouched : left.disk = after.disk := ((verifyDiskMatchesClaimed_reads _).ok verified).disk
      unfold verifyDiskMatchesClaimed at verified
      split at verified
      · exact (Action.throw_eq_ok.mp verified).elim
      obtain ⟨claimed, isClaimed, told⟩ := verifyChanges_eq_ok verified change isChange
      rw [untouched] at told
      refine told.reportsDisk truthful ?_
      have sameList := sameChanges preflighted worked
      have named : (change.path, claimed.kind) ∈
          prepared.planned.changes.map fun change => (change.path, change.kind) := by
        rw [← sameList, told.path]
        exact List.mem_map_of_mem isClaimed
      obtain ⟨plannedChange, isPlanned, same⟩ := List.mem_map.mp named
      have samePath : plannedChange.path = change.path := (Prod.mk.inj same).1
      rw [← samePath]
      exact covers plannedChange isPlanned

/-- A patch that adds a file beside one whose version was expected. -/
theorem added_file_reports_the_disk :
    ∃ (process : HelperProcess) (request : RunnerApplyPatchRequest) (start after : Host)
      (result : RunnerApplyPatchResult),
      applyPatchTxn firstByte (process.helper firstByte) request start = .ok result after ∧
      result.status = .applied ∧ request.expectedVersions = [("a", "sha256:1")] ∧
      result.changes.map FileChange.afterVersion = [some "sha256:2"] ∧
      (∀ expected ∈ request.expectedVersions, VersionedAs firstByte start.disk expected.1 expected.2) ∧
      ∀ change ∈ result.changes, ReportsDisk firstByte start.disk after.disk change := by
  let process : HelperProcess := { engine := puttingEngine [.addFile "b"] "b" [2] (.ok ()) }
  let request : RunnerApplyPatchRequest :=
    { patch := "add b", expectedVersions := [("a", "sha256:1")] }
  let result : RunnerApplyPatchResult :=
    { status := .applied
      files := ["b"]
      changes := [
        { path := "b", beforeVersion := none, afterVersion := some "sha256:2", kind := .add }] }
  obtain ⟨after, answered⟩ : ∃ after,
      applyPatchTxn firstByte (process.helper firstByte) request { disk := oneFile } = .ok result after :=
    Action.exists_of_answer_ok (by decide +kernel)
  exact ⟨process, request, { disk := oneFile }, after, result, answered, rfl, rfl, rfl,
    applied_patch_reports_the_disk (process.helper_sameChanges firstByte) answered rfl⟩

end CodeSpace.Runner
