import CodeSpace.Runner.PatchPlan

namespace CodeSpace.Runner

open Data Domain

/-! A patch that is answered with an error, or only checked, and the files of its workspace. -/

variable {sandbox : PathSandbox} {helper : PatchHelper} {request : RunnerApplyPatchRequest}
  {start after : Host} {failure : ErrorBody}

theorem applyPatchTxn_check_reads (isCheck : request.checkOnly = true) :
    Reads (applyPatchTxn sandbox helper request) := by
  refine Action.Moves.bind (.lift _) fun _ => (checkVersions_reads _).bind fun _ => ?_
  rw [if_pos isCheck]
  exact preview_reads request.patch

/-- A patch that is only checked changes nothing, and neither does one that is answered with an error,
unless the helper had answered that it applied the patch and what it claims is not found on the disk: then
the disk is as the helper left it. -/
theorem rejected_patch_changes_nothing : (request.checkOnly = true →
      (Action.final (applyPatchTxn sandbox helper request start)).disk = start.disk) ∧
    (applyPatchTxn sandbox helper request start = .error failure after → after.disk = start.disk ∨
      ∃ ready left prepared applied, request.checkOnly = false ∧
        Prepared sandbox helper request start ready prepared ∧
        helper.apply request.patch ready = .ok applied left ∧
        verifyDiskMatchesClaimed sandbox applied.changes prepared.before left = .error failure after ∧
        after.disk = left.disk) := by
  refine ⟨fun isCheck => ?_, fun failed => ?_⟩
  · have reads : Reads (applyPatchTxn sandbox helper request) := applyPatchTxn_check_reads isCheck
    exact (reads start).disk.symm
  · rcases applyPatchTxn_eq_error failed with reading |
      ⟨ready, left, prepared, applied, isApply, isPrepared, worked, unverified⟩
    · exact .inl reading.disk.symm
    · have untouched : left.disk = after.disk :=
        ((verifyDiskMatchesClaimed_reads applied.changes).error unverified).disk
      exact .inr ⟨ready, left, prepared, applied, isApply, isPrepared, worked, unverified, untouched.symm⟩

/-- A patch that expected another version. -/
theorem conflicting_patch_changes_nothing :
    ∃ (process : HelperProcess) (request : RunnerApplyPatchRequest) (start after : Host)
      (failure : ErrorBody),
      applyPatchTxn firstByte (process.helper firstByte) request start = .error failure after ∧
      failure.code = .versionConflict ∧ after.disk = start.disk := by
  let process : HelperProcess := { engine := puttingEngine [.addFile "b"] "b" [2] (.error "stopped") }
  let request : RunnerApplyPatchRequest :=
    { patch := "add b", expectedVersions := [("a", "sha256:2")] }
  obtain ⟨after, failed⟩ : ∃ after,
      applyPatchTxn firstByte (process.helper firstByte) request { disk := oneFile } =
        .error { code := .versionConflict, message := "version conflict for a" } after :=
    Action.exists_of_answer_error (by decide +kernel)
  refine ⟨process, request, { disk := oneFile }, after, _, failed, rfl, ?_⟩
  refine (rejected_patch_changes_nothing.2 failed).resolve_right ?_
  rintro ⟨ready, left, prepared, applied, -, -, worked, -⟩
  have ran : process.runApply firstByte request.patch ready = .ok applied left := worked
  obtain ⟨_, _, _, ranEngine, -⟩ := applyInWorkspace_eq_ok (HelperProcess.runApply_eq_ok ran)
  simp only [process, puttingEngine] at ranEngine
  split at ranEngine <;> cases ranEngine

/-- A patch that adds a file with a backslash in its name is answered with an error once the file is
there: the helper reports it under another name. -/
theorem rejected_patch_leaves_a_file :
    ∃ (process : HelperProcess) (request : RunnerApplyPatchRequest) (start after : Host)
      (failure : ErrorBody),
      start.faults = [] ∧
      (∀ path, ¬ PlannedPath firstByte.workspace process.engine request.patch path →
        (process.engine.apply request.patch firstByte.workspace.root start.disk).2.regular path =
          start.disk.regular path) ∧
      applyPatchTxn firstByte (process.helper firstByte) request start = .error failure after ∧
      failure.code = .invalidPatch ∧
      start.disk.regular ["w", "b\\c"] = none ∧
      after.disk.regular ["w", "b\\c"] = some ([2], 420) := by
  let process : HelperProcess := { engine := puttingEngine [.addFile "b\\c"] "b\\c" [2] (.ok ()) }
  let request : RunnerApplyPatchRequest := { patch := "add b\\c" }
  obtain ⟨after, failed⟩ : ∃ after,
      applyPatchTxn firstByte (process.helper firstByte) request { disk := oneFile } =
        .error (invalidPatch "disk version absent != claimed sha256:2 for b/c") after :=
    Action.exists_of_answer_error (by decide +kernel)
  have left : (Action.final (applyPatchTxn firstByte (process.helper firstByte) request
      { disk := oneFile })).disk.regular ["w", "b\\c"] = some ([2], 420) := by
    decide +kernel
  rw [failed] at left
  obtain ⟨changed, put⟩ : ∃ changed,
      oneFile.putEntry (firstByte.workspace.root ++ ["b\\c"]) (.file [2] 420) = .ok changed := ⟨_, rfl⟩
  obtain ⟨room, rfl⟩ := Disk.putEntry_eq_ok put
  have planned : PlannedPath firstByte.workspace process.engine request.patch ["w", "b\\c"] :=
    ⟨.add, _, rfl, "b\\c", List.mem_singleton.mpr rfl, by decide +kernel⟩
  refine ⟨process, request, { disk := oneFile }, after, _, rfl, fun path unplanned => ?_, failed, rfl,
    by decide +kernel, left⟩
  have elsewhere : path ≠ firstByte.workspace.root ++ ["b\\c"] := fun same => unplanned (same ▸ planned)
  simp only [process, puttingEngine, put]
  exact (FileTree.put_spares room).regular elsewhere

end CodeSpace.Runner
