import CodeSpace.Runner.PatchPlan

namespace CodeSpace.Runner

open Data Domain
open Data.FileTree (Spares Within Under)

/-! The rollback of a patch whose helper failed: what its answer says of the planned files, and where
it writes. -/

variable {sandbox : PathSandbox} {process : HelperProcess} {request : RunnerApplyPatchRequest}
  {start host after : Host} {disk : Disk} {result : RunnerApplyPatchResult} {path root : Path}
  {snap : FileSnapshot} {snaps : List FileSnapshot} {relative patch : String}
  {saved : Option (List UInt8 × Nat)} {relatives : List String} {value : Unit} {engine : PatchEngine}
  {plan : List PlannedFile} {workspace : Workspace} {entry : Entry (List UInt8) Nat}
  {content : List UInt8}

/-- What a snapshot holds of a file: its content and mode, or that it was none. -/
inductive FileSnapshot.Holds : FileSnapshot → Option (List UInt8 × Nat) → Prop
  | file {relative : String} {content : List UInt8} {mode : Nat} :
      Holds { relative, existed := true, content := some content, mode := some mode }
        (some (content, mode))
  | none {relative : String} :
      Holds { relative, existed := false, content := none, mode := none } none

/-- The snapshot was taken of a disk, at the place its relative path leads to. -/
structure Taken (sandbox : PathSandbox) (disk : Disk) (relative : String) (snap : FileSnapshot) :
    Prop where
  named : snap.relative = relative
  holds : ∃ path, resolvePath sandbox.workspace relative = .ok path ∧ snap.Holds (disk.regular path)

theorem FileMeta.isFile_ofEntry :
    ((FileMeta.ofEntry entry).isFile && !(FileMeta.ofEntry entry).isSymlink) = true ↔
      ∃ content mode, entry = .file content mode := by
  cases entry <;> simp [FileMeta.ofEntry]

theorem regular_eq_none (held : disk.entries path = some entry)
    (notFile : ¬∃ content mode, entry = .file content mode) : disk.regular path = none := by
  cases found : disk.regular path with
  | none => rfl
  | some pair =>
      obtain ⟨content, mode⟩ := pair
      have isFile := FileTree.regular_eq_some.mp found
      rw [held, Option.some.injEq] at isFile
      exact absurd ⟨content, mode, isFile⟩ notFile

theorem regular_of_missing (missing : disk.entries path = none) : disk.regular path = none := by
  unfold FileTree.regular
  rw [missing]

theorem snapshotOne_eq_ok (ran : snapshotOne sandbox relative host = .ok snap after) :
    Taken sandbox host.disk relative snap := by
  obtain ⟨path, reached, resolved, ran⟩ := Action.bind_eq_ok.mp ran
  have unchanged : host.disk = reached.disk := ((PathSandbox.resolve_reads relative).ok resolved).disk
  rw [unchanged]
  obtain ⟨outcome, looked, attempted, ran⟩ := Action.bind_eq_ok.mp ran
  have resolves := PathSandbox.resolve_eq_ok resolved
  cases outcome with
  | error failure =>
      cases failure with
      | notFound =>
          have missing := sandbox.fs.metadata_notFound (Action.attempt_eq_ok_error.mp attempted)
          rw [← (Action.pure_eq_ok.mp ran).1]
          exact ⟨rfl, path, resolves, regular_of_missing missing ▸ .none⟩
      | _ => exact (Action.throw_eq_ok.mp ran).elim
  | ok =>
      have viewed := Action.attempt_eq_ok.mp attempted
      obtain ⟨_, held, rfl⟩ := sandbox.fs.metadata_eq_ok viewed
      have sameLooked : reached.disk = looked.disk := ((sandbox.fs.metadata_reads path).ok viewed).disk
      dsimp only at ran
      split at ran
      · obtain ⟨_, readThen, readBytes, ran⟩ := Action.bind_eq_ok.mp ran
        obtain ⟨_, _, readMode, answered⟩ := Action.bind_eq_ok.mp ran
        have sameRead : looked.disk = readThen.disk := ((sandbox.fs.read_reads path).mapFailure.ok
          readBytes).disk
        obtain ⟨_, withBytes⟩ := sandbox.fs.read_eq_ok (Action.mapFailure_eq_ok.mp readBytes)
        obtain ⟨_, withMode⟩ := unixMode_eq_ok (Action.mapFailure_eq_ok.mp readMode)
        rw [← sameRead, withBytes] at withMode
        cases withMode
        rw [← (Action.pure_eq_ok.mp answered).1, sameLooked]
        exact ⟨rfl, path, resolves, FileTree.regular_eq_some.mpr withBytes ▸ .file⟩
      next notFile =>
        rw [← (Action.pure_eq_ok.mp ran).1]
        have isNone := regular_eq_none held fun isFile =>
          notFile (FileMeta.isFile_ofEntry.mpr isFile)
        exact ⟨rfl, path, resolves, isNone ▸ .none⟩

theorem snapshot_eq_ok (ran : snapshot sandbox relatives host = .ok snaps after) :
    List.Forall₂ (Taken sandbox host.disk) relatives snaps := by
  induction relatives generalizing host snaps after with
  | nil =>
      rw [← (Action.pure_eq_ok.mp ran).1]
      exact .nil
  | cons relative _ ih =>
      obtain ⟨_, middle, taken, ran⟩ := Action.bind_eq_ok.mp ran
      have unchanged : host.disk = middle.disk := ((snapshotOne_reads relative).ok taken).disk
      obtain ⟨_, _, takenLater, answered⟩ := Action.bind_eq_ok.mp ran
      rw [← (Action.pure_eq_ok.mp answered).1]
      exact .cons (snapshotOne_eq_ok taken) (unchanged ▸ ih takenLater)

/-! One file is put back or taken away, and every other stays what it is. -/

theorem putBack_spares (content : List UInt8) (mode : Option Nat) :
    Action.Moves (OnDisk (Spares path)) (putBack sandbox path content mode) := by
  have makes : Action.Moves (OnDisk (Spares path)) (sandbox.fs.createDirAll path.dropLast) :=
    sandbox.fs.createDirAll_moves fun part _ disk room missing other elsewhere => by
      by_cases same : other = part
      · subst same
        exact .inr ⟨missing, by simp⟩
      · exact .inl (by rw [FileTree.put_entries, Function.update_of_ne same])
  have writes : Action.Moves (OnDisk (Spares path)) (sandbox.fs.write path content) :=
    sandbox.fs.write_moves fun _ _ _ room => FileTree.put_spares room
  refine makes.bind fun _ => writes.bind fun _ => ?_
  cases mode with
  | none => exact .pure _
  | some => exact setUnixMode_moves fun _ _ room => FileTree.put_spares room

theorem takeBack_spares : Action.Moves (OnDisk (Spares path)) (takeBack sandbox path) := by
  refine (reads_moves (sandbox.fs.metadata_reads path).attempt).bind fun found => ?_
  rcases found with failure | found
  · cases failure with
    | notFound => exact .pure _
    | _ => exact .throw _
  · dsimp only
    split
    · exact (sandbox.fs.removeFile_moves fun _ leaf => FileTree.remove_spares leaf).mapFailure
    · exact .pure _

theorem restoreOne_spares (resolves : resolvePath sandbox.workspace snap.relative = .ok path) :
    Action.Moves (OnDisk (Spares path)) (restoreOne sandbox snap) := by
  refine (reads_moves (PathSandbox.resolve_reads snap.relative)).bind_answers
    fun {_ found _} resolved => ?_
  cases resolves.symm.trans (PathSandbox.resolve_eq_ok resolved)
  split
  · exact (putBack_spares _ _).mapFailure
  · exact takeBack_spares

theorem putBack_eq_ok {mode : Nat} (ran : putBack sandbox path content (some mode) host = .ok value after) :
    after.disk.regular path = some (content, mode) := by
  obtain ⟨_, _, _, ran⟩ := Action.bind_eq_ok.mp ran
  obtain ⟨_, _, wrote, moded⟩ := Action.bind_eq_ok.mp ran
  obtain ⟨_, held⟩ := sandbox.fs.write_eq_ok wrote
  exact FileTree.regular_eq_some.mpr (setUnixMode_eq_ok held moded)

theorem takeBack_eq_ok (ran : takeBack sandbox path host = .ok value after) :
    after.disk.regular path = none := by
  obtain ⟨outcome, looked, attempted, ran⟩ := Action.bind_eq_ok.mp ran
  cases outcome with
  | error failure =>
      have viewed := Action.attempt_eq_ok_error.mp attempted
      have unchanged : host.disk = looked.disk := ((sandbox.fs.metadata_reads path).error viewed).disk
      cases failure with
      | notFound =>
          obtain ⟨_, rfl⟩ := Action.pure_eq_ok.mp ran
          exact regular_of_missing (unchanged ▸ sandbox.fs.metadata_notFound viewed)
      | _ => exact (Action.throw_eq_ok.mp ran).elim
  | ok =>
      have viewed := Action.attempt_eq_ok.mp attempted
      have unchanged : host.disk = looked.disk := ((sandbox.fs.metadata_reads path).ok viewed).disk
      obtain ⟨_, held, rfl⟩ := sandbox.fs.metadata_eq_ok viewed
      dsimp only at ran
      split at ran
      · exact regular_of_missing (sandbox.fs.removeFile_eq_ok (Action.mapFailure_eq_ok.mp ran))
      next notFile =>
        obtain ⟨_, rfl⟩ := Action.pure_eq_ok.mp ran
        exact regular_eq_none (unchanged ▸ held) fun isFile =>
          notFile (FileMeta.isFile_ofEntry.mpr isFile)

theorem restoreOne_eq_ok (holds : snap.Holds saved)
    (resolves : resolvePath sandbox.workspace snap.relative = .ok path)
    (ran : restoreOne sandbox snap host = .ok value after) : after.disk.regular path = saved := by
  obtain ⟨_, _, resolved, ran⟩ := Action.bind_eq_ok.mp ran
  cases resolves.symm.trans (PathSandbox.resolve_eq_ok resolved)
  cases holds with
  | file => exact putBack_eq_ok (Action.mapFailure_eq_ok.mp ran)
  | none => exact takeBack_eq_ok ran

/-! The whole rollback. -/

theorem restore_moves {related : Disk → Disk → Prop} [Std.Refl related] [IsTrans Disk related]
    (each : ∀ snap ∈ snaps, Action.Moves (OnDisk related) (restoreOne sandbox snap)) :
    Action.Moves (OnDisk related) (restore sandbox snaps) := by
  induction snaps with
  | nil => exact .pure _
  | cons snap _ ih =>
      exact (each snap List.mem_cons_self).attempt.bind fun _ =>
        (ih fun later isLater => each later (List.mem_cons_of_mem _ isLater)).bind fun _ => .pure _

theorem restore_complete {rest : List FileSnapshot}
    (ran : restore sandbox (snap :: rest) host = .ok true after) :
    ∃ middle, restoreOne sandbox snap host = .ok () middle ∧
      restore sandbox rest middle = .ok true after := by
  obtain ⟨outcome, middle, attempted, ran⟩ := Action.bind_eq_ok.mp ran
  obtain ⟨_, _, restoredRest, answered⟩ := Action.bind_eq_ok.mp ran
  obtain ⟨allRestored, rfl⟩ := Action.pure_eq_ok.mp answered
  obtain ⟨restored, rfl⟩ := Bool.and_eq_true_iff.mp allRestored
  cases outcome with
  | ok => exact ⟨middle, Action.attempt_eq_ok.mp attempted, restoredRest⟩
  | error => cases restored

theorem restore_keeps (taken : List.Forall₂ (Taken sandbox disk) relatives snaps)
    (ran : restore sandbox snaps host = .ok true after)
    (back : host.disk.regular path = disk.regular path) :
    after.disk.regular path = disk.regular path := by
  induction taken generalizing host with
  | nil =>
      obtain ⟨_, rfl⟩ := Action.pure_eq_ok.mp ran
      exact back
  | @cons relative snap _ _ first later ih =>
      obtain ⟨middle, restored, ranLater⟩ := restore_complete ran
      refine ih ranLater ?_
      obtain ⟨here, resolves, holds⟩ := first.holds
      rw [← first.named] at resolves
      by_cases same : path = here
      · rw [same]
        exact restoreOne_eq_ok holds resolves restored
      · have spared : Spares here host.disk middle.disk := (restoreOne_spares resolves).ok restored
        rw [spared.regular same, back]

/-- A complete rollback brings every file back that a snapshot was taken of. -/
theorem restore_brings_back (taken : List.Forall₂ (Taken sandbox disk) relatives snaps)
    (ran : restore sandbox snaps host = .ok true after) (isTaken : relative ∈ relatives)
    (resolves : resolvePath sandbox.workspace relative = .ok path) :
    after.disk.regular path = disk.regular path := by
  induction taken generalizing host with
  | nil => cases isTaken
  | @cons first snap _ _ takenFirst takenLater ih =>
      obtain ⟨_, restored, ranLater⟩ := restore_complete ran
      rcases List.mem_cons.mp isTaken with rfl | isLater
      · refine restore_keeps takenLater ranLater ?_
        obtain ⟨_, resolvesHere, holds⟩ := takenFirst.holds
        cases resolves.symm.trans resolvesHere
        exact restoreOne_eq_ok holds (takenFirst.named ▸ resolves) restored
      · exact ih ranLater isLater

/-! Where the rollback writes. -/

theorem putBack_within {mode : Option Nat} (under : Under root path) :
    Action.Moves (OnDisk (FileTree.WithinHeld root)) (putBack sandbox path content mode) := by
  have onWay : root <+: path.dropLast := by
    obtain ⟨⟨names, rfl⟩, proper⟩ := under
    have nonempty : names ≠ [] := by
      rintro rfl
      exact proper (List.append_nil root)
    rw [List.dropLast_append_of_ne_nil nonempty]
    exact List.prefix_append root _
  have makes : Action.Moves (OnDisk (FileTree.WithinHeld root)) (sandbox.fs.createDirAll path.dropLast) :=
    sandbox.fs.createDirAll_moves fun part isPart disk room missing held =>
      FileTree.put_within room
        (FileTree.under_of_missing held missing onWay ((List.mem_inits _ _).mp isPart))
  have writes : Action.Moves (OnDisk (FileTree.WithinHeld root)) (sandbox.fs.write path content) :=
    sandbox.fs.write_moves fun _ _ _ room _ => FileTree.put_within room under
  refine makes.bind fun _ => writes.bind fun _ => ?_
  cases mode with
  | none => exact .pure _
  | some => exact setUnixMode_moves fun _ _ room _ => FileTree.put_within room under

theorem takeBack_within (under : Under root path) :
    Action.Moves (OnDisk (Within root)) (takeBack sandbox path) := by
  refine (reads_moves (sandbox.fs.metadata_reads path).attempt).bind fun found => ?_
  rcases found with failure | found
  · cases failure with
    | notFound => exact .pure _
    | _ => exact .throw _
  · dsimp only
    split
    · exact (sandbox.fs.removeFile_moves fun _ leaf => FileTree.remove_within leaf under).mapFailure
    · exact .pure _

/-- The rollback of files under the root changes nothing that is not under it. -/
theorem restore_within {complete : Bool} (taken : List.Forall₂ (Taken sandbox disk) relatives snaps)
    (under : ∀ relative ∈ relatives, ∀ path,
      resolvePath sandbox.workspace relative = .ok path → Under root path)
    (sameRoot : host.disk.entries root = disk.entries root)
    (ran : restore sandbox snaps host = .ok complete after) : Within root host.disk after.disk := by
  by_cases held : disk.entries root = some .directory
  · have moves : Action.Moves (OnDisk (FileTree.WithinHeld root)) (restore sandbox snaps) := by
      refine restore_moves fun snap isSnap => ?_
      obtain ⟨relative, isRelative, named, _⟩ := exists_related taken.flip isSnap
      refine (reads_moves (PathSandbox.resolve_reads snap.relative)).bind_answers
        fun {_ path _} resolved => ?_
      have isUnder : Under root path :=
        under relative isRelative path (named ▸ PathSandbox.resolve_eq_ok resolved)
      split
      · exact (putBack_within isUnder).mapFailure
      · exact (takeBack_within isUnder).mono fun within _ => within
    exact moves.ok ran (sameRoot.trans held)
  · have moves : Action.Moves (OnDisk (Within root)) (restore sandbox snaps) := by
      refine restore_moves fun snap isSnap => ?_
      obtain ⟨relative, isRelative, named, path, resolves, holds⟩ := exists_related taken.flip isSnap
      have isUnder := under relative isRelative path resolves
      have noFile : disk.regular path = none := by
        cases found : disk.regular path with
        | none => rfl
        | some =>
            have isFile := FileTree.regular_eq_some.mp found
            exact absurd (disk.directory_above (by rw [isFile]; rfl) isUnder.1 isUnder.2.symm) held
      have absent : snap.existed = false := by
        rw [noFile] at holds
        cases holds
        rfl
      refine (reads_moves (PathSandbox.resolve_reads snap.relative)).bind_answers
        fun {_ found _} resolved => ?_
      rw [absent]
      exact takeBack_within (under relative isRelative found (named ▸ PathSandbox.resolve_eq_ok resolved))
    exact moves.ok ran

/-! The plan's files, as the Runner names them. -/

section

variable (planned : Planned workspace engine patch plan)
include planned

theorem Planned.plain :
    ∀ file ∈ plan, ∃ names, file.abs = workspace.root ++ names ∧ ∀ name ∈ names, Plain name := by
  intro file isFile
  obtain ⟨_, _, plans⟩ := planned
  obtain ⟨_, _, plansFile⟩ := exists_related plans.flip isFile
  obtain ⟨names, isBelow, plain, _⟩ := resolvePath_names plansFile.resolves
  exact ⟨names, isBelow, plain⟩

theorem relativeFiles_under (isFile : relative ∈ relativeFiles workspace.root (plan.map PlannedFile.abs))
    (resolves : resolvePath workspace relative = .ok path) : Under workspace.root path := by
  obtain ⟨_, isAbs, shown⟩ := List.mem_filterMap.mp isFile
  obtain ⟨file, isPlanned, rfl⟩ := List.mem_map.mp isAbs
  obtain ⟨names, isBelow, plain⟩ := planned.plain file isPlanned
  rw [isBelow, below?_append, Option.map_some, Option.some.injEq] at shown
  subst shown
  have nonempty : names ≠ [] := by
    rintro rfl
    cases resolves
  rw [resolvePath_joinNames nonempty plain] at resolves
  cases resolves
  exact ⟨List.prefix_append _ _, by simpa using nonempty⟩

theorem relativeFiles_of_plan (isPlanned : path ∈ plan.map PlannedFile.abs) :
    ∃ names, joinNames names ∈ relativeFiles workspace.root (plan.map PlannedFile.abs) ∧
      path = workspace.root ++ names ∧ ∀ name ∈ names, Plain name := by
  obtain ⟨file, isFile, rfl⟩ := List.mem_map.mp isPlanned
  obtain ⟨names, isBelow, plain⟩ := planned.plain file isFile
  refine ⟨names, List.mem_filterMap.mpr ⟨file.abs, isPlanned, ?_⟩, isBelow, plain⟩
  rw [isBelow, below?_append, Option.map_some]

end

/-- A helper that failed left the disk as it found it, or as its engine left it. -/
theorem HelperProcess.runApply_eq_error {failure : ErrorBody}
    (ran : process.runApply sandbox patch host = .error failure after) :
    after.disk = host.disk ∨
      after.disk = (process.engine.apply patch sandbox.workspace.root host.disk).2 := by
  cases cut : process.applyCut with
  | some =>
      simp only [HelperProcess.runApply, cut, EStateM.Result.error.injEq] at ran
      exact .inr (by rw [← ran.2])
  | none =>
      simp only [HelperProcess.runApply, cut, Action.mapFailure_eq_error] at ran
      obtain ⟨_, ran, _⟩ := ran
      rcases Action.bind_eq_error.mp ran with failed | ⟨paths, first, preflighted, ran⟩
      · exact .inl ((preflight_reads patch).error failed).disk.symm
      have sameFirst : host.disk = first.disk := ((preflight_reads patch).ok preflighted).disk
      rcases Action.bind_eq_error.mp ran with failed | ⟨root, second, canonical, ran⟩
      · exact .inl (sameFirst.trans (canonicalizeRoot_reads.error failed).disk).symm
      have sameSecond : first.disk = second.disk := (canonicalizeRoot_reads.ok canonical).disk
      rcases Action.bind_eq_error.mp ran with failed | ⟨plan, ready, planned, ran⟩
      · exact .inl
          (sameFirst.trans (sameSecond.trans ((planFiles_reads patch).error failed).disk)).symm
      have sameReady : second.disk = ready.disk := ((planFiles_reads patch).ok planned).disk
      rw [sameFirst, sameSecond, sameReady]
      rw [if_neg (by decide)] at ran
      rcases Action.bind_eq_error.mp ran with failed | ⟨_, left, applied, ran⟩
      · unfold runEngine at failed
        split at failed
        · cases failed
        next ranEngine =>
          cases failed
          exact .inr (by rw [ranEngine])
      · unfold runEngine at applied
        split at applied
        next ranEngine =>
          cases applied
          rcases Action.bind_eq_error.mp ran with failed | ⟨changes, _, _, answered⟩
          · exact .inr (by rw [ranEngine]; exact ((plannedToChanges_reads true plan).error failed).disk.symm)
          · exact (Action.pure_eq_error.mp answered).elim
        · cases applied

/-- A patch whose helper failed after any effect under the workspace's root: the answer that it was
rolled back is given only if every planned file is again what it was, the other whenever one is not,
and nothing that is not under the root has changed. -/
theorem rolled_back_patch_is_undone (confined : Within sandbox.workspace.root start.disk
      (process.engine.apply request.patch sandbox.workspace.root start.disk).2)
    (answered : applyPatchTxn sandbox (process.helper sandbox) request start = .ok result after)
    (helperFailed : result.status = .failedRolledBack ∨ result.status = .failedPartial) :
    (result.status = .failedRolledBack →
        ∀ path, PlannedPath sandbox.workspace process.engine request.patch path →
          after.disk.regular path = start.disk.regular path) ∧
      ((∃ path, PlannedPath sandbox.workspace process.engine request.patch path ∧
          after.disk.regular path ≠ start.disk.regular path) → result.status = .failedPartial) ∧
      Within sandbox.workspace.root start.disk after.disk := by
  cases applyPatchTxn_eq_ok answered with
  | checked status | applied _ _ _ status =>
      rcases helperFailed with failed | failed <;> cases status.symm.trans failed
  | @failed ready left prepared failure complete isPrepared stopped restored status =>
      obtain ⟨_, _, preflighted⟩ := isPrepared.preflight
      obtain ⟨_, tells⟩ := HelperProcess.runPreflight_eq_ok preflighted
      obtain ⟨_, _, sameDisk, snapped⟩ := isPrepared.snapped
      have taken : List.Forall₂ (Taken sandbox start.disk) prepared.planned.files prepared.snaps :=
        sameDisk ▸ snapshot_eq_ok snapped
      rw [tells.files] at taken
      have back (isComplete : complete = true) (path : Path)
          (isPlanned : PlannedPath sandbox.workspace process.engine request.patch path) :
          after.disk.regular path = start.disk.regular path := by
        subst isComplete
        obtain ⟨names, isFile, rfl, plain⟩ :=
          relativeFiles_of_plan tells.planned (tells.planned.mem_abs isPlanned)
        have nonempty : names ≠ [] := by
          rintro rfl
          obtain ⟨_, _, isTaken⟩ := exists_related taken isFile
          obtain ⟨_, resolves, _⟩ := isTaken.holds
          cases resolves
        exact restore_brings_back taken restored isFile (resolvePath_joinNames nonempty plain)
      have effect : Within sandbox.workspace.root start.disk left.disk := by
        rcases HelperProcess.runApply_eq_error stopped with same | same
        · rw [same, ← isPrepared.reading.disk]
          exact Std.Refl.refl _
        · rw [same, ← isPrepared.reading.disk]
          exact confined
      refine ⟨fun rolledBack => back ?_, ?_, ?_⟩
      · rw [rolledBack] at status
        cases complete with
        | true => rfl
        | false => cases status
      · rintro ⟨path, isPlanned, differs⟩
        cases complete with
        | true => exact absurd (back rfl path isPlanned) differs
        | false => exact status
      · have restoredWithin : Within sandbox.workspace.root left.disk after.disk :=
          restore_within taken (fun relative isFile path => relativeFiles_under tells.planned isFile)
            (effect _ FileTree.not_under_self) restored
        exact IsTrans.trans _ _ _ effect restoredWithin

/-- A helper that stops after it has rewritten a file. -/
theorem stopped_patch_is_undone :
    ∃ (process : HelperProcess) (request : RunnerApplyPatchRequest) (start after : Host)
      (result : RunnerApplyPatchResult),
      applyPatchTxn firstByte (process.helper firstByte) request start = .ok result after ∧
      result.status = .failedRolledBack ∧
      (process.engine.apply request.patch ["w"] start.disk).2.regular ["w", "a"] = some ([2], 420) ∧
      PlannedPath firstByte.workspace process.engine request.patch ["w", "a"] ∧
      after.disk.regular ["w", "a"] = some ([1], 420) ∧ Within ["w"] start.disk after.disk := by
  let process : HelperProcess :=
    { engine := puttingEngine [.updateFile "a" none []] "a" [2] (.error "stopped") }
  let request : RunnerApplyPatchRequest := { patch := "rewrite a" }
  let result : RunnerApplyPatchResult :=
    { status := .failedRolledBack
      files := ["a"]
      changes := [{ path := "a", beforeVersion := none, afterVersion := none, kind := .update }] }
  obtain ⟨after, answered⟩ : ∃ after,
      applyPatchTxn firstByte (process.helper firstByte) request { disk := oneFile } = .ok result after :=
    Action.exists_of_answer_ok (by decide +kernel)
  have isPlanned : PlannedPath firstByte.workspace process.engine request.patch ["w", "a"] :=
    ⟨.update, _, rfl, "a", by decide +kernel, by decide +kernel⟩
  obtain ⟨back, _, within⟩ := rolled_back_patch_is_undone puttingEngine_within answered (.inl rfl)
  exact ⟨process, request, { disk := oneFile }, after, result, answered, rfl, by decide +kernel,
    isPlanned, back rfl _ isPlanned, within⟩

end CodeSpace.Runner
