import CodeSpace.Data.Count
import CodeSpace.Runner.PatchSteps

namespace CodeSpace.Runner

open Data Domain

/-! The plan of a patch: the files its hunks name, whatever the disk is. -/

variable {workspace : Workspace} {engine : PatchEngine} {digest : List UInt8 → String}
  {patch name : String} {host after : Host} {files planned plan : List PlannedFile} {file : PlannedFile}
  {success : HelperSuccess} {hunks : List Hunk} {path root : Path}

/-- The paths a hunk names, and what is to become of each. -/
def Hunk.changes : Hunk → List (String × FileChangeKind)
  | .addFile path => [(path, .add)]
  | .deleteFile path => [(path, .delete)]
  | .updateFile path none _ => [(path, .update)]
  | .updateFile path (some moved) _ => [(path, .delete), (moved, .move)]

structure Plans (workspace : Workspace) (named : String × FileChangeKind) (file : PlannedFile) :
    Prop where
  resolves : resolvePath workspace named.1 = .ok file.abs
  relative : file.relative = relDisplay named.1
  kind : file.kind = named.2

/-- The plan of a patch that parses. -/
def Planned (workspace : Workspace) (engine : PatchEngine) (patch : String)
    (plan : List PlannedFile) : Prop :=
  ∃ hunks, engine.parse patch = .ok hunks ∧
    List.Forall₂ (Plans workspace) (hunks.flatMap Hunk.changes) plan

/-- A path that a hunk of the patch names, and what is to become of it. -/
def PlannedAs (workspace : Workspace) (engine : PatchEngine) (patch : String) (kind : FileChangeKind)
    (path : Path) : Prop :=
  ∃ hunks, engine.parse patch = .ok hunks ∧ ∃ name, (name, kind) ∈ hunks.flatMap Hunk.changes ∧
    resolvePath workspace name = .ok path

def PlannedPath (workspace : Workspace) (engine : PatchEngine) (patch : String) (path : Path) : Prop :=
  ∃ kind, PlannedAs workspace engine patch kind path

theorem Planned.mem_abs (planned : Planned workspace engine patch plan)
    (isPlanned : PlannedPath workspace engine patch path) : path ∈ plan.map PlannedFile.abs := by
  obtain ⟨_, parsed, plans⟩ := planned
  obtain ⟨_, _, parsedAgain, _, isNamed, resolves⟩ := isPlanned
  cases parsed.symm.trans parsedAgain
  obtain ⟨_, isFile, plansFile⟩ := exists_related plans isNamed
  cases plansFile.resolves.symm.trans resolves
  exact List.mem_map_of_mem isFile

theorem allowedPath_eq_ok (ran : allowedPath workspace name host = .ok path after) :
    resolvePath workspace name = .ok path := by
  obtain ⟨_, _, lifted, ran⟩ := Action.bind_eq_ok.mp ran
  obtain ⟨_, _, _, answered⟩ := Action.bind_eq_ok.mp ran
  rw [← (Action.pure_eq_ok.mp answered).1]
  exact (Action.lift_eq_ok.mp lifted).1

theorem freePath_eq_ok {taken : ErrorCode} (ran : freePath workspace name taken host = .ok path after) :
    resolvePath workspace name = .ok path := by
  obtain ⟨_, _, allowed, ran⟩ := Action.bind_eq_ok.mp ran
  obtain ⟨found, _, _, answered⟩ := Action.bind_eq_ok.mp ran
  cases found with
  | some => exact (Action.throw_eq_ok.mp answered).elim
  | none =>
      rw [← (Action.pure_eq_ok.mp answered).1]
      exact allowedPath_eq_ok allowed

theorem planHunk_eq_ok {hunk : Hunk} (ran : planHunk workspace hunk host = .ok files after) :
    List.Forall₂ (Plans workspace) hunk.changes files := by
  rcases hunk with path | path | ⟨path, _ | moved, chunks⟩
  · obtain ⟨dest, _, free, answered⟩ := Action.bind_eq_ok.mp ran
    rw [← (Action.pure_eq_ok.mp answered).1]
    exact .cons ⟨freePath_eq_ok free, rfl, rfl⟩ .nil
  · obtain ⟨dest, _, allowed, answered⟩ := Action.bind_eq_ok.mp ran
    rw [← (Action.pure_eq_ok.mp answered).1]
    exact .cons ⟨allowedPath_eq_ok allowed, rfl, rfl⟩ .nil
  · obtain ⟨dest, _, allowed, answered⟩ := Action.bind_eq_ok.mp ran
    rw [← (Action.pure_eq_ok.mp answered).1]
    exact .cons ⟨allowedPath_eq_ok allowed, rfl, rfl⟩ .nil
  · obtain ⟨_, _, allowed, ran⟩ := Action.bind_eq_ok.mp ran
    obtain ⟨_, _, free, answered⟩ := Action.bind_eq_ok.mp ran
    rw [← (Action.pure_eq_ok.mp answered).1]
    exact .cons ⟨allowedPath_eq_ok allowed, rfl, rfl⟩ (.cons ⟨freePath_eq_ok free, rfl, rfl⟩ .nil)

theorem planHunks_eq_ok (ran : planHunks workspace hunks host = .ok files after) :
    List.Forall₂ (Plans workspace) (hunks.flatMap Hunk.changes) files := by
  induction hunks generalizing host files after with
  | nil =>
      rw [← (Action.pure_eq_ok.mp ran).1]
      exact .nil
  | cons _ _ ih =>
      obtain ⟨_, _, plannedFirst, ran⟩ := Action.bind_eq_ok.mp ran
      obtain ⟨_, _, plannedLater, answered⟩ := Action.bind_eq_ok.mp ran
      rw [← (Action.pure_eq_ok.mp answered).1, List.flatMap_cons]
      exact List.rel_append (planHunk_eq_ok plannedFirst) (ih plannedLater)

theorem planFiles_eq_ok (ran : planFiles workspace engine patch host = .ok files after) :
    Planned workspace engine patch files := by
  obtain ⟨hunks, _, lifted, ran⟩ := Action.bind_eq_ok.mp ran
  refine ⟨hunks, ?_, planHunks_eq_ok ran⟩
  have parsed := (Action.lift_eq_ok.mp lifted).1
  unfold parsePatch at parsed
  cases answer : engine.parse patch with
  | ok =>
      rw [answer] at parsed
      cases parsed
      rfl
  | error =>
      rw [answer] at parsed
      cases parsed

theorem Planned.unique (first : Planned workspace engine patch files)
    (second : Planned workspace engine patch planned) : files = planned := by
  obtain ⟨_, parsed, plans⟩ := first
  obtain ⟨_, parsedAgain, plansAgain⟩ := second
  cases parsed.symm.trans parsedAgain
  refine Relator.RightUnique.forall₂ (fun named file other one another => ?_) plans plansAgain
  obtain ⟨abs, relative, kind⟩ := file
  obtain ⟨otherAbs, otherRelative, otherKind⟩ := other
  have sameAbs : abs = otherAbs := Except.ok.inj (one.resolves.symm.trans another.resolves)
  have sameRelative : relative = otherRelative := one.relative.trans another.relative.symm
  have sameKind : kind = otherKind := one.kind.trans another.kind.symm
  rw [sameAbs, sameRelative, sameKind]

theorem preflight_eq_ok {paths : List Path}
    (ran : preflight workspace engine patch host = .ok paths after) :
    ∃ plan, Planned workspace engine patch plan ∧ paths = plan.map PlannedFile.abs := by
  obtain ⟨plan, _, planned, ran⟩ := Action.bind_eq_ok.mp ran
  obtain ⟨_, _, _, ran⟩ := Action.bind_eq_ok.mp ran
  obtain ⟨_, _, _, answered⟩ := Action.bind_eq_ok.mp ran
  exact ⟨plan, planFiles_eq_ok planned, (Action.pure_eq_ok.mp answered).1.symm⟩

theorem canonicalizeRoot_eq_ok (ran : canonicalizeRoot workspace host = .ok root after) :
    root = workspace.root := by
  obtain ⟨fault, _, _, ran⟩ := Action.bind_eq_ok.mp ran
  cases fault with
  | some => exact (Action.throw_eq_ok.mp ran).elim
  | none =>
      obtain ⟨found, _, _, answered⟩ := Action.bind_eq_ok.mp ran
      cases leads : workspace.canonical with
      | none => simp only [leads, Action.throw_eq_ok] at answered
      | some =>
          cases held : found.disk.entries workspace.root with
          | none => simp only [leads, held, Action.throw_eq_ok] at answered
          | some =>
              simp only [leads, held, Action.pure_eq_ok] at answered
              rw [← answered.1, Workspace.root, leads, Option.getD_some]

theorem plannedToChanges_named {hashAfter : Bool} {changes : List FileChange}
    (ran : plannedToChanges digest hashAfter files host = .ok changes after) :
    (changes.map fun change => (change.path, change.kind)) =
      files.map fun file => (file.relative, file.kind) := by
  induction files generalizing host changes after with
  | nil =>
      rw [← (Action.pure_eq_ok.mp ran).1]
      rfl
  | cons _ _ ih =>
      obtain ⟨_, _, _, ran⟩ := Action.bind_eq_ok.mp ran
      obtain ⟨_, _, ranLater, answered⟩ := Action.bind_eq_ok.mp ran
      rw [← (Action.pure_eq_ok.mp answered).1, List.map_cons, List.map_cons, ih ranLater]

/-- What the helper's answer tells: the files of the plan, and its changes in the same order. -/
structure Tells (workspace : Workspace) (engine : PatchEngine) (patch : String)
    (success : HelperSuccess) (plan : List PlannedFile) : Prop where
  planned : Planned workspace engine patch plan
  files : success.files = relativeFiles workspace.root (plan.map PlannedFile.abs)
  changes : (success.changes.map fun change => (change.path, change.kind)) =
    plan.map fun file => (file.relative, file.kind)

theorem applyInWorkspace_check_eq_ok
    (ran : applyInWorkspace digest workspace engine patch true host = .ok success after) :
    ∃ plan, Tells workspace engine patch success plan := by
  obtain ⟨_, _, preflighted, ran⟩ := Action.bind_eq_ok.mp ran
  obtain ⟨_, _, canonical, ran⟩ := Action.bind_eq_ok.mp ran
  obtain ⟨_, _, planned, ran⟩ := Action.bind_eq_ok.mp ran
  obtain ⟨first, isPlanned, rfl⟩ := preflight_eq_ok preflighted
  obtain rfl := isPlanned.unique (planFiles_eq_ok planned)
  obtain rfl := canonicalizeRoot_eq_ok canonical
  rw [if_pos rfl] at ran
  obtain ⟨_, _, changed, answered⟩ := Action.bind_eq_ok.mp ran
  rw [← (Action.pure_eq_ok.mp answered).1]
  exact ⟨first, isPlanned, rfl, plannedToChanges_named changed⟩

theorem applyInWorkspace_eq_ok
    (ran : applyInWorkspace digest workspace engine patch false host = .ok success after) :
    ∃ plan left, Tells workspace engine patch success plan ∧
      engine.apply patch workspace.root host.disk = (.ok (), left.disk) ∧
      left.faults <:+ host.faults ∧
      plannedToChanges digest true plan left = .ok success.changes after := by
  obtain ⟨_, first, preflighted, ran⟩ := Action.bind_eq_ok.mp ran
  have readFirst : Reading host first := (preflight_reads patch).ok preflighted
  obtain ⟨_, second, canonical, ran⟩ := Action.bind_eq_ok.mp ran
  have readSecond : Reading first second := canonicalizeRoot_reads.ok canonical
  obtain ⟨_, ready, planned, ran⟩ := Action.bind_eq_ok.mp ran
  have readReady : Reading second ready := (planFiles_reads patch).ok planned
  have readAll : Reading host ready :=
    IsTrans.trans _ _ _ readFirst (IsTrans.trans _ _ _ readSecond readReady)
  obtain ⟨earlier, isPlanned, rfl⟩ := preflight_eq_ok preflighted
  obtain rfl := isPlanned.unique (planFiles_eq_ok planned)
  obtain rfl := canonicalizeRoot_eq_ok canonical
  rw [if_neg (by decide)] at ran
  obtain ⟨_, _, applied, ran⟩ := Action.bind_eq_ok.mp ran
  obtain ⟨_, _, changed, answered⟩ := Action.bind_eq_ok.mp ran
  obtain ⟨rfl, rfl⟩ := Action.pure_eq_ok.mp answered
  unfold runEngine at applied
  split at applied
  next disk ranEngine =>
    cases applied
    refine ⟨earlier, { ready with disk }, ⟨isPlanned, rfl, plannedToChanges_named changed⟩, ?_,
      readAll.faults, changed⟩
    rw [readAll.disk]
    exact ranEngine
  · cases applied

variable {process : HelperProcess} {sandbox : PathSandbox}

theorem HelperProcess.runPreflight_eq_ok
    (ran : process.runPreflight sandbox patch host = .ok success after) :
    ∃ plan, Tells sandbox.workspace process.engine patch success plan := by
  cases cut : process.preflightCut with
  | some => simp only [HelperProcess.runPreflight, cut, Action.throw_eq_ok] at ran
  | none =>
      simp only [HelperProcess.runPreflight, cut, Action.mapFailure_eq_ok] at ran
      exact applyInWorkspace_check_eq_ok ran

theorem HelperProcess.runApply_eq_ok (ran : process.runApply sandbox patch host = .ok success after) :
    applyInWorkspace sandbox.digest sandbox.workspace process.engine patch false host =
      .ok success after := by
  cases cut : process.applyCut with
  | some => simp only [HelperProcess.runApply, cut, reduceCtorEq] at ran
  | none => simpa only [HelperProcess.runApply, cut, Action.mapFailure_eq_ok] using ran

/-- The helper reports the same files in the same order for a preflight and for the patch. -/
def PatchHelper.SameChanges (helper : PatchHelper) : Prop :=
  ∀ {patch : String} {first second third fourth : Host} {planned applied : HelperSuccess},
    helper.preflight patch first = .ok planned second →
    helper.apply patch third = .ok applied fourth →
    (applied.changes.map fun change => (change.path, change.kind)) =
      planned.changes.map fun change => (change.path, change.kind)

/-- The plan does not depend on the disk, so the helper reports one list of changes. -/
theorem HelperProcess.helper_sameChanges (process : HelperProcess) (sandbox : PathSandbox) :
    (process.helper sandbox).SameChanges := by
  intro patch first second third fourth planned applied preflighted worked
  obtain ⟨_, tells⟩ := HelperProcess.runPreflight_eq_ok preflighted
  obtain ⟨_, _, tellsAgain, _⟩ := applyInWorkspace_eq_ok (HelperProcess.runApply_eq_ok worked)
  rw [tells.changes, tellsAgain.changes, tells.planned.unique tellsAgain.planned]

/-! A workspace with one file, and an engine that puts one more there, to see the transaction at work. -/

/-- The workspace `/w`, with a file `a`. -/
def oneFile : Disk :=
  (FileTree.bare.put ["w"] .directory (by decide)).put ["w", "a"] (.file [1] 420) (by decide)

/-- Versions are told apart by the first byte. -/
def firstByte : PathSandbox where
  workspace := { registered := ["w"] }
  digest := fun bytes => toString (bytes.headD 0).toNat

/-- Each patch is the given hunks, and puts a file down. -/
def puttingEngine (hunks : List Hunk) (name : String) (content : List UInt8)
    (answer : Except String Unit) : PatchEngine where
  parse := fun _ => .ok hunks
  apply := fun _ root disk =>
    match disk.putEntry (root ++ [name]) (.file content 420) with
    | .ok changed => (answer, changed)
    | .error _ => (answer, disk)

theorem puttingEngine_within {content : List UInt8} {answer : Except String Unit} {disk : Disk} :
    FileTree.Within root disk ((puttingEngine hunks name content answer).apply patch root disk).2 := by
  have isUnder : FileTree.Under root (root ++ [name]) := ⟨List.prefix_append _ _, by simp⟩
  cases put : disk.putEntry (root ++ [name]) (.file content 420) with
  | ok =>
      obtain ⟨room, rfl⟩ := Disk.putEntry_eq_ok put
      simp only [puttingEngine, put]
      exact FileTree.put_within room isUnder
  | error =>
      simp only [puttingEngine, put]
      exact Std.Refl.refl _

end CodeSpace.Runner
