import CodeSpace.Domain.Approval
import CodeSpace.Runner.PathSandbox

namespace CodeSpace.Runner

open Data Domain

/-! `crates/patch`, the process that hosts the patch engine, and `patch_helper.rs`, which calls it. The
engine itself, `codex-apply-patch`, is not part of this source: it parses a text into hunks and applies
the text to the disk. -/

structure Chunk where
  oldLines : List String

inductive Hunk
  | addFile (path : String)
  | deleteFile (path : String)
  | updateFile (path : String) (movePath : Option String) (chunks : List Chunk)

structure PatchEngine where
  parse : String → Except String (List Hunk)
  apply : String → Path → Disk → Except String Unit × Disk

structure PlannedFile where
  abs : Path
  relative : String
  kind : FileChangeKind
deriving DecidableEq, Repr

/-- `ApplyOutcome` in the process, `HelperSuccess` at its caller. -/
structure HelperSuccess where
  files : List String
  changes : List FileChange
deriving DecidableEq, Repr

def invalidPatch (message : String) : ErrorBody where
  code := .invalidPatch
  message := message

def relDisplay (path : String) : String :=
  String.ofList (path.toList.map fun letter => if letter = '\\' then '/' else letter)

section Plan

variable (workspace : Workspace)

/-- `resolve_path` and `reject_symlink_ancestors` of one name. -/
def allowedPath (path : String) : Action ErrorBody Host Path := do
  let dest ← Action.lift (resolvePath workspace path)
  rejectSymlinks
    (fun current => { code := .symlinkRejected, message := displayPath current ++ " is a symlink" })
    (upToRoot workspace.root dest)
  pure dest

/-- `allowedPath` of a name that nothing may be at. -/
def freePath (path : String) (taken : ErrorCode) : Action ErrorBody Host Path := do
  let dest ← allowedPath workspace path
  match ← symlinkMetadata dest with
  | some _ => throw { code := taken, message := path ++ " already exists" }
  | none => pure dest

def planHunk : Hunk → Action ErrorBody Host (List PlannedFile)
  | .addFile path => do
      let dest ← freePath workspace path .addFileExists
      pure [{ abs := dest, relative := relDisplay path, kind := .add }]
  | .deleteFile path => do
      let dest ← allowedPath workspace path
      pure [{ abs := dest, relative := relDisplay path, kind := .delete }]
  | .updateFile path none _ => do
      let dest ← allowedPath workspace path
      pure [{ abs := dest, relative := relDisplay path, kind := .update }]
  | .updateFile path (some moved) _ => do
      let dest ← allowedPath workspace path
      let destPath ← freePath workspace moved .moveDestinationExists
      pure [{ abs := dest, relative := relDisplay path, kind := .delete },
        { abs := destPath, relative := relDisplay moved, kind := .move }]

def planHunks : List Hunk → Action ErrorBody Host (List PlannedFile)
  | [] => pure []
  | hunk :: rest => do
      let files ← planHunk workspace hunk
      let later ← planHunks rest
      pure (files ++ later)

/-- `read_to_string(path).unwrap_or_default()`. -/
def readText (path : Path) : Action ErrorBody Host String := do
  match ← symlinkMetadata path with
  | some (.file content _) => pure ((String.fromUTF8? ⟨content.toArray⟩).getD "")
  | _ => pure ""

def Chunk.mismatches (chunk : Chunk) (body : String) : Bool :=
  let within (lines : String) : Bool := decide (lines.toList <:+: body.toList)
  chunk.oldLines ≠ [] && !within (String.intercalate "\n" chunk.oldLines) &&
    !within (String.intercalate "\r\n" chunk.oldLines)

/-- The second loop of `preflight`. -/
def checkContext : List Hunk → Action ErrorBody Host Unit
  | [] => pure ()
  | .updateFile path _ chunks :: rest => do
      let dest ← Action.lift (resolvePath workspace path)
      let body ← readText dest
      if chunks.any (·.mismatches body) then throw (invalidPatch ("context mismatch in " ++ path))
      else checkContext rest
  | _ :: rest => checkContext rest

variable (engine : PatchEngine)

def parsePatch (patch : String) : Except ErrorBody (List Hunk) :=
  (engine.parse patch).mapError invalidPatch

def planFiles (patch : String) : Action ErrorBody Host (List PlannedFile) := do
  let hunks ← Action.lift (parsePatch engine patch)
  planHunks workspace hunks

def preflight (patch : String) : Action ErrorBody Host (List Path) := do
  let files ← planFiles workspace engine patch
  let hunks ← Action.lift (parsePatch engine patch)
  checkContext workspace hunks
  pure (files.map PlannedFile.abs)

def canonicalizeRoot : Action ErrorBody Host Path := do
  match ← nextFault with
  | some fault => throw (escape fault)
  | none => do
      let host ← get
      match workspace.canonical, host.disk.entries workspace.root with
      | some root, some _ => pure root
      | _, _ => throw (escape "No such file or directory (os error 2)")

end Plan

/-- What is left of a path below the root. -/
def below? (root path : Path) : Option (List String) :=
  if root <+: path then some (path.drop root.length) else none

theorem below?_append (root : Path) (names : List String) : below? root (root ++ names) = some names := by
  simp [below?]

def relativeFiles (root : Path) (files : List Path) : List String :=
  files.filterMap fun path => (below? root path).map joinNames

/-- `std::fs::read`. The engine writes regular files, so no link is met here. -/
def readBytes (path : Path) : Action String Host (List UInt8) := do
  match ← nextFault with
  | some fault => throw fault
  | none => do
      let host ← get
      match host.disk.entries path with
      | some (.file content _) => pure content
      | some _ => throw "Is a directory (os error 21)"
      | none => throw "No such file or directory (os error 2)"

section Engine

variable (digest : List UInt8 → String) (workspace : Workspace) (engine : PatchEngine)

def contentVersion (bytes : List UInt8) : String :=
  "sha256:" ++ digest bytes

def plannedVersion (hashAfter : Bool) (file : PlannedFile) :
    Action ErrorBody Host (Option String) :=
  if !hashAfter || file.kind = .delete then pure none
  else do
    let bytes ← (readBytes file.abs).mapFailure fun err =>
      invalidPatch ("failed to hash " ++ file.relative ++ ": " ++ err)
    pure (some (contentVersion digest bytes))

def plannedToChanges (hashAfter : Bool) : List PlannedFile → Action ErrorBody Host (List FileChange)
  | [] => pure []
  | file :: rest => do
      let afterVersion ← plannedVersion digest hashAfter file
      let later ← plannedToChanges hashAfter rest
      pure ({ path := file.relative, beforeVersion := none, afterVersion, kind := file.kind } :: later)

/-- The engine applies the patch, or stops part way. -/
def runEngine (patch : String) : Action ErrorBody Host Unit := fun host =>
  match engine.apply patch workspace.root host.disk with
  | (.ok _, disk) => .ok () { host with disk }
  | (.error err, disk) => .error (invalidPatch err) { host with disk }

def applyInWorkspace (patch : String) (checkOnly : Bool) : Action ErrorBody Host HelperSuccess := do
  let files ← preflight workspace engine patch
  let root ← canonicalizeRoot workspace
  let planned ← planFiles workspace engine patch
  if checkOnly then
    let changes ← plannedToChanges digest false planned
    pure { files := relativeFiles root files, changes }
  else
    runEngine workspace engine patch
    let changes ← plannedToChanges digest true planned
    pure { files := relativeFiles root files, changes }

end Engine

/-! The call of the process. -/

/-- How a call of the process ends without its answer. -/
inductive Interruption
  | unavailable
  | spawnFailed (err : String)
  | stdinFailed (err : String)
  | timedOut
  | waitFailed (err : String)
  | oversized
  | exited (stderr : String)
  | garbled (err : String)
deriving DecidableEq, Repr

def Interruption.body : Interruption → ErrorBody
  | unavailable => invalidPatch
      "CODESPACE_PATCH_BIN is unset and codespace-patch was not found next to codespace-mcp"
  | spawnFailed err => invalidPatch ("failed to spawn patch helper: " ++ err)
  | stdinFailed err => invalidPatch err
  | timedOut => { code := .timeout, message := "patch helper timed out" }
  | waitFailed err => invalidPatch err
  | oversized => { code := .outputLimit, message := "patch helper output exceeded 1 MiB" }
  | exited stderr => invalidPatch stderr
  | garbled err => invalidPatch ("patch helper returned invalid JSON: " ++ err)

/-- What the Runner calls: a helper that only reads for a preflight. -/
structure PatchHelper where
  preflight : String → Action ErrorBody Host HelperSuccess
  apply : String → Action ErrorBody Host HelperSuccess
  preflight_reads (patch : String) : Reads (preflight patch)

variable {workspace : Workspace} {engine : PatchEngine}

theorem allowedPath_reads (path : String) : Reads (allowedPath workspace path) :=
  Action.Moves.bind (.lift _) fun _ => (rejectSymlinks_reads _ _).bind fun _ => .pure _

theorem freePath_reads (path : String) (taken : ErrorCode) : Reads (freePath workspace path taken) := by
  refine (allowedPath_reads path).bind fun dest => (symlinkMetadata_reads dest).bind fun found => ?_
  cases found with
  | none => exact .pure _
  | some => exact .throw _

theorem planHunk_reads (hunk : Hunk) : Reads (planHunk workspace hunk) := by
  rcases hunk with path | path | ⟨path, _ | moved, chunks⟩
  · exact (freePath_reads path _).bind fun _ => .pure _
  · exact (allowedPath_reads path).bind fun _ => .pure _
  · exact (allowedPath_reads path).bind fun _ => .pure _
  · exact (allowedPath_reads path).bind fun _ => (freePath_reads moved _).bind fun _ => .pure _

theorem planHunks_reads (hunks : List Hunk) : Reads (planHunks workspace hunks) := by
  induction hunks with
  | nil => exact .pure _
  | cons hunk _ ih => exact (planHunk_reads hunk).bind fun _ => ih.bind fun _ => .pure _

theorem planFiles_reads (patch : String) : Reads (planFiles workspace engine patch) :=
  Action.Moves.bind (.lift _) fun hunks => planHunks_reads hunks

theorem readText_reads (path : Path) : Reads (readText path) := by
  refine (symlinkMetadata_reads path).bind fun found => ?_
  split <;> exact .pure _

theorem checkContext_reads (hunks : List Hunk) : Reads (checkContext workspace hunks) := by
  induction hunks with
  | nil => exact .pure _
  | cons hunk _ ih =>
      cases hunk with
      | addFile | deleteFile => exact ih
      | updateFile =>
          refine Action.Moves.bind (.lift _) fun dest => (readText_reads dest).bind fun body => ?_
          split
          · exact .throw _
          · exact ih

theorem preflight_reads (patch : String) : Reads (preflight workspace engine patch) :=
  (planFiles_reads patch).bind fun _ => Action.Moves.bind (.lift _) fun hunks =>
    (checkContext_reads hunks).bind fun _ => .pure _

theorem canonicalizeRoot_reads : Reads (canonicalizeRoot workspace) := by
  refine nextFault_reads.bind fun fault => ?_
  cases fault with
  | some => exact .throw _
  | none =>
      refine get_reads.bind fun host => ?_
      split
      · exact .pure _
      · exact .throw _

theorem readBytes_reads (path : Path) : Reads (readBytes path) := by
  refine nextFault_reads.bind fun fault => ?_
  cases fault with
  | some => exact .throw _
  | none =>
      refine get_reads.bind fun host => ?_
      split
      · exact .pure _
      · exact .throw _
      · exact .throw _

section Changes

variable {digest : List UInt8 → String}

theorem plannedVersion_reads (hashAfter : Bool) (file : PlannedFile) :
    Reads (plannedVersion digest hashAfter file) := by
  unfold plannedVersion
  split
  · exact .pure _
  · exact (readBytes_reads file.abs).mapFailure.bind fun _ => .pure _

theorem plannedToChanges_reads (hashAfter : Bool) (files : List PlannedFile) :
    Reads (plannedToChanges digest hashAfter files) := by
  induction files with
  | nil => exact .pure _
  | cons file _ ih =>
      exact (plannedVersion_reads hashAfter file).bind fun _ => ih.bind fun _ => .pure _

theorem applyInWorkspace_check_reads (patch : String) :
    Reads (applyInWorkspace digest workspace engine patch true) :=
  (preflight_reads patch).bind fun _ => canonicalizeRoot_reads.bind fun _ =>
    (planFiles_reads patch).bind fun planned =>
      (plannedToChanges_reads false planned).bind fun _ => .pure _

end Changes

/-- The helper's process with its engine, and what becomes of its two calls. A call that is cut off may
leave anything the engine had done by then. -/
structure HelperProcess where
  engine : PatchEngine
  preflightCut : Option Interruption := none
  applyCut : Option Interruption := none

/-- What the caller makes of the error in a response. -/
def responseError (failure : ErrorBody) : ErrorBody where
  code := failure.code
  message := failure.message

def HelperProcess.runPreflight (process : HelperProcess) (sandbox : PathSandbox) (patch : String) :
    Action ErrorBody Host HelperSuccess :=
  match process.preflightCut with
  | some cut => throw cut.body
  | none =>
      (applyInWorkspace sandbox.digest sandbox.workspace process.engine patch true).mapFailure
        responseError

def HelperProcess.runApply (process : HelperProcess) (sandbox : PathSandbox) (patch : String) :
    Action ErrorBody Host HelperSuccess :=
  match process.applyCut with
  | some cut => fun host =>
      .error cut.body
        { host with disk := (process.engine.apply patch sandbox.workspace.root host.disk).2 }
  | none =>
      (applyInWorkspace sandbox.digest sandbox.workspace process.engine patch false).mapFailure
        responseError

def HelperProcess.helper (process : HelperProcess) (sandbox : PathSandbox) : PatchHelper where
  preflight := process.runPreflight sandbox
  apply := process.runApply sandbox
  preflight_reads patch := by
    unfold HelperProcess.runPreflight
    split
    · exact .throw _
    · exact (applyInWorkspace_check_reads patch).mapFailure

end CodeSpace.Runner
