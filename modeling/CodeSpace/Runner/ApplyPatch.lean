import CodeSpace.Runner.PatchHelper

namespace CodeSpace.Runner

open Data Domain

/-! `apply.rs`, `patch_verify.rs` and `rollback.rs` of the Runner: one patch as a transaction over the
workspace's files. -/

structure RunnerApplyPatchRequest where
  patch : String
  expectedVersions : List (String × String) := []
  checkOnly : Bool := false
deriving DecidableEq, Repr

structure RunnerApplyPatchResult where
  status : PatchStatus
  files : List String
  changes : List FileChange
deriving DecidableEq, Repr

structure FileSnapshot where
  relative : String
  existed : Bool
  content : Option (List UInt8)
  mode : Option Nat
deriving DecidableEq, Repr

variable (sandbox : PathSandbox)

/-! `rollback.rs` -/

def snapshotOne (relative : String) : Action ErrorBody Host FileSnapshot := do
  let path ← sandbox.resolve relative
  match ← (sandbox.fs.metadata path).attempt with
  | .ok found =>
      if found.isFile && !found.isSymlink then do
        let bytes ← (sandbox.fs.read path).mapFailure fsErrorBody
        let mode ← (unixMode path).mapFailure fsErrorBody
        pure { relative, existed := true, content := some bytes, mode := some mode }
      else pure { relative, existed := false, content := none, mode := none }
  | .error .notFound => pure { relative, existed := false, content := none, mode := none }
  | .error failure => throw (fsErrorBody failure)

def snapshot : List String → Action ErrorBody Host (List FileSnapshot)
  | [] => pure []
  | relative :: rest => do
      let snap ← snapshotOne sandbox relative
      let later ← snapshot rest
      pure (snap :: later)

def restoreMode (path : Path) : Option Nat → Fs Unit
  | some mode => setUnixMode path mode
  | none => pure ()

def putBack (path : Path) (content : List UInt8) (mode : Option Nat) : Fs Unit := do
  sandbox.fs.createDirAll path.dropLast
  sandbox.fs.write path content
  restoreMode path mode

def takeBack (path : Path) : Action ErrorBody Host Unit := do
  match ← (sandbox.fs.metadata path).attempt with
  | .ok found =>
      if found.isFile && !found.isSymlink then (sandbox.fs.removeFile path).mapFailure fsErrorBody
      else pure ()
  | .error .notFound => pure ()
  | .error failure => throw (fsErrorBody failure)

def restoreOne (snap : FileSnapshot) : Action ErrorBody Host Unit := do
  let path ← sandbox.resolve snap.relative
  if snap.existed then (putBack sandbox path (snap.content.getD []) snap.mode).mapFailure fsErrorBody
  else takeBack sandbox path

/-- Every snapshot is tried, also after one that failed. -/
def restore : List FileSnapshot → Action ErrorBody Host Bool
  | [] => pure true
  | snap :: rest => do
      let restored ← (restoreOne sandbox snap).attempt
      let complete ← restore rest
      pure (restored.isOk && complete)

/-! `patch_verify.rs` -/

/-- The version a change reports for what was read: none for a file that is not there. -/
def reportedVersion (version : String) : Option String :=
  (some version).filter (· ≠ versionAbsent)

def verifyChange (before : List (String × String)) (change : FileChange) :
    Action ErrorBody Host FileChange := do
  let actual ← sandbox.version change.path
  let verified : FileChange :=
    { path := change.path
      beforeVersion := (before.lookup change.path).bind reportedVersion
      afterVersion := reportedVersion actual
      kind := change.kind }
  if change.kind = .delete then
    if actual = versionAbsent then pure verified
    else throw (invalidPatch
      ("apply claimed delete of " ++ change.path ++ " but disk still has " ++ actual))
  else
    match change.afterVersion with
    | none => throw (invalidPatch ("apply omitted after_version for " ++ change.path))
    | some claimed =>
        if actual = claimed then pure verified
        else throw (invalidPatch
          ("disk version " ++ actual ++ " != claimed " ++ claimed ++ " for " ++ change.path))

def verifyChanges (before : List (String × String)) :
    List FileChange → Action ErrorBody Host (List FileChange)
  | [] => pure []
  | change :: rest => do
      let verified ← verifyChange sandbox before change
      let later ← verifyChanges before rest
      pure (verified :: later)

def verifyDiskMatchesClaimed (claimed : List FileChange) (before : List (String × String)) :
    Action ErrorBody Host (List FileChange) :=
  if claimed = [] then throw (invalidPatch "apply claimed no file changes")
  else verifyChanges sandbox before claimed

/-- A version for each changed path; a path that occurs twice keeps the one read last. -/
def overlayBefore : List FileChange →
    Action ErrorBody Host (List FileChange × List (String × String))
  | [] => pure ([], [])
  | change :: rest => do
      let version ← sandbox.version change.path
      let (later, before) ← overlayBefore rest
      pure ({ change with beforeVersion := reportedVersion version } :: later,
        before ++ [(change.path, version)])

/-! `apply.rs` -/

def checkVersions : List (String × String) → Action ErrorBody Host Unit
  | [] => pure ()
  | (path, expected) :: rest => do
      let actual ← sandbox.version path
      if actual = expected then checkVersions rest
      else throw { code := .versionConflict, message := "version conflict for " ++ path }

def preview (helper : PatchHelper) (patch : String) :
    Action ErrorBody Host RunnerApplyPatchResult := do
  let preview ← helper.preflight patch
  let (changes, _) ← overlayBefore sandbox preview.changes
  pure { status := .checked, files := preview.files, changes }

/-- What is known before the helper may write: its plan, the versions and the snapshots of its files. -/
structure Preparation where
  planned : HelperSuccess
  before : List (String × String)
  snaps : List FileSnapshot

def prepare (helper : PatchHelper) (patch : String) : Action ErrorBody Host Preparation := do
  let planned ← helper.preflight patch
  let (_, before) ← overlayBefore sandbox planned.changes
  let snaps ← snapshot sandbox planned.files
  pure { planned, before, snaps }

def rollBack (prepared : Preparation) : Action ErrorBody Host RunnerApplyPatchResult := do
  let complete ← restore sandbox prepared.snaps
  pure
    { status := if complete then .failedRolledBack else .failedPartial
      files := prepared.planned.files
      changes := prepared.planned.changes }

def conclude (prepared : Preparation) (applied : HelperSuccess) :
    Action ErrorBody Host RunnerApplyPatchResult := do
  let changes ← verifyDiskMatchesClaimed sandbox applied.changes prepared.before
  pure { status := .applied, files := applied.files, changes }

def applyPatchTxn (helper : PatchHelper) (request : RunnerApplyPatchRequest) :
    Action ErrorBody Host RunnerApplyPatchResult := do
  Action.lift sandbox.workspace.requireFileWrite
  checkVersions sandbox request.expectedVersions
  if request.checkOnly then preview sandbox helper request.patch
  else do
    let prepared ← prepare sandbox helper request.patch
    match ← (helper.apply request.patch).attempt with
    | .ok applied => conclude sandbox prepared applied
    | .error _ => rollBack sandbox prepared

end CodeSpace.Runner
