import Mathlib.Data.List.Basic
import Mathlib.Logic.Relation
import CodeSpace.Runner.FileSystem

namespace CodeSpace.Runner

open Data Domain

/-! `resolve_path` of `crates/policy/src/lib.rs`, and `PathSandbox` of `crates/runner/src/lib.rs` and
`files.rs`: the paths a request names, as places below the workspace's root. -/

inductive EnvironmentKind
  | host
  | linuxContainer
deriving DecidableEq, Repr

def EnvironmentKind.name : EnvironmentKind → String
  | host => "host"
  | linuxContainer => "linux-container"

def EnvironmentKind.fileWriteSupported : EnvironmentKind → Bool
  | host => true
  | linuxContainer => false

/-- `canonical` is what `canonicalize` makes of the registered root, where it can: the root's own symlinks
are resolved once, and nothing below the root has a part in that. -/
structure Workspace where
  registered : Path
  canonical : Option Path := some registered
  environmentKind : EnvironmentKind := .host

def Workspace.root (workspace : Workspace) : Path :=
  workspace.canonical.getD workspace.registered

def Workspace.requireFileWrite (workspace : Workspace) : Except ErrorBody Unit :=
  if workspace.environmentKind.fileWriteSupported then .ok ()
  else .error
    { code := .unauthorized
      message := workspace.environmentKind.name ++
        " environment is registered but not a file-write path" }

/-! Texts as paths. -/

/-- What stands between the slashes of a text. -/
def components (text : String) : List String :=
  (text.toList.splitOn '/').map String.ofList

def joinNames (names : List String) : String :=
  String.ofList (['/'].intercalate (names.map String.toList))

/-- An absolute path as it is displayed. -/
def displayPath (path : Path) : String :=
  "/" ++ joinNames path

/-- Pushes and pops the components of a relative path; none when `..` would leave the start. -/
def normalize (names : List String) : List String → Option (List String)
  | [] => some names
  | part :: rest =>
      if part = "" ∨ part = "." then normalize names rest
      else if part = ".." then
        if names = [] then none else normalize names.dropLast rest
      else normalize (names ++ [part]) rest

def escape (detail : String) : ErrorBody where
  code := .pathEscape
  message := detail

/-- Joining names to the root only appends, so that the last check of the source always passes. -/
def resolvePath (workspace : Workspace) (relative : String) : Except ErrorBody Path :=
  if relative.toList = [] ∨ relative.toList.head? = some '/' then
    .error (escape "absolute or empty path")
  else if '\x00' ∈ relative.toList then .error (escape "NUL in path")
  else
    match normalize [] (components relative) with
    | some names => .ok (workspace.root ++ names)
    | none => .error (escape "`..` escapes the workspace")

/-- A component that stands for itself. -/
structure Plain (name : String) : Prop where
  nonempty : name ≠ ""
  notHere : name ≠ "."
  notParent : name ≠ ".."
  noSlash : '/' ∉ name.toList
  noNul : '\x00' ∉ name.toList

variable {workspace : Workspace} {relative name part : String} {names parts rest result : List String}
  {path : Path}

theorem mem_splitOn {text part : List Char} {separator : Char} (isPart : part ∈ text.splitOn separator)
    {letter : Char} (inPart : letter ∈ part) : letter ∈ text ∧ letter ≠ separator := by
  induction text generalizing part with
  | nil =>
      rw [List.splitOn_nil, List.mem_singleton] at isPart
      rw [isPart] at inPart
      cases inPart
  | cons _ rest ih =>
      rw [List.splitOn_cons_eq_if_modifyHead] at isPart
      split at isPart
      · rcases List.mem_cons.mp isPart with rfl | later
        · cases inPart
        · obtain ⟨inRest, differs⟩ := ih later inPart
          exact ⟨List.mem_cons_of_mem _ inRest, differs⟩
      next differs =>
        cases parts : rest.splitOn separator with
        | nil =>
            rw [parts, List.modifyHead_nil] at isPart
            cases isPart
        | cons =>
            rw [parts, List.modifyHead_cons] at isPart
            rcases List.mem_cons.mp isPart with rfl | later
            · rcases List.mem_cons.mp inPart with rfl | inHead
              · exact ⟨List.mem_cons_self, by simpa using differs⟩
              · obtain ⟨inRest, notSeparator⟩ := ih (by rw [parts]; exact List.mem_cons_self) inHead
                exact ⟨List.mem_cons_of_mem _ inRest, notSeparator⟩
            · obtain ⟨inRest, notSeparator⟩ :=
                ih (by rw [parts]; exact List.mem_cons_of_mem _ later) inPart
              exact ⟨List.mem_cons_of_mem _ inRest, notSeparator⟩

/-- `Component::Normal`. -/
def isOrdinary (part : String) : Bool :=
  part ≠ "" && part ≠ "." && part ≠ ".."

/-- Some first components hold more `..` than ordinary ones. -/
def Climbs (parts : List String) : Prop :=
  ∃ first, first <+: parts ∧ first.countP isOrdinary < first.count ".."

/-- A component that leads nowhere is dropped, or an ordinary one with the `..` after it. -/
inductive Cancels : List String → List String → Prop
  | here {before after : List String} {part : String} (isHere : part = "" ∨ part = ".") :
      Cancels (before ++ part :: after) (before ++ after)
  | parent {before after : List String} {part : String} (ordinary : isOrdinary part = true) :
      Cancels (before ++ part :: ".." :: after) (before ++ after)

theorem isOrdinary_iff : isOrdinary part = true ↔ ¬(part = "" ∨ part = ".") ∧ part ≠ ".." := by
  simp [isOrdinary]

theorem normalize_here (isHere : part = "" ∨ part = ".") :
    normalize names (part :: rest) = normalize names rest := by
  rw [normalize, if_pos isHere]

theorem normalize_parent :
    normalize names (".." :: rest) = if names = [] then none else normalize names.dropLast rest := by
  rw [normalize, if_neg (by decide), if_pos rfl]

theorem normalize_ordinary (ordinary : isOrdinary part = true) :
    normalize names (part :: rest) = normalize (names ++ [part]) rest := by
  obtain ⟨notHere, notParent⟩ := isOrdinary_iff.mp ordinary
  rw [normalize, if_neg notHere, if_neg notParent]

/-- The components fail where they lead above what stands before them. -/
theorem normalize_eq_none : normalize names parts = none ↔
    ∃ first, first <+: parts ∧ names.length + first.countP isOrdinary < first.count ".." := by
  induction parts generalizing names with
  | nil => simp [normalize]
  | cons part rest ih =>
      have first : (∃ first, first <+: part :: rest ∧
            names.length + first.countP isOrdinary < first.count "..") ↔
          ∃ first, first <+: rest ∧
            names.length + (part :: first).countP isOrdinary < (part :: first).count ".." := by
        simp [List.prefix_cons_iff, or_and_right, exists_or]
      rw [first]
      by_cases isHere : part = "" ∨ part = "."
      · have skipped : isOrdinary part = false ∧ part ≠ ".." := by
          rcases isHere with rfl | rfl <;> decide
        simp [normalize_here isHere, ih, skipped]
      by_cases isParent : part = ".."
      · subst isParent
        rw [normalize_parent]
        split
        next empty => exact ⟨fun _ => ⟨[], List.nil_prefix, by simp [empty, isOrdinary]⟩, fun _ => rfl⟩
        next nonempty =>
          have shorter : names.dropLast.length + 1 = names.length := by
            have := List.length_pos_iff.mpr nonempty
            rw [List.length_dropLast]
            omega
          have notOrdinary : isOrdinary ".." = false := by decide
          simp only [ih, ← shorter, List.countP_cons, List.count_cons_self, notOrdinary]
          grind
      · have ordinary : isOrdinary part = true := isOrdinary_iff.mpr ⟨isHere, isParent⟩
        simp only [normalize_ordinary ordinary, ih, List.length_append, List.length_singleton,
          List.countP_cons, ordinary, List.count_cons_of_ne isParent]
        grind

theorem normalize_cancels (ordinary : ∀ name ∈ names, isOrdinary name = true)
    (normalized : normalize names parts = some result) :
    (∀ name ∈ result, isOrdinary name = true) ∧
      Relation.ReflTransGen Cancels (names ++ parts) result := by
  induction parts generalizing names with
  | nil =>
      cases normalized
      rw [List.append_nil]
      exact ⟨ordinary, .refl⟩
  | cons part _ ih =>
      by_cases isHere : part = "" ∨ part = "."
      · rw [normalize_here isHere] at normalized
        exact (ih ordinary normalized).imp_right (.head (.here isHere))
      by_cases isParent : part = ".."
      · subst isParent
        rw [normalize_parent] at normalized
        obtain ⟨nonempty, normalized⟩ := Option.ite_none_left_eq_some.mp normalized
        obtain ⟨_, _, rfl⟩ := (List.eq_nil_or_concat' names).resolve_left nonempty
        rw [List.dropLast_concat] at normalized
        rw [List.append_assoc]
        rw [List.forall_mem_append, List.forall_mem_singleton] at ordinary
        exact (ih ordinary.1 normalized).imp_right (.head (.parent ordinary.2))
      · have isName := isOrdinary_iff.mpr ⟨isHere, isParent⟩
        rw [normalize_ordinary isName] at normalized
        rw [List.append_cons]
        exact ih (List.forall_mem_append.mpr ⟨ordinary, List.forall_mem_singleton.mpr isName⟩) normalized

theorem mem_of_cancelled (cancelled : Relation.ReflTransGen Cancels parts result)
    (isName : name ∈ result) : name ∈ parts := by
  induction cancelled using Relation.ReflTransGen.head_induction_on with
  | refl => exact isName
  | head cancels =>
      cases cancels with
      | here => grind
      | parent => grind

theorem normalize_of_plain (plain : ∀ name ∈ parts, Plain name) :
    normalize names parts = some (names ++ parts) := by
  induction parts generalizing names with
  | nil => simp [normalize]
  | cons part _ ih =>
      have here := plain part List.mem_cons_self
      rw [normalize, if_neg (not_or.mpr ⟨here.nonempty, here.notHere⟩), if_neg here.notParent,
        ih fun name isName => plain name (List.mem_cons_of_mem _ isName), List.append_assoc]
      rfl

theorem resolvePath_eq_ok : resolvePath workspace relative = .ok path ↔
    ¬(relative.toList = [] ∨ relative.toList.head? = some '/') ∧ '\x00' ∉ relative.toList ∧
      ∃ names, normalize [] (components relative) = some names ∧ workspace.root ++ names = path := by
  unfold resolvePath
  split
  next invalid => exact ⟨fun refused => (by cases refused), fun valid => absurd invalid valid.1⟩
  next isRelative =>
    split
    next nul => simp [nul]
    next noNul =>
      rw [and_iff_right isRelative, and_iff_right noNul]
      split <;> simp [*]

/-- A relative path leads to what is left of its components, below the root. -/
theorem resolvePath_names (resolved : resolvePath workspace relative = .ok path) :
    ∃ names, path = workspace.root ++ names ∧ (∀ name ∈ names, Plain name) ∧
      Relation.ReflTransGen Cancels (components relative) names := by
  obtain ⟨_, noNul, names, normalized, rfl⟩ := resolvePath_eq_ok.mp resolved
  obtain ⟨ordinary, cancelled⟩ := normalize_cancels (List.forall_mem_nil _) normalized
  refine ⟨names, rfl, fun name isName => ?_, cancelled⟩
  obtain ⟨_, isSplit, rfl⟩ := List.mem_map.mp (mem_of_cancelled cancelled isName)
  obtain ⟨notHere, notParent⟩ := isOrdinary_iff.mp (ordinary _ isName)
  obtain ⟨nonempty, notDot⟩ := not_or.mp notHere
  refine ⟨nonempty, notDot, notParent, ?_, ?_⟩ <;> rw [String.toList_ofList]
  · exact fun slash => (mem_splitOn isSplit slash).2 rfl
  · exact fun nul => noNul (mem_splitOn isSplit nul).1

/-- A text resolves exactly when it is a relative path that never leads above its start, and then to what
is left of its components, below the canonical root or, where there is none, the registered one. -/
theorem resolvePath_characterized (workspace : Workspace) (relative : String) :
    ((∃ path, resolvePath workspace relative = .ok path) ↔
      relative ≠ "" ∧ relative.toList.head? ≠ some '/' ∧ '\x00' ∉ relative.toList ∧
        ¬Climbs (components relative)) ∧
    ∀ path, resolvePath workspace relative = .ok path →
      ∃ names, path = workspace.canonical.getD workspace.registered ++ names ∧
        (∀ name ∈ names, Plain name) ∧
        Relation.ReflTransGen Cancels (components relative) names := by
  have stays : ¬Climbs (components relative) ↔
      ∃ names, normalize [] (components relative) = some names := by
    rw [← Option.ne_none_iff_exists', ne_eq, normalize_eq_none]
    simp [Climbs]
  refine ⟨?_, fun path => resolvePath_names⟩
  simp only [resolvePath_eq_ok, stays, String.toList_eq_nil_iff]
  grind

/-- Below a registered root that cannot be canonicalized the result keeps the root's own `..`. -/
theorem missing_root_keeps_its_parent :
    ∃ (workspace : Workspace) (path : Path), workspace.registered = ["srv", "ws", "..", "gone"] ∧
      workspace.canonical = none ∧ resolvePath workspace "a" = .ok path ∧ ".." ∈ path :=
  ⟨{ registered := ["srv", "ws", "..", "gone"], canonical := none },
    ["srv", "ws", "..", "gone", "a"], rfl, rfl, by decide +kernel, by decide⟩

theorem components_joinNames (nonempty : names ≠ []) (plain : ∀ name ∈ names, Plain name) :
    components (joinNames names) = names := by
  unfold components joinNames
  rw [String.toList_ofList, List.splitOn_intercalate]
  · rw [List.map_map]
    exact (List.map_congr_left fun name _ => String.ofList_toList).trans (List.map_id names)
  · intro letters isName
    obtain ⟨name, isPlain, rfl⟩ := List.mem_map.mp isName
    exact (plain name isPlain).noSlash
  · simpa using nonempty

theorem joinNames_cons (first : String) (rest : List String) :
    ∃ later, (joinNames (first :: rest)).toList = first.toList ++ later ∧
      ∀ letter ∈ later, letter = '/' ∨ ∃ name ∈ rest, letter ∈ name.toList := by
  induction rest generalizing first with
  | nil => exact ⟨[], by simp [joinNames], fun letter absurd => nomatch absurd⟩
  | cons second _ ih =>
      obtain ⟨later, joined, origin⟩ := ih second
      refine ⟨'/' :: (second.toList ++ later), ?_, ?_⟩
      · rw [← joined]
        simp [joinNames, List.intercalate]
      · intro letter isLater
        rcases List.mem_cons.mp isLater with slash | inRest
        · exact .inl slash
        rcases List.mem_append.mp inRest with inSecond | inLater
        · exact .inr ⟨second, List.mem_cons_self, inSecond⟩
        · rcases origin letter inLater with slash | ⟨name, isName, inName⟩
          · exact .inl slash
          · exact .inr ⟨name, List.mem_cons_of_mem _ isName, inName⟩

theorem resolvePath_joinNames (nonempty : names ≠ []) (plain : ∀ name ∈ names, Plain name) :
    resolvePath workspace (joinNames names) = .ok (workspace.root ++ names) := by
  obtain ⟨first, rest, rfl⟩ := List.exists_cons_of_ne_nil nonempty
  have plainFirst := plain first List.mem_cons_self
  obtain ⟨_, joined, origin⟩ := joinNames_cons first rest
  obtain ⟨letter, letters, isFirst⟩ : ∃ letter letters, first.toList = letter :: letters :=
    List.exists_cons_of_ne_nil fun empty => plainFirst.nonempty (String.toList_eq_nil_iff.mp empty)
  have isRelative : ¬((joinNames (first :: rest)).toList = [] ∨
      (joinNames (first :: rest)).toList.head? = some '/') := by
    rw [joined, isFirst]
    rintro (absurd | slash)
    · cases absurd
    · have isSlash : letter = '/' := by simpa using slash
      exact plainFirst.noSlash (by rw [isFirst, isSlash]; exact List.mem_cons_self)
  have noNul : '\x00' ∉ (joinNames (first :: rest)).toList := by
    rw [joined]
    intro nul
    rcases List.mem_append.mp nul with inFirst | inLater
    · exact plainFirst.noNul inFirst
    · rcases origin _ inLater with slash | ⟨name, isName, inName⟩
      · cases slash
      · exact (plain name (List.mem_cons_of_mem _ isName)).noNul inName
  rw [resolvePath, if_neg isRelative, if_neg noNul, components_joinNames nonempty plain,
    normalize_of_plain plain]
  rfl

/-! The sandbox. -/

/-- `digest` is SHA-256 in hexadecimal, of which nothing is used. -/
structure PathSandbox where
  workspace : Workspace
  digest : List UInt8 → String
  fs : LocalFs := hostFs

def symlinkRejected : ErrorBody where
  code := .symlinkRejected
  message := "symlink files are rejected"

/-- The path and what is above it, up to the root. -/
def upToRoot (root dest : Path) : List Path :=
  dest.inits.reverse.takeWhile fun current => decide (current ≠ root)

/-- The walk of `reject_symlink_ancestors`, in the Runner and in the patch helper: they differ in what
they answer for a symlink. -/
def rejectSymlinks (rejection : Path → ErrorBody) : List Path → Action ErrorBody Host Unit
  | [] => pure ()
  | current :: above => do
      match ← symlinkMetadata current with
      | some .link => throw (rejection current)
      | _ => rejectSymlinks rejection above

def fsErrorBody (failure : FsError) : ErrorBody where
  code :=
    match failure with
    | .notFound => .fileNotFound
    | .notDirectory => .pathNotDirectory
    | .symlinkRejected => .symlinkRejected
    | .notRegularFile => .specialFileRejected
    | .io _ => .fileOperationFailed
  message := failure.message

def versionAbsent : String := "absent"

namespace PathSandbox

def rejectSymlinkAncestors (sandbox : PathSandbox) (dest : Path) : Action ErrorBody Host Unit :=
  rejectSymlinks (fun _ => symlinkRejected) (upToRoot sandbox.workspace.root dest)

def resolve (sandbox : PathSandbox) (relative : String) : Action ErrorBody Host Path := do
  let path ← Action.lift (resolvePath sandbox.workspace relative)
  sandbox.rejectSymlinkAncestors path
  match ← symlinkMetadata path with
  | some .link => throw symlinkRejected
  | some .special => throw { code := .specialFileRejected, message := "special files are rejected" }
  | _ => pure path

def versionOf (sandbox : PathSandbox) (bytes : List UInt8) : String :=
  "sha256:" ++ sandbox.digest bytes

def version (sandbox : PathSandbox) (relative : String) : Action ErrorBody Host String := do
  let path ← sandbox.resolve relative
  match ← (sandbox.fs.metadata path).attempt with
  | .error .notFound => pure versionAbsent
  | .error failure => throw (fsErrorBody failure)
  | .ok _ => do
      let bytes ← (sandbox.fs.read path).mapFailure fsErrorBody
      pure (sandbox.versionOf bytes)

/-- The version of what is at a path: none where nothing is. -/
inductive VersionAt (sandbox : PathSandbox) (disk : Disk) (path : Path) : Option String → Prop
  | absent (missing : disk.entries path = none) : VersionAt sandbox disk path none
  | present {content : List UInt8} {mode : Nat}
      (held : disk.entries path = some (.file content mode)) :
      VersionAt sandbox disk path (some (sandbox.versionOf content))

end PathSandbox

theorem rejectSymlinks_reads (rejection : Path → ErrorBody) (paths : List Path) :
    Reads (rejectSymlinks rejection paths) := by
  induction paths with
  | nil => exact .pure _
  | cons current _ ih =>
      refine (symlinkMetadata_reads current).bind fun found => ?_
      split
      · exact .throw _
      · exact ih

namespace PathSandbox

variable {sandbox : PathSandbox} {host after : Host}

theorem versionOf_ne_absent (bytes : List UInt8) : sandbox.versionOf bytes ≠ versionAbsent := by
  intro same
  have letters := congrArg String.toList same
  rw [versionOf, String.toList_append] at letters
  have firsts := congrArg List.head? letters
  revert firsts
  simp [versionAbsent]

theorem resolve_reads (relative : String) : Reads (sandbox.resolve relative) := by
  refine Action.Moves.bind (.lift _) fun path => (rejectSymlinks_reads _ _).bind fun _ =>
    (symlinkMetadata_reads path).bind fun found => ?_
  split
  · exact .throw _
  · exact .throw _
  · exact .pure _

theorem resolve_eq_ok (resolved : sandbox.resolve relative host = .ok path after) :
    resolvePath sandbox.workspace relative = .ok path := by
  obtain ⟨found, _, lifted, rest⟩ := Action.bind_eq_ok.mp resolved
  obtain ⟨_, _, _, rest⟩ := Action.bind_eq_ok.mp rest
  obtain ⟨entry, _, _, answered⟩ := Action.bind_eq_ok.mp rest
  have same : found = path := by
    rcases entry with _ | _ | _ | _ | _ <;> simp at answered <;> exact answered.1
  rw [← same]
  exact (Action.lift_eq_ok.mp lifted).1

theorem version_reads (relative : String) : Reads (sandbox.version relative) := by
  refine (resolve_reads relative).bind fun path => (sandbox.fs.metadata_reads path).attempt.bind fun found
    => ?_
  split
  · exact .pure _
  · exact .throw _
  · exact (sandbox.fs.read_reads path).mapFailure.bind fun _ => .pure _

theorem version_eq_ok {found : String} (ran : sandbox.version relative host = .ok found after) :
    ∃ path, resolvePath sandbox.workspace relative = .ok path ∧
      sandbox.VersionAt host.disk path (some found |>.filter (· ≠ versionAbsent)) := by
  obtain ⟨path, reached, resolved, ran⟩ := Action.bind_eq_ok.mp ran
  have unchanged : host.disk = reached.disk := ((resolve_reads relative).ok resolved).disk
  refine ⟨path, resolve_eq_ok resolved, ?_⟩
  rw [unchanged]
  obtain ⟨outcome, looked, attempted, ran⟩ := Action.bind_eq_ok.mp ran
  cases outcome with
  | error failure =>
      cases failure with
      | notFound =>
          rw [← (Action.pure_eq_ok.mp ran).1]
          exact .absent (sandbox.fs.metadata_notFound (Action.attempt_eq_ok_error.mp attempted))
      | _ => exact (Action.throw_eq_ok.mp ran).elim
  | ok =>
      have same : reached.disk = looked.disk :=
        ((sandbox.fs.metadata_reads path).ok (Action.attempt_eq_ok.mp attempted)).disk
      obtain ⟨bytes, _, readBytes, answered⟩ := Action.bind_eq_ok.mp ran
      obtain ⟨_, held⟩ := sandbox.fs.read_eq_ok (Action.mapFailure_eq_ok.mp readBytes)
      rw [← (Action.pure_eq_ok.mp answered).1, same, Option.filter_some,
        if_pos (decide_eq_true (versionOf_ne_absent bytes))]
      exact .present held

end PathSandbox

end CodeSpace.Runner
