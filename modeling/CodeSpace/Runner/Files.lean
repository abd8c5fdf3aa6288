import Mathlib.Data.List.Sort
import CodeSpace.Data.Outcome
import CodeSpace.Data.Paging
import CodeSpace.Data.Utf8
import CodeSpace.Runner.PatchRejection

namespace CodeSpace.Runner

open Data Domain

/-! `read_file_window` and `find_window` of `crates/runner/src/files.rs`. What the walk over the
workspace finds is given; names that are not UTF-8 are left out. -/

def defaultReadLimit : Nat := 1024 * 1024

def defaultFindLimit : Nat := 10000

structure ReadResult where
  path : String
  content : String
  version : String
  truncated : Bool
  offset : Nat
  byteCount : Nat
  contentLossy : Bool
  nextOffset : Option Nat
deriving DecidableEq, Repr

structure FindResult where
  paths : List String
  truncated : Bool
  offset : Nat
  incomplete : Bool
  listingVersion : String
  nextOffset : Option Nat
deriving DecidableEq, Repr

def resolveLimit (requested : Option Nat) (most : Nat) (what : String) : Except ErrorBody Nat :=
  let limit := requested.getD most
  if limit = 0 ∨ most < limit then
    .error { code := .outputLimit, message := what ++ " limit must be between 1 and " ++ toString most }
  else .ok limit

def byteWindow (bytes : List UInt8) (offset limit : Nat) : List UInt8 × Bool :=
  if bytes.length ≤ offset then ([], false)
  else
    let stop := min (offset + limit) bytes.length
    ((bytes.take stop).drop offset, decide (stop < bytes.length))

def utf8 (text : String) : List UInt8 :=
  text.toList.flatMap String.utf8EncodeChar

def normalizeRel (relative : String) : String :=
  String.ofList (relative.toList.map fun letter => if letter = '\\' then '/' else letter)

structure PathPage where
  paths : List String
  truncated : Bool
  incomplete : Bool
  nextOffset : Option Nat

def pathWindow (paths : List String) (offset limit : Nat) (walkTruncated : Bool) : PathPage :=
  if paths.length ≤ offset then
    { paths := [], truncated := false, incomplete := walkTruncated, nextOffset := none }
  else
    let truncated := decide (limit < paths.length - offset)
    let page := (paths.take (min (offset + limit) paths.length)).drop offset
    { paths := page
      truncated
      incomplete := walkTruncated
      nextOffset := if truncated then some (offset + page.length) else none }

def globMatch (pattern path : String) : Bool :=
  if pattern = "*" ∨ pattern = "**" ∨ pattern = "**/*" then true
  else if ['*', '.'] <+: pattern.toList then '.' :: pattern.toList.drop 2 <:+ path.toList
  else if '*' ∉ pattern.toList then path = pattern ∨ '/' :: pattern.toList <:+ path.toList
  else
    let needle := pattern.toList.filter (· ≠ '*')
    needle = [] ∨ needle <:+: path.toList

def keeps (glob : Option String) (relative : String) : Bool :=
  (glob.filter (· ≠ "")).elim true (globMatch · relative)

def relativePaths (root : Path) (glob : Option String) : List Path → Except ErrorBody (List String)
  | [] => .ok []
  | file :: files =>
      match below? root file with
      | none => .error (escape "find left workspace")
      | some names => do
        let later ← relativePaths root glob files
        let relative := normalizeRel (joinNames names)
        pure (if keeps glob relative then relative :: later else later)

structure WalkResult where
  files : List Path
  truncated : Bool

/-- What `find` sees of the workspace: where its root leads, and the walk from there. -/
structure Survey where
  root : Except String Path
  walked : Except FsError WalkResult

/-- The sorted paths, and whether the walk was capped. -/
def Survey.listing (survey : Survey) (glob : Option String) : Except ErrorBody (List String × Bool) := do
  let root ← survey.root.mapError fun message => fsErrorBody (.io message)
  let walked ← survey.walked.mapError fsErrorBody
  let paths ← relativePaths root glob walked.files
  pure (paths.insertionSort (· ≤ ·), walked.truncated)

namespace PathSandbox

def readResult (sandbox : PathSandbox) (relative : String) (bytes : List UInt8) (offset limit : Nat) :
    ReadResult :=
  let window := byteWindow bytes offset limit
  { path := normalizeRel relative
    content := String.ofList (Utf8.decodeLossy window.1)
    version := sandbox.versionOf bytes
    truncated := window.2
    offset
    byteCount := window.1.length
    contentLossy := !window.1.toByteArray.validateUTF8
    nextOffset := if window.2 then some (offset + window.1.length) else none }

def readFileWindow (sandbox : PathSandbox) (relative : String) (offset limit : Option Nat) :
    Action ErrorBody Host ReadResult := do
  let limit ← Action.lift (resolveLimit limit defaultReadLimit "read")
  let path ← sandbox.resolve relative
  let found ← (sandbox.fs.metadata path).mapFailure fsErrorBody
  if found.isSymlink then throw symlinkRejected
  else if found.isFile then do
    let bytes ← (sandbox.fs.read path).mapFailure fsErrorBody
    pure (sandbox.readResult relative bytes (offset.getD 0) limit)
  else throw { code := .specialFileRejected, message := "not a regular file" }

def listingVersion (sandbox : PathSandbox) (paths : List String) (incomplete : Bool) : String :=
  "sha256:" ++ sandbox.digest
    (utf8 (if incomplete then "incomplete\x00" else "complete\x00") ++
      paths.flatMap fun path => utf8 path ++ [0])

def findWindow (sandbox : PathSandbox) (survey : Survey) (glob : Option String)
    (offset limit : Option Nat) : Except ErrorBody FindResult := do
  let limit ← resolveLimit limit defaultFindLimit "find"
  let offset := offset.getD 0
  let listing ← survey.listing glob
  let page := pathWindow listing.1 offset limit listing.2
  pure
    { paths := page.paths
      truncated := page.truncated
      offset
      incomplete := page.incomplete
      listingVersion := sandbox.listingVersion listing.1 page.incomplete
      nextOffset := page.nextOffset }

/-- A call of `read` at an offset, answered while the file holds these bytes. -/
inductive ReadCall (sandbox : PathSandbox) (relative : String) (bytes : List UInt8) (offset : Nat)
    (page : ReadResult) : Prop
  | intro {host after : Host} {path : Path} {mode : Nat} {asked limit : Option Nat}
      (isOffset : asked.getD 0 = offset)
      (resolves : resolvePath sandbox.workspace relative = .ok path)
      (unchanged : host.disk.entries path = some (.file bytes mode))
      (answered : sandbox.readFileWindow relative asked limit host = .ok page after)

/-- A call of `find` at an offset, answered while the walk leads to this listing. -/
inductive FindCall (sandbox : PathSandbox) (glob : Option String) (listing : List String × Bool)
    (offset : Nat) (page : FindResult) : Prop
  | intro {survey : Survey} {asked limit : Option Nat} (isOffset : asked.getD 0 = offset)
      (unchanged : survey.listing glob = .ok listing)
      (answered : sandbox.findWindow survey glob asked limit = .ok page)

end PathSandbox

def ReadResult.window (page : ReadResult) (bytes : List UInt8) : List UInt8 :=
  (bytes.drop page.offset).take page.byteCount

variable {sandbox : PathSandbox} {relative : String} {bytes : List UInt8} {glob : Option String}
  {listing : List String × Bool} {offset limit most : Nat} {requested : Option Nat} {what : String}

theorem resolveLimit_eq_ok : resolveLimit requested most what = .ok limit ↔
    requested.getD most = limit ∧ 0 < limit ∧ limit ≤ most := by
  dsimp only [resolveLimit]
  split
  · simp only [reduceCtorEq, false_iff]
    omega
  · rw [Except.ok.injEq]
    omega

theorem byteWindow_eq : byteWindow bytes offset limit =
    ((bytes.drop offset).take limit, decide (offset + limit < bytes.length)) := by
  unfold byteWindow
  split
  next past => simp [List.drop_of_length_le past, Nat.not_lt.mpr (Nat.le_add_right_of_le past)]
  · simp [drop_take_min]

theorem pathWindow_eq {paths : List String} {incomplete : Bool} :
    pathWindow paths offset limit incomplete =
      { paths := (paths.drop offset).take limit
        truncated := decide (offset + limit < paths.length)
        incomplete
        nextOffset := if offset + limit < paths.length then some (offset + limit) else none } := by
  unfold pathWindow
  split
  next past => simp [List.drop_of_length_le past, Nat.not_lt.mpr (Nat.le_add_right_of_le past)]
  · have same : limit < paths.length - offset ↔ offset + limit < paths.length := by omega
    simp only [drop_take_min, same, decide_eq_true_eq, List.length_take, List.length_drop]
    congr 1
    split
    · rw [Nat.min_eq_left (by omega)]
    · rfl

theorem PathSandbox.readFileWindow_eq_ok {host after : Host} {page : ReadResult} {asked : Option Nat}
    (answered : sandbox.readFileWindow relative asked requested host = .ok page after) :
    ∃ limit path bytes mode, resolveLimit requested defaultReadLimit "read" = .ok limit ∧
      resolvePath sandbox.workspace relative = .ok path ∧
      host.disk.entries path = some (.file bytes mode) ∧
      page = sandbox.readResult relative bytes (asked.getD 0) limit := by
  obtain ⟨limit, _, limited, rest⟩ := Action.bind_eq_ok.mp answered
  obtain ⟨isLimit, rfl⟩ := Action.lift_eq_ok.mp limited
  obtain ⟨path, _, isPath, rest⟩ := Action.bind_eq_ok.mp rest
  obtain ⟨_, looked, isFound, rest⟩ := Action.bind_eq_ok.mp rest
  split at rest
  · exact (Action.throw_eq_ok.mp rest).elim
  split at rest
  · obtain ⟨bytes, _, isRead, rest⟩ := Action.bind_eq_ok.mp rest
    obtain ⟨mode, held⟩ := sandbox.fs.read_eq_ok (Action.mapFailure_eq_ok.mp isRead)
    have kept : host.disk = looked.disk := ((resolve_reads relative).ok isPath).disk.trans
      ((sandbox.fs.metadata_reads path).ok (Action.mapFailure_eq_ok.mp isFound)).disk
    exact ⟨limit, path, bytes, mode, isLimit, resolve_eq_ok isPath, kept ▸ held,
      (Action.pure_eq_ok.mp rest).1.symm⟩
  · exact (Action.throw_eq_ok.mp rest).elim

theorem PathSandbox.ReadCall.eq_readResult {page : ReadResult}
    (call : sandbox.ReadCall relative bytes offset page) :
    ∃ limit, 0 < limit ∧ page = sandbox.readResult relative bytes offset limit := by
  obtain ⟨isOffset, resolves, unchanged, answered⟩ := call
  obtain ⟨limit, _, _, _, isLimit, isPath, held, rfl⟩ := readFileWindow_eq_ok answered
  cases isPath.symm.trans resolves
  cases held.symm.trans unchanged
  exact ⟨limit, (resolveLimit_eq_ok.mp isLimit).2.1, isOffset ▸ rfl⟩

theorem PathSandbox.ReadCall.isWindow {page : ReadResult}
    (call : sandbox.ReadCall relative bytes offset page) :
    IsWindow bytes offset (page.offset, page.window bytes) page.nextOffset := by
  obtain ⟨limit, positive, rfl⟩ := call.eq_readResult
  refine ⟨limit, positive, ?_, ?_⟩
  · simp [readResult, ReadResult.window, byteWindow_eq]
  · simp only [readResult, byteWindow_eq, decide_eq_true_eq, List.length_take, List.length_drop]
    split
    · rw [Nat.min_eq_left (by omega)]
    · rfl

theorem utf8_content (valid : bytes.toByteArray.validateUTF8 = true) :
    utf8 (String.ofList (Utf8.decodeLossy bytes)) = bytes := by
  obtain ⟨_, encoded⟩ := ByteArray.validateUTF8_eq_true_iff.mp valid
  rw [List.toByteArray_inj.mp encoded, Utf8.decodeLossy_encode, utf8, String.toList_ofList]

theorem PathSandbox.ReadCall.reports {page : ReadResult}
    (call : sandbox.ReadCall relative bytes offset page) :
    (page.byteCount = (page.window bytes).length ∧
      (page.truncated = true ↔ page.nextOffset.isSome = true) ∧
      page.version = sandbox.versionOf bytes) ∧
    (page.contentLossy = false → utf8 page.content = page.window bytes) := by
  obtain ⟨limit, _, rfl⟩ := call.eq_readResult
  have window : (sandbox.readResult relative bytes offset limit).window bytes =
      (byteWindow bytes offset limit).1 := by simp [readResult, ReadResult.window, byteWindow_eq]
  rw [window]
  refine ⟨⟨rfl, ?_, rfl⟩, fun exact => utf8_content (by simpa [readResult] using exact)⟩
  simp only [readResult]
  split <;> simp [*]

theorem symlinkMetadata_quiet {Failure : Type} {host : Host} (quiet : host.faults = []) (path : Path) :
    (symlinkMetadata path : Action Failure Host (Option (Entry (List UInt8) Nat))) host =
      .ok (host.disk.entries path) host := by
  rw [symlinkMetadata, Action.bind_of_ok (nextFault_quiet quiet)]
  rfl

theorem rejectSymlinks_quiet {host : Host} {rejection : Path → ErrorBody} {paths : List Path}
    (quiet : host.faults = []) (noLink : ∀ part ∈ paths, host.disk.entries part ≠ some .link) :
    rejectSymlinks rejection paths host = .ok () host := by
  induction paths with
  | nil => rfl
  | cons current _ ih =>
      rw [rejectSymlinks, Action.bind_of_ok (symlinkMetadata_quiet quiet current)]
      have notLink := noLink current List.mem_cons_self
      have later := ih fun part isPart => noLink part (List.mem_cons_of_mem _ isPart)
      rcases held : host.disk.entries current with _ | _ | _ | _ | _
      case some.link => exact absurd held notLink
      all_goals exact later

theorem resolve_present {host : Host} {path : Path} {mode : Nat} (quiet : host.faults = [])
    (held : host.disk.entries path = some (.file bytes mode))
    (resolves : resolvePath sandbox.workspace relative = .ok path) :
    sandbox.resolve relative host = .ok path host := by
  have passed : sandbox.rejectSymlinkAncestors path host = .ok () host := by
    refine rejectSymlinks_quiet quiet fun part isPart => ?_
    have above : part <+: path :=
      (List.mem_inits _ _).mp (List.mem_reverse.mp ((List.takeWhile_sublist _).subset isPart))
    by_cases whole : part = path
    · simp [whole, held]
    · simp [host.disk.directory_above (by rw [held]; rfl) above whole]
  unfold PathSandbox.resolve
  rw [resolves, Action.bind_of_ok (by rfl : Action.lift (.ok path) host = .ok path host),
    Action.bind_of_ok passed, Action.bind_of_ok (symlinkMetadata_quiet quiet path), held]
  rfl

theorem PathSandbox.readFileWindow_present {host : Host} {path : Path} {mode : Nat} {asked : Option Nat}
    (quiet : host.faults = []) (held : host.disk.entries path = some (.file bytes mode))
    (resolves : resolvePath sandbox.workspace relative = .ok path)
    (isLimit : resolveLimit requested defaultReadLimit "read" = .ok limit) :
    sandbox.readFileWindow relative asked requested host =
      .ok (sandbox.readResult relative bytes (asked.getD 0) limit) host := by
  unfold readFileWindow
  rw [Action.bind_of_ok (Action.lift_eq_ok.mpr ⟨isLimit, rfl⟩),
    Action.bind_of_ok (resolve_present quiet held resolves),
    Action.bind_of_ok (Action.mapFailure_eq_ok.mpr (sandbox.fs.metadata_file quiet held)),
    if_neg (by simp [FileMeta.ofEntry]), if_pos (by rfl), Action.bind_of_ok
      (Action.mapFailure_eq_ok.mpr (sandbox.fs.read_file quiet held))]
  rfl

theorem PathSandbox.FindCall.isWindow {page : FindResult}
    (call : sandbox.FindCall glob listing offset page) :
    IsWindow listing.1 offset (page.offset, page.paths) page.nextOffset ∧
      (page.truncated = true ↔ page.nextOffset.isSome = true) ∧
      page.listingVersion = sandbox.listingVersion listing.1 listing.2 := by
  obtain ⟨rfl, unchanged, answered⟩ := call
  obtain ⟨limit, isLimit, answered⟩ := bind_eq_ok.mp answered
  obtain ⟨_, isListing, answered⟩ := bind_eq_ok.mp answered
  cases isListing.symm.trans unchanged
  cases answered
  simp only [pathWindow_eq]
  refine ⟨⟨limit, (resolveLimit_eq_ok.mp isLimit).2.1, rfl, rfl⟩, ?_, trivial⟩
  split <;> simp [*]

/-- The pages of a file that does not change, and of a listing that does not, read to their end with any
limits. -/
theorem pages_cover (sandbox : PathSandbox) (relative : String) (bytes : List UInt8)
    (glob : Option String) (listing : List String × Bool) :
    (∀ pages next, Paged (sandbox.ReadCall relative bytes) ReadResult.nextOffset pages next →
      Covers bytes (pages.map fun page => (page.offset, page.window bytes)) next ∧
      (∀ page ∈ pages, page.byteCount = (page.window bytes).length ∧
        (page.truncated = true ↔ page.nextOffset.isSome = true) ∧
        page.version = sandbox.versionOf bytes) ∧
      (next = none → (∀ page ∈ pages, page.contentLossy = false) →
        (pages.flatMap fun page => utf8 page.content) = bytes)) ∧
    (∀ path mode host asked requested, resolvePath sandbox.workspace relative = .ok path →
      host.disk.entries path = some (.file bytes mode) → host.faults = [] →
      0 < requested.getD defaultReadLimit → requested.getD defaultReadLimit ≤ defaultReadLimit →
      ∃ page, sandbox.readFileWindow relative asked requested host = .ok page host) ∧
    (∀ pages next, Paged (sandbox.FindCall glob listing) FindResult.nextOffset pages next →
      Covers listing.1 (pages.map fun page => (page.offset, page.paths)) next ∧
      ∀ page ∈ pages, (page.truncated = true ↔ page.nextOffset.isSome = true) ∧
        page.listingVersion = sandbox.listingVersion listing.1 listing.2) ∧
    ∀ survey asked requested, survey.listing glob = .ok listing →
      0 < requested.getD defaultFindLimit → requested.getD defaultFindLimit ≤ defaultFindLimit →
      ∃ page, sandbox.findWindow survey glob asked requested = .ok page := by
  refine ⟨fun pages next paged => ?_, ?_, fun pages next paged => ?_, ?_⟩
  · have covers : Covers bytes (pages.map fun page => (page.offset, page.window bytes)) next :=
      (paged.covers fun _ _ call => call.isWindow).1
    have reports := paged.forall_mem fun _ _ call => call.reports
    refine ⟨covers, fun page isPage => (reports page isPage).1, ?_⟩
    rintro rfl exact
    have whole := covers.covered
    rw [Option.getD_none, List.take_length, List.flatMap_map] at whole
    rw [← whole]
    exact List.flatMap_congr fun page isPage => (reports page isPage).2 (exact page isPage)
  · intro path mode host asked requested resolves held quiet positive within
    exact ⟨_, sandbox.readFileWindow_present quiet held resolves
      (resolveLimit_eq_ok.mpr ⟨rfl, positive, within⟩)⟩
  · exact ⟨(paged.covers fun _ _ call => call.isWindow.1).1,
      paged.forall_mem fun _ _ call => call.isWindow.2⟩
  · intro survey asked requested isListing positive within
    exact ⟨_, bind_eq_ok.mpr ⟨_, resolveLimit_eq_ok.mpr ⟨rfl, positive, within⟩,
      bind_eq_ok.mpr ⟨_, isListing, rfl⟩⟩⟩

end CodeSpace.Runner
