import CodeSpace.Data.Action
import CodeSpace.Data.FileTree
import CodeSpace.Domain.Error

namespace CodeSpace.Runner

open Data

/-! `crates/file-system`: operations on the host's files that follow no symbolic link, neither at the
leaf nor on the way to it. Paths are absolute, by their components. The modes of directories are not
kept. -/

abbrev Path := List String

abbrev Disk := FileTree String (List UInt8) Nat

structure FileMeta where
  isFile : Bool
  isDir : Bool
  isSymlink : Bool
deriving DecidableEq, Repr

def FileMeta.ofEntry : Entry (List UInt8) Nat → FileMeta
  | .file _ _ => { isFile := true, isDir := false, isSymlink := false }
  | .directory => { isFile := false, isDir := true, isSymlink := false }
  | .link => { isFile := false, isDir := false, isSymlink := true }
  | .special => { isFile := false, isDir := false, isSymlink := false }

inductive FsError
  | notFound
  | symlinkRejected
  | notRegularFile
  | notDirectory
  | io (message : String)
deriving DecidableEq, Repr

def FsError.message : FsError → String
  | notFound => "file not found"
  | symlinkRejected => "symlink files are rejected"
  | notRegularFile => "not a regular file"
  | notDirectory => "not a directory"
  | io message => message

/-- `classify_after_failed_io`. -/
def FsError.ofObstacle : Obstacle → FsError
  | .missing => notFound
  | .link => symlinkRejected
  | .notDirectory => notDirectory

def isADirectory : FsError := .io "Is a directory (os error 21)"

/-- The host's disk; why it refuses the operations to come of its own accord (permissions, a full disk, a
device error), with nothing in the way once the list is at its end; and the mode of the files it
creates. -/
structure Host where
  disk : Disk
  faults : List (Option String) := []
  newMode : Nat := 420

abbrev Fs := Action FsError Host

variable {Failure : Type}

def nextFault : Action Failure Host (Option String) := fun host =>
  match host.faults with
  | [] => .ok none host
  | fault :: later => .ok fault { host with faults := later }

/-! What an operation does to the disk. -/

def OnDisk (related : Disk → Disk → Prop) (host after : Host) : Prop :=
  related host.disk after.disk

instance {related : Disk → Disk → Prop} [Std.Refl related] : Std.Refl (OnDisk related) :=
  ⟨fun host => Std.Refl.refl host.disk⟩

instance {related : Disk → Disk → Prop} [IsTrans Disk related] : IsTrans Host (OnDisk related) :=
  ⟨fun host middle after first second =>
    IsTrans.trans (r := related) host.disk middle.disk after.disk first second⟩

/-- The disk stays as it is, and no more faults are to come. -/
structure Reading (host after : Host) : Prop where
  disk : host.disk = after.disk
  faults : after.faults <:+ host.faults

instance : Std.Refl Reading :=
  ⟨fun _ => ⟨rfl, List.suffix_refl _⟩⟩

instance : IsTrans Host Reading :=
  ⟨fun _ _ _ first second => ⟨first.disk.trans second.disk, second.faults.trans first.faults⟩⟩

abbrev Reads {Value : Type} (action : Action Failure Host Value) : Prop :=
  Action.Moves Reading action

open Data.Action (Moves)

/-- `LOCAL_FS` behind `crates/file-system`, with what is assumed of it: a call that is answered tells what
is on the disk and did what it is for; one that only looks changes nothing; the others, answered or not,
only put files at their path, or the missing directories of it, or take away the file there. -/
structure LocalFs where
  metadata : Path → Fs FileMeta
  read : Path → Fs (List UInt8)
  write : Path → List UInt8 → Fs Unit
  createDirAll : Path → Fs Unit
  removeFile : Path → Fs Unit
  metadata_reads (path : Path) : Reads (metadata path)
  metadata_eq_ok {path : Path} {host after : Host} {found : FileMeta}
    (looked : metadata path host = .ok found after) :
    ∃ entry, host.disk.entries path = some entry ∧ .ofEntry entry = found
  metadata_notFound {path : Path} {host after : Host}
    (looked : metadata path host = .error .notFound after) : host.disk.entries path = none
  metadata_file {path : Path} {host : Host} {content : List UInt8} {mode : Nat}
    (quiet : host.faults = []) (held : host.disk.entries path = some (.file content mode)) :
    metadata path host = .ok (.ofEntry (.file content mode)) host
  read_reads (path : Path) : Reads (read path)
  read_eq_ok {path : Path} {host after : Host} {content : List UInt8}
    (ran : read path host = .ok content after) :
    ∃ mode, host.disk.entries path = some (.file content mode)
  read_file {path : Path} {host : Host} {content : List UInt8} {mode : Nat}
    (quiet : host.faults = []) (held : host.disk.entries path = some (.file content mode)) :
    read path host = .ok content host
  write_moves {path : Path} {content : List UInt8} {related : Disk → Disk → Prop} [Std.Refl related]
    [IsTrans Disk related] (allowed : ∀ (disk : Disk) (part : List UInt8) mode room,
      related disk (disk.put path (.file part mode) room)) :
    Moves (OnDisk related) (write path content)
  write_eq_ok {path : Path} {host after : Host} {content : List UInt8} {value : Unit}
    (ran : write path content host = .ok value after) :
    ∃ mode, after.disk.entries path = some (.file content mode)
  createDirAll_moves {path : Path} {related : Disk → Disk → Prop} [Std.Refl related]
    [IsTrans Disk related] (allowed : ∀ part ∈ path.inits, ∀ (disk : Disk) room,
      disk.entries part = none → related disk (disk.put part .directory room)) :
    Moves (OnDisk related) (createDirAll path)
  removeFile_moves {path : Path} {related : Disk → Disk → Prop} [Std.Refl related]
    [IsTrans Disk related] (allowed : ∀ (disk : Disk) leaf, related disk (disk.remove path leaf)) :
    Moves (OnDisk related) (removeFile path)
  removeFile_eq_ok {path : Path} {host after : Host} {value : Unit}
    (ran : removeFile path host = .ok value after) : after.disk.entries path = none

/-! The effects of single operations on the disk. -/

def Disk.putEntry (disk : Disk) (path : Path) (entry : Entry (List UInt8) Nat) :
    Except FsError Disk :=
  if room : disk.Room path then .ok (disk.put path entry room) else .error .notFound

/-- Opens the leaf, creating a regular file where nothing is, and replaces its content. -/
def Disk.writeFile (disk : Disk) (newMode : Nat) (path : Path) (content : List UInt8) :
    Except FsError Disk :=
  match disk.look path with
  | .ok (.file _ mode) => disk.putEntry path (.file content mode)
  | .ok .directory => .error isADirectory
  | .ok .link => .error .symlinkRejected
  | .ok .special => .error .notRegularFile
  | .error .missing => disk.putEntry path (.file content newMode)
  | .error obstacle => .error (.ofObstacle obstacle)

def Disk.changeMode (disk : Disk) (path : Path) (mode : Nat) : Except FsError Disk :=
  match disk.look path with
  | .ok (.file content _) => disk.putEntry path (.file content mode)
  | .ok .link => .error .symlinkRejected
  | .ok _ => .ok disk
  | .error obstacle => .error (.ofObstacle obstacle)

def Disk.removeLeaf (disk : Disk) (path : Path) : Except FsError Disk :=
  match disk.look path with
  | .ok _ =>
      if leaf : disk.entries path ≠ some .directory then .ok (disk.remove path leaf)
      else .error isADirectory
  | .error obstacle => .error (.ofObstacle obstacle)

def Disk.makeDirectory (disk : Disk) (path : Path) : Except FsError Disk :=
  match disk.entries path with
  | some .directory => .ok disk
  | some .link => .error .symlinkRejected
  | some _ => .error .notDirectory
  | none => disk.putEntry path .directory

/-! Operations on the host's disk, of which those of the standard library are used by the path checks and
for the modes of files. -/

def unhindered : Fs Unit := do
  match ← nextFault with
  | some message => throw (.io message)
  | none => pure ()

def change (effect : Host → Except FsError Disk) : Fs Unit := fun host =>
  match effect host with
  | .ok disk => .ok () { host with disk }
  | .error failure => .error failure host

def look (path : Path) : Fs (Entry (List UInt8) Nat) := do
  unhindered
  let host ← get
  match host.disk.look path with
  | .ok entry => pure entry
  | .error obstacle => throw (.ofObstacle obstacle)

def unixMode (path : Path) : Fs Nat := do
  match ← look path with
  | .file _ mode => pure mode
  | .link => throw .symlinkRejected
  | _ => throw .notRegularFile

def setUnixMode (path : Path) (mode : Nat) : Fs Unit := do
  unhindered
  change fun host => host.disk.changeMode path mode

/-- `symlink_metadata(path).ok()`. -/
def symlinkMetadata (path : Path) : Action Failure Host (Option (Entry (List UInt8) Nat)) := do
  match ← nextFault with
  | some _ => pure none
  | none => do
      let host ← get
      pure (host.disk.entries path)

variable {related : Disk → Disk → Prop} {host after : Host} {path : Path} {content : List UInt8}
  {mode : Nat} {disk changed : Disk} {value : Unit} {entry : Entry (List UInt8) Nat}
  {effect : Host → Except FsError Disk}

theorem nextFault_reads : Reads (nextFault : Action Failure Host (Option String)) := by
  intro host
  unfold nextFault
  split
  · exact Std.Refl.refl host
  next fault later held => exact ⟨rfl, by rw [held]; exact List.suffix_cons fault later⟩

theorem nextFault_quiet (quiet : host.faults = []) :
    (nextFault : Action Failure Host (Option String)) host = .ok none host := by
  rw [nextFault, quiet]

theorem get_reads : Reads (get : Action Failure Host Host) := fun host => Std.Refl.refl host

theorem unhindered_reads : Reads unhindered := by
  refine nextFault_reads.bind fun fault => ?_
  cases fault with
  | none => exact .pure _
  | some => exact .throw _

theorem look_reads (path : Path) : Reads (look path) := by
  refine unhindered_reads.bind fun _ => get_reads.bind fun host => ?_
  split
  · exact .pure _
  · exact .throw _

theorem unixMode_reads (path : Path) : Reads (unixMode path) := by
  refine (look_reads path).bind fun entry => ?_
  cases entry with
  | file => exact .pure _
  | directory | link | special => exact .throw _

theorem symlinkMetadata_reads (path : Path) :
    Reads (symlinkMetadata path : Action Failure Host (Option (Entry (List UInt8) Nat))) := by
  refine nextFault_reads.bind fun fault => ?_
  cases fault with
  | none => exact get_reads.bind fun _ => .pure _
  | some => exact .pure _

theorem get_eq_ok {found : Host} :
    (get : Action Failure Host Host) host = .ok found after ↔ host = found ∧ host = after := by
  change EStateM.Result.ok host host = _ ↔ _
  simp

theorem look_eq_ok (looked : look path host = .ok entry after) : host.disk.entries path = some entry := by
  obtain ⟨_, free, went, looked⟩ := Action.bind_eq_ok.mp looked
  obtain ⟨_, _, isHost, answered⟩ := Action.bind_eq_ok.mp looked
  obtain ⟨rfl, rfl⟩ := get_eq_ok.mp isHost
  have unchanged : host.disk = free.disk := (unhindered_reads.ok went).disk
  rw [unchanged]
  cases here : free.disk.look path with
  | ok =>
      simp only [here, Action.pure_eq_ok] at answered
      rw [answered.1] at here
      exact FileTree.look_eq_ok.mp here
  | error =>
      simp only [here] at answered
      exact (Action.throw_eq_ok.mp answered).elim

theorem look_notFound (looked : look path host = .error .notFound after) :
    host.disk.entries path = none := by
  rcases Action.bind_eq_error.mp looked with refused | ⟨_, free, went, looked⟩
  · rcases Action.bind_eq_error.mp refused with absurd | ⟨fault, _, _, thrown⟩
    · unfold nextFault at absurd
      split at absurd <;> cases absurd
    · cases fault with
      | none => exact (Action.pure_eq_error.mp thrown).elim
      | some => cases (Action.throw_eq_error.mp thrown).1
  · have unchanged : host.disk = free.disk := (unhindered_reads.ok went).disk
    rcases Action.bind_eq_error.mp looked with absurd | ⟨found, same, isHost, answered⟩
    · cases absurd
    obtain ⟨rfl, rfl⟩ := get_eq_ok.mp isHost
    rw [unchanged]
    cases here : free.disk.look path with
    | ok =>
        simp only [here] at answered
        exact (Action.pure_eq_error.mp answered).elim
    | error => exact FileTree.look_error here

theorem unixMode_eq_ok (ran : unixMode path host = .ok mode after) :
    ∃ content, host.disk.entries path = some (.file content mode) := by
  obtain ⟨entry, _, looked, answered⟩ := Action.bind_eq_ok.mp ran
  have held := look_eq_ok looked
  cases entry with
  | file content =>
      rw [(Action.pure_eq_ok.mp answered).1] at held
      exact ⟨content, held⟩
  | directory | link | special => exact (Action.throw_eq_ok.mp answered).elim

/-! An operation that changes the disk puts or takes one leaf. -/

theorem Disk.putEntry_eq_ok
    (done : disk.putEntry path entry = .ok changed) : ∃ room, changed = disk.put path entry room := by
  unfold Disk.putEntry at done
  split at done
  next room => exact ⟨room, (Except.ok.inj done).symm⟩
  · cases done

theorem Disk.writeFile_eq_ok {newMode : Nat}
    (written : disk.writeFile newMode path content = .ok changed) :
    ∃ mode room, changed = disk.put path (.file content mode) room := by
  unfold Disk.writeFile at written
  split at written
  next mode _ => exact ⟨mode, Disk.putEntry_eq_ok written⟩
  · cases written
  · cases written
  · cases written
  · exact ⟨newMode, Disk.putEntry_eq_ok written⟩
  · cases written

theorem Disk.changeMode_eq_ok (moded : disk.changeMode path mode = .ok changed) :
    (∃ content room, changed = disk.put path (.file content mode) room) ∨ changed = disk := by
  unfold Disk.changeMode at moded
  split at moded
  next content _ _ => exact .inl ⟨content, Disk.putEntry_eq_ok moded⟩
  · cases moded
  · exact .inr (Except.ok.inj moded).symm
  · cases moded

theorem Disk.removeLeaf_eq_ok (removed : disk.removeLeaf path = .ok changed) :
    ∃ leaf, changed = disk.remove path leaf := by
  unfold Disk.removeLeaf at removed
  split at removed
  · split at removed
    next leaf =>
      cases removed
      exact ⟨leaf, rfl⟩
    · cases removed
  · cases removed

theorem Disk.makeDirectory_eq_ok (made : disk.makeDirectory path = .ok changed) : changed = disk ∨
      (disk.entries path = none ∧ ∃ room, changed = disk.put path .directory room) := by
  unfold Disk.makeDirectory at made
  split at made
  · exact .inl (Except.ok.inj made).symm
  · cases made
  · cases made
  next absent => exact .inr ⟨absent, Disk.putEntry_eq_ok made⟩

theorem change_moves [Std.Refl related]
    (allowed : ∀ host disk, effect host = .ok disk → related host.disk disk) :
    Moves (OnDisk related) (change effect) := by
  intro host
  unfold change
  split
  next disk worked => exact allowed host disk worked
  · exact Std.Refl.refl host.disk

theorem change_eq_ok (ran : change effect host = .ok value after) :
    ∃ disk, effect host = .ok disk ∧ after = { host with disk } := by
  unfold change at ran
  split at ran
  next disk worked =>
    cases ran
    exact ⟨disk, worked, rfl⟩
  · cases ran

theorem reads_moves [Std.Refl related] {Value : Type} {action : Action Failure Host Value}
    (reads : Reads action) : Moves (OnDisk related) action := by
  intro host
  have same : host.disk = (Action.final (action host)).disk := (reads host).disk
  unfold OnDisk
  rw [← same]
  exact Std.Refl.refl host.disk

theorem setUnixMode_moves [Std.Refl related] [IsTrans Disk related]
    (allowed : ∀ (disk : Disk) (content : List UInt8) room,
      related disk (disk.put path (.file content mode) room)) :
    Moves (OnDisk related) (setUnixMode path mode) := by
  refine (reads_moves unhindered_reads).bind fun _ => change_moves fun host disk moded => ?_
  rcases Disk.changeMode_eq_ok moded with ⟨content, room, rfl⟩ | rfl
  · exact allowed host.disk content room
  · exact Std.Refl.refl _

theorem setUnixMode_eq_ok {earlier : Nat} (held : host.disk.entries path = some (.file content earlier))
    (ran : setUnixMode path mode host = .ok value after) :
    after.disk.entries path = some (.file content mode) := by
  obtain ⟨_, free, went, ran⟩ := Action.bind_eq_ok.mp ran
  have unchanged : host.disk = free.disk := (unhindered_reads.ok went).disk
  rw [unchanged] at held
  obtain ⟨_, moded, rfl⟩ := change_eq_ok ran
  have looked : free.disk.look path = .ok (.file content earlier) := FileTree.look_eq_ok.mpr held
  simp only [Disk.changeMode, looked] at moded
  obtain ⟨_, rfl⟩ := Disk.putEntry_eq_ok moded
  simp

/-! A file system on the host's disk alone. -/

namespace HostFs

def metadata (path : Path) : Fs FileMeta := do
  let entry ← look path
  pure (.ofEntry entry)

def read (path : Path) : Fs (List UInt8) := do
  match ← look path with
  | .file content _ => pure content
  | .directory => throw isADirectory
  | .link => throw .symlinkRejected
  | .special => throw .notRegularFile

def write (path : Path) (content : List UInt8) : Fs Unit := do
  unhindered
  change fun host => host.disk.writeFile host.newMode path content

def removeFile (path : Path) : Fs Unit := do
  unhindered
  change fun host => host.disk.removeLeaf path

/-- Makes the missing directories, from the top. -/
def makeDirectories : List Path → Fs Unit
  | [] => pure ()
  | part :: rest => do
      unhindered
      change fun host => host.disk.makeDirectory part
      makeDirectories rest

theorem look_file (quiet : host.faults = []) (held : host.disk.entries path = some entry) :
    look path host = .ok entry host := by
  have free : unhindered host = .ok () host := by
    rw [unhindered, Action.bind_of_ok (nextFault_quiet quiet)]
    rfl
  unfold look
  rw [Action.bind_of_ok free, Action.bind_of_ok (get_eq_ok.mpr ⟨rfl, rfl⟩), FileTree.look_eq_ok.mpr held]
  rfl

theorem makeDirectories_moves [Std.Refl related] [IsTrans Disk related] {parts : List Path}
    (allowed : ∀ part ∈ parts, ∀ (disk : Disk) room, disk.entries part = none →
      related disk (disk.put part .directory room)) :
    Moves (OnDisk related) (makeDirectories parts) := by
  induction parts with
  | nil => exact .pure _
  | cons part _ ih =>
      refine (reads_moves unhindered_reads).bind fun _ => ?_
      refine Moves.bind (change_moves fun host disk made => ?_) fun _ => ?_
      · rcases Disk.makeDirectory_eq_ok made with rfl | ⟨absent, room, rfl⟩
        · exact Std.Refl.refl _
        · exact allowed part List.mem_cons_self host.disk room absent
      · exact ih fun later isLater => allowed later (List.mem_cons_of_mem _ isLater)

end HostFs

def hostFs : LocalFs where
  metadata := HostFs.metadata
  read := HostFs.read
  write := HostFs.write
  createDirAll path := HostFs.makeDirectories path.inits
  removeFile := HostFs.removeFile
  metadata_reads path := (look_reads path).bind fun _ => .pure _
  metadata_eq_ok looked := by
    obtain ⟨entry, _, looked, answered⟩ := Action.bind_eq_ok.mp looked
    exact ⟨entry, look_eq_ok looked, (Action.pure_eq_ok.mp answered).1⟩
  metadata_notFound looked := by
    rcases Action.bind_eq_error.mp looked with missing | ⟨_, _, _, absurd⟩
    · exact look_notFound missing
    · exact (Action.pure_eq_error.mp absurd).elim
  metadata_file quiet held := by
    rw [HostFs.metadata, Action.bind_of_ok (HostFs.look_file quiet held)]
    rfl
  read_reads path := by
    refine (look_reads path).bind fun entry => ?_
    cases entry with
    | file => exact .pure _
    | directory | link | special => exact .throw _
  read_eq_ok ran := by
    obtain ⟨entry, _, looked, answered⟩ := Action.bind_eq_ok.mp ran
    have held := look_eq_ok looked
    cases entry with
    | file _ mode =>
        rw [(Action.pure_eq_ok.mp answered).1] at held
        exact ⟨mode, held⟩
    | directory | link | special => exact (Action.throw_eq_ok.mp answered).elim
  read_file quiet held := by
    rw [HostFs.read, Action.bind_of_ok (HostFs.look_file quiet held)]
    rfl
  write_moves allowed := by
    refine (reads_moves unhindered_reads).bind fun _ => change_moves fun host disk written => ?_
    obtain ⟨mode, room, rfl⟩ := Disk.writeFile_eq_ok written
    exact allowed host.disk _ mode room
  write_eq_ok ran := by
    obtain ⟨_, _, _, ran⟩ := Action.bind_eq_ok.mp ran
    obtain ⟨disk, written, rfl⟩ := change_eq_ok ran
    obtain ⟨mode, _, rfl⟩ := Disk.writeFile_eq_ok written
    exact ⟨mode, by simp⟩
  createDirAll_moves allowed := HostFs.makeDirectories_moves allowed
  removeFile_moves allowed := by
    refine (reads_moves unhindered_reads).bind fun _ => change_moves fun host disk removed => ?_
    obtain ⟨leaf, rfl⟩ := Disk.removeLeaf_eq_ok removed
    exact allowed host.disk leaf
  removeFile_eq_ok ran := by
    obtain ⟨_, _, _, ran⟩ := Action.bind_eq_ok.mp ran
    obtain ⟨_, removed, rfl⟩ := change_eq_ok ran
    obtain ⟨_, rfl⟩ := Disk.removeLeaf_eq_ok removed
    simp

end CodeSpace.Runner
