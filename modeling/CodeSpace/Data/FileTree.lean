import Mathlib.Data.List.Infix
import Mathlib.Logic.Function.Basic

namespace CodeSpace.Data

/-! A tree of files, directories and links, by the path from its top, in which nothing hangs below
anything but a directory. Links are entries of their own and are never followed. -/

inductive Entry (Content Mode : Type*)
  | file (content : Content) (mode : Mode)
  | directory
  | link
  | special
deriving DecidableEq, Repr

structure FileTree (Name Content Mode : Type*) where
  entries : List Name → Option (Entry Content Mode)
  top : entries [] = some .directory
  closed {path : List Name} (below : path ≠ []) (present : (entries path).isSome = true) :
    entries path.dropLast = some .directory

/-- What stops a walk down the tree. -/
inductive Obstacle
  | missing
  | link
  | notDirectory
deriving DecidableEq, Repr

namespace FileTree

variable {Name Content Mode : Type*} {tree before middle after : FileTree Name Content Mode}
  {path part other base : List Name} {entry : Entry Content Mode}

/-- Nothing but the top. -/
def bare : FileTree Name Content Mode where
  entries := fun path => match path with
    | [] => some .directory
    | _ :: _ => none
  top := rfl
  closed := by
    intro path below present
    cases path with
    | nil => exact absurd rfl below
    | cons => cases present

/-- The file at a path, with its content and mode; a directory or a link is none. -/
def regular (tree : FileTree Name Content Mode) (path : List Name) : Option (Content × Mode) :=
  match tree.entries path with
  | some (.file content mode) => some (content, mode)
  | _ => none

theorem regular_eq_some {content : Content} {mode : Mode} :
    tree.regular path = some (content, mode) ↔ tree.entries path = some (.file content mode) := by
  unfold regular
  split
  next found => simp [found]
  next other =>
    constructor
    · intro absurd
      cases absurd
    · intro found
      exact absurd found (other content mode)

theorem regular_of_entries (same : after.entries path = before.entries path) :
    after.regular path = before.regular path := by
  unfold regular
  rw [same]

theorem ne_nil_of_not_directory (leaf : tree.entries path ≠ some .directory) : path ≠ [] := by
  rintro rfl
  exact leaf tree.top

theorem directory_above (present : (tree.entries path).isSome = true) (above : part <+: path)
    (proper : part ≠ path) : tree.entries part = some .directory := by
  induction path using List.reverseRecOn with
  | nil => exact absurd (List.prefix_nil.mp above) proper
  | append_singleton parent name ih =>
      have opened : tree.entries parent = some .directory := by
        have held : tree.entries (parent ++ [name]).dropLast = some .directory :=
          tree.closed (by simp) present
        rwa [List.dropLast_concat] at held
      rcases List.prefix_concat_iff.mp above with same | inParent
      · exact absurd same proper
      · by_cases same : part = parent
        · rw [same, opened]
        · exact ih (by rw [opened]; rfl) inParent same

theorem directory_prefix (held : tree.entries path = some .directory) (above : part <+: path) :
    tree.entries part = some .directory := by
  by_cases same : part = path
  · rw [same, held]
  · exact tree.directory_above (by rw [held]; rfl) above same

section Walk

variable [DecidableEq Content] [DecidableEq Mode]

/-- The first part of a path that is not a directory, if there is one. -/
def firstGap (tree : FileTree Name Content Mode) (path : List Name) : Option (List Name) :=
  path.inits.find? fun part => decide (tree.entries part ≠ some .directory)

/-- Walks down to the directory at a path. -/
def obstacle? (tree : FileTree Name Content Mode) (path : List Name) : Option Obstacle :=
  (tree.firstGap path).map fun part =>
    match tree.entries part with
    | none => .missing
    | some .link => .link
    | some _ => .notDirectory

/-- Looks at a path without following a link on the way: the entry there, or what is in the way. -/
def look (tree : FileTree Name Content Mode) (path : List Name) :
    Except Obstacle (Entry Content Mode) :=
  match tree.entries path with
  | some entry => .ok entry
  | none => .error ((tree.obstacle? path.dropLast).getD .missing)

theorem look_eq_ok : tree.look path = .ok entry ↔ tree.entries path = some entry := by
  unfold look
  split
  next held =>
    rw [held, Except.ok.injEq, Option.some.injEq]
  next absent =>
    rw [absent]
    constructor <;> intro absurd <;> cases absurd

theorem look_error {obstacle : Obstacle} (failed : tree.look path = .error obstacle) :
    tree.entries path = none := by
  unfold look at failed
  split at failed
  · cases failed
  next absent => exact absent

end Walk

/-- A path where an entry that is not a directory may be put, or a directory made. -/
def Room (tree : FileTree Name Content Mode) (path : List Name) : Prop :=
  tree.entries path.dropLast = some .directory ∧ tree.entries path ≠ some .directory

instance [DecidableEq Content] [DecidableEq Mode] (tree : FileTree Name Content Mode)
    (path : List Name) : Decidable (tree.Room path) :=
  inferInstanceAs (Decidable (_ ∧ _))

theorem dropLast_ne (below : path ≠ []) : path.dropLast ≠ path := by
  intro same
  have shorter : path.dropLast.length = path.length := congrArg List.length same
  rw [List.length_dropLast] at shorter
  have positive := List.length_pos_iff.mpr below
  omega

variable [DecidableEq Name]

def put (tree : FileTree Name Content Mode) (path : List Name) (entry : Entry Content Mode)
    (room : tree.Room path) : FileTree Name Content Mode where
  entries := Function.update tree.entries path (some entry)
  top := by
    rw [Function.update_of_ne (ne_nil_of_not_directory room.2).symm]
    exact tree.top
  closed := by
    intro place below present
    by_cases here : place = path
    · subst here
      rw [Function.update_of_ne (dropLast_ne below)]
      exact room.1
    · rw [Function.update_of_ne here] at present
      have held := tree.closed below present
      have elsewhere : place.dropLast ≠ path := fun same => room.2 (same ▸ held)
      rw [Function.update_of_ne elsewhere]
      exact held

/-- Takes away what is no directory. -/
def remove (tree : FileTree Name Content Mode) (path : List Name)
    (leaf : tree.entries path ≠ some .directory) : FileTree Name Content Mode where
  entries := Function.update tree.entries path none
  top := by
    rw [Function.update_of_ne (ne_nil_of_not_directory leaf).symm]
    exact tree.top
  closed := by
    intro place below present
    by_cases here : place = path
    · subst here
      rw [Function.update_self] at present
      cases present
    · rw [Function.update_of_ne here] at present
      have held := tree.closed below present
      have elsewhere : place.dropLast ≠ path := fun same => leaf (same ▸ held)
      rw [Function.update_of_ne elsewhere]
      exact held

@[simp] theorem put_entries (room : tree.Room path) :
    (tree.put path entry room).entries = Function.update tree.entries path (some entry) := rfl

@[simp] theorem remove_entries (leaf : tree.entries path ≠ some .directory) :
    (tree.remove path leaf).entries = Function.update tree.entries path none := rfl

section Compare

omit [DecidableEq Name]

/-- The two trees differ at one path only, new directories apart. -/
def Spares (path : List Name) (before after : FileTree Name Content Mode) : Prop :=
  ∀ other, other ≠ path → after.entries other = before.entries other ∨
      (before.entries other = none ∧ after.entries other = some .directory)

theorem Spares.refl : Spares path tree tree := fun _ _ => .inl rfl

theorem Spares.trans (first : Spares path before middle) (second : Spares path middle after) :
    Spares path before after := by
  intro other elsewhere
  rcases second other elsewhere with same | ⟨absent, made⟩
  · rw [same]
    exact first other elsewhere
  · rcases first other elsewhere with unchanged | ⟨missing, earlier⟩
    · exact .inr ⟨unchanged ▸ absent, made⟩
    · rw [earlier] at absent
      cases absent

theorem Spares.regular (spared : Spares path before after) (elsewhere : other ≠ path) :
    after.regular other = before.regular other := by
  rcases spared other elsewhere with same | ⟨absent, made⟩
  · exact regular_of_entries same
  · unfold FileTree.regular
    rw [absent, made]

instance : Std.Refl (Spares path : FileTree Name Content Mode → FileTree Name Content Mode → Prop) :=
  ⟨fun _ => Spares.refl⟩

instance : IsTrans (FileTree Name Content Mode) (Spares path) :=
  ⟨fun _ _ _ first second => first.trans second⟩

def Under (base path : List Name) : Prop :=
  base <+: path ∧ path ≠ base

/-- The two trees differ under one directory only. -/
def Within (base : List Name) (before after : FileTree Name Content Mode) : Prop :=
  ∀ path, ¬Under base path → after.entries path = before.entries path

instance : Std.Refl (Within base : FileTree Name Content Mode → FileTree Name Content Mode → Prop) :=
  ⟨fun _ _ _ => rfl⟩

instance : IsTrans (FileTree Name Content Mode) (Within base) :=
  ⟨fun _ _ _ first second path outside => (second path outside).trans (first path outside)⟩

theorem not_under_self : ¬Under base base := fun under => under.2 rfl

/-- They do so if the directory is there. -/
def WithinHeld (base : List Name) (before after : FileTree Name Content Mode) : Prop :=
  before.entries base = some .directory → Within base before after

instance : Std.Refl (WithinHeld base : FileTree Name Content Mode → FileTree Name Content Mode → Prop) :=
  ⟨fun _ _ _ _ => rfl⟩

instance : IsTrans (FileTree Name Content Mode) (WithinHeld base) :=
  ⟨fun before middle after first second held => by
    have same := first held base not_under_self
    exact IsTrans.trans before middle after (first held) (second (same.trans held))⟩

theorem under_of_missing (held : tree.entries base = some .directory)
    (missing : tree.entries path = none) (onWay : base <+: other) (alsoOnWay : path <+: other) :
    Under base path := by
  have notAbove : ¬path <+: base := by
    intro above
    rw [tree.directory_prefix held above] at missing
    cases missing
  refine ⟨(List.prefix_or_prefix_of_prefix onWay alsoOnWay).resolve_right notAbove, ?_⟩
  rintro rfl
  exact notAbove (List.prefix_refl _)

end Compare

theorem put_spares (room : tree.Room path) : Spares path tree (tree.put path entry room) :=
  fun other elsewhere => .inl (by rw [put_entries, Function.update_of_ne elsewhere])

theorem remove_spares (leaf : tree.entries path ≠ some .directory) :
    Spares path tree (tree.remove path leaf) :=
  fun other elsewhere => .inl (by rw [remove_entries, Function.update_of_ne elsewhere])

theorem put_within (room : tree.Room path) (under : Under base path) :
    Within base tree (tree.put path entry room) := by
  intro other outside
  have elsewhere : other ≠ path := fun same => outside (same ▸ under)
  rw [put_entries, Function.update_of_ne elsewhere]

theorem remove_within (leaf : tree.entries path ≠ some .directory) (under : Under base path) :
    Within base tree (tree.remove path leaf) := by
  intro other outside
  have elsewhere : other ≠ path := fun same => outside (same ▸ under)
  rw [remove_entries, Function.update_of_ne elsewhere]

end FileTree

end CodeSpace.Data
