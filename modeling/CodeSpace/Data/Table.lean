import Mathlib.Data.List.Nodup
import Mathlib.Data.List.Perm.Subperm

namespace CodeSpace.Data

/-! A table of a relational store: rows in insertion order with a primary key. The key is unique by
construction, so an insertion can fail and an update may not touch the key. -/

structure Table {Key Row : Type*} (key : Row → Key) where
  rows : List Row
  distinct : (rows.map key).Nodup

namespace Table

variable {Key Row : Type*} [DecidableEq Key] {key : Row → Key} {table : Table key} {row : Row}
  {id selected : Key} {wanted test : Row → Bool} {change : Row → Row}

def empty : Table key := ⟨[], List.nodup_nil⟩

def find? (table : Table key) (id : Key) : Option Row :=
  table.rows.find? fun row => key row = id

def count (table : Table key) (wanted : Row → Bool) : Nat :=
  table.rows.countP wanted

/-- Fails when the key is taken. -/
def insert? (table : Table key) (row : Row) : Option (Table key) :=
  if fresh : key row ∈ table.rows.map key then none
  else some ⟨table.rows ++ [row], by
    rw [List.map_append, List.map_singleton]
    exact List.nodup_append_comm.mp (List.nodup_cons.mpr ⟨fresh, table.distinct⟩)⟩

def updateWhere (table : Table key) (wanted : Row → Bool) (change : Row → Row)
    (keeps : ∀ row, key (change row) = key row) : Table key where
  rows := table.rows.map fun row => if wanted row then change row else row
  distinct := by
    have same : (table.rows.map fun row => if wanted row then change row else row).map key =
        table.rows.map key := by
      rw [List.map_map]
      refine List.map_congr_left fun row _ => ?_
      simp only [Function.comp_apply]
      split
      · exact keeps row
      · rfl
    rw [same]
    exact table.distinct

def deleteWhere (table : Table key) (wanted : Row → Bool) : Table key where
  rows := table.rows.filter fun row => !wanted row
  distinct := (List.filter_sublist.map key).nodup table.distinct

section

omit [DecidableEq Key]

theorem row_eq {other : Row} (member : row ∈ table.rows) (present : other ∈ table.rows)
    (same : key row = key other) : row = other :=
  List.inj_on_of_nodup_map table.distinct member present same

theorem mem_updateWhere {keeps : ∀ row, key (change row) = key row} :
    row ∈ (table.updateWhere wanted change keeps).rows ↔
      ∃ old ∈ table.rows, row = if wanted old then change old else old := by
  simp only [updateWhere, List.mem_map]
  constructor
  · rintro ⟨old, member, rfl⟩
    exact ⟨old, member, rfl⟩
  · rintro ⟨old, member, rfl⟩
    exact ⟨old, member, rfl⟩

theorem updateWhere_eq_self {keeps : ∀ row, key (change row) = key row}
    (unwanted : ∀ row ∈ table.rows, wanted row = false) :
    table.updateWhere wanted change keeps = table := by
  have same : (table.updateWhere wanted change keeps).rows = table.rows := by
    refine (List.map_congr_left fun row member => ?_).trans (List.map_id _)
    simp [unwanted row member]
  obtain ⟨_, _⟩ := table
  exact Table.mk.injEq .. ▸ same

end

theorem find?_eq_some : table.find? id = some row ↔ row ∈ table.rows ∧ key row = id := by
  constructor
  · intro found
    exact ⟨List.mem_of_find?_eq_some found, by simpa using List.find?_some found⟩
  · rintro ⟨member, same⟩
    cases found : table.find? id with
    | none =>
        have absent := List.find?_eq_none.mp found row member
        simp [same] at absent
    | some other =>
        have matching : key other = id := by simpa using List.find?_some found
        rw [row_eq (List.mem_of_find?_eq_some found) member (matching.trans same.symm)]

theorem find?_eq_none : table.find? id = none ↔ ∀ row ∈ table.rows, key row ≠ id := by
  simp [find?]

theorem find?_of_mem (member : row ∈ table.rows) : table.find? (key row) = some row :=
  find?_eq_some.mpr ⟨member, rfl⟩

section

variable (keeps : ∀ row, key (change row) = key row)
include keeps

theorem find?_updateWhere : (table.updateWhere wanted change keeps).find? id =
      (table.find? id).map fun row => if wanted row then change row else row := by
  have unchanged : ∀ row, key (if wanted row then change row else row) = key row := by
    intro row
    split
    · exact keeps row
    · rfl
  cases found : table.find? id with
  | none =>
      refine find?_eq_none.mpr fun row member => ?_
      obtain ⟨old, present, rfl⟩ := mem_updateWhere.mp member
      rw [unchanged]
      exact find?_eq_none.mp found old present
  | some row =>
      obtain ⟨member, same⟩ := find?_eq_some.mp found
      exact find?_eq_some.mpr ⟨mem_updateWhere.mpr ⟨row, member, rfl⟩, (unchanged row).trans same⟩

theorem find?_updateKey (passes : ∀ {row}, table.find? selected = some row → test row = true) :
    (table.updateWhere (fun row => key row = selected && test row) change keeps).find? id =
      (table.find? id).map fun row => if key row = selected then change row else row := by
  refine (find?_updateWhere keeps).trans (Option.map_congr fun row found => ?_)
  by_cases same : key row = selected
  · have stored : table.find? selected = some row := find?_eq_some.mpr ⟨(find?_eq_some.mp found).1, same⟩
    simp [same, passes stored]
  · simp [same]

theorem find?_updateRow : (table.updateWhere (fun row => key row = selected) change keeps).find? id =
      (table.find? id).map fun row => if key row = selected then change row else row := by
  simp [find?_updateWhere]

end

theorem insert?_eq_some {next : Table key} :
    table.insert? row = some next ↔ table.find? (key row) = none ∧ next.rows = table.rows ++ [row] := by
  have absent : table.find? (key row) = none ↔ key row ∉ table.rows.map key := by
    simp [find?_eq_none, List.mem_map]
  rw [absent]
  simp only [insert?]
  split
  next taken => simp [taken]
  next fresh =>
    constructor
    · intro inserted
      cases inserted
      exact ⟨fresh, rfl⟩
    · rintro ⟨_, rows⟩
      obtain ⟨_, _⟩ := next
      cases rows
      rfl

theorem find?_insert? {next : Table key} (inserted : table.insert? row = some next) :
    next.find? id = if id = key row then some row else table.find? id := by
  obtain ⟨fresh, rows⟩ := insert?_eq_some.mp inserted
  simp only [find?, rows, List.find?_append] at fresh ⊢
  by_cases same : id = key row
  · subst same
    simp [fresh]
  · have apart : ¬ key row = id := fun equal => same equal.symm
    simp [same, apart]

theorem find?_insert?_of_stored {next : Table key} {stored : Row} (inserted : table.insert? row = some next)
    (found : table.find? id = some stored) : next.find? id = some stored := by
  rw [find?_insert? inserted, if_neg]
  · exact found
  · rintro rfl
    rw [(insert?_eq_some.mp inserted).1] at found
    contradiction

theorem find?_deleteWhere :
    (table.deleteWhere wanted).find? id = (table.find? id).filter fun row => !wanted row := by
  cases found : table.find? id with
  | none =>
      refine find?_eq_none.mpr fun row member => ?_
      exact find?_eq_none.mp found row (List.mem_of_mem_filter member)
  | some row =>
      obtain ⟨member, same⟩ := find?_eq_some.mp found
      by_cases removed : wanted row = true
      · simp only [Option.filter, removed, Bool.not_true, Bool.false_eq_true, if_false]
        refine find?_eq_none.mpr fun other present matching => ?_
        obtain ⟨inside, kept⟩ := List.mem_filter.mp present
        rw [row_eq inside member (matching.trans same.symm), removed] at kept
        contradiction
      · simp only [Option.filter, removed, Bool.not_false, if_true]
        exact find?_eq_some.mpr ⟨List.mem_filter.mpr ⟨member, by simpa using removed⟩, same⟩

/-- A row in the place of the one with its key, if there is one. -/
def put (table : Table key) (row : Row) : Table key where
  rows := (table.deleteWhere fun other => key other = key row).rows ++ [row]
  distinct := by
    rw [List.map_append, List.map_singleton]
    refine List.nodup_append_comm.mp (List.nodup_cons.mpr ⟨fun taken => ?_, (table.deleteWhere _).distinct⟩)
    obtain ⟨_, kept, same⟩ := List.mem_map.mp taken
    simp [deleteWhere, same] at kept

theorem find?_put : (table.put row).find? id = if id = key row then some row else table.find? id := by
  have others : ((table.deleteWhere fun other => key other = key row).rows.find? fun other => key other = id)
      = if id = key row then none else table.find? id := by
    change (table.deleteWhere fun other => key other = key row).find? id = _
    rw [find?_deleteWhere]
    cases found : table.find? id with
    | none => simp
    | some =>
        have isOther := (find?_eq_some.mp found).2
        by_cases same : id = key row <;> simp [Option.filter, isOther, same]
  simp only [find?, put, List.find?_append] at others ⊢
  rw [others]
  by_cases same : id = key row
  · simp [same]
  · have apart : ¬ key row = id := fun equal => same equal.symm
    simp [same, apart]

theorem count_put_le : (table.put row).count wanted ≤ table.count wanted + 1 := by
  simp only [count, put, deleteWhere, List.countP_append]
  have fewer : List.countP wanted (table.rows.filter fun other => !decide (key other = key row)) ≤
      List.countP wanted table.rows := List.filter_sublist.countP_le
  have single := List.countP_le_length (p := wanted) (l := [row])
  simp only [List.length_singleton] at single
  omega

/-- The same rows in another order. -/
def reorder (table : Table key) (rows : List Row) (same : rows.Perm table.rows) : Table key where
  rows := rows
  distinct := (same.map key).nodup_iff.mpr table.distinct

theorem find?_reorder {rows : List Row} (same : rows.Perm table.rows) :
    (table.reorder rows same).find? id = table.find? id := by
  refine Option.ext fun row => ?_
  rw [find?_eq_some, find?_eq_some]
  exact and_congr_left fun _ => same.mem_iff

/-- A count is that of the keys whose row satisfies the test. -/
theorem count_congr {other : Table key}
    (same : ∀ id, (table.find? id).filter test = (other.find? id).filter test) :
    table.count test = other.count test := by
  have member (rows : Table key) {row : Row} :
      row ∈ rows.rows.filter test ↔ (rows.find? (key row)).filter test = some row := by
    rw [List.mem_filter, Option.filter_eq_some_iff, find?_eq_some]
    simp
  have nodup (rows : Table key) : (rows.rows.filter test).Nodup :=
    (List.Nodup.of_map key rows.distinct).filter test
  have permuted : (table.rows.filter test).Perm (other.rows.filter test) := by
    rw [List.perm_ext_iff_of_nodup (nodup table) (nodup other)]
    intro row
    rw [member, member, same]
  rw [count, count, List.countP_eq_length_filter, List.countP_eq_length_filter]
  exact permuted.length_eq

theorem count_key : table.count (fun row => key row = id && test row) =
      if (table.find? id).any test then 1 else 0 := by
  have single : table.count (fun row => key row = id && test row) ≤ 1 := by
    refine Nat.le_trans (List.countP_mono_left
      (q := fun row => decide (key row = id)) fun row _ selected => ?_) ?_
    · exact ((Bool.and_eq_true _ _).mp selected).1
    · have unique : (table.rows.map key).count id ≤ 1 := List.nodup_iff_count_le_one.mp table.distinct id
      rw [List.count, List.countP_map] at unique
      exact unique
  split
  next selected =>
    obtain ⟨row, found, passes⟩ := (Option.any_eq_true _ _).mp selected
    obtain ⟨member, same⟩ := find?_eq_some.mp found
    have positive : 0 < table.count (fun row => key row = id && test row) :=
      List.countP_pos_iff.mpr ⟨row, member, by simp [same, passes]⟩
    omega
  next unselected =>
    refine List.countP_eq_zero.mpr fun row member selected => unselected ?_
    obtain ⟨same, passes⟩ := (Bool.and_eq_true _ _).mp selected
    have found : table.find? id = some row := find?_eq_some.mpr ⟨member, by simpa using same⟩
    simp [found, passes]

/-- The keys of the rows that pass a test. -/
def keysWhere (table : Table key) (wanted : Row → Bool) : List Key :=
  (table.rows.filter wanted).map key

omit [DecidableEq Key] in
theorem keysWhere_nodup (table : Table key) (wanted : Row → Bool) : (table.keysWhere wanted).Nodup :=
  (List.filter_sublist.map key).nodup table.distinct

omit [DecidableEq Key] in
theorem length_keysWhere (table : Table key) (wanted : Row → Bool) :
    (table.keysWhere wanted).length = table.count wanted := by
  rw [keysWhere, List.length_map, count, List.countP_eq_length_filter]

theorem mem_keysWhere :
    id ∈ table.keysWhere wanted ↔ ∃ row, table.find? id = some row ∧ wanted row = true := by
  simp only [keysWhere, List.mem_map, List.mem_filter, find?_eq_some]
  constructor
  · rintro ⟨row, ⟨member, passes⟩, same⟩
    exact ⟨row, ⟨member, same⟩, passes⟩
  · rintro ⟨row, ⟨member, same⟩, passes⟩
    exact ⟨row, ⟨member, passes⟩, same⟩

theorem count_le_length {keys : List Key}
    (inside : ∀ id row, table.find? id = some row → wanted row = true → id ∈ keys) :
    table.count wanted ≤ keys.length := by
  rw [← length_keysWhere]
  refine ((table.keysWhere_nodup wanted).subperm fun id isKey => ?_).length_le
  obtain ⟨row, found, passes⟩ := mem_keysWhere.mp isKey
  exact inside id row found passes

theorem count_key_of_find? (found : table.find? id = some row)
    (passes : test row = true) : table.count (fun row => key row = id && test row) = 1 := by
  simp [count_key, found, passes]

end Table

end CodeSpace.Data
