import CodeSpace.Store.Operations

namespace CodeSpace.Store.Operations

open Data Domain

variable {operations after : Operations} {row : OperationRow} {id other key : String} {now : Nat}
  {workspaceId fingerprint : String} {result : ApplyPatchResult} {createdNotBefore : Option Nat}

theorem loadByKey_eq_some (loaded : operations.loadByKey key = some row) :
    operations.find? row.operationId = some row ∧ row.operationKey = some key :=
  ⟨Table.find?_of_mem (List.mem_of_find?_eq_some loaded), by simpa using List.find?_some loaded⟩

theorem loadByKey_eq_none (absent : operations.loadByKey key = none)
    (stored : operations.find? id = some row) : row.operationKey ≠ some key := by
  have named := List.find?_eq_none.mp absent row (Table.find?_eq_some.mp stored).1
  simpa using named

inductive BeginStep (operations : Operations) (newId : String) (operationKey : Option String)
    (workspaceId fingerprint : String) (now : Nat) : Except ErrorBody Begin → Operations → Prop
  | conflict {key : String} {row : OperationRow} (named : operationKey = some key)
      (held : operations.loadByKey key = some row) (differs : row.fingerprint ≠ fingerprint) :
      BeginStep operations newId operationKey workspaceId fingerprint now (.error keyConflict) operations
  | replayed {key : String} {row : OperationRow} (named : operationKey = some key)
      (held : operations.loadByKey key = some row) (same : row.fingerprint = fingerprint) :
      BeginStep operations newId operationKey workspaceId fingerprint now
        (.ok (.replayed (row.intoStored true))) operations
  | fresh {after : Operations} (free : operationKey.bind operations.loadByKey = none)
      (inserted : operations.insert?
        (begun newId operationKey workspaceId fingerprint now) = some after) :
      BeginStep operations newId operationKey workspaceId fingerprint now (.ok (.fresh newId)) after
  | taken (error : ErrorBody) :
      BeginStep operations newId operationKey workspaceId fingerprint now (.error error) operations

theorem begin_step (operations : Operations) (newId : String) (operationKey : Option String)
    (workspaceId fingerprint : String) (now : Nat) :
    BeginStep operations newId operationKey workspaceId fingerprint now
      (operations.begin newId operationKey workspaceId fingerprint now).1
      (operations.begin newId operationKey workspaceId fingerprint now).2 := by
  unfold begin
  split
  next held =>
    obtain ⟨_, named, loaded⟩ := Option.bind_eq_some_iff.mp held
    split
    next differs => exact .conflict named loaded differs
    next same => exact .replayed named loaded (not_ne_iff.mp same)
  next free =>
    split
    next fits => exact .fresh free fits
    · exact .taken _

theorem BeginStep.known {newId : String} {operationKey : Option String} {answer : Except ErrorBody Begin}
    (step : BeginStep operations newId operationKey workspaceId fingerprint now answer after)
    (stored : after.find? id = some row) : operations.find? id = some row ∨ id = newId := by
  cases step with
  | conflict | replayed | taken => exact .inl stored
  | fresh _ inserted =>
      rw [Table.find?_insert? inserted] at stored
      split at stored
      next same => exact .inr same
      · exact .inl stored

theorem find?_finish (operations : Operations) (id : String) (result : ApplyPatchResult) (now : Nat) :
    (operations.finish id result now).2.find? other = (operations.find? other).map fun row =>
        if row.operationId = id then finished result now row else row := by
  unfold finish
  split
  next absent =>
    cases stored : operations.find? other with
    | none => rfl
    | some row =>
        have apart : ¬ row.operationId = id := Table.find?_eq_none.mp absent row
          (Table.find?_eq_some.mp stored).1
        simp [apart]
  · exact Table.find?_updateRow (by intro; rfl)

theorem find?_abandon (operations : Operations) (id : String) : (operations.abandon id).2.find? other =
      (operations.find? other).filter fun row => !unfinished id row :=
  Table.find?_deleteWhere

theorem find?_abandon_of_ne (operations : Operations) (apart : other ≠ id) :
    (operations.abandon id).2.find? other = operations.find? other := by
  rw [find?_abandon]
  cases stored : operations.find? other with
  | none => rfl
  | some =>
      have named := (Table.find?_eq_some.mp stored).2
      simp [Option.filter, unfinished, named, apart]

theorem foldl_newer_isSome (best : OperationRow) (rows : List OperationRow) :
    (rows.foldl newer (some best)).isSome = true := by
  induction rows generalizing best with
  | nil => rfl
  | cons row _ ih =>
      rw [List.foldl_cons, newer]
      split
      · exact ih row
      · exact ih best

theorem findOperationByFingerprint_of_matching (stored : operations.find? id = some row)
    (matches_ : matching workspaceId fingerprint createdNotBefore row = true) :
    operations.findOperationByFingerprint workspaceId fingerprint createdNotBefore ≠ none := by
  have member : row ∈ operations.rows.filter (matching workspaceId fingerprint createdNotBefore) :=
    List.mem_filter.mpr ⟨(Table.find?_eq_some.mp stored).1, matches_⟩
  unfold findOperationByFingerprint
  cases found : operations.rows.filter (matching workspaceId fingerprint createdNotBefore) with
  | nil =>
      rw [found] at member
      contradiction
  | cons first rest =>
      have some_ := foldl_newer_isSome first rest
      rw [List.foldl_cons, newer]
      simp only [Option.all_none, if_true, ne_eq, Option.map_eq_none_iff]
      intro none_
      rw [none_] at some_
      contradiction

end CodeSpace.Store.Operations
