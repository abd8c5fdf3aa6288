import Mathlib.Data.List.AList

namespace CodeSpace.Data

/-! Hash maps as association lists with distinct keys. Only what a pass over the entries of a map
does is added here; single-key operations are those of `AList`. -/

variable {Key Value : Type*} [DecidableEq Key]

abbrev Assoc (Key Value : Type*) := AList fun _ : Key => Value

namespace Assoc

def keysWhere (wanted : Value → Bool) (map : Assoc Key Value) : List Key :=
  (map.entries.filter fun entry => wanted entry.2).map Sigma.fst

def eraseAll (keys : List Key) (map : Assoc Key Value) : Assoc Key Value :=
  keys.foldl (fun rest key => rest.erase key) map

def setAll (keys : List Key) (value : Value) (map : Assoc Key Value) : Assoc Key Value :=
  keys.foldl (fun rest key => rest.insert key value) map

theorem mem_keysWhere {wanted : Value → Bool} {map : Assoc Key Value} {key : Key} :
    key ∈ keysWhere wanted map ↔ ∃ value, map.lookup key = some value ∧ wanted value := by
  simp only [keysWhere, List.mem_map, List.mem_filter]
  constructor
  · rintro ⟨⟨found, value⟩, ⟨stored, isWanted⟩, rfl⟩
    exact ⟨value, AList.mem_lookup_iff.mpr stored, isWanted⟩
  · rintro ⟨value, stored, isWanted⟩
    exact ⟨⟨key, value⟩, ⟨AList.mem_lookup_iff.mp stored, isWanted⟩, rfl⟩

theorem lookup_eraseAll (keys : List Key) (map : Assoc Key Value) (key : Key) :
    (eraseAll keys map).lookup key = if key ∈ keys then none else map.lookup key := by
  induction keys generalizing map with
  | nil => simp [eraseAll]
  | cons head rest ih =>
      change (eraseAll rest (map.erase head)).lookup key = _
      rw [ih]
      by_cases same : key = head
      · subst same
        simp
      · simp [same, AList.lookup_erase_ne same]

theorem lookup_setAll (keys : List Key) (value : Value) (map : Assoc Key Value) (key : Key) :
    (setAll keys value map).lookup key = if key ∈ keys then some value else map.lookup key := by
  induction keys generalizing map with
  | nil => simp [setAll]
  | cons head rest ih =>
      change (setAll rest value (map.insert head value)).lookup key = _
      rw [ih]
      by_cases same : key = head
      · subst same
        simp
      · simp [same, AList.lookup_insert_ne same]

end Assoc

end CodeSpace.Data
