import Mathlib.Data.List.Basic

namespace CodeSpace.Data

/-! A source of bytes that hands out as many as it likes at a time, and the read of an exact number
of them. -/

/-- The bytes to come, and how many more than one each coming read hands out. Once the list is over a
read gets what it asks for. -/
structure Source (Byte : Type*) where
  pending : List Byte
  sizes : List Nat := []
deriving DecidableEq, Repr

namespace Source

variable {Byte : Type*}

/-- One read into a buffer of this length. It gets nothing only at the end. -/
def read (source : Source Byte) (buffer : Nat) : List Byte × Source Byte :=
  match source.sizes with
  | [] => (source.pending.take buffer, { pending := source.pending.drop buffer })
  | more :: sizes =>
      let count := min buffer (more + 1)
      (source.pending.take count, { pending := source.pending.drop count, sizes := sizes })

/-- Reads until the buffer is full, as long as each gets something. -/
def fill : Nat → Nat → Source Byte → Option (List Byte) × Source Byte
  | _, 0, source => (some [], source)
  | 0, _ + 1, source => (none, source)
  | fuel + 1, buffer + 1, source =>
      let (bytes, later) := source.read (buffer + 1)
      if bytes.isEmpty then (none, later)
      else
        let (rest, last) := fill fuel (buffer + 1 - bytes.length) later
        (rest.map (bytes ++ ·), last)

/-- A read of exactly this many bytes, or none where the source ends before. -/
def readExact (source : Source Byte) (count : Nat) : Option (List Byte) × Source Byte :=
  fill count count source

theorem read_eq (source : Source Byte) (buffer : Nat) :
    ∃ count sizes, (buffer ≠ 0 → count ≠ 0) ∧ count ≤ buffer ∧ source.read buffer =
        (source.pending.take count, { pending := source.pending.drop count, sizes := sizes }) := by
  obtain ⟨_, sizes⟩ := source
  cases sizes with
  | nil => exact ⟨buffer, [], id, Nat.le_refl _, rfl⟩
  | cons more sizes => exact ⟨min buffer (more + 1), sizes, by omega, Nat.min_le_left .., rfl⟩

theorem fill_eq {fuel buffer : Nat} (enough : buffer ≤ fuel) (source : Source Byte) :
    ∃ sizes, fill fuel buffer source = if buffer ≤ source.pending.length then
        (some (source.pending.take buffer), { pending := source.pending.drop buffer, sizes := sizes })
      else (none, { pending := [], sizes := sizes }) := by
  induction fuel generalizing buffer source with
  | zero =>
      cases Nat.le_zero.mp enough
      exact ⟨source.sizes, by simp [fill]⟩
  | succ fuel ih =>
      cases buffer with
      | zero => exact ⟨source.sizes, by simp [fill]⟩
      | succ buffer =>
          obtain ⟨count, sizes, gets, bounded, readsSome⟩ := source.read_eq (buffer + 1)
          have positive : count ≠ 0 := gets (Nat.succ_ne_zero _)
          by_cases ends : source.pending = []
          · refine ⟨sizes, ?_⟩
            simp [fill, readsSome, ends]
          · have nonempty : source.pending.take count ≠ [] := by
              simpa [List.take_eq_nil_iff, ends] using positive
            have taken : (source.pending.take count).length = min count source.pending.length :=
              List.length_take
            have short : 0 < source.pending.length := List.length_pos_of_ne_nil ends
            obtain ⟨later, filled⟩ := ih
              (show buffer + 1 - (source.pending.take count).length ≤ fuel by omega)
              { pending := source.pending.drop count, sizes := sizes }
            refine ⟨later, ?_⟩
            simp only [fill, readsSome, List.isEmpty_iff, nonempty, if_false, filled, List.length_drop]
            by_cases fits : buffer + 1 ≤ source.pending.length
            · have isCount : (source.pending.take count).length = count := by omega
              rw [isCount, if_pos (by omega), if_pos fits]
              have whole : source.pending.take count ++
                  (source.pending.drop count).take (buffer + 1 - count) =
                    source.pending.take (buffer + 1) := by
                rw [← List.take_add, Nat.add_sub_cancel' bounded]
              simp [whole, Nat.add_sub_cancel' bounded]
            · rw [if_neg (by omega), if_neg fits]
              rfl

/-- The exact read does not depend on how the bytes come. -/
theorem readExact_eq (source : Source Byte) (count : Nat) : ∃ sizes, source.readExact count =
      if count ≤ source.pending.length then
        (some (source.pending.take count), { pending := source.pending.drop count, sizes := sizes })
      else (none, { pending := [], sizes := sizes }) :=
  fill_eq (Nat.le_refl _) source

end Source

end CodeSpace.Data
