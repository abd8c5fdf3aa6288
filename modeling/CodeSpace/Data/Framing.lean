import Mathlib.Data.List.Infix

namespace CodeSpace.Data

/-! Frames on a stream of bytes: the length of a payload in four bytes, most significant first, and the
payload. -/

def lengthBytes (length : Nat) : List UInt8 :=
  [UInt8.ofNat (length / 16777216), UInt8.ofNat (length / 65536), UInt8.ofNat (length / 256),
    UInt8.ofNat length]

def lengthOf (first second third fourth : UInt8) : Nat :=
  ((first.toNat * 256 + second.toNat) * 256 + third.toNat) * 256 + fourth.toNat

def frame (payload : List UInt8) : List UInt8 :=
  lengthBytes payload.length ++ payload

/-- The first frame of a stream and what follows it. A stream that ends within the frame has none, nor
has one whose length is out of bounds. -/
def readFrame (limit : Nat) : List UInt8 → Option (List UInt8 × List UInt8)
  | first :: second :: third :: fourth :: rest =>
      let length := lengthOf first second third fourth
      if 0 < length ∧ length ≤ limit ∧ length ≤ rest.length then
        some (rest.take length, rest.drop length)
      else none
  | _ => none

/-- The payloads of the first frames of a stream, up to a number of them. -/
def readFrames (limit : Nat) : Nat → List UInt8 → List (List UInt8)
  | 0, _ => []
  | count + 1, stream =>
      match readFrame limit stream with
      | some (payload, rest) => payload :: readFrames limit count rest
      | none => []

variable {limit : Nat} {payload tail rest : List UInt8}

theorem lengthOf_lengthBytes {length : Nat} (small : length < 4294967296) :
    lengthOf (UInt8.ofNat (length / 16777216)) (UInt8.ofNat (length / 65536))
      (UInt8.ofNat (length / 256)) (UInt8.ofNat length) = length := by
  simp only [lengthOf, UInt8.toNat_ofNat']
  omega

theorem frame_ne_nil (payload : List UInt8) : frame payload ≠ [] := by
  simp [frame, lengthBytes]

theorem readFrame_append (small : payload.length < 4294967296) : readFrame limit (frame payload ++ rest) =
      if 0 < payload.length ∧ payload.length ≤ limit then some (payload, rest) else none := by
  simp only [frame, lengthBytes, List.cons_append, List.nil_append, readFrame,
    lengthOf_lengthBytes small, List.length_append, Nat.le_add_right, and_true, List.take_left,
    List.drop_left]

theorem readFrame_part (small : payload.length < 4294967296) (isPart : tail <+: frame payload)
    (proper : tail ≠ frame payload) : readFrame limit tail = none := by
  have shorter : tail.length < (frame payload).length :=
    lt_of_le_of_ne isPart.length_le fun same => proper (isPart.eq_of_length same)
  unfold readFrame
  split
  · obtain ⟨_, whole⟩ := isPart
    simp only [frame, lengthBytes, List.cons_append, List.nil_append, List.cons.injEq] at whole
    obtain ⟨rfl, rfl, rfl, rfl, _⟩ := whole
    simp only [lengthOf_lengthBytes small]
    simp only [frame, lengthBytes, List.length_cons, List.length_append, List.length_nil] at shorter
    rw [if_neg]
    rintro ⟨_, _, enough⟩
    omega
  · rfl

/-- What is read of whole frames and a part of one more are the payloads of the whole ones, from the
first on. -/
theorem readFrames_whole {payloads : List (List UInt8)}
    (small : ∀ payload ∈ payloads, payload.length < 4294967296)
    (noFrame : readFrame limit tail = none) (count : Nat) :
    readFrames limit count (payloads.flatMap frame ++ tail) <+: payloads := by
  induction count generalizing payloads with
  | zero => exact List.nil_prefix
  | succ _ ih =>
      cases payloads with
      | nil =>
          simp only [List.flatMap_nil, List.nil_append, readFrames, noFrame]
          exact List.prefix_refl _
      | cons payload =>
          rw [List.flatMap_cons, List.append_assoc, readFrames,
            readFrame_append (small payload List.mem_cons_self)]
          split
          next found =>
            split at found
            · cases found
              exact List.cons_prefix_cons.mpr
                ⟨rfl, ih fun other isOther => small other (List.mem_cons_of_mem _ isOther)⟩
            · cases found
          · exact List.nil_prefix

end CodeSpace.Data
