import Mathlib.Data.List.Induction

namespace CodeSpace.Data

/-! UTF-8 as a lossy decoder reads it. A sequence of bytes that begins a character and does not go on
as one is replaced as a whole, up to the byte that does not fit, which is then read anew. -/

namespace Utf8

def replacement : Char := Char.ofNat 0xFFFD

/-- The number of bytes of the character that begins with this one, or zero where none does. -/
def width (first : UInt8) : Nat :=
  if first.toNat < 0x80 then 1
  else if first.toNat < 0xC2 then 0
  else if first.toNat < 0xE0 then 2
  else if first.toNat < 0xF0 then 3
  else if first.toNat < 0xF5 then 4
  else 0

def isContinuation (byte : UInt8) : Bool :=
  0x80 ≤ byte.toNat && byte.toNat < 0xC0

/-- The second byte rules out overlong forms, surrogates and what lies past the last character. -/
def fitsSecond (first second : UInt8) : Bool :=
  if first.toNat = 0xE0 then 0xA0 ≤ second.toNat && second.toNat < 0xC0
  else if first.toNat = 0xED then 0x80 ≤ second.toNat && second.toNat < 0xA0
  else if first.toNat = 0xF0 then 0x90 ≤ second.toNat && second.toNat < 0xC0
  else if first.toNat = 0xF4 then 0x80 ≤ second.toNat && second.toNat < 0x90
  else isContinuation second

/-- A byte goes on with the character that these have begun. -/
def goesOn (first : UInt8) (more : List UInt8) (byte : UInt8) : Bool :=
  if more.isEmpty then fitsSecond first byte else isContinuation byte

/-- The character of a whole sequence. -/
def character : List UInt8 → Char
  | [first] => Char.ofNat first.toNat
  | [first, second] => Char.ofNat ((first.toNat - 0xC0) * 64 + (second.toNat - 0x80))
  | [first, second, third] =>
      Char.ofNat (((first.toNat - 0xE0) * 64 + (second.toNat - 0x80)) * 64 + (third.toNat - 0x80))
  | [first, second, third, fourth] =>
      Char.ofNat ((((first.toNat - 0xF0) * 64 + (second.toNat - 0x80)) * 64 +
        (third.toNat - 0x80)) * 64 + (fourth.toNat - 0x80))
  | _ => replacement

/-- The text so far, and the bytes of a character that is not whole yet. -/
structure Decoder where
  text : List Char := []
  pending : List UInt8 := []
deriving DecidableEq, Repr

namespace Decoder

/-- A byte read as a first one. -/
def begin (text : List Char) (byte : UInt8) : Decoder :=
  match width byte with
  | 0 => { text := text ++ [replacement] }
  | 1 => { text := text ++ [character [byte]] }
  | _ => { text := text, pending := [byte] }

def step (decoder : Decoder) (byte : UInt8) : Decoder :=
  match decoder.pending with
  | [] => begin decoder.text byte
  | first :: more =>
      if goesOn first more byte then
        let bytes := first :: (more ++ [byte])
        if bytes.length = width first then { text := decoder.text ++ [character bytes] }
        else { text := decoder.text, pending := bytes }
      else begin (decoder.text ++ [replacement]) byte

def finish (decoder : Decoder) : List Char :=
  if decoder.pending.isEmpty then decoder.text else decoder.text ++ [replacement]

end Decoder

def decodeLossy (bytes : List UInt8) : List Char :=
  (bytes.foldl Decoder.step {}).finish

/-- The first byte on the right goes on with a character that the left has begun. -/
def splits (left right : List UInt8) : Bool :=
  match (left.foldl Decoder.step {}).pending, right with
  | first :: more, byte :: _ => goesOn first more byte
  | _, _ => false

variable {left right : List UInt8}

namespace Decoder

theorem begin_append (byte : UInt8) (text later : List Char) : begin (text ++ later) byte =
      { text := text ++ (begin later byte).text, pending := (begin later byte).pending } := by
  unfold begin
  split <;> simp

theorem step_append (text : List Char) (decoder : Decoder) (byte : UInt8) :
    step { text := text ++ decoder.text, pending := decoder.pending } byte =
      { text := text ++ (decoder.step byte).text, pending := (decoder.step byte).pending } := by
  obtain ⟨later, pending⟩ := decoder
  cases pending with
  | nil => exact begin_append byte text later
  | cons =>
      simp only [step]
      split
      · split
        · simp
        · rfl
      · rw [List.append_assoc]
        exact begin_append byte text _

theorem foldl_append (text : List Char) (decoder : Decoder) (bytes : List UInt8) :
    bytes.foldl step { text := text ++ decoder.text, pending := decoder.pending } =
      { text := text ++ (bytes.foldl step decoder).text
        pending := (bytes.foldl step decoder).pending } := by
  induction bytes generalizing decoder with
  | nil => rfl
  | cons byte _ ih =>
      rw [List.foldl_cons, List.foldl_cons, step_append]
      exact ih (decoder.step byte)

theorem finish_append (text : List Char) (decoder : Decoder) :
    finish { text := text ++ decoder.text, pending := decoder.pending } = text ++ decoder.finish := by
  unfold finish
  split <;> simp

theorem finish_foldl (text : List Char) (bytes : List UInt8) :
    (bytes.foldl step { text := text }).finish = text ++ decodeLossy bytes := by
  have continued := foldl_append text {} bytes
  rw [List.append_nil] at continued
  rw [continued]
  exact finish_append _ _

theorem width_of_goesOn {first byte : UInt8} {more : List UInt8}
    (continues : goesOn first more byte = true) : width byte = 0 := by
  have isIn : 0x80 ≤ byte.toNat ∧ byte.toNat < 0xC0 := by
    unfold goesOn fitsSecond isContinuation at continues
    split_ifs at continues
    all_goals
      simp only [Bool.and_eq_true, decide_eq_true_eq] at continues
      omega
  unfold width
  rw [if_neg (by omega), if_pos (by omega)]

/-- A byte that does not go on with a character is read as after its replacement. -/
theorem step_of_not_goesOn {first byte : UInt8} {more : List UInt8} (text : List Char)
    (refused : goesOn first more byte = false) :
    step { text := text, pending := first :: more } byte =
      step { text := text ++ [replacement] } byte := by
  simp [step, refused]

theorem decodeLossy_cons_of_width {byte : UInt8} (none : width byte = 0) (bytes : List UInt8) :
    decodeLossy (byte :: bytes) = replacement :: decodeLossy bytes := by
  have replaced : step {} byte = { text := [replacement] } := by
    simp [step, begin, none]
  rw [decodeLossy, List.foldl_cons, replaced]
  exact finish_foldl [replacement] bytes

/-- A character that is begun adds at most one to what the bytes after it give. -/
theorem length_finish_le (text : List Char) (first : UInt8) (more bytes : List UInt8) :
    (bytes.foldl step { text := text, pending := first :: more }).finish.length ≤
      text.length + (decodeLossy bytes).length + 1 := by
  induction bytes generalizing more with
  | nil => simp [finish, decodeLossy]
  | cons byte _ ih =>
      rw [List.foldl_cons]
      by_cases continues : goesOn first more byte = true
      · rw [decodeLossy_cons_of_width (width_of_goesOn continues), List.length_cons]
        simp only [step, continues, if_true]
        split
        · rw [finish_foldl, List.length_append, List.length_append, List.length_singleton]
          omega
        · exact Nat.le_succ_of_le (ih (more ++ [byte]))
      · rw [step_of_not_goesOn text (by simpa using continues), ← List.foldl_cons, finish_foldl,
          List.length_append, List.length_append, List.length_singleton]
        omega

end Decoder

/-- Texts decode one after the other where no character is split between them. -/
theorem decodeLossy_append (joined : splits left right = false) :
    decodeLossy (left ++ right) = decodeLossy left ++ decodeLossy right := by
  rw [← Decoder.finish_foldl, decodeLossy, decodeLossy, List.foldl_append]
  unfold splits at joined
  generalize left.foldl Decoder.step {} = decoder at joined ⊢
  obtain ⟨text, pending⟩ := decoder
  match pending, right, joined with
  | [], _, _ => rfl
  | first :: more, [], _ => rfl
  | first :: more, byte :: bytes, refused =>
      rw [List.foldl_cons, Decoder.step_of_not_goesOn text refused]
      rfl

/-- A character that is split is replaced at least twice. -/
theorem length_decodeLossy_lt (split : splits left right = true) :
    (decodeLossy (left ++ right)).length < (decodeLossy left).length + (decodeLossy right).length := by
  rw [decodeLossy, decodeLossy, List.foldl_append]
  unfold splits at split
  generalize left.foldl Decoder.step {} = decoder at split ⊢
  obtain ⟨text, pending⟩ := decoder
  match pending, right, split with
  | first :: more, byte :: bytes, continues =>
      change goesOn first more byte = true at continues
      have replaced : (Decoder.finish { text := text, pending := first :: more }).length =
          text.length + 1 := List.length_append
      rw [replaced, Decoder.decodeLossy_cons_of_width (Decoder.width_of_goesOn continues),
        List.length_cons, List.foldl_cons]
      simp only [Decoder.step, continues, if_true]
      split
      · rw [Decoder.finish_foldl, List.length_append, List.length_append, List.length_singleton]
        omega
      · have atMost := Decoder.length_finish_le text first (more ++ [byte]) bytes
        omega

theorem length_decodeLossy_append_le (left right : List UInt8) :
    (decodeLossy (left ++ right)).length ≤ (decodeLossy left).length + (decodeLossy right).length := by
  by_cases split : splits left right = true
  · exact Nat.le_of_lt (length_decodeLossy_lt split)
  · have joined := congrArg List.length (decodeLossy_append (by simpa using split))
    exact Nat.le_of_eq (joined.trans List.length_append)

theorem length_decodeLossy_flatten_le (parts : List (List UInt8)) :
    (decodeLossy parts.flatten).length ≤ (parts.flatMap decodeLossy).length := by
  induction parts with
  | nil => exact Nat.le_refl _
  | cons part parts =>
      have atMost := length_decodeLossy_append_le part parts.flatten
      rw [List.flatten_cons, List.flatMap_cons, List.length_append]
      omega

theorem splits_of_append (later : List UInt8) (split : splits left right = true) :
    splits left (right ++ later) = true := by
  unfold splits at split ⊢
  match (left.foldl Decoder.step {}).pending, right, split with
  | first :: more, byte :: bytes, continues => exact continues

/-- Parts decode one by one exactly where no cut between them splits a character. -/
theorem flatMap_decodeLossy_iff {parts : List (List UInt8)} :
    parts.flatMap decodeLossy = decodeLossy parts.flatten ↔
      ∀ before after, parts = before ++ after → splits before.flatten after.flatten = false := by
  constructor
  · rintro same before after rfl
    by_contra split
    have less := length_decodeLossy_lt (by simpa using split)
    have first := length_decodeLossy_flatten_le before
    have second := length_decodeLossy_flatten_le after
    rw [← List.flatten_append, ← same, List.flatMap_append, List.length_append] at less
    omega
  · intro joined
    induction parts using List.reverseRecOn with
    | nil => rfl
    | append_singleton parts last ih =>
        have here := joined parts [last] rfl
        have earlier (before after : List (List UInt8)) (isCut : parts = before ++ after) :
            splits before.flatten after.flatten = false := by
          by_contra split
          have later := joined before (after ++ [last]) (by rw [isCut, List.append_assoc])
          rw [List.flatten_append, splits_of_append _ (by simpa using split)] at later
          contradiction
        rw [List.flatten_append, decodeLossy_append here, List.flatMap_append, ih earlier,
          List.flatMap_singleton, List.flatten_singleton]

section Sequences

variable {first second third fourth : UInt8}

namespace Decoder

theorem step_first (text : List Char) (several : 2 ≤ width first) :
    step { text := text } first = { text := text, pending := [first] } := by
  simp only [step, begin]
  split
  · omega
  · omega
  · rfl

theorem foldl_two (text : List Char) (isWidth : width first = 2) (fits : fitsSecond first second = true) :
    [first, second].foldl step { text := text } = { text := text ++ [character [first, second]] } := by
  rw [List.foldl_cons, step_first text (by omega)]
  simp [step, goesOn, fits, isWidth]

theorem foldl_three (text : List Char) (isWidth : width first = 3)
    (fits : fitsSecond first second = true) (continues : isContinuation third = true) :
    [first, second, third].foldl step { text := text } =
      { text := text ++ [character [first, second, third]] } := by
  rw [List.foldl_cons, step_first text (by omega)]
  simp [step, goesOn, fits, continues, isWidth]

theorem foldl_four (text : List Char) (isWidth : width first = 4)
    (fits : fitsSecond first second = true) (continues : isContinuation third = true)
    (continuesToo : isContinuation fourth = true) :
    [first, second, third, fourth].foldl step { text := text } =
      { text := text ++ [character [first, second, third, fourth]] } := by
  rw [List.foldl_cons, step_first text (by omega)]
  simp [step, goesOn, fits, continues, continuesToo, isWidth]

end Decoder

end Sequences

theorem toNat_ofNat_small {value : Nat} (small : value < 256) : (UInt8.ofNat value).toNat = value := by
  rw [UInt8.toNat_ofNat']
  omega

theorem isContinuation_ofNat (value : Nat) : isContinuation (UInt8.ofNat (value % 64 + 128)) = true := by
  simp only [isContinuation, toNat_ofNat_small (show value % 64 + 128 < 256 by omega),
    Bool.and_eq_true, decide_eq_true_eq]
  omega

theorem foldl_encodeChar (text : List Char) (char : Char) :
    (String.utf8EncodeChar char).foldl Decoder.step { text := text } = { text := text ++ [char] } := by
  have back : Char.ofNat char.val.toNat = char := Char.ofNat_toNat char
  have valid : char.val.toNat < 0xD800 ∨ 0xDFFF < char.val.toNat ∧ char.val.toNat < 0x110000 := char.valid
  simp only [String.utf8EncodeChar]
  generalize char.val.toNat = value at back valid
  split
  · have isValue : (UInt8.ofNat value).toNat = value := toNat_ofNat_small (by omega)
    have isWidth : width (UInt8.ofNat value) = 1 := by
      simp only [width, isValue]
      rw [if_pos (by omega)]
    simp [Decoder.step, Decoder.begin, isWidth, character, isValue, back]
  next =>
  split
  · have isFirst : (UInt8.ofNat (value / 64 % 32 + 192)).toNat = value / 64 + 192 := by
      rw [toNat_ofNat_small (by omega)]
      omega
    have isSecond : (UInt8.ofNat (value % 64 + 128)).toNat = value % 64 + 128 :=
      toNat_ofNat_small (by omega)
    rw [Decoder.foldl_two text]
    · simp only [character, isFirst, isSecond]
      rw [show (value / 64 + 192 - 192) * 64 + (value % 64 + 128 - 128) = value by omega, back]
    · simp only [width, isFirst]
      rw [if_neg (by omega), if_neg (by omega), if_pos (by omega)]
    · simp only [fitsSecond, isFirst]
      rw [if_neg (by omega), if_neg (by omega), if_neg (by omega), if_neg (by omega)]
      exact isContinuation_ofNat value
  next =>
  split
  · have isFirst : (UInt8.ofNat (value / 4096 % 16 + 224)).toNat = value / 4096 + 224 := by
      rw [toNat_ofNat_small (by omega)]
      omega
    have isSecond : (UInt8.ofNat (value / 64 % 64 + 128)).toNat = value / 64 % 64 + 128 :=
      toNat_ofNat_small (by omega)
    have isThird : (UInt8.ofNat (value % 64 + 128)).toNat = value % 64 + 128 :=
      toNat_ofNat_small (by omega)
    rw [Decoder.foldl_three text]
    · simp only [character, isFirst, isSecond, isThird]
      rw [show ((value / 4096 + 224 - 224) * 64 + (value / 64 % 64 + 128 - 128)) * 64 +
        (value % 64 + 128 - 128) = value by omega, back]
    · simp only [width, isFirst]
      rw [if_neg (by omega), if_neg (by omega), if_neg (by omega), if_pos (by omega)]
    · have continues := isContinuation_ofNat (value / 64)
      simp only [fitsSecond, isContinuation, isFirst, isSecond, Bool.and_eq_true,
        decide_eq_true_eq] at continues ⊢
      split
      · simp only [Bool.and_eq_true, decide_eq_true_eq]
        omega
      · split
        · simp only [Bool.and_eq_true, decide_eq_true_eq]
          omega
        · rw [if_neg (by omega), if_neg (by omega)]
          simpa using continues
    · exact isContinuation_ofNat value
  · have isFirst : (UInt8.ofNat (value / 262144 % 8 + 240)).toNat = value / 262144 + 240 := by
      rw [toNat_ofNat_small (by omega)]
      omega
    have isSecond : (UInt8.ofNat (value / 4096 % 64 + 128)).toNat = value / 4096 % 64 + 128 :=
      toNat_ofNat_small (by omega)
    have isThird : (UInt8.ofNat (value / 64 % 64 + 128)).toNat = value / 64 % 64 + 128 :=
      toNat_ofNat_small (by omega)
    have isFourth : (UInt8.ofNat (value % 64 + 128)).toNat = value % 64 + 128 :=
      toNat_ofNat_small (by omega)
    rw [Decoder.foldl_four text]
    · simp only [character, isFirst, isSecond, isThird, isFourth]
      rw [show (((value / 262144 + 240 - 240) * 64 + (value / 4096 % 64 + 128 - 128)) * 64 +
        (value / 64 % 64 + 128 - 128)) * 64 + (value % 64 + 128 - 128) = value by omega, back]
    · simp only [width, isFirst]
      rw [if_neg (by omega), if_neg (by omega), if_neg (by omega), if_neg (by omega), if_pos (by omega)]
    · have continues := isContinuation_ofNat (value / 4096)
      simp only [fitsSecond, isContinuation, isFirst, isSecond, Bool.and_eq_true,
        decide_eq_true_eq] at continues ⊢
      rw [if_neg (by omega), if_neg (by omega)]
      split
      · simp only [Bool.and_eq_true, decide_eq_true_eq]
        omega
      · split
        · simp only [Bool.and_eq_true, decide_eq_true_eq]
          omega
        · simpa using continues
    · exact isContinuation_ofNat (value / 64)
    · exact isContinuation_ofNat value

theorem foldl_encode (text chars : List Char) :
    (chars.flatMap String.utf8EncodeChar).foldl Decoder.step { text := text } =
      { text := text ++ chars } := by
  induction chars generalizing text with
  | nil => simp
  | cons _ _ ih =>
      rw [List.flatMap_cons, List.foldl_append, foldl_encodeChar, ih, List.append_assoc]
      rfl

/-- Valid UTF-8 is read unchanged. -/
theorem decodeLossy_encode (chars : List Char) :
    decodeLossy (chars.flatMap String.utf8EncodeChar) = chars := by
  rw [decodeLossy, foldl_encode [] chars]
  rfl

end Utf8

end CodeSpace.Data
