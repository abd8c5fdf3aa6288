import Mathlib.Data.List.Basic

namespace CodeSpace.Data

/-! JSON values and codecs for them. A codec carries the proof that what it writes reads back, so a
value stored through one is the value that is loaded. -/

inductive Json
  | null
  | bool (value : Bool)
  | num (value : Nat)
  | str (value : String)
  | arr (items : List Json)
  | obj (fields : List (String × Json))
deriving Repr

namespace Json

def get? (json : Json) (name : String) : Option Json :=
  match json with
  | obj fields => (fields.find? fun field => field.1 = name).map Prod.snd
  | _ => none

@[simp]
theorem get?_append (left right : List (String × Json)) (name : String) :
    (obj (left ++ right)).get? name = ((obj left).get? name).or ((obj right).get? name) := by
  simp only [get?, List.find?_append]
  cases left.find? fun field => field.1 = name with
  | none => simp
  | some => simp

end Json

structure Codec (Value : Type*) where
  encode : Value → Json
  decode : Json → Option Value
  decode_encode : ∀ value, decode (encode value) = some value
  encode_ne_null : ∀ value, encode value ≠ .null

attribute [simp] Codec.decode_encode

namespace Codec

variable {Value : Type*}

def bool : Codec Bool where
  encode := .bool
  decode
    | .bool value => some value
    | _ => none
  decode_encode _ := rfl
  encode_ne_null _ := nofun

def nat : Codec Nat where
  encode := .num
  decode
    | .num value => some value
    | _ => none
  decode_encode _ := rfl
  encode_ne_null _ := nofun

def string : Codec String where
  encode := .str
  decode
    | .str value => some value
    | _ => none
  decode_encode _ := rfl
  encode_ne_null _ := nofun

def list (codec : Codec Value) : Codec (List Value) where
  encode values := .arr (values.map codec.encode)
  decode
    | .arr items => items.mapM codec.decode
    | _ => none
  decode_encode values := by
    induction values with
    | nil => rfl
    | cons _ _ ih =>
        simp only [List.map_cons, List.mapM_cons, codec.decode_encode] at ih ⊢
        rw [ih]
        rfl
  encode_ne_null _ := nofun

/-- A map with string keys, as its entries. -/
def map (codec : Codec Value) : Codec (List (String × Value)) where
  encode entries := .obj (entries.map fun entry => (entry.1, codec.encode entry.2))
  decode
    | .obj fields => fields.mapM fun field => (codec.decode field.2).map (field.1, ·)
    | _ => none
  decode_encode entries := by
    induction entries with
    | nil => rfl
    | cons _ _ ih =>
        simp only [List.map_cons, List.mapM_cons, codec.decode_encode] at ih ⊢
        rw [ih]
        rfl
  encode_ne_null _ := nofun

/-- The values of an enumeration by their names. -/
def enum (values : List Value) (name : Value → String)
    (named : ∀ value, values.find? (fun other => name other = name value) = some value) :
    Codec Value where
  encode value := .str (name value)
  decode
    | .str text => values.find? fun value => name value = text
    | _ => none
  decode_encode value := named value
  encode_ne_null _ := nofun

/-- The field of an object that is always written. -/
def required (codec : Codec Value) (name : String) (value : Value) : List (String × Json) :=
  [(name, codec.encode value)]

/-- The field of an object that is left out when there is no value. -/
def optional (codec : Codec Value) (name : String) : Option Value → List (String × Json)
  | some value => [(name, codec.encode value)]
  | none => []

/-- The field of an object that is `null` when there is no value. -/
def nullable (codec : Codec Value) (name : String) (value : Option Value) : List (String × Json) :=
  [(name, value.elim .null codec.encode)]

def read (codec : Codec Value) (name : String) (json : Json) : Option Value :=
  (json.get? name).bind codec.decode

/-- A missing field and `null` both read as no value. -/
def decodeOptional (codec : Codec Value) : Option Json → Option (Option Value)
  | none | some .null => some none
  | some json => (codec.decode json).map some

def readOptional (codec : Codec Value) (name : String) (json : Json) : Option (Option Value) :=
  codec.decodeOptional (json.get? name)

/-- A missing field reads as its default. -/
def readOr (codec : Codec Value) (name : String) (default : Value) (json : Json) : Option Value :=
  match json.get? name with
  | none => some default
  | some value => codec.decode value

variable (codec : Codec Value)

@[simp]
theorem get?_required (name : String) (value : Value) (wanted : String) :
    (Json.obj (codec.required name value)).get? wanted =
      if name = wanted then some (codec.encode value) else none := by
  by_cases same : name = wanted
  · simp [required, Json.get?, same]
  · simp [required, Json.get?, same]

@[simp]
theorem get?_optional (name : String) (value : Option Value) (wanted : String) :
    (Json.obj (codec.optional name value)).get? wanted =
      if name = wanted then value.map codec.encode else none := by
  cases value with
  | none => simp [optional, Json.get?]
  | some value => exact codec.get?_required name value wanted

@[simp]
theorem get?_nullable (name : String) (value : Option Value) (wanted : String) :
    (Json.obj (codec.nullable name value)).get? wanted =
      if name = wanted then some (value.elim .null codec.encode) else none := by
  by_cases same : name = wanted
  · simp [nullable, Json.get?, same]
  · simp [nullable, Json.get?, same]

theorem decodeOptional_encode (value : Value) :
    codec.decodeOptional (some (codec.encode value)) = some (some value) := by
  have decoded := codec.decode_encode value
  have filled := codec.encode_ne_null value
  cases encoded : codec.encode value with
  | null => contradiction
  | _ =>
      rw [encoded] at decoded
      simp [decodeOptional, decoded]

@[simp]
theorem decodeOptional_map (value : Option Value) :
    codec.decodeOptional (value.map codec.encode) = some value := by
  cases value with
  | none => rfl
  | some value => exact codec.decodeOptional_encode value

@[simp]
theorem decodeOptional_elim (value : Option Value) :
    codec.decodeOptional (some (value.elim .null codec.encode)) = some value := by
  cases value with
  | none => rfl
  | some value => exact codec.decodeOptional_encode value

end Codec

end CodeSpace.Data
