import CodeSpace.Data.Framing
import CodeSpace.Data.Source

namespace CodeSpace.Runner

open Data

/-! `write_frame` and `read_frame` of `crates/runner/src/wire.rs`, and the text of the envelopes they
carry. The operation, result, error and event of an envelope stand as their own JSON text. -/

/-- A JSON text, in bytes. -/
abbrev JsonText := List UInt8

namespace JsonText

def hexDigit (digit : Nat) : Char :=
  ("0123456789abcdef".toList)[digit]?.getD '0'

/-- A character of a string as `serde_json` writes it. -/
def escape (char : Char) : List UInt8 :=
  let escaped : List Char :=
    match char with
    | '"' => ['\\', '"']
    | '\\' => ['\\', '\\']
    | '\n' => ['\\', 'n']
    | '\r' => ['\\', 'r']
    | '\t' => ['\\', 't']
    | char =>
        if char.toNat = 8 then ['\\', 'b']
        else if char.toNat = 12 then ['\\', 'f']
        else if char.toNat < 32 then
          ['\\', 'u', '0', '0', hexDigit (char.toNat / 16), hexDigit (char.toNat % 16)]
        else [char]
  escaped.flatMap String.utf8EncodeChar

def string (text : String) : JsonText :=
  34 :: text.toList.flatMap escape ++ [34]

def number (value : Nat) : JsonText :=
  (Nat.toDigits 10 value).flatMap String.utf8EncodeChar

def bool (value : Bool) : JsonText :=
  (if value then "true" else "false").toList.flatMap String.utf8EncodeChar

def member (key : String) (value : JsonText) : JsonText :=
  string key ++ 58 :: value

def object (members : List JsonText) : JsonText :=
  123 :: List.intercalate [44] members ++ [125]

/-- A field that is left out when there is no value. -/
def optional {Value : Type} (key : String) (text : Value → JsonText) (value : Option Value) :
    List JsonText :=
  (value.map fun value => member key (text value)).toList

end JsonText

inductive WireKind
  | request
  | response
  | event
deriving DecidableEq, Repr

def WireKind.asStr : WireKind → String
  | .request => "request"
  | .response => "response"
  | .event => "event"

structure WireEnvelope where
  protocol : Nat
  kind : WireKind
  requestId : Option String := none
  epoch : Option Nat := none
  op : Option JsonText := none
  ok : Option Bool := none
  result : Option JsonText := none
  error : Option JsonText := none
  seq : Option Nat := none
  event : Option JsonText := none
deriving DecidableEq, Repr

def wireProtocol : Nat := 11

def maxFrameBytes : Nat := 16 * 1024 * 1024

namespace WireEnvelope

def ofRequest (requestId : String) (op : JsonText) : WireEnvelope :=
  { protocol := wireProtocol, kind := .request, requestId := some requestId, op := some op }

open JsonText in
/-- `serde_json::to_vec`. -/
def toVec (envelope : WireEnvelope) : JsonText :=
  object ([member "protocol" (number envelope.protocol), member "kind" (string envelope.kind.asStr)] ++
    optional "request_id" string envelope.requestId ++
    optional "epoch" number envelope.epoch ++
    optional "op" id envelope.op ++
    optional "ok" bool envelope.ok ++
    optional "result" id envelope.result ++
    optional "error" id envelope.error ++
    optional "seq" number envelope.seq ++
    optional "event" id envelope.event)

open JsonText in
def applyPatchOp (workspace patch : JsonText) (expectedVersions : List (String × String))
    (checkOnly : Bool) : JsonText :=
  object [member "op" (string "apply_patch"), member "data" (object [member "workspace" workspace,
      member "request" (object [member "patch" patch,
        member "expected_versions" (object (expectedVersions.map fun expected =>
          member expected.1 (string expected.2))),
        member "check_only" (bool checkOnly)])])]

/-- `write_frame` to a stream that accepts every byte. -/
def writeFrame (envelope : WireEnvelope) (written : List UInt8) : Except String (List UInt8) :=
  let payload := envelope.toVec
  if 4294967296 ≤ payload.length then .error "out of range integral type conversion attempted"
  else .ok (written ++ lengthBytes payload.length ++ payload)

def writeFrames (envelopes : List WireEnvelope) : Except String (List UInt8) :=
  envelopes.foldlM (fun written envelope => envelope.writeFrame written) []

end WireEnvelope

inductive FrameRead
  | frame (payload : List UInt8)
  | ended
  | failed (message : String)
deriving DecidableEq, Repr

namespace FrameRead

def fromBeBytes (header : List UInt8) : Nat :=
  header.foldl (fun value byte => value * 256 + byte.toNat) 0

/-- `read_frame`. -/
def next (source : Source UInt8) : FrameRead × Source UInt8 :=
  match source.readExact 4 with
  | (none, rest) => (.ended, rest)
  | (some header, rest) =>
      let length := fromBeBytes header
      if length = 0 ∨ maxFrameBytes < length then
        (.failed ("invalid runner frame length " ++ toString length), rest)
      else
        match rest.readExact length with
        | (none, rest) => (.failed "early eof", rest)
        | (some payload, rest) => (.frame payload, rest)

/-- The results of `read_frame` called again and again, until it returns no frame. -/
def all : Nat → Source UInt8 → List FrameRead
  | 0, _ => []
  | count + 1, source =>
      match next source with
      | (.frame payload, rest) => .frame payload :: all count rest
      | (last, _) => [last]

end FrameRead

variable {envelope : WireEnvelope} {envelopes : List WireEnvelope} {payload bytes written : List UInt8}

theorem WireEnvelope.toVec_ne_nil (envelope : WireEnvelope) : envelope.toVec ≠ [] := by
  simp [toVec, JsonText.object]

theorem FrameRead.fromBeBytes_lengthBytes {length : Nat} (small : length < 4294967296) :
    fromBeBytes (lengthBytes length) = length := by
  have bytes := lengthOf_lengthBytes small
  simpa [fromBeBytes, lengthBytes, lengthOf] using bytes

/-- The first frame of a stream, however its bytes come. -/
theorem FrameRead.next_append (small : payload.length < 4294967296) (rest : List UInt8)
    (sizes : List Nat) :
    ∃ later, next { pending := Data.frame payload ++ rest, sizes := sizes } =
      if payload.length = 0 ∨ maxFrameBytes < payload.length then
        (.failed ("invalid runner frame length " ++ toString payload.length),
          { pending := payload ++ rest, sizes := later })
      else (.frame payload, { pending := rest, sizes := later }) := by
  have header : Data.frame payload ++ rest = lengthBytes payload.length ++ (payload ++ rest) := by
    simp [Data.frame]
  have width : (lengthBytes payload.length).length = 4 := rfl
  obtain ⟨afterHeader, readsHeader⟩ :=
    Source.readExact_eq { pending := Data.frame payload ++ rest, sizes := sizes } 4
  rw [header] at readsHeader ⊢
  rw [if_pos (by simp [width]), List.take_left' width, List.drop_left' width] at readsHeader
  by_cases outside : payload.length = 0 ∨ maxFrameBytes < payload.length
  · refine ⟨afterHeader, ?_⟩
    simp only [next, readsHeader, fromBeBytes_lengthBytes small, outside, if_true]
  · obtain ⟨later, readsPayload⟩ :=
      Source.readExact_eq { pending := payload ++ rest, sizes := afterHeader } payload.length
    rw [if_pos (by simp), List.take_left, List.drop_left] at readsPayload
    refine ⟨later, ?_⟩
    simp only [next, readsHeader, fromBeBytes_lengthBytes small, outside, if_false, readsPayload]

theorem FrameRead.next_end (sizes : List Nat) :
    ∃ later, next { pending := [], sizes := sizes } = (.ended, { pending := [], sizes := later }) := by
  obtain ⟨later, reads⟩ := Source.readExact_eq ({ pending := [], sizes := sizes } : Source UInt8) 4
  refine ⟨later, ?_⟩
  simp only [next, reads]
  rfl

theorem WireEnvelope.writeFrame_eq_ok (wrote : envelope.writeFrame written = .ok bytes) :
    envelope.toVec.length < 4294967296 ∧ bytes = written ++ frame envelope.toVec := by
  simp only [writeFrame] at wrote
  split at wrote
  · cases wrote
  · cases wrote
    exact ⟨by omega, by simp [frame]⟩

/-- What is written are the frames, each with a length that fits its header. -/
theorem WireEnvelope.foldlM_writeFrame
    (wrote : envelopes.foldlM (fun written envelope => envelope.writeFrame written) written =
      Except.ok bytes) :
    bytes = written ++ (envelopes.map toVec).flatMap frame ∧
      ∀ envelope ∈ envelopes, envelope.toVec.length < 4294967296 := by
  induction envelopes generalizing written with
  | nil =>
      cases wrote
      simp
  | cons envelope _ ih =>
      rw [List.foldlM_cons] at wrote
      cases first : envelope.writeFrame written with
      | error =>
          rw [first] at wrote
          cases wrote
      | ok =>
          rw [first] at wrote
          obtain ⟨small, rfl⟩ := writeFrame_eq_ok first
          obtain ⟨rfl, smaller⟩ := ih wrote
          refine ⟨by simp, fun other isOther => ?_⟩
          rcases List.mem_cons.mp isOther with rfl | isLater
          · exact small
          · exact smaller other isLater

/-- A sequence of envelopes that are written is read back in order and then the stream ends, however
its bytes come, exactly where none is longer than `MAX_FRAME_BYTES`. -/
theorem written_frames_are_read_iff (wrote : WireEnvelope.writeFrames envelopes = .ok bytes)
    (sizes : List Nat) :
    FrameRead.all (envelopes.length + 1) { pending := bytes, sizes := sizes } =
        (envelopes.map fun envelope => .frame envelope.toVec) ++ [.ended] ↔
      ∀ envelope ∈ envelopes, envelope.toVec.length ≤ maxFrameBytes := by
  obtain ⟨rfl, small⟩ := WireEnvelope.foldlM_writeFrame wrote
  rw [List.nil_append]
  clear wrote
  induction envelopes generalizing sizes with
  | nil =>
      obtain ⟨later, ended⟩ := FrameRead.next_end sizes
      simp [FrameRead.all, ended]
  | cons envelope envelopes ih =>
      have positive : envelope.toVec.length ≠ 0 := by
        simpa using envelope.toVec_ne_nil
      obtain ⟨later, reads⟩ := FrameRead.next_append (small envelope List.mem_cons_self)
        ((envelopes.map WireEnvelope.toVec).flatMap frame) sizes
      simp only [List.length_cons, List.map_cons, List.flatMap_cons, List.cons_append]
      rw [FrameRead.all, reads, List.forall_mem_cons]
      by_cases within : envelope.toVec.length ≤ maxFrameBytes
      · rw [if_neg (by omega)]
        have continued := ih later fun other isOther => small other (List.mem_cons_of_mem _ isOther)
        simpa only [List.cons.injEq, true_and, within] using continued
      · rw [if_pos (.inr (by omega))]
        simp [within]

/-- Two small requests, whose bytes come one, three and two at a time first. -/
theorem two_requests_are_read :
    let hello := WireEnvelope.ofRequest "rrpc-1"
      (JsonText.object [JsonText.member "op" (JsonText.string "hello")])
    let stop := WireEnvelope.ofRequest "rrpc-2"
      (JsonText.object [JsonText.member "op" (JsonText.string "stop")])
    ∃ bytes, WireEnvelope.writeFrames [hello, stop] = .ok bytes ∧
      FrameRead.all 3 { pending := bytes, sizes := [0, 2, 1] } =
        [.frame hello.toVec, .frame stop.toVec, .ended] := by
  intro hello stop
  have wrote : WireEnvelope.writeFrames [hello, stop] = .ok (frame hello.toVec ++ frame stop.toVec) := by
    decide +kernel
  exact ⟨_, wrote, (written_frames_are_read_iff wrote [0, 2, 1]).mpr (by decide +kernel)⟩

/-- The length of an `apply_patch` request is that of its patch's text and a constant. -/
theorem WireEnvelope.length_applyPatch (requestId : String) (workspace patch : JsonText) :
    (ofRequest requestId (applyPatchOp workspace patch [] false)).toVec.length =
      (ofRequest requestId (applyPatchOp workspace [] [] false)).toVec.length + patch.length := by
  simp only [toVec, ofRequest, applyPatchOp, JsonText.object, JsonText.member, JsonText.optional,
    List.intercalate, List.intersperse, Option.map_some, Option.map_none, Option.toList_some,
    Option.toList_none, List.append_nil, List.cons_append, List.nil_append, List.flatten_cons,
    List.flatten_nil, List.map_nil, List.length_cons, List.length_append, List.length_nil, id]
  omega

theorem JsonText.length_string_replicate (count : Nat) :
    (string (String.ofList (List.replicate count 'a'))).length = count + 2 := by
  have plain : escape 'a' = [97] := by decide +kernel
  simp [string, List.flatMap_replicate, plain]

/-- A request to apply a patch of sixteen mebibytes is written and cannot be read. -/
theorem large_patch_is_not_read :
    ∃ (envelope : WireEnvelope) (workspace : JsonText) (patch : String) (bytes : List UInt8),
      envelope = .ofRequest "rrpc-1"
        (WireEnvelope.applyPatchOp workspace (JsonText.string patch) [] false) ∧
      WireEnvelope.writeFrames [envelope] = .ok bytes ∧
      ∀ sizes, ∃ message, FrameRead.all 2 { pending := bytes, sizes := sizes } = [.failed message] := by
  let workspace : JsonText := JsonText.object
    [JsonText.member "id" (JsonText.string "demo"), JsonText.member "root" (JsonText.string "/w"),
      JsonText.member "profile" (JsonText.string "workspace-write"),
      JsonText.member "environment_id" (JsonText.string "local"),
      JsonText.member "environment_kind" (JsonText.string "host"),
      JsonText.member "network" (JsonText.string "restricted"),
      JsonText.member "approvals" (JsonText.string "off")]
  let patch : String := String.ofList (List.replicate 16777216 'a')
  let envelope : WireEnvelope := .ofRequest "rrpc-1"
    (WireEnvelope.applyPatchOp workspace (JsonText.string patch) [] false)
  have rest : (WireEnvelope.ofRequest "rrpc-1"
      (WireEnvelope.applyPatchOp workspace [] [] false)).toVec.length < 1000 := by
    decide +kernel
  have length : envelope.toVec.length = _ := WireEnvelope.length_applyPatch "rrpc-1" workspace
    (JsonText.string patch)
  rw [JsonText.length_string_replicate] at length
  have small : envelope.toVec.length < 4294967296 := by omega
  have wrote : WireEnvelope.writeFrames [envelope] = .ok (frame envelope.toVec) := by
    simp only [WireEnvelope.writeFrames, List.foldlM_cons, List.foldlM_nil, WireEnvelope.writeFrame]
    rw [if_neg (by omega)]
    simp [frame]
  refine ⟨envelope, workspace, patch, _, rfl, wrote, fun sizes => ?_⟩
  obtain ⟨_, reads⟩ := FrameRead.next_append small [] sizes
  rw [if_pos (.inr (by unfold maxFrameBytes; omega)), List.append_nil] at reads
  exact ⟨_, by rw [FrameRead.all, reads]⟩

end CodeSpace.Runner
