import Qaas.Serde.Shape
import Qaas.Types.Ids
import Qaas.Wal.Frame

/-! The envelope around a message, and its wire format. -/

namespace Qaas

open Serde

/-- The version that an envelope is encoded with. -/
structure SchemaVersion where
  major : UInt16
  minor : UInt16
  deriving DecidableEq, Repr

/-- The version that this build writes and expects to read. -/
def SchemaVersion.current : SchemaVersion :=
  ⟨1, 0⟩

/-- Whether a reader on one version can interpret an envelope of another. -/
def SchemaVersion.isCompatibleWith (version other : SchemaVersion) : Bool :=
  version.major == other.major

/-- The fields of a version. -/
inductive VersionField where
  | major
  | minor
  deriving DecidableEq

/-- How a version is read. -/
def SchemaVersion.shape : Shape VersionField where
  Value _ := UInt16
  fields := [.major, .minor]
  name
    | .major => "major"
    | .minor => "minor"
  decoder _ := (Decoder.unsigned UInt16.size).newtype UInt16.ofNat
  nodup := by decide
  complete field := by cases field <;> decide
  name_injective field other same := by cases field <;> cases other <;> first | rfl | simp at same

/-- A version is read from its fields. -/
def SchemaVersion.decoder : Decoder SchemaVersion where
  decode json := do
    let slots ← shape.visit json
    let major ← shape.take slots .major
    let minor ← shape.take slots .minor
    return ⟨major, minor⟩

/-- The document of each field of a version. -/
def SchemaVersion.field (version : SchemaVersion) : VersionField → Json
  | .major => .integer version.major.toNat
  | .minor => .integer version.minor.toNat

/-- The document of a version. -/
def SchemaVersion.toJson (version : SchemaVersion) : Json :=
  .object (shape.written version.field)

/-- The envelope that every message carries, around a payload. -/
structure Envelope (T : Type) where
  version : SchemaVersion
  id : MessageId
  createdAt : Timestamp
  idempotencyKey : Option IdempotencyKey
  traceId : Option TraceId
  headers : Finmap fun _ : String => String
  payload : T

/-- An error encoding or decoding an envelope. -/
inductive EnvelopeError where
  | incompatibleVersion (found current : SchemaVersion)
  | serialize (error : JsonError)
  | deserialize (error : JsonError)
  deriving DecidableEq

/-- What the envelope is written and read with: the text of JSON documents, the payload's own code,
and the reader of UUIDs. -/
structure WireFormat (T : Type) where
  toVec : Json → Except JsonError Bytes
  fromSlice : Bytes → Except JsonError Json
  parseUuid : String → Option (BitVec 128)
  encode : T → Except JsonError Json
  payload : Decoder T

variable {T : Type}

/-- What is written is read back: the text of a document, a UUID in its hyphenated form, and a
payload. -/
structure WireFormat.RoundTrips (wire : WireFormat T) : Prop where
  text : ∀ json bytes, wire.toVec json = .ok bytes → wire.fromSlice bytes = .ok json
  uuid : ∀ id : MessageId, wire.parseUuid id.display = some id.uuid
  payload : ∀ payload json, wire.encode payload = .ok json → wire.payload.decode json = .ok payload

/-- A UUID is read from a text. -/
def WireFormat.uuid (wire : WireFormat T) : Decoder (BitVec 128) where
  decode
    | .string text => (wire.parseUuid text).elim (.error (.custom "UUID parsing failed")) .ok
    | _ => .error .invalidType

/-- The fields of an envelope. -/
inductive EnvelopeField where
  | version
  | id
  | createdAt
  | idempotencyKey
  | traceId
  | headers
  | payload
  deriving DecidableEq

/-- How an envelope is read. -/
def Envelope.shape (wire : WireFormat T) : Shape EnvelopeField where
  Value
    | .version => SchemaVersion
    | .id => MessageId
    | .createdAt => Timestamp
    | .idempotencyKey => Option IdempotencyKey
    | .traceId => Option TraceId
    | .headers => Finmap fun _ : String => String
    | .payload => T
  fields := [.version, .id, .createdAt, .idempotencyKey, .traceId, .headers, .payload]
  name
    | .version => "version"
    | .id => "id"
    | .createdAt => "created_at"
    | .idempotencyKey => "idempotency_key"
    | .traceId => "trace_id"
    | .headers => "headers"
    | .payload => "payload"
  decoder
    | .version => SchemaVersion.decoder
    | .id => wire.uuid.newtype .mk
    | .createdAt => (Decoder.unsigned UInt64.size).newtype fun millis => ⟨UInt64.ofNat millis⟩
    -- The key is taken as it is, without the check of its constructor.
    | .idempotencyKey => (Decoder.text.newtype .mk).option
    | .traceId => (wire.uuid.newtype .mk).option
    | .headers => .strings
    | .payload => wire.payload
  nodup := by decide
  complete field := by cases field <;> decide
  name_injective field other same := by cases field <;> cases other <;> first | rfl | simp at same

/-- An envelope is read from its fields. -/
def Envelope.decode (wire : WireFormat T) (json : Json) : Except JsonError (Envelope T) := do
  let slots ← (shape wire).visit json
  let version ← (shape wire).take slots .version
  let id ← (shape wire).take slots .id
  let createdAt ← (shape wire).take slots .createdAt
  let idempotencyKey ← (shape wire).take slots .idempotencyKey
  let traceId ← (shape wire).take slots .traceId
  let headers ← (shape wire).take slots .headers
  let payload ← (shape wire).take slots .payload
  return ⟨version, id, createdAt, idempotencyKey, traceId, headers, payload⟩

/-- The document of each field of an envelope, given that of the payload. -/
def Envelope.field (envelope : Envelope T) (payload : Json) : EnvelopeField → Json
  | .version => envelope.version.toJson
  | .id => .string envelope.id.display
  | .createdAt => .integer envelope.createdAt.millis.toNat
  | .idempotencyKey => (envelope.idempotencyKey.map fun key => Json.string key.key).getD .null
  | .traceId => (envelope.traceId.map fun id => Json.string id.display).getD .null
  | .headers => strings envelope.headers
  | .payload => payload

/-- Encode an envelope as JSON. -/
def Envelope.toJson (wire : WireFormat T) (envelope : Envelope T) : Except EnvelopeError Bytes :=
  ((wire.encode envelope.payload).bind fun payload =>
    wire.toVec (.object ((shape wire).written (envelope.field payload)))).mapError .serialize

/-- Decode an envelope from JSON, and reject it when its version is not compatible with the current
one. -/
def Envelope.fromJson (wire : WireFormat T) (bytes : Bytes) : Except EnvelopeError (Envelope T) := do
  let envelope ← ((wire.fromSlice bytes).bind (decode wire)).mapError .deserialize
  if SchemaVersion.current.isCompatibleWith envelope.version then return envelope
  else throw (.incompatibleVersion envelope.version .current)

/-- What each field of a version holds. -/
def SchemaVersion.value (version : SchemaVersion) : (field : VersionField) → shape.Value field
  | .major => version.major
  | .minor => version.minor

/-- A version whose fields have been read. -/
theorem SchemaVersion.decode_of_visit {json : Json} {version : SchemaVersion}
    (visited : shape.visit json = .ok fun field => some (version.value field)) :
    decoder.decode json = .ok version := by
  simp only [decoder, visited, bind, Except.bind, Shape.take_some]
  rfl

/-- A number of a version is read back. -/
theorem decode_version_number (number : UInt16) :
    ((Decoder.unsigned UInt16.size).newtype UInt16.ofNat).decode (.integer number.toNat) = .ok number := by
  have read := Decoder.decode_newtype UInt16.ofNat (Decoder.decode_unsigned number.toNat_lt_size)
  rw [UInt16.ofNat_toNat] at read
  exact read

/-- A version is read back. -/
theorem SchemaVersion.decode_toJson (version : SchemaVersion) :
    decoder.decode version.toJson = .ok version := by
  refine decode_of_visit (shape.visit_object (fun field => ?_) (.of_eq (shape.filter_written version.field)))
  cases field with
  | major => exact decode_version_number version.major
  | minor => exact decode_version_number version.minor

/-- What each field of an envelope holds. -/
def Envelope.value (wire : WireFormat T) (envelope : Envelope T) :
    (field : EnvelopeField) → (shape wire).Value field
  | .version => envelope.version
  | .id => envelope.id
  | .createdAt => envelope.createdAt
  | .idempotencyKey => envelope.idempotencyKey
  | .traceId => envelope.traceId
  | .headers => envelope.headers
  | .payload => envelope.payload

variable {wire : WireFormat T}

/-- An envelope whose fields have been read. -/
theorem Envelope.decode_of_visit {json : Json} {envelope : Envelope T}
    (visited : (shape wire).visit json = .ok fun field => some (envelope.value wire field)) :
    decode wire json = .ok envelope := by
  simp only [decode, visited, bind, Except.bind, Shape.take_some]
  rfl

/-- A UUID is read back from its hyphenated form. -/
theorem WireFormat.decode_uuid (trips : wire.RoundTrips) (id : MessageId) :
    wire.uuid.decode (.string id.display) = .ok id.uuid := by
  simp [uuid, trips.uuid id]

/-- Each field of an envelope is read back. -/
theorem Envelope.decode_field (trips : wire.RoundTrips) (envelope : Envelope T) {payload : Json}
    (encoded : wire.encode envelope.payload = .ok payload) (field : EnvelopeField) :
    ((shape wire).decoder field).decode (envelope.field payload field) =
      .ok (envelope.value wire field) := by
  cases field with
  | version => exact envelope.version.decode_toJson
  | id => exact Decoder.decode_newtype MessageId.mk (wire.decode_uuid trips envelope.id)
  | createdAt =>
    have read := Decoder.decode_newtype (fun millis => Timestamp.mk (UInt64.ofNat millis))
      (Decoder.decode_unsigned envelope.createdAt.millis.toNat_lt_size)
    rw [UInt64.ofNat_toNat] at read
    exact read
  | idempotencyKey =>
    -- A key that is not there is written as `null`.
    cases key : envelope.idempotencyKey with
    | none => simp only [Envelope.field, value, key]; rfl
    | some key => simp only [Envelope.field, value, key]; rfl
  | traceId =>
    cases trace : envelope.traceId with
    | none => simp only [Envelope.field, value, trace]; rfl
    | some id =>
      have read := Decoder.decode_newtype TraceId.mk (wire.decode_uuid trips ⟨id.uuid⟩)
      simp only [Envelope.field, value, trace]
      exact Decoder.decode_option read (by simp)
  -- The map is written in the order of its keys, which its readers do not rely on.
  | headers => exact Decoder.decode_strings envelope.headers
  | payload => exact trips.payload _ _ encoded

/-- What decoding the fields of an envelope answers, in any order and among fields of other names. -/
theorem Envelope.fromJson_of_fields (trips : wire.RoundTrips) (envelope : Envelope T) {payload : Json}
    (encoded : wire.encode envelope.payload = .ok payload) {given : List (String × Json)} {bytes : Bytes}
    (same : (given.filter fun entry => entry.1 ∈ (shape wire).names).Perm
      ((shape wire).written (envelope.field payload)))
    (text : wire.fromSlice bytes = .ok (.object given)) :
    fromJson wire bytes =
      if envelope.version.major = SchemaVersion.current.major then .ok envelope
      else .error (.incompatibleVersion envelope.version .current) := by
  -- The document is read as the envelope, and only the version is left to be checked.
  have read : ((wire.fromSlice bytes).bind (decode wire)).mapError EnvelopeError.deserialize =
      .ok envelope := by
    rw [text, Except.bind,
      decode_of_visit ((shape wire).visit_object (envelope.decode_field trips encoded) same)]
    rfl
  rw [fromJson, read]
  simp only [bind, Except.bind, SchemaVersion.isCompatibleWith, beq_iff_eq,
    eq_comm (a := SchemaVersion.current.major)]
  rfl

/-- An envelope is read back from its text when its version is one that this build reads, and is
refused for its version otherwise; fields of names that this build does not know make no difference,
wherever they stand. -/
theorem Envelope.fromJson_toJson (trips : wire.RoundTrips) (envelope : Envelope T) {bytes : Bytes}
    (encoded : envelope.toJson wire = .ok bytes) :
    (fromJson wire bytes =
      if envelope.version.major = SchemaVersion.current.major then .ok envelope
      else .error (.incompatibleVersion envelope.version .current)) ∧
    ∃ fields, wire.fromSlice bytes = .ok (.object fields) ∧
      ∀ extended longer, (extended.filter fun entry => entry.1 ∈ (shape wire).names).Perm fields →
        wire.fromSlice longer = .ok (.object extended) → fromJson wire longer = fromJson wire bytes := by
  -- The payload is encoded before the envelope is written.
  unfold toJson at encoded
  cases payload : wire.encode envelope.payload with
  | error error => rw [payload] at encoded; cases encoded
  | ok json =>
    rw [payload] at encoded
    have written : wire.toVec (.object ((shape wire).written (envelope.field json))) = .ok bytes := by
      cases text : wire.toVec (.object ((shape wire).written (envelope.field json))) with
      | error error => simp [Except.bind, text, Except.mapError] at encoded
      | ok written => simpa [Except.bind, text, Except.mapError] using encoded
    have text := trips.text _ _ written
    -- What is written has no other names, and what is extended has the same fields among others.
    have own := envelope.fromJson_of_fields trips payload (.of_eq ((shape wire).filter_written _)) text
    refine ⟨own, _, text, fun extended longer same read => ?_⟩
    rw [own, envelope.fromJson_of_fields trips payload same read]

/-- What a hexadecimal digit counts for. -/
def digitValue (digit : Char) : Nat :=
  if digit.isDigit then digit.toNat - 48 else digit.toNat - 87

/-- The number that digits stand for, after what has been read already. -/
def readDigits (read : Nat) (digits : List Char) : Nat :=
  digits.foldl (fun value digit => value * 16 + digitValue digit) read

/-- Whether a character is a lower-case hexadecimal digit. -/
def isHexDigit (digit : Char) : Bool :=
  digit.isDigit || ('a' ≤ digit && digit ≤ 'f')

/-- Read a UUID in its hyphenated form. -/
def parseHyphenated (text : String) : Option (BitVec 128) :=
  let digits := text.toList.filter (· ≠ '-')
  if digits.length = 32 ∧ digits.all isHexDigit then some (.ofNat 128 (readDigits 0 digits)) else none

/-- A digit is read back. -/
theorem digitValue_digitChar : ∀ value < 16, digitValue value.digitChar = value ∧ value.digitChar ≠ '-' ∧
    isHexDigit value.digitChar = true := by
  decide

/-- Digits are read one after the other. -/
theorem readDigits_append (read : Nat) (digits rest : List Char) :
    readDigits read (digits ++ rest) = readDigits (readDigits read digits) rest :=
  List.foldl_append

/-- Digits are read back, as far as they go. -/
theorem readDigits_hexDigits (read value digits : Nat) :
    readDigits read (hexDigits value digits) = read * 16 ^ digits + value % 16 ^ digits := by
  -- Digit by digit from the end: the last one is the remainder, and the front is read by induction.
  induction digits generalizing value with
  | zero => simp [hexDigits, readDigits, Nat.mod_one]
  | succ digits ih =>
    have last := (digitValue_digitChar (value % 16) (by omega)).1
    have front := ih (value / 16)
    have shift : read * (16 * 16 ^ digits) = read * 16 ^ digits * 16 := by
      rw [Nat.mul_comm 16, Nat.mul_assoc]
    rw [hexDigits, readDigits_append, front, readDigits, List.foldl_cons, List.foldl_nil, last,
      Nat.pow_succ', Nat.mod_mul, shift]
    omega

/-- Digits are no hyphens. -/
theorem hexDigits_isHexDigit (value digits : Nat) :
    (hexDigits value digits).length = digits ∧
      ∀ digit ∈ hexDigits value digits, digit ≠ '-' ∧ isHexDigit digit = true := by
  -- Digit by digit, and each is one of sixteen.
  induction digits generalizing value with
  | zero => simp [hexDigits]
  | succ digits ih =>
    obtain ⟨length, front⟩ := ih (value / 16)
    have last := (digitValue_digitChar (value % 16) (by omega)).2
    refine ⟨by simp [hexDigits, length], fun digit inside => ?_⟩
    rcases List.mem_append.mp inside with earlier | final
    · exact front digit earlier
    · rw [List.mem_singleton.mp final]
      exact last

/-- The digits of a UUID, in groups. -/
theorem MessageId.filter_display (id : MessageId) :
    id.display.toList.filter (· ≠ '-') =
      hexDigits (id.uuid.toNat / 2 ^ 96) 8 ++ hexDigits (id.uuid.toNat / 2 ^ 80) 4 ++
        hexDigits (id.uuid.toNat / 2 ^ 64) 4 ++ hexDigits (id.uuid.toNat / 2 ^ 48) 4 ++
          hexDigits (id.uuid.toNat / 2 ^ 0) 12 := by
  -- Filtering keeps all the digits and none of the hyphens.
  have whole (value digits : Nat) : (hexDigits value digits).filter (· ≠ '-') =
    hexDigits value digits := by
    refine List.filter_eq_self.mpr fun digit inside => ?_
    exact decide_eq_true ((hexDigits_isHexDigit value digits).2 digit inside).1
  have hyphen : ['-'].filter (· ≠ '-') = [] := by decide
  simp only [display, String.toList_ofList, List.filter_append, whole, hyphen, List.append_nil]

/-- A UUID is read back from its hyphenated form. -/
theorem parseHyphenated_display (id : MessageId) : parseHyphenated id.display = some id.uuid := by
  have digits := id.filter_display
  have small := id.uuid.isLt
  simp only [parseHyphenated]
  rw [if_pos]
  · -- The groups are the number, from the most significant digits down.
    have value : readDigits 0 (id.display.toList.filter (· ≠ '-')) = id.uuid.toNat := by
      simp only [digits, readDigits_append, readDigits_hexDigits]
      omega
    rw [value, BitVec.ofNat_toNat, BitVec.setWidth_eq]
  · rw [digits]
    refine ⟨by simp [(hexDigits_isHexDigit _ _).1], List.all_eq_true.mpr fun digit inside => ?_⟩
    simp only [List.mem_append] at inside
    rcases inside with (((first | second) | third) | fourth) | fifth
    all_goals exact ((hexDigits_isHexDigit _ _).2 digit ‹_›).2

/-- An envelope of a later minor version. -/
def laterMinor : Envelope String where
  version := ⟨1, 1⟩
  id := ⟨0x0192f3a45b6c7d8e9fa0b1c2d3e4f506⟩
  createdAt := ⟨5⟩
  idempotencyKey := some ⟨"dedup-1"⟩
  traceId := none
  headers := Finmap.singleton "tenant" "acme"
  payload := "hello"

/-- Its fields. -/
def laterMinorFields : List (String × Json) :=
  [("version", .object [("major", .integer 1), ("minor", .integer 1)]),
    ("id", .string "0192f3a4-5b6c-7d8e-9fa0-b1c2d3e4f506"), ("created_at", .integer 5),
    ("idempotency_key", .string "dedup-1"), ("trace_id", .null), ("headers", .object [("tenant", .string "acme")]),
    ("payload", .string "hello")]

/-- Its text, behind that of a field of which this build knows nothing, if any. -/
def laterMinorText (future : String) : Bytes :=
  (String.append "\x7b" (future ++ "\"version\":\x7b\"major\":1,\"minor\":1\x7d," ++
    "\"id\":\"0192f3a4-5b6c-7d8e-9fa0-b1c2d3e4f506\",\"created_at\":5,\"idempotency_key\":\"dedup-1\"," ++
    "\"trace_id\":null,\"headers\":\x7b\"tenant\":\"acme\"\x7d,\"payload\":\"hello\"\x7d")).toUTF8.toList

/-- The text of an unknown field. -/
def futureText : Bytes :=
  laterMinorText "\"future_field\":\"surprise\","

/-- The text of the envelope's document, and of no other. -/
def writeLaterMinor : Json → Except JsonError Bytes
  | .object [("version", .object [("major", .integer 1), ("minor", .integer 1)]),
      ("id", .string "0192f3a4-5b6c-7d8e-9fa0-b1c2d3e4f506"), ("created_at", .integer 5),
      ("idempotency_key", .string "dedup-1"), ("trace_id", .null), ("headers", .object [("tenant", .string "acme")]),
      ("payload", .string "hello")] => .ok (laterMinorText "")
  | _ => .error (.custom "not the envelope")

/-- The document of the envelope's text, with the unknown field or without. -/
def readLaterMinor (bytes : Bytes) : Except JsonError Json :=
  if bytes = laterMinorText "" then .ok (.object laterMinorFields)
  else if bytes = futureText then .ok (.object (("future_field", .string "surprise") :: laterMinorFields))
  else .error (.custom "expected value")

/-- The text is read back. -/
theorem readLaterMinor_writeLaterMinor (json : Json) (bytes : Bytes)
    (written : writeLaterMinor json = .ok bytes) :
    readLaterMinor bytes = .ok json := by
  unfold writeLaterMinor at written
  split at written
  · obtain rfl := Except.ok.inj written
    exact if_pos rfl
  · cases written

/-- Texts as payloads, and no envelope but this one. -/
def laterMinorWire : WireFormat String :=
  ⟨writeLaterMinor, readLaterMinor, parseHyphenated, fun text => .ok (.string text), .text⟩

/-- What is written is read back. -/
theorem laterMinorWire_roundTrips : laterMinorWire.RoundTrips where
  text := readLaterMinor_writeLaterMinor
  uuid id := by
    simp only [laterMinorWire]
    exact parseHyphenated_display id
  payload payload json encoded := by
    simp only [laterMinorWire] at encoded ⊢
    rw [← Except.ok.inj encoded]
    rfl

theorem Envelope.fromJson_toJson_laterMinor :
    laterMinor.toJson laterMinorWire = .ok (laterMinorText "") ∧
      fromJson laterMinorWire (laterMinorText "") = .ok laterMinor ∧
        fromJson laterMinorWire futureText = .ok laterMinor := by
  have headers : strings laterMinor.headers = .object [("tenant", .string "acme")] := by
    simp [strings, laterMinor]
  have id : laterMinor.id.display = "0192f3a4-5b6c-7d8e-9fa0-b1c2d3e4f506" := by decide +kernel
  have fields : (shape laterMinorWire).written (laterMinor.field (.string "hello")) = laterMinorFields := by
    simp only [Shape.written, shape, List.map_cons, List.map_nil, Envelope.field, headers, id]
    rfl
  have written : laterMinor.toJson laterMinorWire = .ok (laterMinorText "") := by
    change (laterMinorWire.toVec (.object ((shape laterMinorWire).written (laterMinor.field (.string "hello"))))).mapError _ = _
    rw [fields]
    rfl
  obtain ⟨own, given, text, unknown⟩ := fromJson_toJson laterMinorWire_roundTrips laterMinor written
  have same : laterMinorFields = given := by
    have read := (if_pos rfl : readLaterMinor (laterMinorText "") = .ok (.object laterMinorFields)).symm.trans text
    exact Json.object.inj (Except.ok.inj read)
  subst same
  refine ⟨written, own.trans (if_pos rfl), ?_⟩
  -- The unknown field is the one that the names leave out.
  have longer : futureText ≠ laterMinorText "" := by decide +kernel
  have read : readLaterMinor futureText = .ok (.object (("future_field", .string "surprise") :: laterMinorFields)) := by
    rw [readLaterMinor, if_neg longer, if_pos rfl]
  have known : ((("future_field", Json.string "surprise") :: laterMinorFields).filter
      fun entry => entry.1 ∈ (shape laterMinorWire).names) = laterMinorFields := by
    simp [laterMinorFields, Shape.names, shape]
  exact (unknown _ _ (.of_eq known) read).trans (own.trans (if_pos rfl))

end Qaas
