import Qaas.Group.Decoding
import Qaas.Serde.Writing

/-! What derived code writes a group's records as, and what it reads back of them. -/

namespace Qaas

open Serde

variable {T V : Type}

/-- What a log is written and read with: a JSON value's own code goes both ways. -/
structure RecordWire (T V : Type) extends LogWire T V where
  encodeValue : V → Json

/-- What is written is read back: texts, UUIDs, payloads, and JSON values. -/
structure RecordWire.RoundTrips (wire : RecordWire T V) : Prop extends
    WireFormat.RoundTrips wire.toWireFormat where
  value : ∀ state, wire.value.decode (wire.encodeValue state) = .ok state

/-- The document of a message's identifier. -/
def MessageId.json (id : MessageId) : Json :=
  .string id.display

/-- The document of a key. -/
def IdempotencyKey.json (key : IdempotencyKey) : Json :=
  .string key.key

/-- The document of a timestamp. -/
def Timestamp.json (timestamp : Timestamp) : Json :=
  .integer timestamp.millis.toNat

/-- The document of one record of a group's main log. -/
def WalRecord.encode (wire : RecordWire T V) : WalRecord T V → Except JsonError Json
  | .enqueue id idempotencyKey item =>
    (wire.encode item).map fun payload => Json.tagged "Enqueue"
      (.array [id.json, Json.optional (idempotencyKey.map IdempotencyKey.json), payload])
  | .ack id => .ok (Json.tagged "Ack" id.json)
  | .deadLettered id => .ok (Json.tagged "DeadLettered" id.json)
  | .checkpoint id state => .ok (Json.tagged "Checkpoint" (.array [id.json, wire.encodeValue state]))

/-- The document of a classification. -/
def TriageClassification.json : TriageClassification → Json
  | .transient => .string "Transient"
  | .permanent => .string "Permanent"

/-- The document of each field of a verdict. -/
def TriageVerdict.field (verdict : TriageVerdict) : VerdictField → Json
  | .classification => verdict.classification.json
  | .reason => .string verdict.reason
  | .triagedAt => verdict.triagedAt.json

/-- The document of a verdict. -/
def TriageVerdict.json (verdict : TriageVerdict) : Json :=
  .object (shape.written verdict.field)

/-- The document of each field of a dead letter, given that of the item. -/
def DeadLetter.field (wire : RecordWire T V) (letter : DeadLetter T V) (payload : Json) :
    DeadLetterField → Json
  | .id => letter.id.json
  | .idempotencyKey => Json.optional (letter.idempotencyKey.map IdempotencyKey.json)
  | .item => payload
  | .deliveryCount => .integer letter.deliveryCount.toNat
  | .lastError => Json.optional (letter.lastError.map Json.string)
  | .deadLetteredAt => letter.deadLetteredAt.json
  | .checkpoint => Json.optional (letter.checkpoint.map wire.encodeValue)
  | .triage => Json.optional (letter.triage.map TriageVerdict.json)

/-- The document of a dead letter. -/
def DeadLetter.encode (wire : RecordWire T V) (letter : DeadLetter T V) : Except JsonError Json :=
  (wire.encode letter.item).map fun payload =>
    .object ((shape wire.toLogWire).written (letter.field wire payload))

/-- The document of one record of a dead-letter queue's log. -/
def DlqRecord.encode (wire : RecordWire T V) : DlqRecord T V → Except JsonError Json
  | .deadLetter letter => (letter.encode wire).map (Json.tagged "DeadLetter")
  | .remove id => .ok (Json.tagged "Remove" id.json)
  | .annotate id verdict => .ok (Json.tagged "Annotate" (.array [id.json, verdict.json]))

/-- What is left of a checkpoint in a dead letter's field, where `null` means that there is none. -/
def RecordWire.reread (wire : RecordWire T V) (checkpoint : Option V) : Option V :=
  checkpoint.filter fun state => !(wire.encodeValue state).isNull

/-- A record as it is read back. -/
def DlqRecord.reread (wire : RecordWire T V) : DlqRecord T V → DlqRecord T V
  | .deadLetter letter => .deadLetter { letter with checkpoint := wire.reread letter.checkpoint }
  | .remove id => .remove id
  | .annotate id verdict => .annotate id verdict

variable {wire : RecordWire T V}

/-- A message's identifier is read back. -/
theorem MessageId.decode_json (trips : wire.RoundTrips) (id : MessageId) :
    wire.messageId.decode id.json = .ok id :=
  Decoder.decode_newtype MessageId.mk (wire.decode_uuid trips.toRoundTrips id)

/-- A key that may be absent is read back. -/
theorem IdempotencyKey.decode_optional (key : Option IdempotencyKey) :
    IdempotencyKey.decoder.option.decode (Json.optional (key.map json)) = .ok key :=
  Decoder.decode_optional_present (fun _ => rfl) (fun key => by simp [json]) key

/-- A timestamp is read back. -/
theorem Timestamp.decode_json (timestamp : Timestamp) :
    Timestamp.decoder.decode timestamp.json = .ok timestamp := by
  have read := Decoder.decode_newtype (fun millis => Timestamp.mk (UInt64.ofNat millis))
    (Decoder.decode_unsigned timestamp.millis.toNat_lt_size)
  rw [UInt64.ofNat_toNat] at read
  exact read

/-- A record of the main log is read back. -/
theorem WalRecord.decode_encode (trips : wire.RoundTrips) {record : WalRecord T V} {json : Json}
    (encoded : record.encode wire = .ok json) :
    (WalRecord.decoder wire.toLogWire).decode json = .ok record := by
  -- Each variant is found under its name, and its content is a tuple of what is read back.
  cases record with
  | enqueue id key item =>
    obtain ⟨payload, written, rfl⟩ := map_eq_ok.mp encoded
    have fields := Decoder.triple_eq_ok.mpr ⟨_, _, _, rfl, id.decode_json trips,
      IdempotencyKey.decode_optional key, trips.payload item payload written⟩
    exact (Decoder.decode_tagged rfl _).trans (Decoder.decode_newtype _ fields)
  | ack id =>
    obtain rfl := Except.ok.inj encoded
    exact (Decoder.decode_tagged rfl _).trans (Decoder.decode_newtype _ (id.decode_json trips))
  | deadLettered id =>
    obtain rfl := Except.ok.inj encoded
    exact (Decoder.decode_tagged rfl _).trans (Decoder.decode_newtype _ (id.decode_json trips))
  | checkpoint id state =>
    obtain rfl := Except.ok.inj encoded
    have fields := Decoder.decode_pair (id.decode_json trips) (trips.value state)
    exact (Decoder.decode_tagged rfl _).trans (Decoder.decode_newtype _ fields)

/-- A classification is read back. -/
theorem TriageClassification.decode_json (classification : TriageClassification) :
    TriageClassification.decoder.decode classification.json = .ok classification := by
  cases classification <;> rfl

/-- What each field of a verdict holds. -/
def TriageVerdict.value (verdict : TriageVerdict) : (field : VerdictField) → shape.Value field
  | .classification => verdict.classification
  | .reason => verdict.reason
  | .triagedAt => verdict.triagedAt

/-- A verdict is read back. -/
theorem TriageVerdict.decode_json (verdict : TriageVerdict) : decoder.decode verdict.json = .ok verdict := by
  have reads (field : VerdictField) :
      (shape.decoder field).decode (verdict.field field) = .ok (verdict.value field) := by
    cases field with
    | classification => exact verdict.classification.decode_json
    | reason => rfl
    | triagedAt => exact verdict.triagedAt.decode_json
  simp only [decoder, json, shape.visit_written reads, bind, Except.bind, Shape.take_some]
  rfl

/-- What each field of a dead letter holds, once it has been read back. -/
def DeadLetter.value (wire : RecordWire T V) (letter : DeadLetter T V) :
    (field : DeadLetterField) → (shape wire.toLogWire).Value field
  | .id => letter.id
  | .idempotencyKey => letter.idempotencyKey
  | .item => letter.item
  | .deliveryCount => letter.deliveryCount
  | .lastError => letter.lastError
  | .deadLetteredAt => letter.deadLetteredAt
  | .checkpoint => wire.reread letter.checkpoint
  | .triage => letter.triage

/-- Each field of a dead letter is read back, but for a checkpoint that is written as `null`. -/
theorem DeadLetter.decode_field (trips : wire.RoundTrips) (letter : DeadLetter T V) {payload : Json}
    (encoded : wire.encode letter.item = .ok payload) (field : DeadLetterField) :
    ((shape wire.toLogWire).decoder field).decode (letter.field wire payload field) =
      .ok (letter.value wire field) := by
  cases field with
  | id => exact letter.id.decode_json trips
  | idempotencyKey => exact IdempotencyKey.decode_optional letter.idempotencyKey
  | item => exact trips.payload _ _ encoded
  | deliveryCount =>
    have read := Decoder.decode_newtype UInt32.ofNat
      (Decoder.decode_unsigned letter.deliveryCount.toNat_lt_size)
    rw [UInt32.ofNat_toNat] at read
    exact read
  | lastError => exact Decoder.decode_optional_present (fun _ => rfl) (fun text => by simp) letter.lastError
  | deadLetteredAt => exact letter.deadLetteredAt.decode_json
  | checkpoint => exact Decoder.decode_optional trips.value letter.checkpoint
  | triage =>
    exact Decoder.decode_optional_present TriageVerdict.decode_json
      (fun verdict => by simp [TriageVerdict.json]) letter.triage

/-- A dead letter is read back, but for a checkpoint that is written as `null`. -/
theorem DeadLetter.decode_encode (trips : wire.RoundTrips) {letter : DeadLetter T V} {json : Json}
    (encoded : letter.encode wire = .ok json) : (decoder wire.toLogWire).decode json =
      .ok { letter with checkpoint := wire.reread letter.checkpoint } := by
  obtain ⟨payload, written, rfl⟩ := map_eq_ok.mp encoded
  simp only [decoder, (shape wire.toLogWire).visit_written (letter.decode_field trips written), bind,
    Except.bind, Shape.take_some]
  rfl

/-- A record of the dead-letter queue's log is read back, but for a checkpoint that is written as `null`. -/
theorem DlqRecord.decode_encode (trips : wire.RoundTrips) {record : DlqRecord T V} {json : Json}
    (encoded : record.encode wire = .ok json) :
    (DlqRecord.decoder wire.toLogWire).decode json = .ok (record.reread wire) := by
  cases record with
  | deadLetter letter =>
    obtain ⟨content, written, rfl⟩ := map_eq_ok.mp encoded
    exact (Decoder.decode_tagged rfl _).trans (Decoder.decode_newtype _ (letter.decode_encode trips written))
  | remove id =>
    obtain rfl := Except.ok.inj encoded
    exact (Decoder.decode_tagged rfl _).trans (Decoder.decode_newtype _ (id.decode_json trips))
  | annotate id verdict =>
    obtain rfl := Except.ok.inj encoded
    have fields := Decoder.decode_pair (id.decode_json trips) verdict.decode_json
    exact (Decoder.decode_tagged rfl _).trans (Decoder.decode_newtype _ fields)

end Qaas
