import Qaas.Group.Open
import Qaas.Wal.Reading

/-! A group's two logs as derived code reads them, and opening a group on two arbitrary files. -/

namespace Qaas

open Serde

variable {T V : Type}

/-- A key as derived code reads it: the text as it is, without the check of `new`. -/
def IdempotencyKey.decoder : Decoder IdempotencyKey :=
  Decoder.text.newtype .mk

/-- A timestamp is its number of milliseconds. -/
def Timestamp.decoder : Decoder Timestamp :=
  (Decoder.unsigned UInt64.size).newtype fun millis => ⟨UInt64.ofNat millis⟩

/-- One record of a group's main log. -/
def WalRecord.decoder (wire : LogWire T V) : Decoder (WalRecord T V) :=
  .tagged
    [.holding "Enqueue" (.triple wire.messageId IdempotencyKey.decoder.option wire.payload)
        fun (id, idempotencyKey, item) => .enqueue id idempotencyKey item,
      .holding "Ack" wire.messageId .ack,
      .holding "DeadLettered" wire.messageId .deadLettered,
      .holding "Checkpoint" (.pair wire.messageId wire.value) fun (id, state) => .checkpoint id state]

/-- A classification is the name of its variant. -/
def TriageClassification.decoder : Decoder TriageClassification :=
  .tagged [.unit "Transient" .transient, .unit "Permanent" .permanent]

/-- The fields of a verdict. -/
inductive VerdictField where
  | classification
  | reason
  | triagedAt
  deriving DecidableEq

/-- How a verdict is read. -/
def TriageVerdict.shape : Shape VerdictField where
  Value
    | .classification => TriageClassification
    | .reason => String
    | .triagedAt => Timestamp
  fields := [.classification, .reason, .triagedAt]
  name
    | .classification => "classification"
    | .reason => "reason"
    | .triagedAt => "triaged_at"
  decoder
    | .classification => TriageClassification.decoder
    | .reason => .text
    | .triagedAt => Timestamp.decoder
  nodup := by decide
  complete field := by cases field <;> decide
  name_injective field other same := by cases field <;> cases other <;> first | rfl | simp at same

/-- A verdict is read from its fields. -/
def TriageVerdict.decoder : Decoder TriageVerdict where
  decode json := do
    let slots ← shape.visit json
    let classification ← shape.take slots .classification
    let reason ← shape.take slots .reason
    let triagedAt ← shape.take slots .triagedAt
    return ⟨classification, reason, triagedAt⟩

/-- The fields of a dead letter. -/
inductive DeadLetterField where
  | id
  | idempotencyKey
  | item
  | deliveryCount
  | lastError
  | deadLetteredAt
  | checkpoint
  | triage
  deriving DecidableEq

/-- How a dead letter is read. -/
def DeadLetter.shape (wire : LogWire T V) : Shape DeadLetterField where
  Value
    | .id => MessageId
    | .idempotencyKey => Option IdempotencyKey
    | .item => T
    | .deliveryCount => UInt32
    | .lastError => Option String
    | .deadLetteredAt => Timestamp
    | .checkpoint => Option V
    | .triage => Option TriageVerdict
  fields := [.id, .idempotencyKey, .item, .deliveryCount, .lastError, .deadLetteredAt, .checkpoint, .triage]
  name
    | .id => "id"
    | .idempotencyKey => "idempotency_key"
    | .item => "item"
    | .deliveryCount => "delivery_count"
    | .lastError => "last_error"
    | .deadLetteredAt => "dead_lettered_at"
    | .checkpoint => "checkpoint"
    | .triage => "triage"
  decoder
    | .id => wire.messageId
    | .idempotencyKey => IdempotencyKey.decoder.option
    | .item => wire.payload
    | .deliveryCount => (Decoder.unsigned UInt32.size).newtype UInt32.ofNat
    | .lastError => Decoder.text.option
    | .deadLetteredAt => Timestamp.decoder
    | .checkpoint => wire.value.option
    | .triage => TriageVerdict.decoder.option
  nodup := by decide
  complete field := by cases field <;> decide
  name_injective field other same := by cases field <;> cases other <;> first | rfl | simp at same

/-- A dead letter is read from its fields. -/
def DeadLetter.decoder (wire : LogWire T V) : Decoder (DeadLetter T V) where
  decode json := do
    let slots ← (shape wire).visit json
    let id ← (shape wire).take slots .id
    let idempotencyKey ← (shape wire).take slots .idempotencyKey
    let item ← (shape wire).take slots .item
    let deliveryCount ← (shape wire).take slots .deliveryCount
    let lastError ← (shape wire).take slots .lastError
    let deadLetteredAt ← (shape wire).take slots .deadLetteredAt
    let checkpoint ← (shape wire).take slots .checkpoint
    let triage ← (shape wire).take slots .triage
    return ⟨id, idempotencyKey, item, deliveryCount, lastError, deadLetteredAt, checkpoint, triage⟩

/-- One record of a dead-letter queue's log. -/
def DlqRecord.decoder (wire : LogWire T V) : Decoder (DlqRecord T V) :=
  .tagged
    [.holding "DeadLetter" (DeadLetter.decoder wire) .deadLetter,
      .holding "Remove" wire.messageId .remove,
      .holding "Annotate" (.pair wire.messageId TriageVerdict.decoder) fun (id, verdict) =>
        .annotate id verdict]

/-- Open a group on the files of its two logs, with the dead letters iterated in the given order. -/
def ConsumerGroup.openFiles (wire : LogWire T V) (wal dlqWal : Reader) (visibilityTimeout : Duration)
    (retryPolicy : RetryPolicy) (order : List MessageId) : Except IoError (ConsumerGroup T V) := do
  let (_, records) ← openWal (wire.reading (WalRecord.decoder wire)) wal
  let (_, letters) ← openWal (wire.reading (DlqRecord.decoder wire)) dlqWal
  return .opened { records } { records := letters } visibilityTimeout retryPolicy order

variable {wire : LogWire T V}

/-- A key is its text. -/
theorem IdempotencyKey.mk_injective : Function.Injective IdempotencyKey.mk := by
  intro first second same
  exact IdempotencyKey.mk.inj same

/-- A dead letter is read under a key exactly if its document's `idempotency_key` is the key's text,
whatever that text is. -/
theorem DeadLetter.decode_key_iff {json : Json} {letter : DeadLetter T V}
    (read : (DeadLetter.decoder wire).decode json = .ok letter) (key : IdempotencyKey) :
    letter.idempotencyKey = some key ↔
      (DeadLetter.shape wire).document .idempotencyKey json = some (.string key.key) := by
  simp only [decoder, bind_eq_ok] at read
  obtain ⟨slots, visited, _, _, taken, keyTaken, _, _, _, _, _, _, _, _, _, _, _, _, made⟩ := read
  -- The key is what was taken for its field.
  have same : letter.idempotencyKey = taken := by rw [← Except.ok.inj made]
  rw [same]
  exact Decoder.optional_text IdempotencyKey.mk_injective (Shape.take_document visited keyTaken) key.key

/-- A group opens on two files exactly as what these contain. -/
theorem ConsumerGroup.openFiles_eq_ok {wal dlqWal : Reader} {visibilityTimeout : Duration}
    {retryPolicy : RetryPolicy} {order : List MessageId} {group : ConsumerGroup T V} :
    openFiles wire wal dlqWal visibilityTimeout retryPolicy order = .ok group ↔
      ∃ records letters, Contains (wire.reading (WalRecord.decoder wire)) wal.file records ∧
        Contains (wire.reading (DlqRecord.decoder wire)) dlqWal.file letters ∧
        group = .opened { records } { records := letters } visibilityTimeout retryPolicy order := by
  -- The main log is opened first, and the other one after it.
  constructor
  · intro opened
    obtain ⟨⟨_, records⟩, main, opened⟩ := bind_eq_ok.mp opened
    obtain ⟨⟨_, letters⟩, dead, made⟩ := bind_eq_ok.mp opened
    exact ⟨records, letters, contains_of_openWal main, contains_of_openWal dead, (Except.ok.inj made).symm⟩
  · rintro ⟨records, letters, main, dead, rfl⟩
    obtain ⟨_, mainOpened⟩ := main.opens wal.splits
    obtain ⟨_, deadOpened⟩ := dead.opens dlqWal.splits
    exact bind_eq_ok.mpr ⟨_, mainOpened, bind_eq_ok.mpr ⟨_, deadOpened, rfl⟩⟩

end Qaas
