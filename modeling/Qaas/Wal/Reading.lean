import Qaas.Serde.Variants
import Qaas.Types.Envelope
import Qaas.Wal.Garbage

/-! Logs whose records are read by derived code, and what an arbitrary file opens as. -/

namespace Qaas

open Serde

variable {T V : Type}

/-- What a log is read with: what an envelope is, a JSON value's own code, and the checksum. -/
structure LogWire (T V : Type) extends WireFormat T where
  value : Decoder V
  hash : Bytes → UInt32

/-- A message's identifier is a UUID. -/
def LogWire.messageId (wire : LogWire T V) : Decoder MessageId :=
  wire.uuid.newtype .mk

variable {R : Type}

/-- The format of a log that is only opened: a payload is a document, and derived code reads it. -/
def LogWire.reading (wire : LogWire T V) (decoder : Decoder R) : Format R where
  toVec _ := none
  fromSlice payload := ((wire.fromSlice payload).bind decoder.decode).toOption
  hash := wire.hash
  decodes _ _ encoded := by cases encoded

/-- A file contains records: their whole frames one after the other, and behind these no frame. -/
def Contains (format : Format R) (file : Bytes) (records : List R) : Prop :=
  ∃ good tail, file = good ++ tail ∧ Frames format good records ∧ nextFrame format tail = .stop

variable {format : Format R}

/-- A file opens as the records that it contains. -/
theorem Contains.opens {file : Bytes} {records : List R} (contains : Contains format file records)
    (splits : List Nat) : ∃ good, openWal format ⟨file, splits⟩ = .ok (good, records) := by
  obtain ⟨good, tail, rfl, frames, stops⟩ := contains
  exact ⟨good, openWal_frames rfl frames stops⟩

/-- What a file opens as is what it contains. -/
theorem contains_of_openWal {reader : Reader} {good : Bytes} {records : List R}
    (opened : openWal format reader = .ok (good, records)) : Contains format reader.file records := by
  have frames := holds_of_openWal opened
  -- The part that is kept is a prefix of the file, and replay stopped behind it.
  have kept : ∃ length, good = reader.file.take length := by
    rw [openWal] at opened
    cases read : replay format reader with
    | error error => rw [read] at opened; cases opened
    | ok result =>
      rw [read] at opened
      exact ⟨result.2, (congrArg Prod.fst (Except.ok.inj opened)).symm⟩
  obtain ⟨length, rfl⟩ := kept
  refine ⟨_, reader.file.drop length, (List.take_append_drop length reader.file).symm, frames, ?_⟩
  rw [← openWal_eq_iff frames reader.splits, List.take_append_drop]
  exact opened

/-- A file contains one list of records at most. -/
theorem Contains.unique {file : Bytes} {records others : List R}
    (first : Contains format file records) (second : Contains format file others) : records = others := by
  -- Both are what it opens as.
  obtain ⟨_, one⟩ := first.opens []
  obtain ⟨_, two⟩ := second.opens []
  exact congrArg Prod.snd (Except.ok.inj (one.symm.trans two))

/-- A file that is one whole frame contains its record. -/
theorem contains_framed {payload : Bytes} {record : R} (decoded : format.fromSlice payload = some record)
    (small : payload.length < 2 ^ 32) : Contains format (framed format payload) [record] :=
  ⟨_, [], (List.append_nil _).symm, .single (nextFrame_payload decoded small), rfl⟩

end Qaas
