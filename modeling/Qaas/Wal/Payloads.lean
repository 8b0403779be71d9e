import Qaas.Wal.Reading

/-! A log as the payloads of its frames, and what reading them makes of appending and opening. -/

namespace Qaas

variable {R : Type} {format other : Format R}

/-- A log whose records are payloads as they are written, missing where a record cannot be encoded. -/
def payloads (hash : Bytes → UInt32) : Format (Option Bytes) where
  toVec payload := payload
  fromSlice bytes := some (some bytes)
  hash := hash
  decodes _ _ encoded := congrArg some encoded.symm

/-- Two formats that read alike find the same frames. -/
theorem Frames.congr (sameHash : format.hash = other.hash) (sameReading : format.fromSlice = other.fromSlice)
    {file : Bytes} {records : List R} (frames : Frames format file records) : Frames other file records := by
  -- The next frame depends on nothing else of a format.
  have same (file : Bytes) : nextFrame format file = nextFrame other file := by
    simp only [nextFrame, sameHash, sameReading]
  induction frames with
  | nil => exact .nil
  | cons read _ ih => exact .cons (by rw [← same]; exact read) ih

/-- Two formats that read alike hold the same logs. -/
theorem Holds.congr (sameHash : format.hash = other.hash) (sameReading : format.fromSlice = other.fromSlice)
    {file : Bytes} {log : Log R} (holds : Holds format file log) : Holds other file log := by
  obtain ⟨good, tail, shape, frames, intact⟩ := holds
  exact ⟨good, tail, shape, frames.congr sameHash sameReading, intact⟩

open Classical in
/-- The format that writes one record as a payload that is read as that record. -/
noncomputable def Format.writing (format : Format R) (record : R) (payload : Option Bytes)
    (decoded : ∀ bytes, payload = some bytes → format.fromSlice bytes = some record) : Format R where
  toVec written := if written = record then payload else none
  fromSlice := format.fromSlice
  hash := format.hash
  decodes written bytes encoded := by
    split at encoded
    · rename_i same
      rw [same]
      exact decoded bytes encoded
    · cases encoded

/-- Appending a payload to a file is appending the record that it is read as. -/
theorem Holds.append_payload {writer : Writer} {log : Log R} (holds : Holds format writer.file log)
    {record : R} {payload : Option Bytes}
    (decoded : ∀ bytes, payload = some bytes → format.fromSlice bytes = some record)
    (outcome : WriteOutcome) :
    Holds format (append (payloads format.hash) writer payload outcome).1.file
        (log.append record (appendOutcome (payloads format.hash) writer payload outcome)).1 := by
  -- To the format that writes the record so, it is an append like any other.
  have written : (format.writing record payload decoded).toVec record = payload := if_pos rfl
  have sameHash : format.hash = (format.writing record payload decoded).hash := rfl
  have sameReading : format.fromSlice = (format.writing record payload decoded).fromSlice := rfl
  have landed := (append_holds (holds.congr sameHash sameReading) record outcome).1
  have sameFile : append (format.writing record payload decoded) writer record outcome =
      append (payloads format.hash) writer payload outcome := by
    simp only [append, written]
    rfl
  have sameOutcome : appendOutcome (format.writing record payload decoded) writer record outcome =
      appendOutcome (payloads format.hash) writer payload outcome := by
    simp only [appendOutcome, written]
    rfl
  rw [sameFile, sameOutcome] at landed
  exact landed.congr sameHash.symm sameReading.symm

/-- The frames of some records at the start of a file tell what is behind them. -/
theorem Frames.behind {good others : Bytes} {records : List R} (frames : Frames format good records)
    (otherFrames : Frames format others records) {tail rest : Bytes} (same : good ++ tail = others ++ rest) :
    tail = rest := by
  -- Both start with the same frame, and go on behind it.
  induction frames generalizing others with
  | nil =>
    cases otherFrames
    exact same
  | @cons head more record records read _ ih =>
    cases otherFrames with
    | @cons otherHead otherMore _ _ otherRead otherFrames =>
      rw [List.append_assoc, List.append_assoc] at same
      have first := nextFrame_append read (more ++ tail)
      rw [same, nextFrame_append otherRead (otherMore ++ rest)] at first
      obtain ⟨_, rest⟩ := List.append_inj same (NextFrame.frame.inj first).2.symm
      exact ih otherFrames rest

/-- Where a log was torn, no whole frame seems to begin behind its records. -/
def Detected (format : Format R) (file : Bytes) (log : Log R) : Prop :=
  log.torn = true → ∀ good tail, file = good ++ tail → Frames format good log.records →
    nextFrame format tail = .stop

/-- A file that holds a log contains its records, if the torn part is detected. -/
theorem Holds.contains {file : Bytes} {log : Log R} (holds : Holds format file log)
    (detected : Detected format file log) : Contains format file log.records := by
  obtain ⟨good, tail, rfl, frames, intact⟩ := holds
  refine ⟨good, tail, rfl, frames, ?_⟩
  cases torn : log.torn with
  | true => exact detected torn good tail rfl frames
  | false =>
    obtain ⟨rfl, _⟩ := intact torn
    rfl

/-- A file that holds a log opens as its records, and is cut to a file that holds the log reopened. -/
theorem Holds.opens {file : Bytes} {log : Log R} (holds : Holds format file log)
    (detected : Detected format file log) (splits : List Nat) :
    ∃ good, openWal format ⟨file, splits⟩ = .ok (good, log.records) ∧ Holds format good log.reopen := by
  obtain ⟨good, opened⟩ := (holds.contains detected).opens splits
  exact ⟨good, opened, good, [], (List.append_nil good).symm, holds_of_openWal opened, fun _ => ⟨rfl, rfl⟩⟩

/-- A new file holds a new log. -/
theorem holds_nil : Holds format [] {} :=
  ⟨[], [], rfl, .nil, fun _ => ⟨rfl, rfl⟩⟩

/-- What an intact log's last append left of its frame is detected. -/
theorem Holds.detected {file : Bytes} {log : Log R} (holds : Holds format file log)
    (intact : log.torn = false) {payload : Bytes} (small : payload.length < 2 ^ 32)
    {written : Nat} (partly : written < (framed format payload).length) :
    Detected format (file ++ (framed format payload).take written) { log with torn := true } := by
  obtain ⟨good, tail, rfl, frames, clean⟩ := holds
  obtain ⟨rfl, _⟩ := clean intact
  -- The records' frames have one end in a file, so what is behind it is the part of the frame.
  intro _ others rest shape otherFrames
  rw [List.append_nil] at shape
  rw [← frames.behind otherFrames shape]
  exact nextFrame_torn small partly

end Qaas
