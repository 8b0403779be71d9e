import Qaas.Wal.Frames

/-! The log as a list of records, and the files that hold it. -/

namespace Qaas

/-- A write-ahead log, as the records the next replay will return and those it cannot reach. -/
structure Log (R : Type) where
  /-- The records before any torn frame, in the order they were written. -/
  records : List R := []
  /-- Whether a partly written frame ends the part that replay can read. -/
  torn : Bool := false
  /-- Whole records written after the torn frame. -/
  behind : List R := []

/--
How one append ends, at the level of records.

Whether the file keeps the error of an earlier write is left open here: an append that is refused for
it ends as `failedEmpty`, like any other that fails before it writes.
-/
inductive AppendOutcome
  | ok
  /-- `Ok`, although the queued write then failed before any byte was written. -/
  | lostEmpty
  /-- `Ok`, although the queued write then failed inside the frame. -/
  | lostTorn
  /-- An error, or a dropped future, before any byte was written. -/
  | failedEmpty
  /-- An error, or a dropped future, inside the frame. -/
  | failedTorn
  /-- An error, or a dropped future, after the last byte. -/
  | failedWhole
  deriving DecidableEq, Repr

/-- Whether the append returns `Ok`. -/
def AppendOutcome.acknowledged : AppendOutcome → Bool
  | .ok | .lostEmpty | .lostTorn => true
  | .failedEmpty | .failedTorn | .failedWhole => false

@[simp] theorem AppendOutcome.acknowledged_ok : AppendOutcome.ok.acknowledged = true := rfl

/-- An append that succeeds returns no error. -/
theorem AppendOutcome.ok_ne_failed {outcome : AppendOutcome} (clean : outcome = .ok)
    (failed : outcome.acknowledged = false) : False := by
  subst clean
  cases failed

/-- Whether the whole frame reaches the file. -/
def AppendOutcome.lands : AppendOutcome → Bool
  | .ok | .failedWhole => true
  | .lostEmpty | .lostTorn | .failedEmpty | .failedTorn => false

/-- Whether a part of the frame reaches the file, and no more. -/
def AppendOutcome.tears : AppendOutcome → Bool
  | .lostTorn | .failedTorn => true
  | .ok | .lostEmpty | .failedEmpty | .failedWhole => false

variable {R : Type}

/-- Every record whose frame is whole in the file. -/
def Log.written (log : Log R) : List R :=
  log.records ++ log.behind

/-- A whole frame reaches the end of the file. -/
def Log.land (log : Log R) (record : R) : Log R :=
  if log.torn then { log with behind := log.behind ++ [record] }
  else { log with records := log.records ++ [record] }

/-- One `append` call, and whether it returned `Ok`. -/
def Log.append (log : Log R) (record : R) : AppendOutcome → Log R × Bool
  | .ok => (log.land record, true)
  | .lostEmpty => (log, true)
  | .lostTorn => ({ log with torn := true }, true)
  | .failedEmpty => (log, false)
  | .failedTorn => ({ log with torn := true }, false)
  | .failedWhole => (log.land record, false)

/-- Opening the log cuts it back to what replay could read. -/
def Log.reopen (log : Log R) : Log R :=
  { records := log.records }

/-- What an append returns is told by its outcome. -/
@[simp] theorem Log.append_snd (log : Log R) (record : R) (outcome : AppendOutcome) :
    (log.append record outcome).2 = outcome.acknowledged := by
  cases outcome <;> rfl

/-- What an append does to the log is told by how much of the frame reaches the file. -/
theorem Log.append_fst (log : Log R) (record : R) (outcome : AppendOutcome) :
    (log.append record outcome).1 =
      if outcome.lands then log.land record
      else if outcome.tears then { log with torn := true } else log := by
  cases outcome <;> rfl

/-- A successful append lands the whole record. -/
@[simp] theorem Log.append_ok_fst (log : Log R) (record : R) :
    (log.append record .ok).1 = log.land record := rfl

/-- On an intact log a successful append adds its record at the end, and nothing else. -/
theorem Log.append_ok {log : Log R} (intact : log.torn = false) (record : R) :
    log.append record .ok = ({ log with records := log.records ++ [record] }, true) := by
  simp [append, land, intact]

/-- A landed record is among those written, and no other record joins or leaves them. -/
theorem Log.mem_written_land {log : Log R} {record other : R} :
    other ∈ (log.land record).written ↔ other ∈ log.written ∨ other = record := by
  unfold land written
  split <;> simp only [List.mem_append, List.mem_singleton, or_assoc, or_left_comm, or_comm]

/-- No append takes a record out of the part that a replay reads. -/
theorem Log.records_append_mono {log : Log R} {record other : R} {outcome : AppendOutcome}
    (member : other ∈ log.records) : other ∈ (log.append record outcome).1.records := by
  rw [append_fst, land]
  -- No outcome takes a record out.
  split
  · split
    · exact member
    · exact List.mem_append_left _ member
  · split <;> exact member

/-- Nor does any take one out of the part behind a torn frame. -/
theorem Log.behind_append_mono {log : Log R} {record other : R} {outcome : AppendOutcome}
    (member : other ∈ log.behind) : other ∈ (log.append record outcome).1.behind := by
  rw [append_fst, land]
  -- No outcome takes a record out.
  split
  · split
    · exact List.mem_append_left _ member
    · exact member
  · split <;> exact member

variable {format : Format R}

/-- How the write and the sync of a frame end, judged by how much of it reaches the file. -/
def Writer.outcome (writer : Writer) (frame : Bytes) (outcome : WriteOutcome) : AppendOutcome :=
  match outcome, writer.lastWriteErr with
  | .unstarted, _ | _, true => .failedEmpty
  | .synced, false => .ok
  | .stopped written, false =>
    if written = 0 then .failedEmpty
    else if written < frame.length then .failedTorn
    else .failedWhole
  | .unreported written synced, false =>
    match decide (written = 0), synced with
    | true, true => .lostEmpty
    | true, false => .failedEmpty
    | false, true => .lostTorn
    | false, false => .failedTorn

/-- The records a write outcome puts in the log, judged by how much of the frame reached the file. -/
def appendOutcome (format : Format R) (writer : Writer) (record : R) (outcome : WriteOutcome) :
    AppendOutcome :=
  match format.toVec record with
  | none => .failedEmpty
  | some payload =>
    if payload.length < 2 ^ 32 then writer.outcome (framed format payload) outcome else .failedEmpty

/-- A file holds a log when its whole frames are the log's records and a torn tail is all that follows. -/
def Holds (format : Format R) (file : Bytes) (log : Log R) : Prop :=
  ∃ good tail, file = good ++ tail ∧ Frames format good log.records ∧
    (log.torn = false → tail = [] ∧ log.behind = [])

/-- A write adds as many bytes of the frame as its outcome says. -/
theorem Writer.writeAndSync_spec (writer : Writer) {frame : Bytes} (several : 1 < frame.length)
    (outcome : WriteOutcome) :
    ∃ count, (writer.writeAndSync frame outcome).1.file = writer.file ++ frame.take count ∧
      ((writer.outcome frame outcome).lands = true ↔ frame.length ≤ count) ∧
      ((writer.outcome frame outcome).tears = true ↔ 0 < count ∧ count < frame.length) ∧
      ((writer.writeAndSync frame outcome).2 = .ok () ↔
        (writer.outcome frame outcome).acknowledged = true) := by
  obtain ⟨file, lastWriteErr⟩ := writer
  have nonempty : frame ≠ [] := List.ne_nil_of_length_pos (by omega)
  -- Without a write, no byte is added.
  have refused : ∃ count, file = file ++ frame.take count ∧
      (AppendOutcome.failedEmpty.lands = true ↔ frame.length ≤ count) ∧
      (AppendOutcome.failedEmpty.tears = true ↔ 0 < count ∧ count < frame.length) ∧
      ((Except.error IoError.writeFailed : Except IoError Unit) = .ok () ↔
        AppendOutcome.failedEmpty.acknowledged = true) :=
    ⟨0, by simp, by simp [AppendOutcome.lands, nonempty], by simp [AppendOutcome.tears],
      by simp [AppendOutcome.acknowledged]⟩
  cases lastWriteErr with
  | true => cases outcome <;> exact refused
  | false =>
    cases outcome with
    | synced =>
      refine ⟨frame.length, ?_, ?_, ?_, ?_⟩ <;>
        simp [writeAndSync, Writer.outcome, AppendOutcome.lands, AppendOutcome.tears,
          AppendOutcome.acknowledged]
    | unstarted => exact refused
    | stopped written =>
      refine ⟨written, rfl, ?_⟩
      simp only [writeAndSync, Writer.outcome]
      split
      · subst written
        simp [AppendOutcome.lands, AppendOutcome.tears, AppendOutcome.acknowledged, nonempty]
      · split <;> simp [AppendOutcome.lands, AppendOutcome.tears, AppendOutcome.acknowledged] <;> omega
    | unreported written synced =>
      -- The last byte is not written by a write that fails.
      have short : ¬ frame.length ≤ min written (frame.length - 1) := by omega
      have part : 0 < min written (frame.length - 1) ↔ written ≠ 0 := by omega
      refine ⟨min written (frame.length - 1), ?_, ?_⟩
      · simp only [writeAndSync, List.dropLast_eq_take, List.take_take]
      · rw [part]
        simp only [writeAndSync, Writer.outcome, short, Nat.lt_of_not_le short, iff_false, and_true]
        by_cases empty : written = 0 <;> cases synced <;>
          simp [empty, AppendOutcome.lands, AppendOutcome.tears, AppendOutcome.acknowledged]

/-- What an append adds to the file: where it lands, a frame that reads as the record; elsewhere
nothing that reads as a frame; and nothing at all where it does not tear either. -/
theorem append_spec (format : Format R) (writer : Writer) (record : R) (outcome : WriteOutcome) :
    ∃ part, (append format writer record outcome).1.file = writer.file ++ part ∧
      ((appendOutcome format writer record outcome).lands = true →
        nextFrame format part = .frame record part.length) ∧
      ((appendOutcome format writer record outcome).lands = false → nextFrame format part = .stop ∧
        ((appendOutcome format writer record outcome).tears = false → part = [])) ∧
      ((append format writer record outcome).2 = .ok () ↔
        (appendOutcome format writer record outcome).acknowledged = true) := by
  -- An append that is refused before the write adds nothing.
  have nothing : nextFrame format ([] : Bytes) = .stop := by simp [nextFrame]
  cases encoded : format.toVec record with
  | none =>
    rw [append_unencodable encoded, appendOutcome, encoded]
    exact ⟨[], by simp, by simp [AppendOutcome.lands], by simp [nothing], by simp [AppendOutcome.acknowledged]⟩
  | some payload =>
    by_cases small : payload.length < 2 ^ 32
    · rw [append_framed encoded small, appendOutcome, encoded]
      simp only
      rw [if_pos small]
      have several : 1 < (framed format payload).length := by
        rw [framed_length]
        omega
      obtain ⟨count, file, lands, tears, told⟩ := writer.writeAndSync_spec several outcome
      refine ⟨_, file, fun landed => ?_, fun short => ⟨?_, fun whole => ?_⟩, told⟩
      · rw [List.take_of_length_le (lands.mp landed)]
        exact nextFrame_framed encoded small
      · apply nextFrame_torn small
        by_contra enough
        rw [lands.mpr (Nat.le_of_not_lt enough)] at short
        cases short
      · -- Neither whole nor torn, so no byte was written.
        have fewer : ¬ (framed format payload).length ≤ count := fun enough => by
          rw [lands.mpr enough] at short
          cases short
        have none_written : ¬ (0 < count ∧ count < (framed format payload).length) := fun partly => by
          rw [tears.mpr partly] at whole
          cases whole
        rw [show count = 0 by omega, List.take_zero]
    · rw [append_oversized encoded small, appendOutcome, encoded]
      simp only
      -- A payload too long for its length field is refused before the write.
      rw [if_neg small]
      exact ⟨[], by simp, by simp [AppendOutcome.lands], by simp [nothing], by simp [AppendOutcome.acknowledged]⟩

/-- Appending to a file is appending to the log it holds. -/
theorem append_holds {writer : Writer} {log : Log R} (holds : Holds format writer.file log) (record : R)
    (outcome : WriteOutcome) :
    Holds format (append format writer record outcome).1.file
        (log.append record (appendOutcome format writer record outcome)).1 ∧
      ((append format writer record outcome).2 = .ok () ↔
        (log.append record (appendOutcome format writer record outcome)).2 = true) := by
  -- The frames of the log stay where they are, and the bytes added decide what follows them.
  obtain ⟨good, tail, same, frames, intact⟩ := holds
  obtain ⟨part, file, landed, short, told⟩ := append_spec format writer record outcome
  rw [Log.append_fst, Log.append_snd, file, same]
  refine ⟨?_, told⟩
  split
  · rename_i lands
    -- A frame that reached the file whole extends the records, unless a torn one stands before it.
    cases torn : log.torn with
    | true =>
      refine ⟨good, tail ++ part, by simp, ?_, ?_⟩
      · simpa [Log.land, torn] using frames
      · simp [Log.land, torn]
    | false =>
      obtain ⟨rfl, empty⟩ := intact torn
      refine ⟨good ++ part, [], by simp, ?_, ?_⟩
      · simpa [Log.land, torn] using frames.append (.single (landed lands))
      · simp [Log.land, torn, empty]
  · rename_i lands
    obtain ⟨_, untouched⟩ := short (by simpa using lands)
    split
    · -- A part of a frame tears the log.
      exact ⟨good, tail ++ part, by simp, frames, by simp⟩
    · rename_i tears
      rw [untouched (by simpa using tears), List.append_nil]
      exact ⟨good, tail, rfl, frames, intact⟩

/-- Opening a file of whole frames returns their records, unless what follows reads as a frame too. -/
theorem openWal_frames {reader : Reader} {records : List R} {good tail : Bytes}
    (file : reader.file = good ++ tail) (frames : Frames format good records)
    (stops : nextFrame format tail = .stop) : openWal format reader = .ok (good, records) := by
  rw [openWal, replay_eq_scan, file, scan_frames frames, scan_stop stops]
  simp [Except.map, extend]

/-- What a successful open leaves in the file is a log of exactly the records it returned. -/
theorem holds_of_openWal {reader : Reader} {file : Bytes} {records : List R}
    (opened : openWal format reader = .ok (file, records)) :
    Frames format file records := by
  -- A successful opening is a successful replay, and keeps the part that was read.
  rw [openWal, replay_eq_scan] at opened
  cases read : scan format reader.file.length reader.file with
  | error error => rw [read] at opened; cases opened
  | ok result =>
    rw [read] at opened
    obtain ⟨found, validLen⟩ := result
    simp only [Except.ok.injEq, Prod.mk.injEq] at opened
    obtain ⟨rfl, rfl⟩ := opened
    exact frames_of_scan read

end Qaas
