import Mathlib.Algebra.Group.Nat.Defs
import Mathlib.Data.List.Basic

/-! The write-ahead log as bytes: framing, appending, and replaying what a file holds. -/

namespace Qaas

/-- The contents of a file, or of part of one. -/
abbrev Bytes := List UInt8

/-- Bytes in a record's length-prefix field. -/
def lengthPrefixBytes : Nat := 4

/-- Bytes in a record's checksum field. -/
def checksumBytes : Nat := 4

/-- The four little-endian bytes of a `u32`. -/
def toLeBytes (value : UInt32) : Bytes :=
  [.ofNat value.toNat, .ofNat (value.toNat / 256), .ofNat (value.toNat / 256 ^ 2),
    .ofNat (value.toNat / 256 ^ 3)]

/-- The `u32` that four little-endian bytes spell. -/
def fromLeBytes : Bytes → UInt32
  | [a, b, c, d] => .ofNat (a.toNat + 256 * b.toNat + 256 ^ 2 * c.toNat + 256 ^ 3 * d.toNat)
  -- The header is cut into fields of exactly four bytes, so no other length is ever read.
  | _ => 0

/-- What the log relies on outside this crate: a JSON codec and a checksum. -/
structure Format (R : Type) where
  /-- `serde_json::to_vec` -/
  toVec : R → Option Bytes
  /-- `serde_json::from_slice` -/
  fromSlice : Bytes → Option R
  /-- `crc32fast::hash` -/
  hash : Bytes → UInt32
  /-- Decoding inverts encoding. -/
  decodes : ∀ record payload, toVec record = some payload → fromSlice payload = some record

/-- What opening or appending can report. -/
inductive IoError
  | invalidData
  | writeFailed
  deriving DecidableEq, Repr

/-- What `readExactOrEof` found when trying to fill a buffer. -/
inductive ReadOutcome
  | full
  | eof
  | shortRead
  deriving DecidableEq, Repr

/-- An open file: the bytes not read yet, and how many each coming `read` call will return. -/
structure Reader where
  file : Bytes
  splits : List Nat

/-- One `read` call returns any positive number of bytes up to the one asked for, while any are left. -/
def Reader.read (want : Nat) (reader : Reader) : Bytes × Reader :=
  -- Where the list of sizes has run out, the call returns everything it was asked for.
  let count := min want (max 1 (reader.splits.headD want))
  (reader.file.take count, ⟨reader.file.drop count, reader.splits.tail⟩)

/-- The loop of `readExactOrEof`, with the buffer filled so far and the number of bytes missing. -/
def readExactOrEofFrom : Nat → Reader → Bytes → Nat → ReadOutcome × Bytes × Reader
  | _, reader, filled, 0 => (.full, filled, reader)
  | 0, reader, filled, _ + 1 => (.shortRead, filled, reader)
  | fuel + 1, reader, filled, missing + 1 =>
    let (got, reader) := reader.read (missing + 1)
    if got.isEmpty then
      (if filled.isEmpty then .eof else .shortRead, filled, reader)
    else readExactOrEofFrom fuel reader (filled ++ got) (missing + 1 - got.length)

/-- Fill a buffer, telling a clean end of file from a torn one. -/
def readExactOrEof (reader : Reader) (want : Nat) : ReadOutcome × Bytes × Reader :=
  -- Each call returns a byte or ends the loop, so the buffer's length bounds the iterations.
  readExactOrEofFrom want reader [] want

variable {R : Type}

/-- The loop of `replay`, with the records read so far and the length they take up. -/
def replayFrom (format : Format R) : Nat → Reader → List R → Nat → Except IoError (List R × Nat)
  | 0, _, records, validLen => .ok (records, validLen)
  | fuel + 1, reader, records, validLen =>
    match readExactOrEof reader (lengthPrefixBytes + checksumBytes) with
    | (.full, header, reader) =>
      let payloadLen := fromLeBytes (header.take lengthPrefixBytes)
      let expectedChecksum := fromLeBytes (header.drop lengthPrefixBytes)
      match readExactOrEof reader payloadLen.toNat with
      | (.full, payload, reader) =>
        -- Bytes that do not match their own checksum are treated as a torn write is.
        if format.hash payload ≠ expectedChecksum then .ok (records, validLen)
        else match format.fromSlice payload with
          | none => .error .invalidData
          | some record =>
            replayFrom format fuel reader (records ++ [record])
              (validLen + (header.length + payload.length))
      | (_, _, _) => .ok (records, validLen)
    | (_, _, _) => .ok (records, validLen)

/-- Read every record from the start of a file, stopping at the first torn or corrupt one. -/
def replay (format : Format R) (reader : Reader) : Except IoError (List R × Nat) :=
  -- Every record takes at least a header, so the file's length bounds the iterations.
  replayFrom format reader.file.length reader [] 0

/-- Replay a file and cut it to its valid part; a file that does not exist is an empty one. -/
def openWal (format : Format R) (reader : Reader) : Except IoError (Bytes × List R) :=
  match replay format reader with
  | .error error => .error error
  | .ok (records, validLen) => .ok (reader.file.take validLen, records)

/-- The bytes one payload is stored as: `[u32 length][u32 crc32][payload]`. -/
def framed (format : Format R) (payload : Bytes) : Bytes :=
  toLeBytes (.ofNat payload.length) ++ toLeBytes (format.hash payload) ++ payload

/-- How the write and the sync of one append end. -/
inductive WriteOutcome
  /-- All bytes written and synced. -/
  | synced
  /-- A failure that is reported, or a dropped future, after this many bytes reached the file. -/
  | stopped (written : Nat)
  /-- A queued write that fails after this many bytes, short of the last, and how the sync behind it
  ends. -/
  | unreported (written : Nat) (synced : Bool)
  /-- The future is dropped before it writes. -/
  | unstarted
  deriving DecidableEq, Repr

/-- The open file of a log, which is written in the background: `write_all` returns when the bytes are
queued, and the error of a write that then fails is kept for the next one. -/
structure Writer where
  file : Bytes
  /-- Whether the error of a write is kept. -/
  lastWriteErr : Bool := false
  deriving DecidableEq, Repr

/-- `write_all` and `sync_data`. -/
def Writer.writeAndSync (writer : Writer) (frame : Bytes) (outcome : WriteOutcome) :
    Writer × Except IoError Unit :=
  match outcome, writer.lastWriteErr with
  | .unstarted, _ => (writer, .error .writeFailed)
  -- `write_all` returns the error of the write before this one, and writes nothing.
  | _, true => ({ writer with lastWriteErr := false }, .error .writeFailed)
  | .synced, false => ({ writer with file := writer.file ++ frame }, .ok ())
  | .stopped written, false =>
    ({ writer with file := writer.file ++ frame.take written }, .error .writeFailed)
  -- `sync_data` waits for the queued write, keeps its error, and returns how the sync itself ends.
  | .unreported written synced, false =>
    (⟨writer.file ++ frame.dropLast.take written, true⟩,
      if synced then .ok () else .error .writeFailed)

/-- Append one record to a file opened for appending. -/
def append (format : Format R) (writer : Writer) (record : R) (outcome : WriteOutcome) :
    Writer × Except IoError Unit :=
  match format.toVec record with
  | none => (writer, .error .invalidData)
  | some payload =>
    -- `u32::try_from` refuses a payload that the length prefix cannot address.
    if payload.length < 2 ^ 32 then writer.writeAndSync (framed format payload) outcome
    else (writer, .error .invalidData)

/-- A `u32` is read back as it was written. -/
@[simp] theorem fromLeBytes_toLeBytes (value : UInt32) : fromLeBytes (toLeBytes value) = value := by
  -- The four bytes are the base-256 digits, and a 32-bit value has no more of them.
  have bound := value.toNat_lt
  apply UInt32.toNat.inj
  simp only [toLeBytes, fromLeBytes, UInt8.toNat_ofNat', UInt32.toNat_ofNat']
  omega

@[simp] theorem toLeBytes_length (value : UInt32) : (toLeBytes value).length = 4 := rfl

/-- A frame is its header and its payload. -/
@[simp] theorem framed_length (format : Format R) (payload : Bytes) :
    (framed format payload).length = 8 + payload.length := by
  simp only [framed, List.length_append, toLeBytes_length]

/-- A record without an encoding is refused, and writes nothing. -/
theorem append_unencodable {format : Format R} {record : R} (encoded : format.toVec record = none)
    (writer : Writer) (outcome : WriteOutcome) :
    append format writer record outcome = (writer, .error .invalidData) := by
  simp only [append, encoded]

/-- A payload that the length prefix cannot address is refused, and writes nothing. -/
theorem append_oversized {format : Format R} {record : R} {payload : Bytes}
    (encoded : format.toVec record = some payload) (large : ¬ payload.length < 2 ^ 32) (writer : Writer)
    (outcome : WriteOutcome) : append format writer record outcome = (writer, .error .invalidData) := by
  simp only [append, encoded]
  rw [if_neg large]

/-- A payload that fits is framed and written. -/
theorem append_framed {format : Format R} {record : R} {payload : Bytes}
    (encoded : format.toVec record = some payload) (small : payload.length < 2 ^ 32) (writer : Writer)
    (outcome : WriteOutcome) :
    append format writer record outcome = writer.writeAndSync (framed format payload) outcome := by
  simp only [append, encoded]
  rw [if_pos small]

/-- A nonempty read makes progress towards the number of bytes missing. -/
theorem read_spec (reader : Reader) (want : Nat) (positive : 0 < want) :
    ∃ count, 0 < count ∧ count ≤ want ∧
      reader.read want = (reader.file.take count, ⟨reader.file.drop count, reader.splits.tail⟩) :=
  ⟨min want (max 1 (reader.splits.headD want)), by omega, by omega, rfl⟩

/-- However the reads are split, the loop returns the bytes asked for if the file has them. -/
theorem readExactOrEofFrom_full {fuel missing : Nat} (reader : Reader) (filled : Bytes)
    (enough : missing ≤ fuel) (available : missing ≤ reader.file.length) :
    ∃ splits, readExactOrEofFrom fuel reader filled missing =
      (.full, filled ++ reader.file.take missing, ⟨reader.file.drop missing, splits⟩) := by
  -- Every call makes progress, and what is left is the same claim about the rest of the file.
  induction fuel generalizing missing reader filled with
  | zero =>
    obtain rfl : missing = 0 := by omega
    exact ⟨reader.splits, by simp [readExactOrEofFrom]⟩
  | succ fuel ih =>
    cases missing with
    | zero => exact ⟨reader.splits, by simp [readExactOrEofFrom]⟩
    | succ missing =>
      obtain ⟨count, progress, within, called⟩ := read_spec reader (missing + 1) (by omega)
      have size : (reader.file.take count).length = count := by
        rw [List.length_take]; omega
      have nonempty : (reader.file.take count).isEmpty = false := by
        cases taken : reader.file.take count with
        | nil => rw [taken] at size; simp only [List.length_nil] at size; omega
        | cons _ _ => rfl
      have left : missing + 1 - count ≤ (reader.file.drop count).length := by
        rw [List.length_drop]; omega
      obtain ⟨splits, rest⟩ :=
        ih ⟨reader.file.drop count, reader.splits.tail⟩ (filled ++ reader.file.take count)
          (by omega : missing + 1 - count ≤ fuel) left
      refine ⟨splits, ?_⟩
      simp only [readExactOrEofFrom, called, nonempty, size, rest, Bool.false_eq_true, if_false,
        List.append_assoc, List.drop_drop, Prod.mk.injEq, Reader.mk.injEq, true_and, and_true,
        List.append_cancel_left_eq]
      -- The part just read and the part still to read make up the buffer.
      refine ⟨?_, by congr 1; omega⟩
      rw [← List.take_add]
      congr 1
      omega

/-- However the reads are split, a file that ends too early is noticed. -/
theorem readExactOrEofFrom_short {fuel missing : Nat} (reader : Reader) (filled : Bytes)
    (enough : missing ≤ fuel) (short : reader.file.length < missing) :
    (readExactOrEofFrom fuel reader filled missing).1 ≠ .full := by
  -- The loop ends before the buffer is full, because the file is too short for that.
  induction fuel generalizing missing reader filled with
  | zero => omega
  | succ fuel ih =>
    cases missing with
    | zero => omega
    | succ missing =>
      obtain ⟨count, progress, within, called⟩ := read_spec reader (missing + 1) (by omega)
      simp only [readExactOrEofFrom, called]
      split
      · -- Nothing was read, so the loop ends with one of its two end-of-file outcomes.
        split <;> simp
      · rename_i got
        -- A part was read, and the rest of the file is still too short for the rest of the buffer.
        have nonempty : (reader.file.take count).length ≠ 0 := by
          intro empty
          exact got (by rw [List.length_eq_zero_iff.mp empty]; rfl)
        rw [List.length_take] at nonempty ⊢
        exact ih _ _ (by omega) (by simp only [List.length_drop]; omega)

/-- What the bytes at the start of a file mean to `replay`. -/
inductive NextFrame (R : Type)
  /-- A clean end, a torn frame, or one that does not match its checksum. -/
  | stop
  /-- A whole frame whose payload is no record. -/
  | undecodable
  /-- A whole frame, and the number of bytes it takes. -/
  | frame (record : R) (size : Nat)

/-- Read one frame at the start of a file. -/
def nextFrame (format : Format R) (file : Bytes) : NextFrame R :=
  let payloadLen := (fromLeBytes (file.take 4)).toNat
  let payload := (file.drop 8).take payloadLen
  if file.length < 8 ∨ file.length < 8 + payloadLen ∨
      format.hash payload ≠ fromLeBytes ((file.drop 4).take 4) then .stop
  else match format.fromSlice payload with
    | none => .undecodable
    | some record => .frame record (8 + payloadLen)

/-- What a replay has read so far, followed by what it reads from there. -/
def extend (earlier : List R) (len : Nat) (more : List R × Nat) : List R × Nat :=
  (earlier ++ more.1, len + more.2)

/-- Read frames for as long as they are whole and match their checksums. -/
def scan (format : Format R) : Nat → Bytes → Except IoError (List R × Nat)
  | 0, _ => .ok ([], 0)
  | fuel + 1, file =>
    match nextFrame format file with
    | .stop => .ok ([], 0)
    | .undecodable => .error .invalidData
    | .frame record size => (scan format fuel (file.drop size)).map (extend [record] size)

/-- The replay loop reads the frames at the start of what is left of the file. -/
theorem replayFrom_eq_scan (format : Format R) (fuel : Nat) (reader : Reader) (records : List R)
    (validLen : Nat) :
    replayFrom format fuel reader records validLen =
      (scan format fuel reader.file).map (extend records validLen) := by
  -- Each iteration of the loop reads one frame, whatever the sizes of its reads.
  induction fuel generalizing reader records validLen with
  | zero => simp [replayFrom, scan, Except.map, extend]
  | succ fuel ih =>
    simp only [replayFrom, scan, nextFrame, lengthPrefixBytes, checksumBytes, readExactOrEof]
    by_cases headerShort : reader.file.length < 8
    · -- Not even a header is left, and an outcome other than `full` takes the last branch.
      have outcome := readExactOrEofFrom_short reader [] (Nat.le_refl 8) headerShort
      simp only [headerShort, true_or, if_true, Except.map, extend, List.append_nil, Nat.add_zero]
    · obtain ⟨splits, header⟩ := readExactOrEofFrom_full reader [] (Nat.le_refl 8)
        (Nat.le_of_not_lt headerShort)
      have lengthField : (reader.file.take 8).take 4 = reader.file.take 4 := by
        rw [List.take_take]; rfl
      have checksumField : (reader.file.take 8).drop 4 = (reader.file.drop 4).take 4 := by
        rw [List.drop_take]
      simp only [header, List.nil_append, lengthField, checksumField, headerShort, false_or]
      generalize (fromLeBytes (reader.file.take 4)).toNat = payloadLen
      by_cases payloadShort : reader.file.length < 8 + payloadLen
      · -- The header is whole but the payload it announces is not.
        have outcome := readExactOrEofFrom_short ⟨reader.file.drop 8, splits⟩ []
          (Nat.le_refl payloadLen) (by simp only [List.length_drop]; omega)
        simp only [payloadShort, true_or, if_true, Except.map, extend, List.append_nil, Nat.add_zero]
      · obtain ⟨splits', payload⟩ := readExactOrEofFrom_full
          ⟨reader.file.drop 8, splits⟩ [] (Nat.le_refl payloadLen) (by simp only [List.length_drop]; omega)
        simp only [payload, List.nil_append, payloadShort, false_or]
        split
        · simp [Except.map, extend]
        · cases format.fromSlice ((reader.file.drop 8).take payloadLen) with
          | none => rfl
          | some record =>
            -- The record counts with the length of its header and its payload.
            have headerSize : (reader.file.take 8).length = 8 := by
              rw [List.length_take]; omega
            have payloadSize : ((reader.file.drop 8).take payloadLen).length = payloadLen := by
              rw [List.length_take, List.length_drop]; omega
            simp only [ih, List.drop_drop, headerSize, payloadSize]
            cases scan format fuel (reader.file.drop (8 + payloadLen)) with
            | error error => rfl
            | ok result => simp [Except.map, extend, Nat.add_assoc]

/-- However the operating system splits the reads, replaying a file reads its frames. -/
theorem replay_eq_scan (format : Format R) (reader : Reader) :
    replay format reader = scan format reader.file.length reader.file := by
  rw [replay, replayFrom_eq_scan]
  cases scan format reader.file.length reader.file <;> simp [Except.map, extend]

end Qaas
