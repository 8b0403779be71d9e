import Qaas.Wal.Durability

/-! Opening a log whose valid frames are followed by bytes that no append wrote. -/

namespace Qaas

variable {R : Type} {format : Format R}

/-- Four bytes are the little-endian form of the number they spell. -/
theorem toLeBytes_fromLeBytes {bytes : Bytes} (four : bytes.length = 4) :
    toLeBytes (fromLeBytes bytes) = bytes := by
  obtain ⟨a, b, c, d, rfl⟩ := List.length_eq_four.mp four
  have first := a.toNat_lt
  have second := b.toNat_lt
  have third := c.toNat_lt
  have fourth := d.toNat_lt
  -- Below 2 ^ 32 the sum is the value itself, and each byte is one of its base-256 digits.
  simp only [fromLeBytes, toLeBytes, UInt32.toNat_ofNat', List.cons.injEq, and_true]
  refine ⟨?_, ?_, ?_, ?_⟩ <;>
  · apply UInt8.toNat.inj
    rw [UInt8.toNat_ofNat']
    omega

/-- Replay goes past its position exactly where some payload's whole frame begins. -/
theorem nextFrame_ne_stop {file : Bytes} :
    nextFrame format file ≠ .stop ↔
      ∃ payload rest, payload.length < 2 ^ 32 ∧ file = framed format payload ++ rest := by
  constructor
  · intro goes
    unfold nextFrame at goes
    simp only at goes
    split at goes
    · exact absurd rfl goes
    rename_i whole
    simp only [not_or, ne_eq, not_not, Nat.not_lt] at whole
    obtain ⟨header, body, checksum⟩ := whole
    refine ⟨(file.drop 8).take (fromLeBytes (file.take 4)).toNat,
      (file.drop 8).drop (fromLeBytes (file.take 4)).toNat, ?_, ?_⟩
    · have bound := (fromLeBytes (file.take 4)).toNat_lt
      rw [List.length_take]
      omega
    · -- The header's two fields are those of the payload it announces.
      have size : ((file.drop 8).take (fromLeBytes (file.take 4)).toNat).length =
          (fromLeBytes (file.take 4)).toNat := by
        rw [List.length_take, List.length_drop]
        omega
      have lengthField : toLeBytes (fromLeBytes (file.take 4)) = file.take 4 :=
        toLeBytes_fromLeBytes (by rw [List.length_take]; omega)
      have checksumField : toLeBytes (fromLeBytes ((file.drop 4).take 4)) = (file.drop 4).take 4 :=
        toLeBytes_fromLeBytes (by rw [List.length_take, List.length_drop]; omega)
      rw [framed, size, UInt32.ofNat_toNat, checksum, lengthField, checksumField,
        List.append_assoc, List.take_append_drop, ← List.take_add, List.take_append_drop]
  · rintro ⟨payload, rest, small, rfl⟩
    have lengthField : (framed format payload ++ rest).take 4 = toLeBytes (.ofNat payload.length) := rfl
    have checksumField : ((framed format payload ++ rest).drop 4).take 4 =
        toLeBytes (format.hash payload) := rfl
    have announced : (UInt32.ofNat payload.length).toNat = payload.length := by
      rw [UInt32.toNat_ofNat']
      omega
    have payloadField : ((framed format payload ++ rest).drop 8).take payload.length = payload := by
      rw [show (framed format payload ++ rest).drop 8 = payload ++ rest from rfl, List.take_left]
    unfold nextFrame
    simp only [lengthField, checksumField, fromLeBytes_toLeBytes, announced, payloadField]
    -- None of the three ways to stop is open, whether or not the payload is a record.
    rw [if_neg (by simp only [List.length_append, framed_length, not_or]; simp; omega)]
    cases format.fromSlice payload <;> simp

/-- Opening returns exactly the valid records, cut to their frames, where replay stops behind them. -/
theorem openWal_eq_iff {good tail : Bytes} {records : List R}
    (frames : Frames format good records) (splits : List Nat) :
    openWal format ⟨good ++ tail, splits⟩ = .ok (good, records) ↔ nextFrame format tail = .stop := by
  refine ⟨fun opened => ?_, openWal_frames rfl frames⟩
  rw [openWal, replay_eq_scan, scan_frames frames] at opened
  cases next : nextFrame format tail with
  | stop => rfl
  | undecodable =>
    -- The error of the frame behind the log is the error of the opening.
    exfalso
    have failed : scan format tail.length tail = .error .invalidData := by
      cases size : tail.length with
      | zero => simp [List.length_eq_zero_iff.mp size, nextFrame] at next
      | succ _ => simp only [scan, next]
    simp [failed, Except.map] at opened
  | frame record size =>
    exfalso
    rw [scan_frame next] at opened
    -- The opening fails, or it returns one record more than the log had.
    cases rest : scan format (tail.drop size).length (tail.drop size) with
    | error error =>
      rw [rest] at opened
      simp [Except.map] at opened
    | ok result =>
      rw [rest] at opened
      simp [Except.map, extend] at opened

/-- The bytes begin with the whole frame of a payload that is not empty. -/
def BeginsWithFrame (format : Format R) (bytes : Bytes) : Prop :=
  ∃ payload rest, payload ≠ [] ∧ payload.length < 2 ^ 32 ∧ bytes = framed format payload ++ rest

/-- The header that announces an empty payload, where that payload's checksum is zero. -/
def zeroHeader : Bytes := List.replicate (lengthPrefixBytes + checksumBytes) 0

/-- A header of zeros is the whole frame of the empty payload. -/
theorem framed_nil (emptyHash : format.hash [] = 0) : framed format [] = zeroHeader := by
  rw [framed, emptyHash]
  rfl

/-- Opening a log with a garbage tail returns the valid records unless the tail starts with eight zero bytes. -/
theorem garbage_tail (emptyHash : format.hash [] = 0) {good tail : Bytes} {records : List R}
    (frames : Frames format good records) (garbage : ¬ BeginsWithFrame format tail)
    (splits : List Nat) :
    openWal format ⟨good ++ tail, splits⟩ = .ok (good, records) ↔ ¬ zeroHeader <+: tail := by
  rw [openWal_eq_iff frames, ← not_iff_not, not_not, ← ne_eq, nextFrame_ne_stop]
  constructor
  · rintro ⟨payload, rest, small, rfl⟩
    -- Garbage leaves only the empty payload.
    have empty : payload = [] := by
      by_contra nonempty
      exact garbage ⟨payload, rest, nonempty, small, rfl⟩
    subst empty
    rw [framed_nil emptyHash]
    exact List.prefix_append _ _
  · rintro ⟨rest, rfl⟩
    exact ⟨[], rest, by simp, by rw [framed_nil emptyHash]⟩

/-- Fewer bytes than a header and one payload byte begin with no such frame. -/
theorem not_beginsWithFrame_of_short {bytes : Bytes} (short : bytes.length < 9) :
    ¬ BeginsWithFrame format bytes := by
  -- A header takes eight bytes, and the payload at least one.
  rintro ⟨payload, rest, nonempty, _, rfl⟩
  have positive := List.length_pos_iff.mpr nonempty
  rw [List.length_append, framed_length] at short
  omega

/-- One record's frame and seven zero bytes open to the record and its frame. -/
theorem garbage_tail_seven_zeros :
    openWal boolFormat ⟨framed boolFormat [0x74, 0x72, 0x75, 0x65] ++ List.replicate 7 0, []⟩ =
      .ok (framed boolFormat [0x74, 0x72, 0x75, 0x65], [true]) := by
  have frames : Frames boolFormat (framed boolFormat [0x74, 0x72, 0x75, 0x65]) [true] :=
    .single (nextFrame_framed rfl (by decide))
  exact (garbage_tail crc32_nil frames (not_beginsWithFrame_of_short (by decide)) []).mpr (by decide)

/-- One more zero byte, and the same log no longer opens. -/
theorem zero_tail_unopenable :
    Frames boolFormat (framed boolFormat [0x74, 0x72, 0x75, 0x65]) [true] ∧
      ¬ BeginsWithFrame boolFormat (List.replicate 8 0) ∧
      openWal boolFormat ⟨framed boolFormat [0x74, 0x72, 0x75, 0x65] ++ List.replicate 8 0, []⟩ =
        .error .invalidData := by
  refine ⟨.single (nextFrame_framed rfl (by decide)), not_beginsWithFrame_of_short (by decide), ?_⟩
  decide +kernel

end Qaas
