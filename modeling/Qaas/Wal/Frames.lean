import Qaas.Wal.Frame

/-! Files that are a sequence of whole frames, followed by bytes that are not. -/

namespace Qaas

variable {R : Type} {format : Format R}

/-- A file that is exactly the frames of these records. -/
inductive Frames (format : Format R) : Bytes → List R → Prop
  | nil : Frames format [] []
  | cons {head rest : Bytes} {record : R} {records : List R} :
      nextFrame format head = .frame record head.length → Frames format rest records →
      Frames format (head ++ rest) (record :: records)

/-- A frame is read exactly where one is whole, matches its checksum, and decodes. -/
theorem nextFrame_eq_frame {file : Bytes} {record : R} {size : Nat} :
    nextFrame format file = .frame record size ↔
      size = 8 + (fromLeBytes (file.take 4)).toNat ∧ size ≤ file.length ∧
        format.hash ((file.take size).drop 8) = fromLeBytes ((file.drop 4).take 4) ∧
        format.fromSlice ((file.take size).drop 8) = some record := by
  have payload : (file.take (8 + (fromLeBytes (file.take 4)).toNat)).drop 8 =
      (file.drop 8).take (fromLeBytes (file.take 4)).toNat := by
    rw [List.drop_take, Nat.add_sub_cancel_left]
  simp only [nextFrame]
  split
  · rename_i torn
    constructor
    · intro impossible
      cases impossible
    · rintro ⟨rfl, within, matched, _⟩
      rw [payload] at matched
      -- Each way to stop contradicts one of the three conditions.
      rcases torn with header | body | checksum
      · omega
      · omega
      · exact absurd matched checksum
  · rename_i whole
    simp only [not_or, ne_eq, not_not] at whole
    cases decoded : format.fromSlice ((file.drop 8).take (fromLeBytes (file.take 4)).toNat) with
    | none =>
      simp only [reduceCtorEq, false_iff]
      rintro ⟨rfl, _, _, found⟩
      rw [payload, decoded] at found
      cases found
    | some found =>
      simp only [NextFrame.frame.injEq]
      constructor
      · rintro ⟨rfl, rfl⟩
        exact ⟨rfl, by omega, by rw [payload]; exact whole.2.2, by rw [payload]; exact decoded⟩
      · rintro ⟨rfl, _, _, same⟩
        rw [payload, decoded] at same
        exact ⟨Option.some.inj same, rfl⟩

/-- A whole frame is at least a header and at most the file it was read from. -/
theorem nextFrame_size {file : Bytes} {record : R} {size : Nat}
    (read : nextFrame format file = .frame record size) : 8 ≤ size ∧ size ≤ file.length := by
  obtain ⟨announced, within, _⟩ := nextFrame_eq_frame.mp read
  omega

/-- Reading a frame looks only at that frame's own bytes. -/
theorem nextFrame_append {head : Bytes} {record : R}
    (read : nextFrame format head = .frame record head.length) (rest : Bytes) :
    nextFrame format (head ++ rest) = .frame record head.length := by
  obtain ⟨announced, _, matched, decoded⟩ := nextFrame_eq_frame.mp read
  rw [List.take_length] at matched decoded
  -- Header and payload both lie within the frame, so appending leaves each field as it was.
  refine nextFrame_eq_frame.mpr ⟨?_, by simp, ?_, ?_⟩
  · rwa [List.take_append_of_le_length (by omega)]
  · rwa [List.take_left, List.drop_append_of_le_length (by omega),
      List.take_append_of_le_length (by rw [List.length_drop]; omega)]
  · rwa [List.take_left]

/-- Nothing after a frame is needed to read it. -/
theorem nextFrame_take {file : Bytes} {record : R} {size : Nat}
    (read : nextFrame format file = .frame record size) :
    nextFrame format (file.take size) = .frame record (file.take size).length := by
  -- Header and payload lie within the bytes that are kept.
  obtain ⟨announced, within, matched, decoded⟩ := nextFrame_eq_frame.mp read
  have length : (file.take size).length = size := by rw [List.length_take]; omega
  rw [length]
  refine nextFrame_eq_frame.mpr ⟨?_, by omega, ?_, ?_⟩
  · rwa [List.take_take, Nat.min_eq_left (by omega)]
  · have checksumField : ((file.take size).drop 4).take 4 = (file.drop 4).take 4 := by
      rw [List.drop_take, List.take_take, Nat.min_eq_left (by omega)]
    rwa [List.take_take, Nat.min_self, checksumField]
  · rwa [List.take_take, Nat.min_self]

/-- A whole frame is read as what its payload decodes to. -/
theorem nextFrame_payload {record : R} {payload : Bytes}
    (decoded : format.fromSlice payload = some record) (small : payload.length < 2 ^ 32) :
    nextFrame format (framed format payload) = .frame record (framed format payload).length := by
  -- The header announces the payload's own length and checksum.
  have lengthField : (framed format payload).take 4 = toLeBytes (.ofNat payload.length) := rfl
  have checksumField : ((framed format payload).drop 4).take 4 = toLeBytes (format.hash payload) := rfl
  have payloadField : (framed format payload).drop 8 = payload := rfl
  have announced : (UInt32.ofNat payload.length).toNat = payload.length := by
    rw [UInt32.toNat_ofNat']
    omega
  simp [nextFrame, lengthField, checksumField, payloadField, announced, decoded]

/-- The frame that `append` writes is read back as the record it was written for. -/
theorem nextFrame_framed {record : R} {payload : Bytes} (encoded : format.toVec record = some payload)
    (small : payload.length < 2 ^ 32) :
    nextFrame format (framed format payload) = .frame record (framed format payload).length :=
  -- Decoding inverts encoding, so the payload decodes to the record.
  nextFrame_payload (format.decodes record payload encoded) small

/-- A frame cut short anywhere stops the replay. -/
theorem nextFrame_torn {payload : Bytes} (small : payload.length < 2 ^ 32) {written : Nat}
    (partly : written < (framed format payload).length) :
    nextFrame format ((framed format payload).take written) = .stop := by
  rw [framed_length] at partly
  have size : ((framed format payload).take written).length = written := by
    rw [List.length_take, framed_length]; omega
  unfold nextFrame
  rw [if_pos]
  -- The cut is in the header or in the payload.
  by_cases header : written < 8
  · exact .inl (by omega)
  · -- With the header intact, it still announces the whole payload.
    have lengthField : ((framed format payload).take written).take 4 =
        toLeBytes (.ofNat payload.length) := by
      rw [List.take_take, Nat.min_eq_left (by omega)]
      rfl
    refine .inr (.inl ?_)
    rw [size, lengthField, fromLeBytes_toLeBytes, UInt32.toNat_ofNat']
    omega

/-- Frames after frames are frames. -/
theorem Frames.append {first second : Bytes} {records more : List R}
    (left : Frames format first records) (right : Frames format second more) :
    Frames format (first ++ second) (records ++ more) := by
  -- The second file's frames follow the last of the first one's.
  induction left with
  | nil => exact right
  | cons read _ ih =>
    rw [List.append_assoc]
    exact .cons read ih

/-- One whole frame is a file of one record. -/
theorem Frames.single {head : Bytes} {record : R}
    (read : nextFrame format head = .frame record head.length) : Frames format head [record] := by
  simpa using Frames.cons read .nil

/-- More iterations than the file has bytes change nothing. -/
theorem scan_fuel {fuel : Nat} {file : Bytes} (enough : file.length ≤ fuel) :
    scan format fuel file = scan format file.length file := by
  -- Each frame is nonempty, so the induction is on the length of what is left to read.
  induction size : file.length using Nat.strongRecOn generalizing file fuel with
  | ind size ih =>
    subst size
    cases fuel with
    | zero =>
      obtain rfl : file = [] := List.length_eq_zero_iff.mp (by omega)
      rfl
    | succ fuel =>
      cases len : file.length with
      | zero =>
        obtain rfl : file = [] := List.length_eq_zero_iff.mp len
        simp [scan, nextFrame]
      | succ smaller =>
        simp only [scan]
        cases read : nextFrame format file with
        | stop => rfl
        | undecodable => rfl
        | frame record size =>
          have bounds := nextFrame_size read
          have shorter : (file.drop size).length < file.length := by
            rw [List.length_drop]; omega
          simp only
          rw [ih _ shorter (by omega) rfl, ih _ shorter (by omega : _ ≤ smaller) rfl]

/-- Replaying reads the leading frame and then what follows it. -/
theorem scan_frame {file : Bytes} {record : R} {size : Nat}
    (read : nextFrame format file = .frame record size) :
    scan format file.length file =
      (scan format (file.drop size).length (file.drop size)).map (extend [record] size) := by
  -- The frame is nonempty, so fewer bytes are left than there were.
  have bounds := nextFrame_size read
  rw [← scan_fuel (Nat.le_succ file.length)]
  simp only [scan, read]
  rw [scan_fuel (by rw [List.length_drop]; omega)]

/-- Replaying stops where no whole frame follows. -/
theorem scan_stop {file : Bytes} (stopped : nextFrame format file = .stop) :
    scan format file.length file = .ok ([], 0) := by
  rw [← scan_fuel (Nat.le_succ file.length)]
  simp only [scan, stopped]

/-- Whole frames are read in order, whatever follows them. -/
theorem scan_frames {good : Bytes} {records : List R} (frames : Frames format good records)
    (tail : Bytes) :
    scan format (good ++ tail).length (good ++ tail) =
      (scan format tail.length tail).map (extend records good.length) := by
  -- The induction reads one frame of the good part after the other.
  induction frames with
  | nil =>
    rw [List.nil_append]
    cases scan format tail.length tail <;> simp [Except.map, extend]
  | @cons head rest record records read _ ih =>
    rw [List.append_assoc, scan_frame (nextFrame_append read (rest ++ tail)),
      List.drop_left, ih]
    cases scan format tail.length tail with
    | error error => rfl
    | ok result => simp [Except.map, extend, Nat.add_assoc]

/-- What a successful replay accepts is a file of whole frames. -/
theorem frames_of_scan {file : Bytes} {records : List R} {validLen : Nat}
    (read : scan format file.length file = .ok (records, validLen)) :
    Frames format (file.take validLen) records := by
  -- What is left behind the first frame is shorter, so the induction is on the length.
  induction size : file.length using Nat.strongRecOn generalizing file records validLen with
  | ind size ih =>
    subst size
    cases first : nextFrame format file with
    | stop =>
      rw [scan_stop first] at read
      cases read
      exact .nil
    | undecodable =>
      cases len : file.length with
      | zero =>
        obtain rfl : file = [] := List.length_eq_zero_iff.mp len
        simp [nextFrame] at first
      | succ _ => simp [len, scan, first] at read
    | frame record size =>
      have bounds := nextFrame_size first
      rw [scan_frame first] at read
      cases rest : scan format (file.drop size).length (file.drop size) with
      | error error => rw [rest] at read; cases read
      | ok result =>
        -- The frames of the rest follow the first one.
        obtain ⟨more, len⟩ := result
        rw [rest] at read
        simp only [Except.map, extend, Except.ok.injEq, Prod.mk.injEq] at read
        obtain ⟨rfl, rfl⟩ := read
        have later := ih _ (by rw [List.length_drop]; omega) rest rfl
        rw [List.take_add]
        exact .cons (nextFrame_take first) later

end Qaas
