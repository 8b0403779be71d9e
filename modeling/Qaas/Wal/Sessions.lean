import Qaas.Wal.Durability

/-! Recovery over sessions that each open the log, append to it, and die inside one more append. -/

namespace Qaas

variable {R : Type} {format : Format R}

/-- The bytes that the frames of some records take, in order. -/
def framesOf (format : Format R) (records : List R) : Bytes :=
  records.flatMap fun record => ((format.toVec record).map (framed format)).getD []

@[simp] theorem framesOf_append (earlier later : List R) :
    framesOf format (earlier ++ later) = framesOf format earlier ++ framesOf format later :=
  List.flatMap_append

/--
One session on a log, from its opening to the crash that ends it.

The crash comes inside the frame of one more record, and how much of that frame is left is open.
-/
structure Session (format : Format R) where
  /-- How many bytes each `read` call of the opening returns. -/
  splits : List Nat
  /-- The records appended one after the other, with no write or sync failing. -/
  appended : List R
  /-- The record whose append the crash interrupts. -/
  torn : R
  /-- How many bytes of its frame reached the file. -/
  written : Nat
  /-- They are not the whole frame. -/
  partly : ∀ payload, format.toVec torn = some payload → written < (framed format payload).length

/-- The file that one session leaves, and the records whose append returned `Ok` in it. -/
def Session.run (session : Session format) (file : Bytes) : Except IoError (Bytes × List R) :=
  match openWal format ⟨file, session.splits⟩ with
  | .error error => .error error
  | .ok (file, _) =>
    let (writer, acknowledged) := appends format ⟨file, false⟩ (session.appended.map (·, .synced))
    .ok ((append format writer session.torn (.stopped session.written)).1.file, acknowledged)

/-- The file that one session after the other leaves, and the records acknowledged in any of them. -/
def Session.runAll : List (Session format) → Bytes → Except IoError (Bytes × List R)
  | [], file => .ok (file, [])
  | session :: later, file =>
    match session.run file with
    | .error error => .error error
    | .ok (file, acknowledged) =>
      (runAll later file).map fun (file, more) => (file, acknowledged ++ more)

/-- A file that holds the frames of some records, and nothing behind them that reads as a frame. -/
def Recoverable (format : Format R) (file : Bytes) (records : List R) : Prop :=
  Frames format (framesOf format records) records ∧
    ∃ tail, file = framesOf format records ++ tail ∧ nextFrame format tail = .stop

/-- A new file is empty, and so is the log it holds. -/
theorem recoverable_nil : Recoverable format [] [] :=
  ⟨.nil, [], rfl, by simp [nextFrame]⟩

/-- Opening such a file returns its records and cuts it to their frames, however the reads are split. -/
theorem Recoverable.opens {file : Bytes} {records : List R}
    (recoverable : Recoverable format file records) (splits : List Nat) :
    openWal format ⟨file, splits⟩ = .ok (framesOf format records, records) := by
  obtain ⟨frames, tail, rfl, stops⟩ := recoverable
  exact openWal_frames rfl frames stops

/-- Whether a record has an encoding that the length prefix can address. -/
def Fits (format : Format R) (record : R) : Prop :=
  ∃ payload, format.toVec record = some payload ∧ payload.length < 2 ^ 32

/-- An append without a failing write adds one whole frame, or is refused and adds nothing. -/
theorem append_synced (format : Format R) (file : Bytes) (record : R) :
    (append format ⟨file, false⟩ record .synced = (⟨file ++ framesOf format [record], false⟩, .ok ()) ∧
        Frames format (framesOf format [record]) [record]) ∨
      (append format ⟨file, false⟩ record .synced = (⟨file, false⟩, .error .invalidData) ∧
        ¬ Fits format record) := by
  -- The append is refused before the write, or it writes the whole frame.
  cases encoded : format.toVec record with
  | none =>
    refine .inr ⟨append_unencodable encoded _ .synced, fun ⟨payload, fits, _⟩ => ?_⟩
    rw [encoded] at fits
    cases fits
  | some payload =>
    by_cases small : payload.length < 2 ^ 32
    · -- The frame is the one that `append` writes, and it reads back as the record.
      have frame : framesOf format [record] = framed format payload := by
        simp [framesOf, encoded]
      rw [frame]
      exact .inl ⟨append_framed encoded small _ .synced, .single (nextFrame_framed encoded small)⟩
    · refine .inr ⟨append_oversized encoded small _ .synced, fun ⟨other, fits, fewer⟩ => small ?_⟩
      rw [encoded] at fits
      exact Option.some.inj fits ▸ fewer

/-- Appends without a failing write extend the frames by exactly those of the acknowledged records,
which are all of them if they fit. -/
theorem appends_synced (records : List R) : ∀ {file : Bytes} {earlier : List R},
    Frames format file earlier →
      ∃ acknowledged, appends format ⟨file, false⟩ (records.map (·, .synced)) =
          (⟨file ++ framesOf format acknowledged, false⟩, acknowledged) ∧
        Frames format (file ++ framesOf format acknowledged) (earlier ++ acknowledged) ∧
        ((∀ record ∈ records, Fits format record) → acknowledged = records) := by
  -- The induction walks the records in order, with the frames written so far as the file.
  induction records with
  | nil =>
    intro file earlier frames
    exact ⟨[], by simp [appends, framesOf], by simpa [framesOf] using frames, fun _ => rfl⟩
  | cons record records ih =>
    intro file earlier frames
    rcases append_synced format file record with ⟨appended, whole⟩ | ⟨refused, unfit⟩
    · -- The record heads those acknowledged after it, and its frame stands before theirs.
      obtain ⟨acknowledged, ran, later, all⟩ := ih (frames.append whole)
      rw [List.append_assoc, ← framesOf_append, List.singleton_append] at ran later
      rw [List.append_assoc, List.singleton_append] at later
      refine ⟨record :: acknowledged, by simp only [List.map_cons, appends, appended, ran], later, ?_⟩
      exact fun fit => congrArg _ (all fun other member => fit other (List.mem_cons_of_mem _ member))
    · -- A refused record leaves the file and the acknowledged records alone.
      obtain ⟨acknowledged, ran, later, _⟩ := ih frames
      refine ⟨acknowledged, by simp only [List.map_cons, appends, refused, ran], later, fun fit => ?_⟩
      exact absurd (fit record List.mem_cons_self) unfit

/-- A crash inside an append leaves a tail that does not read as a frame. -/
theorem Session.crash (session : Session format) (file : Bytes) :
    ∃ tail, (append format ⟨file, false⟩ session.torn (.stopped session.written)).1.file = file ++ tail ∧
      nextFrame format tail = .stop := by
  obtain ⟨part, file, landed, short, _⟩ := append_spec format ⟨file, false⟩ session.torn (.stopped session.written)
  refine ⟨part, file, (short ?_).1⟩
  -- The whole frame does not reach the file.
  unfold appendOutcome
  cases encoded : format.toVec session.torn with
  | none => rfl
  | some payload =>
    have partly := session.partly payload encoded
    simp only [Writer.outcome, partly, if_true]
    split
    · split <;> rfl
    · rfl

/-- A session on a recoverable file leaves a recoverable one, with its acknowledged records added. -/
theorem Recoverable.run {file : Bytes} {earlier : List R}
    (recoverable : Recoverable format file earlier) (session : Session format) :
    ∃ left acknowledged, session.run file = .ok (left, acknowledged) ∧
      Recoverable format left (earlier ++ acknowledged) ∧
      ((∀ record ∈ session.appended, Fits format record) → acknowledged = session.appended) := by
  have opened := recoverable.opens session.splits
  -- The opening has healed the file, so the appends start from whole frames.
  obtain ⟨acknowledged, ran, frames, all⟩ := appends_synced session.appended recoverable.1
  obtain ⟨tail, crashed, stops⟩ := session.crash (framesOf format earlier ++ framesOf format acknowledged)
  refine ⟨_, acknowledged, by simp only [Session.run, opened, ran]; rfl, ?_, all⟩
  -- What the crash has torn stands behind the frames of this session.
  rw [Recoverable, framesOf_append]
  exact ⟨frames, tail, crashed, stops⟩

/-- Any number of sessions keeps the file recoverable. -/
theorem Recoverable.runAll (sessions : List (Session format)) : ∀ {file : Bytes} {earlier : List R},
    Recoverable format file earlier →
      ∃ left acknowledged, Session.runAll sessions file = .ok (left, acknowledged) ∧
        Recoverable format left (earlier ++ acknowledged) ∧
        ((∀ session ∈ sessions, ∀ record ∈ session.appended, Fits format record) →
          acknowledged = sessions.flatMap Session.appended) := by
  -- The induction is on the sessions, each of which starts from what the one before has left.
  induction sessions with
  | nil =>
    intro file earlier recoverable
    exact ⟨file, [], rfl, by simpa using recoverable, fun _ => rfl⟩
  | cons session sessions ih =>
    intro file earlier recoverable
    obtain ⟨left, acknowledged, ran, healed, all⟩ := recoverable.run session
    obtain ⟨last, more, onward, final, others⟩ := ih healed
    refine ⟨last, acknowledged ++ more, ?_, by rwa [List.append_assoc] at final, fun fit => ?_⟩
    · simp only [Session.runAll, ran, onward, Except.map]
    · obtain ⟨own, later⟩ := List.forall_mem_cons.mp fit
      rw [all own, others later, List.flatMap_cons]

/--
Recovery over many sessions.

After any number of them, the next opening returns all records acknowledged so far, in order, and
cuts the file to exactly their frames; and every append is acknowledged whose record fits.
-/
theorem sessions_recover (sessions : List (Session format)) :
    ∃ file acknowledged, Session.runAll sessions [] = .ok (file, acknowledged) ∧
      (∀ splits, openWal format ⟨file, splits⟩ =
        .ok (framesOf format acknowledged, acknowledged)) ∧
      ((∀ session ∈ sessions, ∀ record ∈ session.appended, Fits format record) →
        acknowledged = sessions.flatMap Session.appended) := by
  obtain ⟨file, acknowledged, ran, recoverable, all⟩ := Recoverable.runAll sessions recoverable_nil
  exact ⟨file, acknowledged, ran, recoverable.opens, all⟩

/-- Two records, a crash inside the frame of a third, and a session behind it. -/
def twoCrashes : List (Session boolFormat) :=
  [⟨[], [true, false], true, 3, fun payload encoded => by cases encoded; decide⟩,
    ⟨[1, 5], [false], false, 8, fun payload encoded => by cases encoded; decide⟩]

theorem sessions_recover_twoCrashes : ∃ file, Session.runAll twoCrashes [] = .ok (file, [true, false, false]) ∧
    ∀ splits, openWal boolFormat ⟨file, splits⟩ =
      .ok (framesOf boolFormat [true, false, false], [true, false, false]) := by
  obtain ⟨file, acknowledged, ran, opens, all⟩ := sessions_recover twoCrashes
  -- Either boolean fits.
  obtain rfl := all fun session _ record _ => by cases record <;> exact ⟨_, rfl, by decide⟩
  exact ⟨file, ran, opens⟩

end Qaas
