import Qaas.Concurrency.Simulation
import Qaas.Group.Encoding
import Qaas.Group.Sound
import Qaas.Wal.Payloads

/-! A group in use on two files of bytes, and that it is the group in use on two logs of records. -/

namespace Qaas

open Concurrency Serde

variable {T V : Type}

/-- The record that an operation's next step appends to the main log. -/
def Pc.mainRecord : Pc T V → Option (WalRecord T V)
  | .appendEnqueue message _ => some (.enqueue message.id message.idempotencyKey message.item)
  | .appendDeadLettered id _ => some (.deadLettered id)
  | .appendAck id => some (.ack id)
  | .appendCheckpoint id _ state => some (.checkpoint id state)
  | _ => none

/-- The record that an operation's next step appends to the dead-letter queue's log. -/
def Pc.dlqRecord (retryPolicy : RetryPolicy) (wallClock : Timestamp) : Pc T V → Option (DlqRecord T V)
  | .resolve failed _ =>
    if retryPolicy.isExhausted failed.deliveryCount then some (.deadLetter (failed.deadLetter wallClock))
    else none
  | .appendAnnotate id verdict => some (.annotate id verdict)
  | .appendRemove letter _ => some (.remove letter.id)
  | _ => none

/-- What a record of the main log is written as, if it can be written. -/
def RecordWire.mainPayload (wire : RecordWire T V) (record : WalRecord T V) : Option Bytes :=
  ((record.encode wire).bind wire.toVec).toOption

/-- What a record of the dead-letter queue's log is written as, if it can be written. -/
def RecordWire.dlqPayload (wire : RecordWire T V) (record : DlqRecord T V) : Option Bytes :=
  ((record.encode wire).bind wire.toVec).toOption

/-- How a group's main log is read. -/
abbrev RecordWire.main (wire : RecordWire T V) : Format (WalRecord T V) :=
  wire.reading (WalRecord.decoder wire.toLogWire)

/-- How the dead-letter queue's log is read. -/
abbrev RecordWire.dlq (wire : RecordWire T V) : Format (DlqRecord T V) :=
  wire.reading (DlqRecord.decoder wire.toLogWire)

/-- A group in use, and its two files. -/
structure DiskWorld (T V : Type) where
  world : World T V
  wal : Writer
  dlqWal : Writer

/-- What can happen next, with writes told by their bytes. -/
inductive DiskAction (T V : Type)
  | call (call : Call T V)
  | step (task : Nat) (order : List MessageId) (draw : Draw) (outcome : WriteOutcome)
  -- What becomes of the write that the future waited for.
  | drop (task : Nat) (wrote : WriteOutcome)
  | tick (elapsed : { elapsed : Duration // 0 ≤ elapsed })
  | setWallClock (wallClock : Timestamp)
  -- Each file is read in pieces of its own sizes.
  | reopen (order : List MessageId) (splits dlqSplits : List Nat)

/-- The record that an operation's next step appends to the dead-letter queue's log of a world. -/
def World.dlqRecord (world : World T V) (pc : Pc T V) : Option (DlqRecord T V) :=
  pc.dlqRecord world.shared.group.retryPolicy world.shared.wallClock

/-- How the append of an operation's next step ends, judged by the bytes that reach its file. -/
def DiskWorld.outcome (wire : RecordWire T V) (disk : DiskWorld T V) (outcome : WriteOutcome)
    (pc : Pc T V) : AppendOutcome :=
  match pc.mainRecord, disk.world.dlqRecord pc with
  | some record, _ => appendOutcome (payloads wire.hash) disk.wal (wire.mainPayload record) outcome
  | none, some record => appendOutcome (payloads wire.hash) disk.dlqWal (wire.dlqPayload record) outcome
  | none, none => .failedEmpty

/-- The files after the append of an operation's next step. -/
def DiskWorld.written (wire : RecordWire T V) (disk : DiskWorld T V) (outcome : WriteOutcome) (pc : Pc T V)
    (world : World T V) : DiskWorld T V where
  world := world
  wal := pc.mainRecord.elim disk.wal fun record =>
    (append (payloads wire.hash) disk.wal (wire.mainPayload record) outcome).1
  dlqWal := (disk.world.dlqRecord pc).elim disk.dlqWal fun record =>
    (append (payloads wire.hash) disk.dlqWal (wire.dlqPayload record) outcome).1

/-- What an action on files is to the logs that they hold. -/
def DiskWorld.act (wire : RecordWire T V) (disk : DiskWorld T V) : DiskAction T V → Action T V
  | .call call => .call call
  | .step i order draw outcome =>
    .step i ⟨(disk.world.tasks[i]?).elim .failedEmpty fun task => disk.outcome wire outcome task.pc,
      order, draw⟩
  | .drop i wrote =>
    .drop i <| (disk.world.tasks[i]?).elim .failedEmpty fun task => disk.outcome wire wrote task.pc
  | .tick elapsed => .tick elapsed
  | .setWallClock wallClock => .setWallClock wallClock
  | .reopen order _ _ => .reopen order

/-- One step of the system on its files: what a process opens is what it reads from their bytes. -/
def DiskWorld.step (wire : RecordWire T V) (disk : DiskWorld T V) (act : DiskAction T V) :
    Option (DiskWorld T V) :=
  match act with
  | .step i _ _ outcome | .drop i outcome =>
    (disk.world.tasks[i]?).bind fun task =>
      (disk.world.step (disk.act wire act)).map (disk.written wire outcome task.pc)
  | .reopen order splits dlqSplits =>
    match openWal wire.main ⟨disk.wal.file, splits⟩, openWal wire.dlq ⟨disk.dlqWal.file, dlqSplits⟩ with
    | .ok (wal, records), .ok (dlqWal, letters) =>
      if (DeadLetters.replay letters).Iterates order then
        let group := disk.world.shared.group
        some
          { world := ⟨{ disk.world.shared with
                group := .opened { records } { records := letters } group.visibilityTimeout
                  group.retryPolicy order }, disk.world.tasks.map Task.kill⟩
            -- A file that is opened again keeps no error of a write from before.
            wal := { file := wal }
            dlqWal := { file := dlqWal } }
      else none
    | _, _ => none
  | .call _ | .tick _ | .setWallClock _ =>
    (disk.world.step (disk.act wire act)).map fun world => { disk with world }

/-- A group opened on two new files. -/
def DiskWorld.start (visibilityTimeout : Duration) (retryPolicy : RetryPolicy) : DiskWorld T V :=
  ⟨.start visibilityTimeout retryPolicy, { file := [] }, { file := [] }⟩

/-- The files hold the logs of the group. -/
structure DiskWorld.Mirrors (wire : RecordWire T V) (disk : DiskWorld T V) : Prop where
  main : Holds wire.main disk.wal.file disk.world.shared.group.wal
  dlq : Holds wire.dlq disk.dlqWal.file disk.world.shared.group.dlq.wal

/-- No dead letter with a checkpoint of `null` is written, and the checksum detects torn frames. -/
def DiskWorld.Legible (wire : RecordWire T V) (disk : DiskWorld T V) : DiskAction T V → Prop
  | .step i _ _ _ | .drop i _ =>
    ∀ task ∈ disk.world.tasks[i]?, ∀ record ∈ disk.world.dlqRecord task.pc, record.reread wire = record
  | .reopen _ _ _ => Detected wire.main disk.wal.file disk.world.shared.group.wal ∧
      Detected wire.dlq disk.dlqWal.file disk.world.shared.group.dlq.wal
  | .call _ | .tick _ | .setWallClock _ => True

variable {wire : RecordWire T V} {now : Instant} {wallClock : Timestamp} {env : StepEnv}
  {group group' : ConsumerGroup T V} {pc next : Pc T V}

/-- A step appends its record to the main log, if it has one, and nothing else. -/
theorem Moved.wal (moved : Moved now wallClock env group pc group' next) :
    group'.wal = pc.mainRecord.elim group.wal fun record => (group.wal.append record env.outcome).1 := by
  cases moved with
  | quiet changed quiet => cases quiet <;> rfl
  | _ => rfl

/-- A step appends its record to the dead-letter queue's log, if it has one, and nothing else. -/
theorem Moved.dlqWal (moved : Moved now wallClock env group pc group' next) :
    group'.dlq.wal = (pc.dlqRecord group.retryPolicy wallClock).elim group.dlq.wal
      fun record => (group.dlq.wal.append record env.outcome).1 := by
  -- Three steps append to this log; a failed delivery with attempts left is not one of them.
  cases moved with
  | quiet changed quiet => cases quiet <;> rfl
  | exhaustedWritten exhausted | exhaustedFailed exhausted =>
    rw [Pc.dlqRecord, if_pos exhausted]
    rfl
  | retried attemptsLeft =>
    rw [Pc.dlqRecord, if_neg (by simp [attemptsLeft])]
    rfl
  | _ => rfl

/-- Dropping an operation appends to the logs what its write has left, and nothing else. -/
theorem abandon_logs {self : Nat} {wrote : AppendOutcome}
    (dropped : group.abandon self now wallClock wrote pc = some (group', next)) :
    (group'.wal = pc.mainRecord.elim group.wal fun record => (group.wal.append record wrote).1) ∧
      group'.dlq.wal = (pc.dlqRecord group.retryPolicy wallClock).elim group.dlq.wal
        fun record => (group.dlq.wal.append record wrote).1 := by
  unfold ConsumerGroup.abandon at dropped
  split at dropped
  · cases wrote with
    | ok | lostEmpty | lostTorn => cases dropped
    | failedEmpty =>
      -- Nothing has reached a file, whatever the write was for.
      have same : group'.wal = group.wal ∧ group'.dlq.wal = group.dlq.wal := by
        simp only at dropped
        split at dropped <;> cases dropped <;> exact ⟨rfl, rfl⟩
      rw [same.1, same.2]
      constructor
      · cases pc.mainRecord <;> rfl
      · cases pc.dlqRecord group.retryPolicy wallClock <;> rfl
    | failedTorn =>
      simp only at dropped
      split at dropped
      · obtain ⟨⟨reached, after⟩, moved, same⟩ := Option.map_eq_some_iff.mp dropped
        cases same
        exact ⟨(move_moved moved).wal, (move_moved moved).dlqWal⟩
      · cases dropped
    | failedWhole =>
      simp only at dropped
      split at dropped
      · -- A write that is finished without its caller lands like any other.
        exact ⟨(move_moved dropped).wal, (move_moved dropped).dlqWal⟩
      · cases dropped
  · cases dropped

/-- A drop abandons the task's operation, which had not been cancelled. -/
theorem drop_abandon {world after : World T V} {i : Nat} {wrote : AppendOutcome}
    (taken : world.step (.drop i wrote) = some after) :
    ∃ task group next, world.tasks[i]? = some task ∧ task.cancelled = false ∧
      world.shared.group.abandon i world.shared.now world.shared.wallClock wrote task.pc = some (group, next) ∧
      after = ⟨{ world.shared with group := group },
        world.tasks.set i { task with pc := next, cancelled := true }⟩ := by
  -- The operation was under way, and its task is marked as cancelled.
  obtain ⟨task, shared, moved, found, stepped, rfl⟩ := Pool.advance_eq_some.mp taken
  simp only [Runtime.abandon] at stepped
  split at stepped
  · cases stepped
  · rename_i alive
    obtain ⟨⟨group, next⟩, dropped, same⟩ := Option.map_eq_some_iff.mp stepped
    cases same
    exact ⟨task, group, next, found, by simpa using alive, dropped, rfl⟩

/-- A document that is written as bytes is read from them. -/
theorem RecordWire.read_written (trips : wire.RoundTrips) {R : Type} {encoded : Except JsonError Json}
    {decoder : Decoder R} {record : R} (decoded : ∀ json, encoded = .ok json → decoder.decode json = .ok record)
    {bytes : Bytes} (written : (encoded.bind wire.toVec).toOption = some bytes) :
    (wire.reading decoder).fromSlice bytes = some record := by
  -- Bytes were written, so the document could be encoded, and its text is read as it.
  cases encoded with
  | error error => cases written
  | ok json =>
    cases text : wire.toVec json with
    | error error => simp [Except.bind, Except.toOption, text] at written
    | ok found =>
      obtain rfl : found = bytes := by simpa [Except.bind, Except.toOption, text] using written
      simp [LogWire.reading, trips.text json found text, Except.bind, decoded json rfl, Except.toOption]

/-- A payload is read as the record that was written. -/
theorem RecordWire.read_mainPayload (trips : wire.RoundTrips) {record : WalRecord T V} {bytes : Bytes}
    (written : wire.mainPayload record = some bytes) : wire.main.fromSlice bytes = some record :=
  wire.read_written trips (fun _ encoded => record.decode_encode trips encoded) written

/-- A payload of the dead-letter queue's log is read as the record that was written, if that is a
record that can be read back. -/
theorem RecordWire.read_dlqPayload (trips : wire.RoundTrips) {record : DlqRecord T V} {bytes : Bytes}
    (legible : record.reread wire = record) (written : wire.dlqPayload record = some bytes) :
    wire.dlq.fromSlice bytes = some record := by
  refine wire.read_written trips (fun json encoded => ?_) written
  rw [record.decode_encode trips encoded, legible]

/-- A step that appends to the dead-letter queue's log appends to no other. -/
theorem Pc.mainRecord_eq_none {retryPolicy : RetryPolicy} {record : DlqRecord T V}
    (found : pc.dlqRecord retryPolicy wallClock = some record) : pc.mainRecord = none := by
  cases pc with
  | resolve | appendAnnotate | appendRemove => rfl
  | _ => cases found

variable {disk after : DiskWorld T V} {act : DiskAction T V}

/-- The files go on holding the logs when both get the record of the same step. -/
theorem DiskWorld.Mirrors.written (trips : wire.RoundTrips) (mirrors : disk.Mirrors wire) {outcome : WriteOutcome}
    (legible : ∀ record ∈ disk.world.dlqRecord pc, record.reread wire = record) {world : World T V}
    (main : world.shared.group.wal = pc.mainRecord.elim disk.world.shared.group.wal
      fun record => (disk.world.shared.group.wal.append record (disk.outcome wire outcome pc)).1)
    (dlq : world.shared.group.dlq.wal = (disk.world.dlqRecord pc).elim disk.world.shared.group.dlq.wal
      fun record => (disk.world.shared.group.dlq.wal.append record (disk.outcome wire outcome pc)).1) :
    (disk.written wire outcome pc world).Mirrors wire := by
  -- For each of the two logs either nothing is written, or the payload of the record is appended to its file.
  refine ⟨?_, ?_⟩
  · rw [DiskWorld.written, main]
    cases found : pc.mainRecord with
    | none => exact mirrors.main
    | some record =>
      have own : disk.outcome wire outcome pc =
          appendOutcome (payloads wire.hash) disk.wal (wire.mainPayload record) outcome := by
        simp only [DiskWorld.outcome, found]
      simp only [Option.elim_some, own]
      exact mirrors.main.append_payload (fun bytes => wire.read_mainPayload trips) outcome
  · rw [DiskWorld.written, dlq]
    cases found : disk.world.dlqRecord pc with
    | none => exact mirrors.dlq
    | some record =>
      have own : disk.outcome wire outcome pc =
          appendOutcome (payloads wire.hash) disk.dlqWal (wire.dlqPayload record) outcome := by
        simp only [DiskWorld.outcome, Pc.mainRecord_eq_none found, found]
      simp only [Option.elim_some, own]
      exact mirrors.dlq.append_payload
        (fun bytes => wire.read_dlqPayload trips (legible record found)) outcome

/-- A group read from two files is the one that the logs in them reopen as. -/
theorem DiskWorld.Mirrors.reopened (mirrors : disk.Mirrors wire)
    (main : Detected wire.main disk.wal.file disk.world.shared.group.wal)
    (dlq : Detected wire.dlq disk.dlqWal.file disk.world.shared.group.dlq.wal) (order : List MessageId)
    (splits dlqSplits : List Nat) :
    ConsumerGroup.openFiles wire.toLogWire ⟨disk.wal.file, splits⟩ ⟨disk.dlqWal.file, dlqSplits⟩
      disk.world.shared.group.visibilityTimeout disk.world.shared.group.retryPolicy order =
        .ok (disk.world.shared.group.reopened order) :=
  ConsumerGroup.openFiles_eq_ok.mpr ⟨_, _, mirrors.main.contains main, mirrors.dlq.contains dlq, rfl⟩

/-- A legible step on files is the same step on the logs that they hold, and the files hold what
becomes of them. -/
theorem DiskWorld.Mirrors.step (trips : wire.RoundTrips) (mirrors : disk.Mirrors wire)
    (legible : disk.Legible wire act) (taken : disk.step wire act = some after) :
    disk.world.step (disk.act wire act) = some after.world ∧ after.Mirrors wire := by
  cases act with
  | call call =>
    obtain ⟨world, stepped, rfl⟩ := Option.map_eq_some_iff.mp taken
    refine ⟨stepped, ?_⟩
    -- A call begins without touching the group.
    simp only [act, World.step] at stepped
    split at stepped
    · cases stepped
      exact ⟨mirrors.main, mirrors.dlq⟩
    · cases stepped
  | tick elapsed =>
    cases taken
    exact ⟨rfl, mirrors.main, mirrors.dlq⟩
  | setWallClock wallClock =>
    cases taken
    exact ⟨rfl, mirrors.main, mirrors.dlq⟩
  -- What a step appends to the files is what it appends to the logs.
  | step i order draw outcome =>
    obtain ⟨task, found, taken⟩ := Option.bind_eq_some_iff.mp taken
    obtain ⟨world, stepped, rfl⟩ := Option.map_eq_some_iff.mp taken
    refine ⟨stepped, ?_⟩
    have legible := legible task found
    simp only [act, found, Option.elim_some] at stepped
    obtain ⟨other, group, next, same, _, moved, rfl⟩ := step_move stepped
    obtain rfl : task = other := Option.some.inj (found.symm.trans same)
    exact mirrors.written trips legible (move_moved moved).wal (move_moved moved).dlqWal
  | drop i wrote =>
    obtain ⟨task, found, taken⟩ := Option.bind_eq_some_iff.mp taken
    obtain ⟨world, stepped, rfl⟩ := Option.map_eq_some_iff.mp taken
    refine ⟨stepped, ?_⟩
    have legible := legible task found
    simp only [act, found, Option.elim_some] at stepped
    obtain ⟨other, group, next, same, _, dropped, rfl⟩ := drop_abandon stepped
    obtain rfl : task = other := Option.some.inj (found.symm.trans same)
    obtain ⟨main, dlq⟩ := abandon_logs dropped
    exact mirrors.written trips legible main dlq
  -- Opening the files returns the records of the logs that they hold.
  | reopen order splits dlqSplits =>
    obtain ⟨wal, opened, kept⟩ := mirrors.main.opens legible.1 splits
    obtain ⟨dlqWal, dlqOpened, dlqKept⟩ := mirrors.dlq.opens legible.2 dlqSplits
    simp only [DiskWorld.step, opened, dlqOpened] at taken
    split at taken
    · rename_i iterates
      obtain rfl := Option.some.inj taken
      refine ⟨?_, kept, dlqKept⟩
      simp only [act, World.step]
      rw [if_pos iterates]
      rfl
    · cases taken

/-- A run on files is the run on logs that its steps stand for, as long as it is legible; whatever
process then reads the files gets the group that the logs reopen as. -/
theorem DiskWorld.refines (trips : wire.RoundTrips) {visibilityTimeout : Duration} {retryPolicy : RetryPolicy}
    {trace : List (Transition (DiskWorld T V) (DiskAction T V))}
    (run : Run (DiskWorld.step wire) (DiskWorld.Legible wire) (.start visibilityTimeout retryPolicy) trace disk) :
    Run World.step (fun _ _ => True) (World.start visibilityTimeout retryPolicy)
        (shown DiskWorld.world (fun disk act => some (disk.act wire act)) trace) disk.world ∧
      (Detected wire.main disk.wal.file disk.world.shared.group.wal →
        Detected wire.dlq disk.dlqWal.file disk.world.shared.group.dlq.wal → ∀ order splits dlqSplits,
          ConsumerGroup.openFiles wire.toLogWire ⟨disk.wal.file, splits⟩ ⟨disk.dlqWal.file, dlqSplits⟩
            disk.world.shared.group.visibilityTimeout disk.world.shared.group.retryPolicy order =
              .ok (disk.world.shared.group.reopened order)) := by
  -- The files of a new queue are empty, and so are its logs.
  have fresh : (DiskWorld.start visibilityTimeout retryPolicy : DiskWorld T V).Mirrors wire :=
    ⟨holds_nil, holds_nil⟩
  -- Each legible step keeps the files in step with the logs.
  have simulates (disk : DiskWorld T V) (act : DiskAction T V) (after : DiskWorld T V)
      (legible : disk.Legible wire act) (mirrors : disk.Mirrors wire) (taken : disk.step wire act = some after) :
      after.Mirrors wire ∧ Matches World.step (fun _ _ => True) disk.world (some (disk.act wire act)) after.world := by
    obtain ⟨stepped, kept⟩ := mirrors.step trips legible taken
    exact ⟨kept, trivial, stepped⟩
  obtain ⟨mirrors, reached⟩ := run.simulated DiskWorld.world (fun disk act => some (disk.act wire act)) fresh simulates
  exact ⟨reached, fun main dlq => mirrors.reopened main dlq⟩

/-- The text of the record of an enqueue of a seven under no key. -/
def sevenText (id : String) : Bytes :=
  ("\x7b\"Enqueue\":[\"" ++ id ++ "\",null,7]\x7d").toUTF8.toList

/-- The document of that record. -/
def sevenDocument (id : String) : Json :=
  .object [("Enqueue", .array [.string id, .null, .integer 7])]

/-- The texts of the records of two messages, and of no others. -/
def writeSeven : Json → Except JsonError Bytes
  | .object [("Enqueue", .array [.string "00000000-0000-0000-0000-000000000001", .null, .integer 7])] =>
    .ok (sevenText "00000000-0000-0000-0000-000000000001")
  | .object [("Enqueue", .array [.string "00000000-0000-0000-0000-000000000002", .null, .integer 7])] =>
    .ok (sevenText "00000000-0000-0000-0000-000000000002")
  | _ => .error (.custom "another document")

/-- The documents of these texts. -/
def readSeven (bytes : Bytes) : Except JsonError Json :=
  if bytes = sevenText "00000000-0000-0000-0000-000000000001" then
    .ok (sevenDocument "00000000-0000-0000-0000-000000000001")
  else if bytes = sevenText "00000000-0000-0000-0000-000000000002" then
    .ok (sevenDocument "00000000-0000-0000-0000-000000000002")
  else .error (.custom "expected value")

/-- Natural numbers as documents. -/
def naturals : Decoder Nat where
  decode
    | .integer number => if 0 ≤ number then .ok number.toNat else .error .invalidValue
    | _ => .error .invalidType

/-- Numbers as payloads and as values, and the texts of two records. -/
def sevenWire : RecordWire Nat Nat where
  toVec := writeSeven
  fromSlice := readSeven
  parseUuid := parseHyphenated
  encode number := .ok (.integer number)
  payload := naturals
  value := naturals
  hash := crc32
  encodeValue number := .integer number

/-- The texts of the two records are read back. -/
theorem readSeven_writeSeven (json : Json) (bytes : Bytes) (written : writeSeven json = .ok bytes) :
    readSeven bytes = .ok json := by
  -- There are two texts, and they differ.
  unfold writeSeven at written
  split at written
  · obtain rfl := Except.ok.inj written
    rw [readSeven, if_pos rfl]
    rfl
  · obtain rfl := Except.ok.inj written
    have other : sevenText "00000000-0000-0000-0000-000000000002" ≠
        sevenText "00000000-0000-0000-0000-000000000001" := by decide +kernel
    rw [readSeven, if_neg other, if_pos rfl]
    rfl
  · cases written

/-- What is written is read back. -/
theorem sevenWire_roundTrips : sevenWire.RoundTrips where
  text := readSeven_writeSeven
  uuid id := by
  -- Texts and ids are read back by what is known of them, numbers as they are.
    simp only [sevenWire]
    exact parseHyphenated_display id
  payload payload json encoded := by
    simp only [sevenWire] at encoded ⊢
    rw [← Except.ok.inj encoded]
    simp [naturals]
  value number := by simp [sevenWire, naturals]

/-- One message is enqueued, and the write of another one fails after three bytes, behind its `Ok`. -/
def secondTorn : List (DiskAction Nat Nat) :=
  [.call (.enqueue ⟨⟨1⟩, 7, none⟩), .step 0 [] .zero .synced, .step 0 [] .zero .synced,
    .call (.enqueue ⟨⟨2⟩, 7, none⟩), .step 1 [] .zero (.unreported 3 true)]

/-- Whether an action opens the files again. -/
def DiskAction.reopens : DiskAction T V → Bool
  | .reopen _ _ _ => true
  | _ => false

/-- A step of a process that has no dead letters is legible. -/
theorem DiskWorld.legible_of_none (running : act.reopens = false)
    (none : ∀ task ∈ disk.world.tasks, (disk.world.dlqRecord task.pc).isNone) : disk.Legible wire act := by
  -- No step of the process writes to the dead-letter queue's log.
  have silent (i : Nat) (task : Task T V) (found : task ∈ disk.world.tasks[i]?) (record : DlqRecord T V)
      (written : record ∈ disk.world.dlqRecord task.pc) : record.reread wire = record := by
    have nothing := none task (List.mem_of_getElem? found)
    rw [written] at nothing
    cases nothing
  cases act with
  | step i => exact silent i
  | drop i => exact silent i
  | reopen => cases running
  | _ => trivial

theorem DiskWorld.refines_secondTorn :
    ∃ ran ∈ record (DiskWorld.step sevenWire) (.start 30 .default) secondTorn, ∃ group,
      ConsumerGroup.openFiles sevenWire.toLogWire ⟨ran.2.wal.file, [5, 1]⟩ ⟨ran.2.dlqWal.file, []⟩
        ran.2.world.shared.group.visibilityTimeout ran.2.world.shared.group.retryPolicy [] = .ok group ∧
          group.state.pending.map Pending.id = [⟨1⟩] := by
  have recorded : ∃ ran ∈ record (DiskWorld.step sevenWire) (.start 30 .default) secondTorn,
      (∀ e ∈ ran.1, e.act.reopens = false ∧
        ∀ task ∈ e.pre.world.tasks, (e.pre.world.dlqRecord task.pc).isNone) ∧
      ran.2.wal.file = framed sevenWire.main (sevenText "00000000-0000-0000-0000-000000000001") ++
        (framed sevenWire.main (sevenText "00000000-0000-0000-0000-000000000002")).take 3 ∧
      ran.2.world.shared.group.wal.records = [.enqueue ⟨1⟩ none 7] ∧
      ran.2.world.shared.group.dlq.wal.torn = false ∧
      (ran.2.world.shared.group.reopened []).state.pending.map Pending.id = [⟨1⟩] := by
    decide +kernel
  obtain ⟨⟨trace, disk⟩, ran, silent, wal, records, whole, pending⟩ := recorded
  have legible : ∀ e ∈ trace, e.pre.Legible sevenWire e.act := fun e member =>
    DiskWorld.legible_of_none (silent e member).1 (silent e member).2
  have run := ((run_of_record .nil ran).strengthen legible).mono fun _ _ both => both.2
  -- The three bytes behind the first frame are no frame.
  have detected : Detected sevenWire.main disk.wal.file disk.world.shared.group.wal := by
    intro _ good tail shape frames
    have decoded : sevenWire.main.fromSlice (sevenText "00000000-0000-0000-0000-000000000001") =
        some (.enqueue ⟨1⟩ none 7) := by decide +kernel
    rw [wal] at shape
    rw [records] at frames
    rw [← (Frames.single (nextFrame_payload decoded (by decide +kernel))).behind frames shape]
    exact nextFrame_torn (by decide +kernel) (by decide +kernel)
  refine ⟨(trace, disk), ran, _, ?_, pending⟩
  exact (DiskWorld.refines sevenWire_roundTrips run).2 detected (fun torn => by cases whole.symm.trans torn) _ _ _

end Qaas
