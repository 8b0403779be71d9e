import Qaas.Group.Origin

/-! What holds of a group in use after every run: each message has one producer, and each step its call. -/

namespace Qaas

open Concurrency

variable {T V : Type}

/-- A group that has changed in nothing but who waits for a wakeup, and in torn ends of its logs. -/
structure Stalled (group group' : ConsumerGroup T V) : Prop where
  state : group'.state = group.state
  entries : group'.dlq.entries = group.dlq.entries
  records : group'.wal.records = group.wal.records
  behind : group'.wal.behind = group.wal.behind
  dlqRecords : group'.dlq.wal.records = group.dlq.wal.records
  retryPolicy : group'.retryPolicy = group.retryPolicy
  nextLeaseToken : group'.nextLeaseToken = group.nextLeaseToken

/-- What dropping an operation's future can do to the group. -/
inductive Dropped (now : Instant) (wallClock : Timestamp) (wrote : AppendOutcome)
    (group : ConsumerGroup T V) (pc : Pc T V) : ConsumerGroup T V → Pc T V → Prop
  -- No write the operation waited for has reached the file, or only a part of its frame.
  | stalled {group' : ConsumerGroup T V} (stalled : Stalled group group') :
      Dropped now wallClock wrote group pc group' pc
  -- A write the operation waited for reached the file whole.
  | written {env : StepEnv} {group' : ConsumerGroup T V} {next : Pc T V}
      (whole : wrote = .failedWhole) (clean : env.outcome = .ok) (writes : pc.writes group.retryPolicy)
      (moved : Moved now wallClock env group pc group' next) :
      Dropped now wallClock wrote group pc group' next

/-- A write that stops inside its frame changes nothing that a replay can read. -/
theorem Moved.stalled {now : Instant} {wallClock : Timestamp} {env : StepEnv}
    {group group' : ConsumerGroup T V} {pc next : Pc T V}
    (moved : Moved now wallClock env group pc group' next) (torn : env.outcome = .failedTorn)
    (writes : pc.writes group.retryPolicy) : Stalled group group' := by
  -- A torn write is a failed one, and a failed write changes neither state nor entries.
  cases moved with
  | enqueueFailed | exhaustedFailed | deadLetteredFailed | ackFailed | checkpointFailed
  | annotateFailed | removeFailed =>
    rw [torn]
    exact ⟨rfl, rfl, rfl, rfl, rfl, rfl, rfl⟩
  | enqueueWritten told | exhaustedWritten _ told | deadLetteredWritten told
  | ackWritten told | checkpointWritten told | annotateWritten told | removeWritten told =>
    rw [torn] at told
    cases told
  | retried attemptsLeft =>
    rw [Pc.writes, attemptsLeft] at writes
    cases writes
  | quiet changed quiet => cases quiet <;> cases writes
  | _ => cases writes

/-- Dropping a future is one of the ways listed. -/
theorem abandon_dropped {self : Nat} {now : Instant} {wallClock : Timestamp} {wrote : AppendOutcome}
    {group group' : ConsumerGroup T V} {pc next : Pc T V}
    (dropped : group.abandon self now wallClock wrote pc = some (group', next)) :
    Dropped now wallClock wrote group pc group' next := by
  unfold ConsumerGroup.abandon at dropped
  split at dropped
  · -- What the dropped write may have left: nothing, a torn record or a whole one.
    cases wrote with
    | ok | lostEmpty | lostTorn => cases dropped
    | failedEmpty =>
      simp only at dropped
      split at dropped <;> cases dropped
      · exact .stalled ⟨rfl, rfl, rfl, rfl, rfl, rfl, rfl⟩
      · exact .stalled ⟨rfl, rfl, rfl, rfl, rfl, rfl, rfl⟩
    | failedTorn =>
      simp only at dropped
      split at dropped
      · rename_i writes
        obtain ⟨⟨reached, after⟩, moved, same⟩ := Option.map_eq_some_iff.mp dropped
        cases same
        exact .stalled ((move_moved moved).stalled rfl writes)
      · cases dropped
    | failedWhole =>
      simp only at dropped
      split at dropped
      · rename_i writes
        exact .written rfl rfl writes (move_moved dropped)
      · cases dropped
  · cases dropped

/-- A write that an operation waits for changes nothing in memory. -/
theorem Moved.memory {now : Instant} {wallClock : Timestamp} {env : StepEnv}
    {group group' : ConsumerGroup T V} {pc next : Pc T V}
    (moved : Moved now wallClock env group pc group' next) (writes : pc.writes group.retryPolicy) :
    group'.state = group.state ∧ group'.dlq.entries = group.dlq.entries ∧
      group'.nextLeaseToken = group.nextLeaseToken := by
  cases moved with
  | retried attemptsLeft =>
    -- A resolution waits for a write only where the retries are exhausted.
    rw [Pc.writes, attemptsLeft] at writes
    cases writes
  | quiet changed quiet => cases quiet <;> cases writes
  | enqueueWritten | enqueueFailed | exhaustedWritten | exhaustedFailed | deadLetteredWritten
  | deadLetteredFailed | ackWritten | ackFailed | checkpointWritten | checkpointFailed
  | annotateWritten | annotateFailed | removeWritten | removeFailed => exact ⟨rfl, rfl, rfl⟩
  | _ => cases writes

/-- Dropping a future changes nothing in memory, whether or not its write reached the file. -/
theorem Dropped.memory {now : Instant} {wallClock : Timestamp} {wrote : AppendOutcome}
    {group group' : ConsumerGroup T V} {pc next : Pc T V}
    (dropped : Dropped now wallClock wrote group pc group' next) :
    group'.state = group.state ∧ group'.dlq.entries = group.dlq.entries ∧
      group'.nextLeaseToken = group.nextLeaseToken := by
  cases dropped with
  | stalled stalled => exact ⟨stalled.state, stalled.entries, stalled.nextLeaseToken⟩
  | written whole clean writes moved => exact moved.memory writes

/-- One step of the system, said once for every proof about runs. -/
inductive Stepped (world : World T V) : Action T V → World T V → Prop
  | call {call : Call T V} (fresh : world.Fresh call) :
      Stepped world (.call call) (world.spawn ⟨call, call.entry, false⟩)
  | step {i : Nat} {env : StepEnv} {task : Task T V} {group : ConsumerGroup T V} {next : Pc T V}
      (found : world.tasks[i]? = some task) (alive : task.cancelled = false)
      (moved : Moved world.shared.now world.shared.wallClock env world.shared.group task.pc group next) :
      Stepped world (.step i env)
        ⟨{ world.shared with group := group }, world.tasks.set i { task with pc := next }⟩
  | drop {i : Nat} {wrote : AppendOutcome} {task : Task T V} {group : ConsumerGroup T V}
      {next : Pc T V} (found : world.tasks[i]? = some task) (alive : task.cancelled = false)
      (dropped : Dropped world.shared.now world.shared.wallClock wrote world.shared.group task.pc group
        next) :
      Stepped world (.drop i wrote)
        ⟨{ world.shared with group := group },
          world.tasks.set i { task with pc := next, cancelled := true }⟩
  | tick {elapsed : { elapsed : Duration // 0 ≤ elapsed }} :
      Stepped world (.tick elapsed)
        { world with shared := { world.shared with now := world.shared.now + elapsed.val } }
  | setWallClock {wallClock : Timestamp} :
      Stepped world (.setWallClock wallClock)
        { world with shared := { world.shared with wallClock := wallClock } }
  | reopen {order : List MessageId}
      (iterates : (DeadLetters.replay world.shared.group.dlq.wal.records).Iterates order) :
      Stepped world (.reopen order)
        ⟨{ world.shared with
            group := world.shared.group.reopened order },
          world.tasks.map Task.kill⟩

/-- A task's step is a move of its operation, which has not been cancelled. -/
theorem step_move {world world' : World T V} {i : Nat} {env : StepEnv}
    (taken : world.step (.step i env) = some world') :
    ∃ task group next, world.tasks[i]? = some task ∧ task.cancelled = false ∧
      world.shared.group.move i world.shared.now world.shared.wallClock env task.pc = some (group, next) ∧
      world' = ⟨{ world.shared with group := group }, world.tasks.set i { task with pc := next }⟩ := by
  obtain ⟨task, shared, moved, found, stepped, rfl⟩ := Pool.advance_eq_some.mp taken
  simp only [Runtime.advance] at stepped
  split at stepped
  · -- A cancelled task takes no step.
    cases stepped
  · rename_i alive
    obtain ⟨⟨group, next⟩, moved, same⟩ := Option.map_eq_some_iff.mp stepped
    cases same
    exact ⟨task, group, next, found, by simpa using alive, moved, rfl⟩

/-- Every step of the system is one of the ways listed. -/
theorem step_stepped {world world' : World T V} {act : Action T V}
    (taken : world.step act = some world') : Stepped world act world' := by
  -- One case for each kind of action.
  cases act with
  | call call =>
    simp only [World.step] at taken
    split at taken <;> cases taken
    exact .call ‹_›
  | step i env =>
    obtain ⟨task, group, next, found, alive, moved, rfl⟩ := step_move taken
    exact .step found alive (move_moved moved)
  | drop i wrote =>
    obtain ⟨task, shared, moved, found, stepped, rfl⟩ := Pool.advance_eq_some.mp taken
    simp only [Runtime.abandon] at stepped
    split at stepped
    · cases stepped
    · rename_i alive
      obtain ⟨⟨group, next⟩, moved, same⟩ := Option.map_eq_some_iff.mp stepped
      cases same
      exact .drop found (by simpa using alive) (abandon_dropped moved)
  | tick elapsed => cases taken; exact .tick
  | setWallClock wallClock => cases taken; exact .setWallClock
  | reopen order =>
    simp only [World.step] at taken
    split at taken <;> cases taken
    exact .reopen ‹_›

/-- A message that some producer handed in, and whose key, if any, that call has got past. -/
def World.Issued (world : World T V) (message : Message T) : Prop :=
  ∃ task ∈ world.tasks, task.call = .enqueue message ∧ ∀ key, task.pc ≠ .reserve message key

/-- The invariant of every run, whatever fails and whoever is cancelled. -/
structure Sound (world : World T V) : Prop where
  -- No id is generated twice.
  distinct : (world.tasks.filterMap fun task => task.call.newId).Nodup
  serves : ∀ task ∈ world.tasks, task.pc.serves task.call
  sourced : Sourced world.Issued world.shared.group
  held : ∀ task ∈ world.tasks, ∀ message ∈ task.pc.messages, world.Issued message

/-- A delivery that has been resolved neither reserves a key nor releases one. -/
theorem ResolveCaller.keyless (caller : ResolveCaller T V) :
    (∀ message key, caller.next ≠ .reserve message key ∧ caller.failed ≠ .reserve message key) ∧
      ∀ id key result, caller.next ≠ .releaseKey id key result ∧
        caller.failed ≠ .releaseKey id key result := by
  cases caller with
  | nack => simp [ResolveCaller.next, ResolveCaller.failed]
  | reclaim rest =>
    -- The caller has more deliveries to resolve, or wakes the consumers.
    cases rest <;> simp [ResolveCaller.next, ResolveCaller.failed]

/-- No step leads back to the reservation of a key. -/
theorem Moved.not_reserve {now : Instant} {wallClock : Timestamp} {env : StepEnv}
    {group group' : ConsumerGroup T V} {pc next : Pc T V}
    (moved : Moved now wallClock env group pc group' next) (message : Message T)
    (key : IdempotencyKey) : next ≠ .reserve message key := by
  -- Only the entry of a call reserves a key.
  cases moved with
  | quiet changed quiet => cases quiet <;> simp
  | @enqueueFailed message caller failed =>
    cases message.idempotencyKey <;> simp [releaseThenFail]
  | @retried failed caller attemptsLeft | @deadLetteredWritten id caller synced =>
    exact (caller.keyless.1 message key).1
  | @exhaustedFailed failed caller exhausted unsynced | @deadLetteredFailed id caller failed =>
    exact (caller.keyless.1 message key).2
  | @removeWritten deadLetter caller synced =>
    cases caller with
    | reprocess => simp [TakeCaller.next]
    | purge => cases carried : deadLetter.idempotencyKey <;> simp [TakeCaller.next, carried]
  | _ => simp

/-- Replacing a task by the same call further on keeps every issued message issued. -/
theorem World.Issued.set {world : World T V} {shared : Runtime T V} {message : Message T} {i : Nat}
    {task moved : Task T V} (issued : world.Issued message) (found : world.tasks[i]? = some task)
    (same : moved.call = task.call)
    (past : ∀ message key, moved.pc = .reserve message key → moved.pc = task.pc) :
    World.Issued ⟨shared, world.tasks.set i moved⟩ message := by
  obtain ⟨other, member, called, passed⟩ := issued
  -- A call is witnessed by its task, wherever that has got to.
  rcases mem_set_or_eq moved found member with rfl | kept
  · -- The witness is the task that moved, and it has not moved back.
    refine ⟨moved, ?_, same.trans called, ?_⟩
    · exact List.mem_set (List.getElem?_eq_some_iff.mp found).1 moved
    · intro key reserving
      have unmoved := past message key reserving
      exact passed key (unmoved ▸ reserving)
  · exact ⟨other, kept, called, passed⟩

/-- A new task keeps every issued message issued. -/
theorem World.Issued.spawn {world : World T V} {message : Message T} {task : Task T V}
    (issued : world.Issued message) : World.Issued (world.spawn task) message := by
  obtain ⟨other, member, called, passed⟩ := issued
  exact ⟨other, List.mem_append_left _ member, called, passed⟩

/-- A killed task has the call it had, and stands where it stood. -/
@[simp] theorem Task.kill_call (task : Task T V) : task.kill.call = task.call := by
  unfold kill
  split <;> rfl

/-- An operation that a crash has not ended was not cancelled before it either. -/
theorem Task.alive_of_kill {task : Task T V} (live : task.kill.cancelled = false) :
    task.cancelled = false := by
  unfold kill at live
  split at live
  · exact live
  · cases live

@[simp] theorem Task.kill_pc (task : Task T V) : task.kill.pc = task.pc := by
  unfold kill
  split <;> rfl

/-- The death of the process keeps every issued message issued. -/
theorem World.Issued.kill {world : World T V} {shared : Runtime T V} {message : Message T}
    (issued : world.Issued message) :
    World.Issued ⟨shared, world.tasks.map Task.kill⟩ message := by
  obtain ⟨other, member, called, passed⟩ := issued
  exact ⟨other.kill, List.mem_map_of_mem member, by simpa using called, by simpa using passed⟩

/-- What is housed among some messages is housed among more of them. -/
theorem Housed.mono {issued more : Message T → Prop} {group : ConsumerGroup T V}
    (housed : Housed issued group) (weaker : ∀ message, issued message → more message) :
    Housed more group where
  pending entry member := weaker _ (housed.pending entry member)
  leased id lease found := weaker _ (housed.leased id lease found)
  delayed entry member := weaker _ (housed.delayed entry member)
  entries id deadLetter found :=
    ⟨(housed.entries id deadLetter found).1, weaker _ (housed.entries id deadLetter found).2⟩

/-- What is sourced from some messages is sourced from more of them. -/
theorem Sourced.mono {issued more : Message T → Prop} {group : ConsumerGroup T V}
    (sourced : Sourced issued group) (weaker : ∀ message, issued message → more message) :
    Sourced more group where
  toHoused := sourced.toHoused.mono weaker
  wal id key item member := weaker _ (sourced.wal id key item member)
  dlqWal deadLetter member := weaker _ (sourced.dlqWal deadLetter member)
  dedup key id found := (sourced.dedup key id found).imp fun _ known => weaker _ known

/-- What a group holds, it holds after an operation has stopped. -/
theorem Stalled.sourced {issued : Message T → Prop} {group group' : ConsumerGroup T V}
    (stalled : Stalled group group') (sourced : Sourced issued group) : Sourced issued group' := by
  obtain ⟨state, entries, records, _, dlqRecords, _⟩ := stalled
  -- Nothing that a message could come from has changed.
  refine ⟨⟨?_, ?_, ?_, ?_⟩, ⟨?_, ?_⟩, ?_⟩
  · rw [state]; exact sourced.pending
  · rw [state]; exact sourced.leased
  · rw [state]; exact sourced.delayed
  · rw [entries]; exact sourced.entries
  · rw [records]; exact sourced.wal
  · rw [dlqRecords]; exact sourced.dlqWal
  · rw [state]; exact sourced.dedup

/-- Restoring the checkpoints changes no message and no order. -/
@[simp] theorem restoreCheckpoints_messages (entries : List (Pending T V))
    (checkpoints : Checkpoints V) :
    (restoreCheckpoints entries checkpoints).map Pending.message = entries.map Pending.message := by
  -- Along the queue: only the checkpoint of an entry is replaced.
  induction entries generalizing checkpoints with
  | nil => rfl
  | cons entry rest ih =>
    rw [restoreCheckpoints, List.map_cons, List.map_cons, ih]
    rfl

/-- Restoring the checkpoints changes no id. -/
theorem restoreCheckpoints_ids (entries : List (Pending T V)) (checkpoints : Checkpoints V) :
    (restoreCheckpoints entries checkpoints).map Pending.id = entries.map Pending.id := by
  have messages := congrArg (List.map Message.id) (restoreCheckpoints_messages entries checkpoints)
  rw [List.map_map, List.map_map] at messages
  exact messages

/-- Replaying one more record works on what has been replayed so far. -/
@[simp] theorem Replay.records_append (records : List (WalRecord T V)) (record : WalRecord T V) :
    Replay.records (records ++ [record]) = (Replay.records records).record record := by
  simp [Replay.records]

/-- Every message that a replay leaves pending was enqueued in the log. -/
theorem mem_of_replay_pending {records : List (WalRecord T V)} {entry : Pending T V}
    (member : entry ∈ (Replay.records records).pending) :
    .enqueue entry.id entry.idempotencyKey entry.item ∈ records := by
  induction records using List.reverseRecOn with
  | nil => cases member
  | append_singleton records record ih =>
    rw [Replay.records_append] at member
    -- Only an enqueue adds an entry; the other records keep some of those before.
    cases record with
    | enqueue id key item =>
      rcases List.mem_append.mp member with earlier | new
      · exact List.mem_append_left _ (ih earlier)
      · obtain rfl := List.mem_singleton.mp new
        simp [Pending.fresh]
    | ack id =>
      simp only [Replay.record] at member
      split at member
      · exact List.mem_append_left _ (ih (List.mem_of_mem_eraseP member))
      · exact List.mem_append_left _ (ih member)
    | deadLettered id => exact List.mem_append_left _ (ih (List.mem_of_mem_eraseP member))
    | checkpoint id state => exact List.mem_append_left _ (ih member)

/-- A released map has only registrations it had before. -/
theorem Dedup.lookup_of_release {dedup : Dedup} {released : Option IdempotencyKey}
    {key : IdempotencyKey} {id : MessageId}
    (found : (dedup.release released).lookup key = some id) : dedup.lookup key = some id := by
  cases released with
  | none => exact found
  | some other => exact (lookup_of_erase found).2

/-- A registration is the new one, or was there before. -/
theorem Dedup.lookup_of_register {dedup : Dedup} {registered : Option IdempotencyKey}
    {key : IdempotencyKey} {id new : MessageId}
    (found : (dedup.register registered new).lookup key = some id) :
    (registered = some key ∧ id = new) ∨ dedup.lookup key = some id := by
  -- A message without a key registers nothing.
  cases registered with
  | none => exact .inr found
  | some other =>
    rcases lookup_of_insert found with ⟨rfl, rfl⟩ | ⟨_, earlier⟩
    · exact .inl ⟨rfl, rfl⟩
    · exact .inr earlier

/-- Every registration a replay leaves was made by an enqueue in the log. -/
theorem mem_of_replay_dedup {records : List (WalRecord T V)} {key : IdempotencyKey} {id : MessageId}
    (found : (Replay.records records).dedup.lookup key = some id) :
    ∃ item, .enqueue id (some key) item ∈ records := by
  induction records using List.reverseRecOn with
  | nil => cases found
  | append_singleton records record ih =>
    rw [Replay.records_append] at found
    -- A registration from an earlier record is still one from a longer log.
    have earlier : (Replay.records records).dedup.lookup key = some id →
        ∃ item, WalRecord.enqueue id (some key) item ∈ records ++ [record] := by
      intro before
      obtain ⟨item, member⟩ := ih before
      exact ⟨item, List.mem_append_left _ member⟩
    cases record with
    | enqueue other registered item =>
      rcases Dedup.lookup_of_register found with ⟨rfl, rfl⟩ | before
      · exact ⟨item, by simp⟩
      · exact earlier before
    | ack other =>
      simp only [Replay.record] at found
      split at found
      · exact earlier (Dedup.lookup_of_release found)
      · exact earlier found
    | deadLettered other => exact earlier found
    | checkpoint other state => exact earlier found

/-- An annotation changes nothing of an entry but its verdict. -/
theorem DeadLetters.lookup_of_annotate {entries : DeadLetters T V} {id other : MessageId}
    {verdict : TriageVerdict} {deadLetter : DeadLetter T V}
    (found : (entries.annotate other verdict).lookup id = some deadLetter) :
    ∃ old triage, entries.lookup id = some old ∧ deadLetter = { old with triage := triage } := by
  simp only [DeadLetters.annotate] at found
  -- The annotated entry is stored again under its id, and the others stay.
  split at found
  · rename_i old stored
    rcases lookup_of_insert found with ⟨rfl, rfl⟩ | ⟨_, earlier⟩
    · exact ⟨old, _, stored, rfl⟩
    · exact ⟨deadLetter, _, earlier, rfl⟩
  · exact ⟨deadLetter, _, found, rfl⟩

/-- Every dead letter a replay leaves was recorded in the log, under its own id. -/
theorem mem_of_replay_entries {records : List (DlqRecord T V)} {id : MessageId}
    {deadLetter : DeadLetter T V} (found : (DeadLetters.replay records).lookup id = some deadLetter) :
    deadLetter.id = id ∧
      ∃ recorded, .deadLetter recorded ∈ records ∧ recorded.message = deadLetter.message := by
  -- From the end of the log, one replayed record at a time.
  induction records using List.reverseRecOn generalizing deadLetter with
  | nil => cases found
  | append_singleton records record ih =>
    rw [DeadLetters.replay_append] at found
    have earlier : ∀ old, (DeadLetters.replay records).lookup id = some old →
        old.id = deadLetter.id → old.message = deadLetter.message →
        deadLetter.id = id ∧ ∃ recorded, DlqRecord.deadLetter recorded ∈ records ++ [record] ∧
          recorded.message = deadLetter.message := by
      intro old before sameId sameMessage
      obtain ⟨keyed, recorded, member, same⟩ := ih before
      exact ⟨sameId ▸ keyed, recorded, List.mem_append_left _ member, same.trans sameMessage⟩
    cases record with
    | deadLetter new =>
      rcases lookup_of_insert found with ⟨rfl, rfl⟩ | ⟨_, before⟩
      · exact ⟨rfl, deadLetter, by simp, rfl⟩
      · exact earlier deadLetter before rfl rfl
    | remove other => exact earlier deadLetter (lookup_of_erase found).2 rfl rfl
    | annotate other verdict =>
      obtain ⟨old, _, before, rfl⟩ := DeadLetters.lookup_of_annotate found
      exact earlier old before rfl rfl

/-- A reseeded map's registrations are those it had, and those of the listed dead letters. -/
theorem Dedup.lookup_of_reseed {dedup : Dedup} {listed : List (MessageId × Option IdempotencyKey)}
    {key : IdempotencyKey} {id : MessageId} (found : (dedup.reseed listed).lookup key = some id) :
    dedup.lookup key = some id ∨ (id, some key) ∈ listed := by
  -- Along the list, which registers one letter after the other.
  induction listed generalizing dedup with
  | nil => exact .inl found
  | cons first rest ih =>
    rcases ih (show ((dedup.register first.2 first.1).reseed rest).lookup key = some id from found)
      with before | later
    · rcases Dedup.lookup_of_register before with ⟨carried, rfl⟩ | before
      · exact .inr (by rw [← carried]; exact List.mem_cons_self)
      · exact .inl before
    · exact .inr (List.mem_cons_of_mem _ later)

/-- The dead letters that `open` lists are the entries rebuilt from the log. -/
theorem mem_idsAndKeys {dlq : DeadLetterQueue T V} {order : List MessageId} {id : MessageId}
    {key : Option IdempotencyKey} (member : (id, key) ∈ dlq.idsAndKeys order) :
    ∃ stored deadLetter, dlq.entries.lookup stored = some deadLetter ∧ deadLetter.id = id ∧
      deadLetter.idempotencyKey = key := by
  obtain ⟨stored, _, found⟩ := List.mem_filterMap.mp member
  obtain ⟨deadLetter, entry, same⟩ := Option.map_eq_some_iff.mp found
  cases same
  exact ⟨stored, deadLetter, entry, rfl, rfl⟩

/-- A reopened group houses only messages that its logs hold. -/
theorem Recorded.opened {issued : Message T → Prop} {group : ConsumerGroup T V}
    (recorded : Recorded issued group) (visibilityTimeout : Duration) (retryPolicy : RetryPolicy)
    (order : List MessageId) :
    Housed issued
      (ConsumerGroup.opened group.wal group.dlq.wal visibilityTimeout retryPolicy order) := by
  -- The dead letters come from the dead-letter log, and everything else from the main one.
  have replayed : ∀ message ∈ (Replay.records group.wal.records).pending.map Pending.message,
      issued message := by
    intro message member
    obtain ⟨entry, listed, rfl⟩ := List.mem_map.mp member
    exact recorded.wal entry.id entry.idempotencyKey entry.item (mem_of_replay_pending listed)
  refine ⟨?_, ?_, ?_, ?_⟩
  · intro entry member
    apply replayed
    rw [← restoreCheckpoints_messages _ (Replay.records group.wal.records).checkpoints]
    exact List.mem_map_of_mem member
  · intro id lease found
    cases found
  · intro entry member
    cases member
  · intro id deadLetter found
    obtain ⟨keyed, record, member, same⟩ := mem_of_replay_entries found
    exact ⟨keyed, same ▸ recorded.dlqWal record member⟩

/-- Every registration of a reopened group was made by an enqueue in the log, or is of a dead letter. -/
theorem lookup_of_opened {wal : Log (WalRecord T V)} {dlqWal : Log (DlqRecord T V)}
    {visibilityTimeout : Duration} {retryPolicy : RetryPolicy} {order : List MessageId}
    {key : IdempotencyKey} {id : MessageId}
    (found : (ConsumerGroup.opened wal dlqWal visibilityTimeout retryPolicy order).state.dedup.lookup
      key = some id) :
    (∃ item, WalRecord.enqueue id (some key) item ∈ wal.records) ∨
      ∃ stored deadLetter, (DeadLetters.replay dlqWal.records).lookup stored = some deadLetter ∧
        deadLetter.id = id ∧ deadLetter.idempotencyKey = some key := by
  rcases Dedup.lookup_of_reseed found with before | listed
  · exact .inl (mem_of_replay_dedup before)
  · exact .inr (mem_idsAndKeys listed)

/-- A reopened group holds only messages that its logs hold. -/
theorem Sourced.opened {issued : Message T → Prop} {group : ConsumerGroup T V}
    (sourced : Sourced issued group) (visibilityTimeout : Duration) (retryPolicy : RetryPolicy)
    (order : List MessageId) :
    Sourced issued
      (ConsumerGroup.opened group.wal group.dlq.wal visibilityTimeout retryPolicy order) := by
  have housed := sourced.toRecorded.opened visibilityTimeout retryPolicy order
  refine { toHoused := housed, wal := sourced.wal, dlqWal := sourced.dlqWal, dedup := ?_ }
  intro key id found
  -- A key comes back from a replayed enqueue record or from a dead letter.
  rcases lookup_of_opened found with ⟨item, member⟩ | ⟨stored, deadLetter, entry, rfl, carried⟩
  · exact ⟨item, sourced.wal id (some key) item member⟩
  · refine ⟨deadLetter.item, ?_⟩
    rw [← carried]
    exact (housed.entries stored deadLetter entry).2

/-- A group opened on empty logs holds nothing. -/
theorem Sound.start (visibilityTimeout : Duration) (retryPolicy : RetryPolicy) :
    Sound (World.start visibilityTimeout retryPolicy : World T V) := by
  -- A new queue holds nothing.
  refine ⟨List.nodup_nil, by simp [World.start], ⟨⟨?_, ?_, ?_, ?_⟩, ⟨?_, ?_⟩, ?_⟩,
    by simp [World.start]⟩
  · intro entry member; cases member
  · intro id lease found; cases found
  · intro entry member; cases member
  · intro id deadLetter found; cases found
  · intro id key item member; cases member
  · intro deadLetter member; cases member
  · intro key id found; cases found

/-- A task that moves on within its call, or stops where it stands, keeps the invariant. -/
theorem Sound.advance {world : World T V} {shared : Runtime T V} {i : Nat} {task moved : Task T V}
    (sound : Sound world) (found : world.tasks[i]? = some task) (same : moved.call = task.call)
    (past : ∀ message key, moved.pc = .reserve message key → moved.pc = task.pc)
    (serves : moved.pc.serves moved.call)
    (sourced : Sourced (World.Issued ⟨shared, world.tasks.set i moved⟩) shared.group)
    (held : ∀ message ∈ moved.pc.messages,
      World.Issued ⟨shared, world.tasks.set i moved⟩ message) :
    Sound ⟨shared, world.tasks.set i moved⟩ := by
  refine ⟨?_, ?_, sourced, ?_⟩
  · -- No call draws a second identifier.
    show ((world.tasks.set i moved).filterMap _).Nodup
    rw [filterMap_set found (by rw [same])]
    exact sound.distinct
  · intro other member
    rcases List.mem_or_eq_of_mem_set member with before | rfl
    · exact sound.serves other before
    · exact serves
  · intro other member message inHand
    rcases List.mem_or_eq_of_mem_set member with before | rfl
    · exact (sound.held other before message inHand).set found same past
    · exact held message inHand

/-- Once a reservation has been passed, its message is an issued one. -/
theorem Sound.issued_past {world : World T V} {shared : Runtime T V} {i : Nat}
    {task : Task T V} (moved : Task T V) (sound : Sound world) (found : world.tasks[i]? = some task)
    (same : moved.call = task.call) (past : ∀ message key, moved.pc ≠ .reserve message key)
    {message : Message T} {key : IdempotencyKey} (reserving : task.pc = .reserve message key) :
    World.Issued ⟨shared, world.tasks.set i moved⟩ message ∧
      message.idempotencyKey = some key := by
  -- The reservation is behind the task, and its call still vouches for the message.
  have serves := sound.serves task (List.mem_of_getElem? found)
  rw [reserving] at serves
  refine ⟨⟨moved, ?_, same.trans serves.1, past message⟩, serves.2⟩
  exact List.mem_set (List.getElem?_eq_some_iff.mp found).1 moved

/-- The only call that starts with a message in hand is an enqueue without a key. -/
theorem Call.of_mem_entry_messages {message : Message T} (call : Call T V)
    (inHand : message ∈ call.entry.messages) :
    call = .enqueue message ∧ call.entry = .appendEnqueue message .producer := by
  cases call with
  | enqueue handed =>
    simp only [Call.entry] at inHand ⊢
    split at inHand
    · cases inHand
    · obtain rfl := List.mem_singleton.mp inHand
      exact ⟨rfl, rfl⟩
  | _ => cases inHand

/-- A call that is made with a new id keeps the invariant. -/
theorem Sound.spawn {world : World T V} (sound : Sound world) (call : Call T V)
    (fresh : ∀ task ∈ world.tasks, ∀ id ∈ call.newId, task.call.newId ≠ some id) :
    Sound (world.spawn ⟨call, call.entry, false⟩) := by
  refine ⟨?_, ?_, sound.sourced.mono fun _ known => known.spawn, ?_⟩
  · -- The new id, if there is one, is not among those generated before.
    show ((world.tasks ++ [_]).filterMap _).Nodup
    rw [List.filterMap_append, List.nodup_append]
    refine ⟨sound.distinct, by cases generated : call.newId <;> simp [generated], ?_⟩
    intro id earlier other new
    obtain ⟨task, member, generated⟩ := List.mem_filterMap.mp earlier
    have asked : call.newId = some other := by simpa [Option.mem_def] using new
    rintro rfl
    exact fresh task member id asked generated
  · intro task member
    rcases List.mem_append.mp member with before | new
    · exact sound.serves task before
    · obtain rfl := List.mem_singleton.mp new
      exact call.entry_serves
  · intro task member message inHand
    rcases List.mem_append.mp member with before | new
    · exact (sound.held task before message inHand).spawn
    · -- Only an enqueue without a key begins with a message, which is its own.
      obtain rfl := List.mem_singleton.mp new
      obtain ⟨called, appending⟩ := call.of_mem_entry_messages inHand
      refine ⟨_, List.mem_append_right _ List.mem_cons_self, called, ?_⟩
      intro key reserving
      rw [appending] at reserving
      cases reserving

/-- So does an operation that takes a step, whether or not it is dropped with it. -/
theorem Sound.goOn {world : World T V} {i : Nat} {task : Task T V} {now : Instant} {wallClock : Timestamp}
    {env : StepEnv} {group : ConsumerGroup T V} {next : Pc T V} (sound : Sound world)
    (found : world.tasks[i]? = some task)
    (moved : Moved now wallClock env world.shared.group task.pc group next) (cancelled : Bool) :
    Sound ⟨{ world.shared with group := group }, world.tasks.set i { task with pc := next, cancelled }⟩ := by
  have unreserved := fun message key => moved.not_reserve message key
  -- The task has not gone back to a reservation, so what was issued still is.
  have issued : ∀ message, world.Issued message → World.Issued
      ⟨{ world.shared with group := group }, world.tasks.set i { task with pc := next, cancelled }⟩
      message := fun _ known =>
    known.set found rfl fun message key reserving => absurd reserving (unreserved message key)
  have member := List.mem_of_getElem? found
  obtain ⟨sourced, held⟩ := moved.sourced (sound.sourced.mono issued)
    (fun message inHand => issued message (sound.held task member message inHand))
    (fun message key reserving =>
      sound.issued_past { task with pc := next, cancelled } found rfl unreserved reserving)
  exact sound.advance found rfl
    (fun message key reserving => absurd reserving (unreserved message key))
    (moved.serves sound.sourced (sound.serves task member)) sourced held

/-- Every step keeps the invariant. -/
theorem Sound.step {world world' : World T V} {act : Action T V} (sound : Sound world)
    (stepped : Stepped world act world') : Sound world' := by
  cases stepped with
  | @call call fresh => exact sound.spawn call fresh
  | @step i env task group next found alive moved => exact sound.goOn found moved task.cancelled
  | @drop i wrote task group next found alive dropped =>
    cases dropped with
    | stalled stalled =>
      -- Only its log may have been torn.
      have issued : ∀ message, world.Issued message → World.Issued
          ⟨{ world.shared with group := group }, world.tasks.set i { task with cancelled := true }⟩
          message := fun _ known => known.set found rfl fun _ _ _ => rfl
      have member := List.mem_of_getElem? found
      exact sound.advance found rfl (fun _ _ _ => rfl) (sound.serves task member)
        (stalled.sourced (sound.sourced.mono issued))
        (fun message inHand => issued message (sound.held task member message inHand))
    | written whole clean writes moved => exact sound.goOn found moved true
  | tick => exact ⟨sound.distinct, sound.serves, sound.sourced, sound.held⟩
  | setWallClock => exact ⟨sound.distinct, sound.serves, sound.sourced, sound.held⟩
  | reopen iterates =>
    -- The operations die where they stand, and the logs hold what was issued.
    refine ⟨?_, ?_, ?_, ?_⟩
    · show ((world.tasks.map Task.kill).filterMap _).Nodup
      simpa [List.filterMap_map, Function.comp_def] using sound.distinct
    · intro task member
      obtain ⟨before, was, rfl⟩ := List.mem_map.mp member
      simpa using sound.serves before was
    · exact (sound.sourced.mono fun _ known => known.kill).opened _ _ _
    · intro task member message inHand
      obtain ⟨before, was, rfl⟩ := List.mem_map.mp member
      rw [Task.kill_pc] at inHand
      exact (sound.held before was message inHand).kill

/-- The invariant holds after every run, whatever the side condition of its steps. -/
theorem sound_of_run {visibilityTimeout : Duration} {retryPolicy : RetryPolicy}
    {ok : World T V → Action T V → Prop} {trace : List (Transition (World T V) (Action T V))}
    {world : World T V}
    (run : Run World.step ok (World.start visibilityTimeout retryPolicy) trace world) :
    Sound world := by
  apply run.invariant (Sound.start visibilityTimeout retryPolicy)
  intro world act next _ sound taken
  exact sound.step (step_stepped taken)

/-- Two issued messages with one id are one message. -/
theorem Sound.issued_unique {world : World T V} (sound : Sound world) {first second : Message T}
    (left : world.Issued first) (right : world.Issued second) (same : first.id = second.id) :
    first = second := by
  obtain ⟨task, member, called, _⟩ := left
  obtain ⟨other, member', called', _⟩ := right
  -- The ids that calls generate are all different, so both messages come from one call.
  have generated : task.call.newId = some first.id := by simp [called, Call.newId]
  have generated' : other.call.newId = some first.id := by simp [called', Call.newId, same]
  have unique := eq_of_nodup_filterMap sound.distinct member member' generated generated'
  rw [unique, called'] at called
  exact (Call.enqueue.inj called).symm

end Qaas
