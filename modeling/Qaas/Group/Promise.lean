import Qaas.Group.Sound

/-! What an enqueue that returned `Ok` stands for: which records are in the main log by then. -/

namespace Qaas

open Concurrency

variable {T V : Type}

/-- The message of an enqueue whose own write is still ahead of it, or has failed. -/
def Call.unwritten (call : Call T V) (pc : Pc T V) : List MessageId :=
  match call, pc with
  | .enqueue message, .appendEnqueue _ _ => [message.id]
  -- The write has failed, and the key it was reserved under is not released yet.
  | .enqueue message, .releaseKey _ _ _ => [message.id]
  | _, _ => []

/-- An `Enqueue` record of the message is in the main log, where the next replay reads it. -/
def World.Written (world : World T V) (id : MessageId) : Prop :=
  ∃ key item, WalRecord.enqueue id key item ∈ world.shared.group.wal.records

/-- The message whose `Enqueue` record this is. -/
def WalRecord.enqueuedId : WalRecord T V → Option MessageId
  | .enqueue id _ _ => some id
  | _ => none

/-- The enqueue that generated an id has not written its record, from where it may have been dropped,
or the record stands behind a torn frame, where no replay reads it. -/
def World.Unwritten (world : World T V) (id : MessageId) : Prop :=
  (∃ task ∈ world.tasks, id ∈ task.call.unwritten task.pc) ∨
    ¬ world.Written id ∧ ∃ record ∈ world.shared.group.wal.behind, record.enqueuedId = some id

instance (world : World T V) (id : MessageId) : Decidable (world.Written id) :=
  decidable_of_iff (∃ record ∈ world.shared.group.wal.records, record.enqueuedId = some id) <| by
    constructor
    · intro ⟨record, member, own⟩
      cases record with
      | enqueue other key item =>
        cases own
        exact ⟨key, item, member⟩
      | _ => cases own
    · exact fun ⟨key, item, member⟩ => ⟨_, member, rfl⟩

instance (world : World T V) (id : MessageId) : Decidable (world.Unwritten id) :=
  inferInstanceAs (Decidable ((∃ task ∈ world.tasks, _) ∨ _ ∧ ∃ record ∈ world.shared.group.wal.behind, _))

/-- No step takes a record out of the part of the main log that a replay reads. -/
theorem Moved.written {now : Instant} {wallClock : Timestamp} {env : StepEnv}
    {group group' : ConsumerGroup T V} {pc next : Pc T V}
    (moved : Moved now wallClock env group pc group' next) {record : WalRecord T V}
    (member : record ∈ group.wal.records) : record ∈ group'.wal.records := by
  cases moved with
  | enqueueWritten | enqueueFailed | deadLetteredWritten | deadLetteredFailed | ackWritten | ackFailed
  | checkpointWritten | checkpointFailed => exact Log.records_append_mono member
  | _ => exact member

/-- No step takes a record out of the part behind a torn frame either. -/
theorem Moved.behind {now : Instant} {wallClock : Timestamp} {env : StepEnv}
    {group group' : ConsumerGroup T V} {pc next : Pc T V}
    (moved : Moved now wallClock env group pc group' next) {record : WalRecord T V}
    (member : record ∈ group.wal.behind) : record ∈ group'.wal.behind := by
  cases moved with
  | enqueueWritten | enqueueFailed | deadLetteredWritten | deadLetteredFailed | ackWritten | ackFailed
  | checkpointWritten | checkpointFailed => exact Log.behind_append_mono member
  | _ => exact member

/-- A delivery that has been resolved leads to no enqueue. -/
theorem ResolveCaller.next_steps (caller : ResolveCaller T V) :
    (∀ message : Message T, caller.next ≠ .appendEnqueue message .producer) ∧
      (∀ id, caller.next ≠ .notifyOne (.message id)) ∧
      (∀ result, caller.next ≠ .done result) ∧
      ∀ id key result, caller.next ≠ .releaseKey id key result := by
  match caller with
  | .nack | .reclaim [] | .reclaim (_ :: _) => simp [ResolveCaller.next]

/-- After an error in it, a delivery leads to no enqueue either. -/
theorem ResolveCaller.failed_steps (caller : ResolveCaller T V) :
    (∀ message : Message T, caller.failed ≠ .appendEnqueue message .producer) ∧
      (∀ id, caller.failed ≠ .notifyOne (.message id)) ∧
      ∀ id, caller.failed ≠ .done (.message id) := by
  match caller with
  | .nack => simp [ResolveCaller.failed]
  | .reclaim rest =>
    obtain ⟨append, notify, done, _⟩ := (ResolveCaller.reclaim rest).next_steps
    exact ⟨append, notify, fun id => done (.message id)⟩

/-- An enqueue wakes the consumers after it has pushed its message, and at no other time. -/
theorem Moved.notifies {now : Instant} {wallClock : Timestamp} {env : StepEnv}
    {group group' : ConsumerGroup T V} {pc next : Pc T V}
    (moved : Moved now wallClock env group pc group' next) {id : MessageId}
    (notifying : next = .notifyOne (.message id)) :
    ∃ message, pc = .pushPending message .producer ∧ message.id = id := by
  -- The other steps that end an operation wake nobody on behalf of a new message.
  cases moved with
  | quiet changed quiet => cases quiet <;> cases notifying
  | @pushPending message caller =>
    cases caller with
    | producer => cases notifying; exact ⟨message, rfl, rfl⟩
    | reprocess => cases notifying
  | @enqueueFailed message caller failed =>
    cases carried : message.idempotencyKey <;> simp [releaseThenFail, carried] at notifying
  | @retried failed caller | @deadLetteredWritten other caller =>
    exact absurd notifying (caller.next_steps.2.1 id)
  | @exhaustedFailed failed caller | @deadLetteredFailed other caller =>
    exact absurd notifying (caller.failed_steps.2.1 id)
  | @removeWritten deadLetter caller =>
    cases caller with
    | reprocess => cases notifying
    | purge => cases carried : deadLetter.idempotencyKey <;> simp [TakeCaller.next, carried] at notifying
  | _ => cases notifying

/-- An enqueue returns `Ok` after it has woken the consumers, or for a message that has its key. -/
theorem Moved.returns {now : Instant} {wallClock : Timestamp} {env : StepEnv}
    {group group' : ConsumerGroup T V} {call : Call T V} {pc next : Pc T V}
    (moved : Moved now wallClock env group pc group' next) (serves : pc.serves call)
    {id : MessageId} (returned : next = .done (.message id)) :
    pc = .notifyOne (.message id) ∨
      ∃ message key, pc = .reserve message key ∧ group.state.dedup.lookup key = some id := by
  -- An enqueue answers with the id that it has pushed, or with the one that has its key already.
  cases moved with
  | quiet changed quiet =>
    cases quiet with
    | notifyOne result => cases returned; exact .inl rfl
    | _ => cases returned
  | @reserveHit message key existingId found => cases returned; exact .inr ⟨message, key, rfl, found⟩
  | @releaseKey other key result =>
    cases returned
    rcases serves with ⟨_, _, _, _, _, same⟩ | ⟨_, same⟩ <;> cases same
  | @enqueueFailed message caller failed =>
    cases carried : message.idempotencyKey <;> simp [releaseThenFail, carried] at returned
  | @retried failed caller | @deadLetteredWritten other caller =>
    exact absurd returned (caller.next_steps.2.2.1 (.message id))
  | @exhaustedFailed failed caller | @deadLetteredFailed other caller =>
    exact absurd returned (caller.failed_steps.2.2 id)
  | @removeWritten deadLetter caller =>
    cases caller with
    | reprocess => cases returned
    | purge => cases carried : deadLetter.idempotencyKey <;> simp [TakeCaller.next, carried] at returned
  | _ => cases returned

/-- Everything a group holds has been written, and what it only promises may still be on its way. -/
structure Vouched (world : World T V) : Prop where
  housed : Housed (fun message => world.Written message.id) world.shared.group
  dlqWal : ∀ deadLetter, DlqRecord.deadLetter deadLetter ∈ world.shared.group.dlq.wal.records →
    world.Written deadLetter.id
  -- A dropped operation may have written its message behind a torn frame.
  held : ∀ task ∈ world.tasks, task.cancelled = false → ∀ message ∈ task.pc.messages,
    world.Written message.id ∨ task.pc = .appendEnqueue message .producer
  pushed : ∀ task ∈ world.tasks, ∀ id, task.pc = .notifyOne (.message id) → world.Written id
  -- A key may be reserved for a message before that message is written.
  dedup : ∀ key id, world.shared.group.state.dedup.lookup key = some id →
    world.Written id ∨ world.Unwritten id

/-- A step keeps everything the group holds written, and takes new messages in hand only with a record. -/
theorem Moved.vouched {now : Instant} {wallClock : Timestamp} {env : StepEnv}
    {group group' : ConsumerGroup T V} {pc next : Pc T V} {written : MessageId → Prop}
    (moved : Moved now wallClock env group pc group' next)
    (housed : Housed (fun message => written message.id) group)
    (held : ∀ message ∈ pc.messages, written message.id ∨ pc = .appendEnqueue message .producer) :
    Housed (fun message => written message.id) group' ∧
      ((∀ message, pc = .appendEnqueue message .producer → env.outcome.acknowledged = true →
          written message.id) →
        ∀ message ∈ next.messages, written message.id ∨ next = .appendEnqueue message .producer) := by
  by_cases ordinary : (∀ message key, pc ≠ .reserve message key) ∧
      ∀ message, pc ≠ .appendEnqueue message .producer
  · -- The operation starts with written messages only, so it can end with no others.
    obtain ⟨housed', inHand⟩ := moved.housed housed
      (fun message member => (held message member).resolve_right (ordinary.2 message))
      (fun message key reserving => absurd reserving (ordinary.1 message key))
    exact ⟨housed', fun _ message member => .inl (inHand message member)⟩
  · cases moved with
    | reserveHit found => exact ⟨housed, by simp [Pc.messages]⟩
    | reserveFresh absent =>
      refine ⟨{ housed with }, fun _ message member => ?_⟩
      obtain rfl := List.mem_singleton.mp member
      exact .inr rfl
    | @enqueueWritten message caller told =>
      refine ⟨{ housed with }, fun landed other member => ?_⟩
      obtain rfl := List.mem_singleton.mp member
      -- The record of a producer's message has landed, and another message had one before.
      cases caller with
      | producer => exact .inl (landed other rfl told)
      | reprocess => exact .inl ((held other List.mem_cons_self).resolve_right fun same => by cases same)
    | @enqueueFailed message caller failed =>
      refine ⟨{ housed with }, ?_⟩
      cases message.idempotencyKey <;> simp [releaseThenFail, Pc.messages]
    | quiet changed quiet => cases quiet <;> simp at ordinary
    | _ => simp at ordinary

/-- What was written stays written, while no record leaves the part of the log that a replay reads. -/
theorem World.Written.advance {world : World T V} {group : ConsumerGroup T V}
    {tasks : List (Task T V)} {id : MessageId} (written : world.Written id)
    (kept : ∀ record, record ∈ world.shared.group.wal.records → record ∈ group.wal.records) :
    World.Written ⟨{ world.shared with group := group }, tasks⟩ id := by
  obtain ⟨key, item, member⟩ := written
  exact ⟨key, item, kept _ member⟩

/-- What was written stays written when an operation stops where it stands. -/
theorem World.Written.stall {world : World T V} {group : ConsumerGroup T V}
    {tasks : List (Task T V)} {id : MessageId} (written : world.Written id)
    (stalled : Stalled world.shared.group group) :
    World.Written ⟨{ world.shared with group := group }, tasks⟩ id := by
  apply written.advance
  intro record logged
  rwa [stalled.records]

/-- A move of the enqueue that has not written its message yet writes it, perhaps behind a torn frame,
or gives its key up, unless the write fails behind its `Ok`. -/
theorem Moved.unwritten {now : Instant} {wallClock : Timestamp} {env : StepEnv}
    {group group' : ConsumerGroup T V} {call : Call T V} {pc next : Pc T V}
    (moved : Moved now wallClock env group pc group' next) (serves : pc.serves call)
    (truthful : ∀ message, pc = .appendEnqueue message .producer → env.outcome.acknowledged = true →
      env.outcome = .ok)
    {id : MessageId} (before : id ∈ call.unwritten pc) :
    id ∈ call.unwritten next ∨ (∃ key item, WalRecord.enqueue id key item ∈ group'.wal.written) ∨
      ∃ message, call = .enqueue message ∧ message.id = id ∧
        ∀ key, message.idempotencyKey = some key → group'.state.dedup.lookup key = none := by
  -- Only the enqueue's own write and the release of its key come into question.
  cases call with
  | enqueue message =>
    cases moved with
    | @enqueueWritten written caller told =>
      obtain rfl := List.mem_singleton.mp before
      cases caller with
      | producer =>
        obtain rfl := Call.enqueue.inj serves
        refine .inr (.inl ⟨message.idempotencyKey, message.item, ?_⟩)
        rw [ConsumerGroup.withWal, truthful message rfl told]
        exact Log.mem_written_land.mpr (.inr rfl)
      | reprocess => cases serves
    | @enqueueFailed written caller failed =>
      obtain rfl := List.mem_singleton.mp before
      cases caller with
      | producer =>
        obtain rfl := Call.enqueue.inj serves
        cases carried : message.idempotencyKey with
        | none => exact .inr (.inr ⟨message, rfl, rfl, by simp [carried]⟩)
        | some key => exact .inl (by simp [releaseThenFail, Call.unwritten])
      | reprocess => cases serves
    -- Once its key is released, no registration speaks for the message any more.
    | @releaseKey other key result =>
      obtain rfl := List.mem_singleton.mp before
      rcases serves with ⟨handed, caller, serves, _, carried, _⟩ | ⟨impossible, _⟩
      · cases caller with
        | producer =>
          obtain rfl := Call.enqueue.inj serves
          refine .inr (.inr ⟨message, rfl, rfl, ?_⟩)
          intro other same
          obtain rfl : key = other := by rw [carried] at same; exact Option.some.inj same
          exact Finmap.lookup_erase key _
        | reprocess => cases serves
      · cases impossible
    | quiet changed quiet => cases quiet <;> cases before
    | _ => cases before
  | _ => cases before

/-- A key taken by the message of an enqueue is the key that message carries. -/
theorem Sound.carries {world : World T V} (sound : Sound world) {task : Task T V}
    (member : task ∈ world.tasks) {message : Message T} (called : task.call = .enqueue message)
    {key : IdempotencyKey} (found : world.shared.group.state.dedup.lookup key = some message.id) :
    message.idempotencyKey = some key := by
  obtain ⟨item, other, member', called', _⟩ := sound.sourced.dedup key _ found
  -- The two calls generate the same id, so they are one call.
  have generated : task.call.newId = some message.id := by simp [called, Call.newId]
  have generated' : other.call.newId = some message.id := by simp [called', Call.newId]
  obtain rfl := eq_of_nodup_filterMap sound.distinct member member' generated generated'
  rw [called] at called'
  rw [Call.enqueue.inj called']

/-- A record that was written is read by the next replay, or stands behind a torn frame. -/
theorem World.written_or_unwritten {world : World T V} {record : WalRecord T V} {id : MessageId}
    (logged : record ∈ world.shared.group.wal.written) (own : record.enqueuedId = some id) :
    world.Written id ∨ world.Unwritten id := by
  -- Only the record of the enqueue is about the id as a new message.
  by_cases written : world.Written id
  · exact .inl written
  · rcases List.mem_append.mp logged with front | back
    · cases record with
      | enqueue other key item =>
        cases own
        exact .inl ⟨key, item, front⟩
      | _ => cases own
    · exact .inr (.inr ⟨written, record, back, own⟩)

/-- What is written, or still to be, is so after an operation has stopped where it stands. -/
theorem World.promised_stall {world : World T V} {i : Nat} {task : Task T V} {group : ConsumerGroup T V}
    {id : MessageId} (promised : world.Written id ∨ world.Unwritten id) (found : world.tasks[i]? = some task)
    (stalled : Stalled world.shared.group group) :
    World.Written ⟨{ world.shared with group := group }, world.tasks.set i { task with cancelled := true }⟩ id ∨
      World.Unwritten ⟨{ world.shared with group := group },
        world.tasks.set i { task with cancelled := true }⟩ id := by
  rcases promised with written | ⟨other, among, unwritten⟩ | ⟨_, record, hidden, names⟩
  · exact .inl (written.stall stalled)
  · -- The operation still stands before its write, if it is the one.
    rcases mem_set_or_eq { task with cancelled := true } found among with rfl | kept
    · exact .inr (.inl ⟨_, List.mem_set (List.getElem?_eq_some_iff.mp found).1 _, unwritten⟩)
    · exact .inr (.inl ⟨other, kept, unwritten⟩)
  · exact World.written_or_unwritten (List.mem_append_right _ (stalled.behind ▸ hidden)) names

/-- Nor does a new operation change anything about it. -/
theorem World.promised_call {world : World T V} {id : MessageId}
    (promised : world.Written id ∨ world.Unwritten id) (task : Task T V) :
    World.Written (world.spawn task) id ∨ World.Unwritten (world.spawn task) id := by
  rcases promised with written | ⟨other, among, unwritten⟩ | hidden
  · exact .inl written
  · exact .inr (.inl ⟨other, List.mem_append_left _ among, unwritten⟩)
  · exact .inr (.inr hidden)

/-- The append of a producer's message is told the truth: an `Ok` is for a record that has landed. -/
def Task.Truthful (task : Task T V) (env : StepEnv) : Prop :=
  ∀ message, task.pc = .appendEnqueue message .producer → env.outcome.acknowledged = true →
    env.outcome = .ok

/-- A step of an operation, even one it does not live to see the end of, keeps what is promised. -/
theorem Vouched.move {world : World T V} {i : Nat} {env : StepEnv} {task : Task T V}
    {group : ConsumerGroup T V} {next : Pc T V} (vouched : Vouched world) (sound : Sound world)
    (found : world.tasks[i]? = some task) (alive : task.cancelled = false)
    (moved : Moved world.shared.now world.shared.wallClock env world.shared.group task.pc group next)
    (cancelled : Bool) (truthful : task.Truthful env)
    (front : cancelled = false → ∀ message, task.pc = .appendEnqueue message .producer →
      env.outcome = .ok → world.shared.group.wal.torn = false) :
    Vouched ⟨{ world.shared with group := group },
      world.tasks.set i { task with pc := next, cancelled := cancelled }⟩ := by
  have member := List.mem_of_getElem? found
  have serves := sound.serves task member
  have own := vouched.held task member alive
  have known : ∀ id, world.Written id → World.Written ⟨{ world.shared with group := group },
      world.tasks.set i { task with pc := next, cancelled := cancelled }⟩ id :=
    fun id written => written.advance fun record => moved.written
  obtain ⟨housed, inHand⟩ := moved.vouched (vouched.housed.mono fun message => known message.id)
    (fun message held => (own message held).imp_left (known message.id))
  refine ⟨housed, ?_, ?_, ?_, ?_⟩
  · intro deadLetter logged
    rcases moved.deadLettered logged with earlier | held
    · exact known _ (vouched.dlqWal deadLetter earlier)
    · -- A message that fails has been pushed before, so it has been written.
      rcases own _ held with written | appending
      · exact known _ written
      · rw [appending] at moved
        cases moved with
        | enqueueWritten | enqueueFailed => exact known _ (vouched.dlqWal deadLetter logged)
        | quiet changed quiet => cases quiet
  · intro other among live
    rcases List.mem_or_eq_of_mem_set among with before | rfl
    · exact fun message held => (vouched.held other before live message held).imp_left (known message.id)
    · -- A producer that goes on has its record in front of any torn frame.
      refine inHand fun message appending told => ?_
      have synced := truthful message appending told
      have intact := front live message appending synced
      refine ⟨message.idempotencyKey, message.item, ?_⟩
      rw [appending] at moved
      cases moved with
      | enqueueWritten _ =>
        simp only [ConsumerGroup.withWal, synced, Log.append_ok intact]
        exact List.mem_append_right _ List.mem_cons_self
      | enqueueFailed failed => cases told.symm.trans failed
      | quiet changed quiet => cases quiet
  · intro other among id notifying
    rcases List.mem_or_eq_of_mem_set among with before | rfl
    · exact known id (vouched.pushed other before id notifying)
    · obtain ⟨message, pushing, rfl⟩ := moved.notifies notifying
      have held : message ∈ task.pc.messages := by simp [pushing, Pc.messages]
      exact known _ ((own message held).resolve_right (by simp [pushing]))
  · intro key id registered
    rcases moved.registered registered with earlier | ⟨message, reserving, rfl, rfl⟩
    · rcases vouched.dedup key id earlier with written | ⟨other, among, unwritten⟩ | ⟨_, record, behind, names⟩
      · exact .inl (known id written)
      · rcases mem_set_or_eq { task with pc := next, cancelled := cancelled } found among
          with rfl | kept
        · rcases moved.unwritten serves truthful unwritten
            with still | ⟨_, _, written⟩ | ⟨message, called, rfl, freed⟩
          · exact .inr (.inl ⟨_, List.mem_set (List.getElem?_eq_some_iff.mp found).1 _, still⟩)
          · exact World.written_or_unwritten written rfl
          · -- Giving its key up has taken the registration away.
            rw [freed key (sound.carries member called earlier)] at registered
            cases registered
        · exact .inr (.inl ⟨other, kept, unwritten⟩)
      · exact World.written_or_unwritten (List.mem_append_right _ (moved.behind behind)) names
    · -- The reservation has just been made, and its write comes next.
      rw [reserving] at serves
      refine .inr (.inl ⟨_, List.mem_set (List.getElem?_eq_some_iff.mp found).1 _, ?_⟩)
      rw [serves.1]
      exact List.mem_singleton.mpr rfl

/-- An operation that stops where it stands keeps what is promised. -/
theorem Vouched.stall {world : World T V} {i : Nat} {task : Task T V} {group : ConsumerGroup T V}
    (vouched : Vouched world) (found : world.tasks[i]? = some task)
    (stalled : Stalled world.shared.group group) :
    Vouched ⟨{ world.shared with group := group }, world.tasks.set i { task with cancelled := true }⟩ := by
  have member := List.mem_of_getElem? found
  have known : ∀ id, world.Written id → World.Written ⟨{ world.shared with group := group },
      world.tasks.set i { task with cancelled := true }⟩ id := fun _ written => written.stall stalled
  -- Memory stays as it is, and no record is lost.
  have ⟨state, entries, _, _, dlqRecords, _, _⟩ := stalled
  refine ⟨⟨?_, ?_, ?_, ?_⟩, ?_, ?_, ?_, ?_⟩
  · rw [state]
    exact fun entry among => known _ (vouched.housed.pending entry among)
  · rw [state]
    exact fun id lease leased => known _ (vouched.housed.leased id lease leased)
  · rw [state]
    exact fun entry among => known _ (vouched.housed.delayed entry among)
  · rw [entries]
    exact fun id deadLetter stored =>
      (vouched.housed.entries id deadLetter stored).imp_right (known deadLetter.id)
  · rw [dlqRecords]
    exact fun deadLetter logged => known _ (vouched.dlqWal deadLetter logged)
  · intro other among live message held
    rcases List.mem_or_eq_of_mem_set among with before | rfl
    · exact (vouched.held other before live message held).imp_left (known message.id)
    · cases live
  · intro other among id notifying
    rcases List.mem_or_eq_of_mem_set among with before | rfl
    · exact known id (vouched.pushed other before id notifying)
    · exact known id (vouched.pushed task member id notifying)
  · rw [state]
    exact fun key id registered => World.promised_stall (vouched.dedup key id registered) found stalled

/-- A group opened on empty logs promises nothing. -/
theorem Vouched.start (visibilityTimeout : Duration) (retryPolicy : RetryPolicy) :
    Vouched (World.start visibilityTimeout retryPolicy : World T V) := by
  -- A new queue holds nothing that would need a record.
  refine ⟨⟨?_, ?_, ?_, ?_⟩, ?_, ?_, ?_, ?_⟩
  · intro entry member; cases member
  · intro id lease found; cases found
  · intro entry member; cases member
  · intro id deadLetter found; cases found
  · intro deadLetter member; cases member
  · intro task member; cases member
  · intro task member; cases member
  · intro key id found; cases found

/-- The message that an enqueue about to look its key up will be deduplicated against. -/
def Pc.hit (dedup : Dedup) : Pc T V → Option MessageId
  | .reserve _ key => dedup.lookup key
  | _ => none

/-- The message whose `Enqueue` record a producer is about to append. -/
def Pc.produces : Pc T V → Option MessageId
  | .appendEnqueue message .producer => some message.id
  | _ => none

/-- The append of a producer's record returns `Ok` only where the record lands, in front of any torn
frame. -/
def World.Lands (world : World T V) : Action T V → Prop
  | .step i env => ∀ task ∈ world.tasks[i]?, task.pc.produces.isSome → env.outcome.acknowledged = true →
      env.outcome = .ok ∧ world.shared.group.wal.torn = false
  | .call _ | .drop _ _ | .tick _ | .setWallClock _ | .reopen _ => True

/-- No call is deduplicated against a message that is not written, and no producer's append returns
`Ok` for a record that is not read again. -/
def HitsWritten (world : World T V) (act : Action T V) : Prop :=
  (match act with
    | .step i _ => ∀ task ∈ world.tasks[i]?, ∀ id ∈ task.pc.hit world.shared.group.state.dedup,
        ¬ world.Unwritten id
    | .call _ | .drop _ _ | .tick _ | .setWallClock _ | .reopen _ => True) ∧ world.Lands act

instance (world : World T V) (act : Action T V) : Decidable (world.Lands act) :=
  match act with
  | .step i _ => inferInstanceAs (Decidable (∀ task ∈ world.tasks[i]?, _ → _ → _))
  | .call _ | .drop _ _ | .tick _ | .setWallClock _ | .reopen _ => .isTrue trivial

instance (world : World T V) (act : Action T V) : Decidable (HitsWritten world act) :=
  match act with
  | .step i _ => inferInstanceAs (Decidable ((∀ task ∈ world.tasks[i]?, _) ∧ _))
  | .call _ | .drop _ _ | .tick _ | .setWallClock _ | .reopen _ => .isTrue ⟨trivial, trivial⟩

/-- Every step keeps what is promised, while the producers' appends are told the truth. -/
theorem Vouched.step {world world' : World T V} {act : Action T V} (vouched : Vouched world)
    (sound : Sound world) (stepped : Stepped world act world') (lands : world.Lands act) :
    Vouched world' := by
  cases stepped with
  | @call call fresh =>
    refine ⟨vouched.housed, vouched.dlqWal, ?_, ?_, ?_⟩
    · intro task among live message held
      rcases List.mem_append.mp among with before | new
      · exact vouched.held task before live message held
      · -- A new operation has at most the message in hand that it is about to write.
        obtain rfl := List.mem_singleton.mp new
        exact .inr (call.of_mem_entry_messages held).2
    · intro task among id notifying
      rcases List.mem_append.mp among with before | new
      · exact vouched.pushed task before id notifying
      · obtain rfl := List.mem_singleton.mp new
        cases call with
        | enqueue handed => cases keyed : handed.idempotencyKey <;> simp [Call.entry, keyed] at notifying
        | _ => cases notifying
    · exact fun key id registered => World.promised_call (vouched.dedup key id registered) _
  | @step i env task group next found alive moved =>
    -- A write of this step that is answered `Ok` has landed, behind no torn frame.
    have truthful := lands task found
    refine vouched.move sound found alive moved _ ?_ ?_
    · exact fun message here told => (truthful (by rw [here]; rfl) told).1
    · exact fun _ message here synced => (truthful (by rw [here]; rfl) (by rw [synced]; rfl)).2
  | drop found alive dropped =>
    cases dropped with
    | stalled stalled => exact vouched.stall found stalled
    | written whole clean writes moved =>
      exact vouched.move sound found alive moved true (fun _ _ _ => clean) fun lives => by cases lives
  | tick => exact ⟨vouched.housed, vouched.dlqWal, vouched.held, vouched.pushed, vouched.dedup⟩
  | setWallClock => exact ⟨vouched.housed, vouched.dlqWal, vouched.held, vouched.pushed, vouched.dedup⟩
  | @reopen order iterates =>
    have known (id : MessageId) (written : world.Written id) : World.Written
        ⟨{ world.shared with group := world.shared.group.reopened order }, world.tasks.map Task.kill⟩ id :=
      written.advance fun _ logged => logged
    have recorded : Recorded (fun message => world.Written message.id) world.shared.group :=
      ⟨fun id key item logged => ⟨key, item, logged⟩, vouched.dlqWal⟩
    have housed := recorded.opened world.shared.group.visibilityTimeout
      world.shared.group.retryPolicy order
    refine ⟨housed.mono fun message => known message.id, ?_, ?_, ?_, ?_⟩
    · exact fun deadLetter logged => known _ (vouched.dlqWal deadLetter logged)
    · intro task among live message held
      obtain ⟨before, was, rfl⟩ := List.mem_map.mp among
      rw [Task.kill_pc] at held ⊢
      exact (vouched.held before was (Task.alive_of_kill live) message held).imp_left (known message.id)
    · intro task among id notifying
      obtain ⟨before, was, rfl⟩ := List.mem_map.mp among
      rw [Task.kill_pc] at notifying
      exact known id (vouched.pushed before was id notifying)
    · intro key id registered
      -- Every registration comes back from a record in one of the two logs.
      left
      rcases lookup_of_opened registered with ⟨item, logged⟩ | ⟨stored, deadLetter, entry, rfl, _⟩
      · exact known id (recorded.wal id (some key) item logged)
      · exact known _ (housed.entries stored deadLetter entry).2

/-- While calls are deduplicated against written messages only, and the producers' appends are told the
truth, promises are kept whatever else fails. -/
theorem vouched_of_run {visibilityTimeout : Duration} {retryPolicy : RetryPolicy}
    {trace : List (Transition (World T V) (Action T V))} {world : World T V}
    (run : Run World.step HitsWritten (World.start visibilityTimeout retryPolicy) trace world) :
    Vouched world := by
  apply run.invariant_of (Vouched.start visibilityTimeout retryPolicy) sound_of_run
  exact fun world act next settled sound _ vouched taken => vouched.step sound (step_stepped taken) settled.2

/-- A step of an operation that is not deduplicated too early keeps every `Ok` one for a written message. -/
theorem Vouched.told {world : World T V} {i : Nat} {env : StepEnv} {task : Task T V}
    {group : ConsumerGroup T V} {next : Pc T V} (vouched : Vouched world) (sound : Sound world)
    (found : world.tasks[i]? = some task)
    (settled : ∀ id ∈ task.pc.hit world.shared.group.state.dedup, ¬ world.Unwritten id)
    (told : ∀ task ∈ world.tasks, ∀ id, task.pc = .done (.message id) → world.Written id)
    (moved : Moved world.shared.now world.shared.wallClock env world.shared.group task.pc group next)
    (cancelled : Bool) :
    ∀ other ∈ world.tasks.set i { task with pc := next, cancelled := cancelled }, ∀ id,
      other.pc = .done (.message id) → World.Written ⟨{ world.shared with group := group },
        world.tasks.set i { task with pc := next, cancelled := cancelled }⟩ id := by
  intro other among id returned
  have member := List.mem_of_getElem? found
  have written : world.Written id := by
    rcases List.mem_or_eq_of_mem_set among with before | rfl
    · exact told other before id returned
    · rcases moved.returns (sound.serves task member) returned with notified | ⟨message, key, here, hit⟩
      · exact vouched.pushed task member id notified
      · -- The call was deduplicated, and the reservation it found had been written by then.
        apply (vouched.dedup key id hit).resolve_right
        apply settled id
        rw [here]
        exact hit
  exact written.advance fun record => moved.written

/-- While calls are deduplicated against written messages only, whoever was told `Ok` was told the truth. -/
theorem told_of_run {visibilityTimeout : Duration} {retryPolicy : RetryPolicy}
    {trace : List (Transition (World T V) (Action T V))} {world : World T V}
    (run : Run World.step HitsWritten (World.start visibilityTimeout retryPolicy) trace world) :
    ∀ task ∈ world.tasks, ∀ id, task.pc = .done (.message id) → world.Written id := by
  apply run.invariant_of (by intro task member; cases member)
    (fun run => And.intro (sound_of_run run) (vouched_of_run run))
  intro world act next settled ⟨sound, vouched⟩ _ told taken
  cases step_stepped taken with
  | @call call fresh =>
    intro task among id returned
    rcases List.mem_append.mp among with before | new
    · exact told task before id returned
    · obtain rfl := List.mem_singleton.mp new
      exact absurd returned (call.entry_ne_done _)
  | step found alive moved => exact vouched.told sound found (settled.1 _ found) told moved _
  | @drop i wrote task group next found alive dropped =>
    cases dropped with
    | stalled stalled =>
      intro other among id returned
      rcases List.mem_or_eq_of_mem_set among with before | rfl
      · exact (told other before id returned).stall stalled
      · exact (told task (List.mem_of_getElem? found) id returned).stall stalled
    | written whole clean writes moved =>
      -- An operation that waits for a write is not about to look its key up.
      apply vouched.told sound found _ told moved
      intro id hit
      cases here : task.pc with
      | reserve => rw [here] at writes; cases writes
      | _ => rw [here] at hit; cases hit
  | tick => exact told
  | setWallClock => exact told
  | @reopen order iterates =>
    intro task among id returned
    obtain ⟨before, was, rfl⟩ := List.mem_map.mp among
    rw [Task.kill_pc] at returned
    exact (told before was id returned).advance fun _ logged => logged

/--
Every `Ok` of an enqueue is for a message whose `Enqueue` record is in the main log by then, where the
next replay reads it.

Other writes may fail, calls may be dropped, and every other operation may run in between.
-/
theorem ok_is_durable {visibilityTimeout : Duration} {retryPolicy : RetryPolicy} {world : World T V}
    (reached : Reachable World.step HitsWritten (World.start visibilityTimeout retryPolicy) world)
    {task : Task T V} (member : task ∈ world.tasks) {id : MessageId}
    (returned : task.pc = .done (.message id)) :
    ∃ key item, WalRecord.enqueue id key item ∈ world.shared.group.wal.records := by
  obtain ⟨trace, run⟩ := reached
  exact told_of_run run task member id returned

/-- Two enqueues under one key, one after the other. -/
def enqueuedTwice : List (Action Nat Nat) :=
  Action.run 0 (.enqueue ⟨⟨0⟩, 10, some ⟨"k"⟩⟩) 4 ++ Action.run 1 (.enqueue ⟨⟨1⟩, 11, some ⟨"k"⟩⟩) 1

/-- The second call gets the id of the first, whose record is there. -/
theorem ok_is_durable_twice : ∃ world : World Nat Nat,
    (∃ task ∈ world.tasks, task.call = .enqueue ⟨⟨1⟩, 11, some ⟨"k"⟩⟩ ∧
      task.pc = .done (.message ⟨0⟩)) ∧
    ∃ key item, WalRecord.enqueue ⟨0⟩ key item ∈ world.shared.group.wal.records := by
  -- The second call of the same key returns the first message's identifier.
  have reachable : ∃ world : World Nat Nat, Reachable World.step HitsWritten
      (World.start 30 RetryPolicy.default) world ∧
      ∃ task ∈ world.tasks, task.call = .enqueue ⟨⟨1⟩, 11, some ⟨"k"⟩⟩ ∧
        task.pc = .done (.message ⟨0⟩) :=
    reaches_of_exec enqueuedTwice _ (by decide +kernel)
  obtain ⟨world, reached, task, member, called, returned⟩ := reachable
  exact ⟨world, ⟨task, member, called, returned⟩, ok_is_durable reached member returned⟩

/-- The first of two enqueues is dropped before its write, and the second was told `Ok` for it. -/
def toldTooEarly : List (Action Nat Nat) :=
  Action.run 0 (.enqueue ⟨⟨0⟩, 10, some ⟨"k"⟩⟩) 1 ++
    Action.run 1 (.enqueue ⟨⟨1⟩, 11, some ⟨"k"⟩⟩) 1 ++ [.drop 0 .failedEmpty]

/-- The write of an enqueue without a key fails behind its `Ok`. -/
def toldForNothing : List (Action Nat Nat) :=
  [.call (.enqueue ⟨⟨0⟩, 10, none⟩), .step 0 { outcome := .lostEmpty }, .step 0 {}, .step 0 {}]

/-- The write of one enqueue stops inside its frame, and the next one writes behind that. -/
def toldBehindTorn : List (Action Nat Nat) :=
  [.call (.enqueue ⟨⟨1⟩, 11, none⟩), .step 0 { outcome := .failedTorn }] ++
    Action.run 1 (.enqueue ⟨⟨0⟩, 10, none⟩) 3

/-- A call can be told `Ok` for a message of which nothing was ever written, or nothing that the next
replay reads. -/
theorem ok_without_record : [toldTooEarly, toldForNothing, toldBehindTorn].Forall fun acts =>
    ∃ ran ∈ record World.step (World.start 30 RetryPolicy.default : World Nat Nat) acts,
      Reachable World.step (fun _ _ => True) (World.start 30 RetryPolicy.default) ran.2 ∧
        (∃ task ∈ ran.2.tasks, task.pc = .done (.message ⟨0⟩)) ∧
        ¬ ∃ key item, WalRecord.enqueue ⟨0⟩ key item ∈ ran.2.shared.group.wal.records := by
  -- The three runs are computed, and in each the log that replay reads is empty.
  have recorded : ∀ acts ∈ [toldTooEarly, toldForNothing, toldBehindTorn],
      ∃ ran ∈ record World.step (World.start 30 RetryPolicy.default : World Nat Nat) acts,
        (∃ task ∈ ran.2.tasks, task.pc = .done (.message ⟨0⟩)) ∧ ran.2.shared.group.wal.records = [] := by
    decide +kernel
  refine List.forall_iff_forall_mem.mpr fun acts member => ?_
  obtain ⟨⟨trace, world⟩, ran, told, empty⟩ := recorded acts member
  refine ⟨(trace, world), ran, ⟨trace, run_of_record .nil ran⟩, told, fun ⟨key, item, logged⟩ => ?_⟩
  change _ ∈ world.shared.group.wal.records at logged
  rw [empty] at logged
  cases logged

end Qaas
