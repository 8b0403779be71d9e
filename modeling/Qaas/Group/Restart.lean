import Qaas.Group.Conservation
import Qaas.Group.KeyUse

/-! Which idempotency keys a restart brings back, and whether their messages still exist. -/

namespace Qaas

open Concurrency

variable {T V : Type}

/-- Without write errors, a message that an enqueue has created stays created. -/
theorem Moved.still_born {now : Instant} {wallClock : Timestamp} {env : StepEnv}
    {group group' : ConsumerGroup T V} {call : Call T V} {pc next : Pc T V}
    (moved : Moved now wallClock env group pc group' next) (clean : env.outcome = .ok)
    (serves : pc.serves call) (id : MessageId) :
    (call.born pc).count id ≤ (call.born next).count id := by
  -- Only an enqueue creates a message, and it keeps it to its end.
  cases call with
  | enqueue message =>
    cases moved with
    | enqueueWritten | pushPending => exact le_refl _
    | enqueueFailed failed => exact (AppendOutcome.ok_ne_failed clean failed).elim
    | quiet changed quiet =>
      cases quiet with
      | notifyOne result =>
        rcases serves with ⟨handed, same, rfl⟩ | ⟨_, impossible, _⟩ | ⟨_, _, _, impossible, _⟩ |
          ⟨_, impossible, _⟩
        · obtain rfl := Call.enqueue.inj same
          simp [Call.born]
        all_goals cases impossible
      | _ => exact Nat.zero_le _
    | _ => exact Nat.zero_le _
  | _ => exact Nat.zero_le _

/-- The steps of the operations that take a message out for good. -/
def Call.stands : Call T V → Pc T V → Prop
  | .ack id token, pc => pc = .releaseAcked id token ∨ pc = .appendAck id ∨ ∃ result, pc = .done result
  | .purgeDeadLetter id, pc =>
    pc = .takeEntry id .purge ∨ (∃ deadLetter, pc = .appendRemove deadLetter .purge ∧ deadLetter.id = id) ∨
      (∃ key result, pc = .releaseKey id key result) ∨ ∃ result, pc = .done result
  | _, _ => True

/-- An operation stands at one of its own steps. -/
theorem Pc.stands {call : Call T V} {pc : Pc T V} (serves : pc.serves call) : call.stands pc := by
  -- Where a program point belongs to several calls, `serves` says which one it is.
  cases pc with
  | reserve message key =>
    obtain ⟨rfl, _⟩ := serves
    trivial
  | appendEnqueue message caller | pushPending message caller =>
    cases caller <;> obtain rfl := serves <;> trivial
  | releaseKey id key result =>
    rcases serves with ⟨message, caller, serves, _⟩ | ⟨rfl, _⟩
    · cases caller <;> obtain rfl := serves <;> trivial
    · exact .inr (.inr (.inl ⟨key, result, rfl⟩))
  | notifyOne result =>
    rcases serves with ⟨_, rfl, _⟩ | ⟨_, rfl, _⟩ | ⟨_, _, _, rfl, _⟩ | ⟨_, rfl, _⟩ <;> trivial
  | resolve failed caller | insertDeadLetter deadLetter caller | appendDeadLettered id caller =>
    cases caller with
    | nack => obtain ⟨_, _, rfl⟩ := serves; trivial
    | reclaim rest => obtain rfl := serves; trivial
  -- An `ack` and a purge are followed from step to step.
  | releaseAcked id token =>
    obtain rfl := serves
    exact .inl rfl
  | appendAck id =>
    obtain ⟨token, rfl⟩ := serves
    exact .inr (.inl rfl)
  | takeEntry id caller =>
    cases caller <;> obtain rfl := serves
    · trivial
    · exact .inl rfl
  | appendRemove deadLetter caller =>
    cases caller <;> obtain rfl := serves
    · trivial
    · exact .inr (.inl ⟨deadLetter, rfl, rfl⟩)
  | notifyPublished sequence =>
    obtain ⟨_, _, _, _, rfl⟩ := serves
    trivial
  | done result =>
    cases call with
    | ack => exact .inr (.inr ⟨result, rfl⟩)
    | purgeDeadLetter => exact .inr (.inr (.inr ⟨result, rfl⟩))
    | _ => trivial
  | _ => obtain rfl := serves; trivial

/-- An `ack` answers yes only after its record is written. -/
theorem Moved.acks {now : Instant} {wallClock : Timestamp} {env : StepEnv}
    {group group' : ConsumerGroup T V} {pc next : Pc T V} {id : MessageId} {token : LeaseToken}
    (moved : Moved now wallClock env group pc group' next) (serves : pc.serves (.ack id token))
    (answered : next = .done (.answered true)) :
    pc = .appendAck id ∧ group' = group.withWal (group.wal.append (.ack id) env.outcome).1 := by
  -- An `ack` stands at its entry, before its record or at its end.
  rcases Pc.stands serves with rfl | rfl | ⟨result, rfl⟩
  · cases moved with
    | quiet changed quiet => cases quiet
    | ackStale stale => cases answered
    | acked active => cases answered
  · cases moved with
    | quiet changed quiet => cases quiet
    | ackWritten synced => exact ⟨rfl, rfl⟩
    | ackFailed failed => cases answered
  · cases moved with
    | quiet changed quiet => cases quiet

/-- What holds of each key that a replay of the main log registers. -/
structure Registered (world : World T V) : Prop where
  last : ∀ key id, (Replay.records world.shared.group.wal.records).dedup.lookup key = some id →
    lastUser world.shared.group.wal.records key = some id
  created : ∀ key id, (Replay.records world.shared.group.wal.records).dedup.lookup key = some id →
    1 ≤ world.stage Call.born id
  unacked : ∀ key id, (Replay.records world.shared.group.wal.records).dedup.lookup key = some id →
    ∀ task ∈ world.tasks, ∀ token, task.call = .ack id token → task.pc ≠ .done (.answered true)

/-- An acknowledgement that finds its message takes the registrations of that message's key away. -/
theorem lookup_of_record_ack {world : World T V} (sound : Sound world) {id other : MessageId}
    {key : IdempotencyKey} (found : 0 < replayCount world.shared.group.wal.records other)
    (registered : ((Replay.records world.shared.group.wal.records).record
      (.ack other)).dedup.lookup key = some id) :
    (Replay.records world.shared.group.wal.records).dedup.lookup key = some id ∧
      ¬ carried world.shared.group.wal.records key other := by
  obtain ⟨entry, member, same⟩ := List.mem_map.mp (List.count_pos_iff.mp found)
  simp only [Replay.record] at registered
  split at registered
  · rename_i acked first
    have sameId : acked.id = other := by simpa using List.find?_some first
    have earlier := Dedup.lookup_of_release registered
    refine ⟨earlier, ?_⟩
    intro carries
    obtain ⟨item, enqueued⟩ := carried_iff.mp carries
    -- Both records are of the one message with this id, so the key released was this one.
    have logged := mem_of_replay_pending (List.mem_of_find?_eq_some first)
    rw [sameId] at logged
    have unique := sound.issued_unique (sound.sourced.wal _ _ _ logged)
      (sound.sourced.wal _ _ _ enqueued) rfl
    have released : acked.idempotencyKey = some key := congrArg Message.idempotencyKey unique
    simp only [released, Dedup.release, Option.elim_some, Finmap.lookup_erase] at registered
    cases registered
  · rename_i absent
    rw [List.find?_eq_none] at absent
    exact absurd same (by simpa using absent entry member)

/-- Without write errors, a step registers a key in the replay only by the enqueue of its message. -/
theorem Balanced.registers {world : World T V} {env : StepEnv} {task : Task T V}
    {group : ConsumerGroup T V} {next : Pc T V} (balanced : Balanced world) (sound : Sound world)
    (member : task ∈ world.tasks) (alive : task.cancelled = false) (clean : env.outcome = .ok)
    (moved : Moved world.shared.now world.shared.wallClock env world.shared.group task.pc group next)
    (key : IdempotencyKey) (id : MessageId)
    (registered : (Replay.records group.wal.records).dedup.lookup key = some id) :
    (Replay.records world.shared.group.wal.records).dedup.lookup key = some id ∧
        lastUser group.wal.records key = lastUser world.shared.group.wal.records key ∨
      (∃ message caller, task.pc = .appendEnqueue message caller ∧ message.id = id) ∧
        lastUser group.wal.records key = some id := by
  have intact := balanced.mainIntact
  -- A record that uses no key changes neither side.
  have silent : ∀ record : WalRecord T V,
      (∀ records, record.uses records key = false) →
      (∀ replay : Replay T V, (replay.record record).dedup = replay.dedup) →
      group.wal.records = world.shared.group.wal.records ++ [record] →
      (Replay.records world.shared.group.wal.records).dedup.lookup key = some id ∧
        lastUser group.wal.records key = lastUser world.shared.group.wal.records key := by
    intro record unused same appended
    rw [appended, Replay.records_append, same] at registered
    rw [appended]
    exact ⟨registered, lastUser_other (unused _)⟩
  cases here : task.pc with
  | appendEnqueue message caller =>
    rw [here] at moved
    cases moved with
    | enqueueWritten synced =>
      have appended := Log.records_append_ok intact clean
        (.enqueue message.id message.idempotencyKey message.item)
      rw [ConsumerGroup.withWal, appended, Replay.records_append] at registered
      rw [ConsumerGroup.withWal, appended]
      by_cases carries : message.idempotencyKey = some key
      · right
        have own : message.id = id := by
          rw [carries] at registered
          exact Option.some.inj ((Finmap.lookup_insert _).symm.trans registered)
        refine ⟨⟨message, caller, rfl, own⟩, ?_⟩
        rw [carries, lastUser_enqueue, own]
      · left
        have unused : (WalRecord.enqueue message.id message.idempotencyKey message.item : WalRecord T V).uses
            world.shared.group.wal.records key = false := by simp [WalRecord.uses, carries]
        exact ⟨(Dedup.register_other _ carries _).symm.trans registered, lastUser_other unused⟩
    | enqueueFailed failed => exact (AppendOutcome.ok_ne_failed clean failed).elim
    | quiet changed quiet => cases quiet
  | appendAck other =>
    left
    -- The message being acknowledged is still pending in the replay.
    have logged := le_tally (Task.inHands Pc.logged other) member
    have main := balanced.main other
    have own : (Pc.appendAck other : Pc T V).logged.count other = 1 := by simp [Pc.logged]
    simp only [Task.inHands, alive, Bool.false_eq_true, if_false, here, own] at logged
    rw [here] at moved
    cases moved with
    | ackWritten synced =>
      have appended := Log.records_append_ok intact clean (.ack other : WalRecord T V)
      rw [ConsumerGroup.withWal, appended, Replay.records_append] at registered
      rw [ConsumerGroup.withWal, appended]
      have found : 0 < replayCount world.shared.group.wal.records other := by
        simp only [World.inHands] at main
        omega
      obtain ⟨earlier, uncarried⟩ := lookup_of_record_ack sound found registered
      exact ⟨earlier, lastUser_other (by simpa [WalRecord.uses] using uncarried)⟩
    | ackFailed failed => exact (AppendOutcome.ok_ne_failed clean failed).elim
    | quiet changed quiet => cases quiet
  | appendDeadLettered other caller =>
    left
    rw [here] at moved
    cases moved with
    | deadLetteredWritten synced =>
      exact silent (.deadLettered other) (fun _ => rfl) (fun _ => rfl) (Log.records_append_ok intact clean _)
    | deadLetteredFailed failed => exact (AppendOutcome.ok_ne_failed clean failed).elim
    | quiet changed quiet => cases quiet
  | appendCheckpoint other token state =>
    left
    rw [here] at moved
    cases moved with
    | checkpointWritten synced =>
      exact silent (.checkpoint other state) (fun _ => rfl) (fun _ => rfl) (Log.records_append_ok intact clean _)
    | checkpointFailed failed => exact (AppendOutcome.ok_ne_failed clean failed).elim
    | quiet changed quiet => cases quiet
  | _ =>
    left
    rw [here] at moved
    -- Every other step leaves the main log alone.
    have same : group.wal = world.shared.group.wal := by
      cases moved <;> rfl
    rw [same] at registered ⊢
    exact ⟨registered, rfl⟩

/-- A stage of a message's life that no step of an operation takes back. -/
theorem stage_le_set {tasks : List (Task T V)} {i : Nat} {task : Task T V}
    (found : tasks[i]? = some task) (next : Pc T V) {part : Call T V → Pc T V → List MessageId}
    {id : MessageId} (kept : (part task.call task.pc).count id ≤ (part task.call next).count id) :
    tally (Task.stage part id) tasks ≤
      tally (Task.stage part id) (tasks.set i { task with pc := next }) := by
  have traded := tally_set (Task.stage part id) { task with pc := next } found
  simp only [Task.stage] at traded
  omega

/-- One step of an operation keeps what holds of the registered keys. -/
theorem Registered.move {world : World T V} {i : Nat} {env : StepEnv} {task : Task T V}
    {group : ConsumerGroup T V} {next : Pc T V} (known : Registered world)
    (balanced : Balanced world) (sound : Sound world) (found : world.tasks[i]? = some task)
    (alive : task.cancelled = false) (clean : env.outcome = .ok)
    (moved : Moved world.shared.now world.shared.wallClock env world.shared.group task.pc group next) :
    Registered ⟨{ world.shared with group := group }, world.tasks.set i { task with pc := next }⟩ := by
  have member := List.mem_of_getElem? found
  have serves := sound.serves task member
  have registers := balanced.registers sound member alive clean moved
  -- A message whose enqueue is being written has been created, and is nowhere else.
  have writing : ∀ id, (∃ message caller, task.pc = .appendEnqueue message caller ∧ message.id = id) →
      1 ≤ world.stage Call.born id ∧ world.stage Call.acked id = 0 := by
    rintro id ⟨message, caller, here, rfl⟩
    have held := le_tally (Task.inHands Pc.held message.id) member
    have own : (Pc.appendEnqueue message caller : Pc T V).held.count message.id = 1 := by
      simp [Pc.held, Pc.messages]
    simp only [Task.inHands, alive, Bool.false_eq_true, if_false, here, own] at held
    have whole := balanced.conserved message.id
    have single := sound.born_le_one message.id
    simp only [World.inHands] at whole
    omega
  refine ⟨?_, ?_, ?_⟩
  · intro key id registered
    rcases registers key id registered with ⟨earlier, same⟩ | ⟨_, last⟩
    · exact same.trans (known.last key id earlier)
    · exact last
  · intro key id registered
    -- A message that has been created stays so.
    have grown : world.stage Call.born id ≤ World.stage ⟨{ world.shared with group := group },
        world.tasks.set i { task with pc := next }⟩ Call.born id :=
      stage_le_set found next (moved.still_born clean serves id)
    rcases registers key id registered with ⟨earlier, _⟩ | ⟨here, _⟩
    · exact (known.created key id earlier).trans grown
    · exact (writing id here).1.trans grown
  · intro key id registered other among token called answered
    rcases registers key id registered with ⟨earlier, same⟩ | ⟨here, _⟩
    · rcases List.mem_or_eq_of_mem_set among with before | rfl
      · exact known.unacked key id earlier other before token called answered
      · -- Writing the acknowledgement has taken the last use of the key away.
        rw [called] at serves
        obtain ⟨_, rfl⟩ := moved.acks serves answered
        obtain ⟨item, enqueued⟩ := mem_of_replay_dedup earlier
        have carries := carried_iff.mpr ⟨item, enqueued⟩
        have last := known.last key id earlier
        rw [ConsumerGroup.withWal, Log.records_append_ok balanced.mainIntact clean, lastUser_ack carries] at same
        rw [← same] at last
        cases last
    · rcases List.mem_or_eq_of_mem_set among with before | rfl
      · have acked := le_tally (Task.stage Call.acked id) before
        have own : other.stage Call.acked id = 1 := by simp [Task.stage, Call.acked, called, answered]
        have none_acked := (writing id here).2
        simp only [World.stage] at none_acked
        omega
      · obtain ⟨message, caller, appending, _⟩ := here
        rw [called] at serves
        rw [(moved.acks serves answered).1] at appending
        cases appending

/-- A replay of a calm run's main log registers each key for its last user, which was not acknowledged. -/
theorem registered_of_run {visibilityTimeout : Duration} {retryPolicy : RetryPolicy}
    {trace : List (Transition (World T V) (Action T V))} {world : World T V}
    (run : Run World.step Calm (World.start visibilityTimeout retryPolicy) trace world) :
    Registered world := by
  have initial : Registered (World.start visibilityTimeout retryPolicy : World T V) :=
    ⟨fun _ _ found => (by cases found), fun _ _ found => (by cases found),
      fun _ _ found => (by cases found)⟩
  apply run.invariant_of initial fun run => And.intro (sound_of_run run) (balanced_of_run run)
  intro world act next calm ⟨sound, balanced⟩ _ known taken
  -- A restart changes neither the log nor what the calls have returned.
  cases step_stepped taken with
  | @call call fresh =>
    refine ⟨known.last, ?_, ?_⟩
    · intro key id registered
      have created := known.created key id registered
      simp only [World.stage, Pool.spawn, tally_append] at created ⊢
      omega
    · intro key id registered task among token called answered
      rcases List.mem_append.mp among with before | new
      · exact known.unacked key id registered task before token called answered
      · -- A call that begins has not returned.
        obtain rfl := List.mem_singleton.mp new
        exact absurd answered (call.entry_ne_done _)
  | step found alive moved => exact known.move balanced sound found alive calm moved
  | drop found alive dropped => exact absurd calm id
  | tick => exact ⟨known.last, known.created, known.unacked⟩
  | setWallClock => exact ⟨known.last, known.created, known.unacked⟩
  | reopen iterates =>
    refine ⟨known.last, ?_, ?_⟩
    · intro key id registered
      have created := known.created key id registered
      have same : ∀ task : Task T V, task.kill.stage Call.born id = task.stage Call.born id := by
        intro task
        simp only [Task.stage, Task.kill_call, Task.kill_pc]
      simpa only [World.stage, tally_map, same] using created
    · intro key id registered task among token called answered
      obtain ⟨before, was, rfl⟩ := List.mem_map.mp among
      rw [Task.kill_call] at called
      rw [Task.kill_pc] at answered
      exact known.unacked key id registered before was token called answered

/-- A `purge_dead_letter` has taken the message out for good. -/
def World.Purged (world : World T V) (id : MessageId) : Prop :=
  ∃ task ∈ world.tasks, task.call = .purgeDeadLetter id ∧ task.pc = .done (.answered true)

instance [DecidableEq T] [DecidableEq V] (world : World T V) (id : MessageId) :
    Decidable (world.Purged id) :=
  inferInstanceAs (Decidable (∃ task ∈ world.tasks, _))

/-- The message is pending or dead-lettered, and carries the key. -/
def ConsumerGroup.Has (group : ConsumerGroup T V) (key : IdempotencyKey) (id : MessageId) : Prop :=
  (∃ entry ∈ group.state.pending, entry.id = id ∧ entry.idempotencyKey = some key) ∨
    ∃ deadLetter, group.dlq.entries.lookup id = some deadLetter ∧
      deadLetter.idempotencyKey = some key

/-- A message that the replay of the main log leaves pending is pending after an open, with its key. -/
theorem reopened_has_pending {world : World T V} (sound : Sound world) {key : IdempotencyKey}
    {id : MessageId} (carries : carried world.shared.group.wal.records key id)
    (replayed : 0 < replayCount world.shared.group.wal.records id) (order : List MessageId) :
    (world.shared.group.reopened order).Has key id := by
  left
  obtain ⟨item, enqueued⟩ := carried_iff.mp carries
  obtain ⟨entry, member, rfl⟩ := List.mem_map.mp (List.count_pos_iff.mp replayed)
  have unique := sound.issued_unique (sound.sourced.wal _ _ _ (mem_of_replay_pending member))
    (sound.sourced.wal _ _ _ enqueued) rfl
  -- Restoring the checkpoints changes neither the message nor its key.
  have restored : entry.message ∈
      (Replay.records world.shared.group.wal.records).pending.map Pending.message :=
    List.mem_map_of_mem member
  rw [← restoreCheckpoints_messages _ (Replay.records world.shared.group.wal.records).checkpoints]
    at restored
  obtain ⟨back, among, same⟩ := List.mem_map.mp restored
  refine ⟨back, among, congrArg Message.id same, ?_⟩
  exact (congrArg Message.idempotencyKey same).trans (congrArg Message.idempotencyKey unique)

/-- A message that the replay of the dead-letter log leaves is a dead letter after an open, with its key. -/
theorem reopened_has_dead {world : World T V} (sound : Sound world) {key : IdempotencyKey}
    {id : MessageId} (carries : carried world.shared.group.wal.records key id)
    (replayed : 0 < dlqReplayCount world.shared.group.dlq.wal.records id) (order : List MessageId) :
    (world.shared.group.reopened order).Has key id := by
  right
  obtain ⟨item, enqueued⟩ := carried_iff.mp carries
  have there : 0 < present ((DeadLetters.replay world.shared.group.dlq.wal.records).lookup id) := replayed
  cases found : (DeadLetters.replay world.shared.group.dlq.wal.records).lookup id with
  | none => rw [found] at there; cases there
  | some deadLetter =>
    -- The replayed letter is of the message that the enqueue record names.
    obtain ⟨rfl, recorded, member, same⟩ := mem_of_replay_entries found
    have unique := sound.issued_unique (sound.sourced.dlqWal recorded member)
      (sound.sourced.wal _ _ _ enqueued) ((congrArg Message.id same).trans rfl)
    refine ⟨deadLetter, found, ?_⟩
    exact (congrArg Message.idempotencyKey same).symm.trans (congrArg Message.idempotencyKey unique)

/-- The dead letters under a key are the same in memory and in the log, with no operation in flight. -/
theorem dead_key_iff {world : World T V} (sound : Sound world) (balanced : Balanced world)
    (quiescent : world.Quiescent) (key : IdempotencyKey) :
    (∃ id dead, (DeadLetters.replay world.shared.group.dlq.wal.records).lookup id = some dead ∧
        dead.idempotencyKey = some key) ↔
      ∃ id dead, world.shared.group.dlq.entries.lookup id = some dead ∧
        dead.idempotencyKey = some key := by
  have counts : ∀ id, present ((DeadLetters.replay world.shared.group.dlq.wal.records).lookup id) =
      present (world.shared.group.dlq.entries.lookup id) := by
    intro id
    have ledger := balanced.dlq id
    rw [quiescent.inHands fun pc idle => (Pc.idle_parts idle).2.1, Nat.add_zero] at ledger
    exact ledger
  -- Where both sides have an entry of an id, both are of the one message with that id.
  have unique : ∀ id logged stored,
      (DeadLetters.replay world.shared.group.dlq.wal.records).lookup id = some logged →
      world.shared.group.dlq.entries.lookup id = some stored →
      logged.idempotencyKey = stored.idempotencyKey := by
    intro id logged stored inLog inMemory
    obtain ⟨rfl, recorded, member, same⟩ := mem_of_replay_entries inLog
    obtain ⟨keyed, issued⟩ := sound.sourced.entries _ _ inMemory
    have one := sound.issued_unique (sound.sourced.dlqWal recorded member) issued
      ((congrArg Message.id same).trans keyed.symm)
    exact (congrArg Message.idempotencyKey same).symm.trans (congrArg Message.idempotencyKey one)
  constructor
  · rintro ⟨id, dead, found, carries⟩
    have both := counts id
    cases inMemory : world.shared.group.dlq.entries.lookup id with
    | none => rw [found, inMemory] at both; cases both
    | some stored => exact ⟨id, stored, inMemory, (unique id dead stored found inMemory).symm.trans carries⟩
  · rintro ⟨id, stored, inMemory, carries⟩
    have both := counts id
    cases found : (DeadLetters.replay world.shared.group.dlq.wal.records).lookup id with
    | none => rw [found, inMemory] at both; cases both
    | some dead => exact ⟨id, dead, found, (unique id dead stored found inMemory).trans carries⟩

/-- With no operation in flight, a message taken out by a purge counts as one purged. -/
theorem World.Purged.stage {world : World T V} {id : MessageId} (purged : world.Purged id) :
    1 ≤ world.stage Call.purged id := by
  obtain ⟨task, member, called, answered⟩ := purged
  -- The returned call is one of those that count as purged.
  have own := le_tally (Task.stage Call.purged id) member
  have one : task.stage Call.purged id = 1 := by simp [Task.stage, Call.purged, called, answered]
  rw [one] at own
  exact own

/-- With no operation in flight, a key of the replayed log names a message that is there, or was purged. -/
theorem Registered.has_or_purged {world : World T V} (known : Registered world) (sound : Sound world)
    (balanced : Balanced world) (quiescent : world.Quiescent)
    (waiting : ∀ task ∈ world.tasks, task.cancelled → task.pc.waiting) {key : IdempotencyKey}
    {id : MessageId}
    (registered : (Replay.records world.shared.group.wal.records).dedup.lookup key = some id)
    (order : List MessageId) :
    (world.shared.group.reopened order).Has key id ∨ world.Purged id := by
  -- With nothing in flight the message is pending, dead, acknowledged or purged.
  have carries : carried world.shared.group.wal.records key id := by
    obtain ⟨item, enqueued⟩ := mem_of_replay_dedup registered
    exact carried_iff.mpr ⟨item, enqueued⟩
  have created := known.created key id registered
  have whole := balanced.conserved id
  have main := balanced.main id
  have dlq := balanced.dlq id
  rw [quiescent.inHands fun pc idle => (Pc.idle_parts idle).1] at main
  rw [quiescent.inHands fun pc idle => (Pc.idle_parts idle).2.1] at dlq
  rw [quiescent.inHands fun pc idle => (Pc.idle_parts idle).2.2] at whole
  have unacked : world.stage Call.acked id = 0 := by
    rw [← returned_eq_stage quiescent waiting fun call pc waits => (Pc.waiting_stage waits call).1]
    apply tally_eq_zero.mpr
    intro task member
    split
    · rename_i finished
      apply List.count_eq_zero_of_not_mem
      intro acked
      cases called : task.call with
      | ack other token =>
        rw [called] at acked
        cases here : task.pc with
        | done result =>
          rw [here] at acked
          cases result with
          | answered yes =>
            cases yes with
            | true =>
              -- Its `ack` has returned, so the registration would be gone.
              obtain rfl := List.mem_singleton.mp acked
              exact known.unacked key id registered task member token called here
            | false => cases acked
          | _ => cases acked
        | _ => rw [here] at finished; cases finished
      | _ => rw [called] at acked; cases acked
    · rfl
  by_cases purged : 1 ≤ world.stage Call.purged id
  · right
    obtain ⟨task, member, share⟩ := exists_of_tally_pos purged
    have inStage := List.count_pos_iff.mp share
    cases called : task.call with
    | purgeDeadLetter other =>
      rw [called] at inStage
      cases here : task.pc with
      | releaseKey other' key' result =>
        -- A purge that has not released its key yet would be in flight.
        rcases quiescent task member with cancelled | finished | waits
        · have waits := waiting task member cancelled
          rw [here] at waits
          cases waits
        · rw [here] at finished; cases finished
        · rw [here] at waits; cases waits
      | done result =>
        rw [here] at inStage
        cases result with
        | answered yes =>
          cases yes with
          | true =>
            obtain rfl := List.mem_singleton.mp inStage
            exact ⟨task, member, called, here⟩
          | false => cases inStage
        | _ => cases inStage
      | _ => rw [here] at inStage; cases inStage
    | _ => rw [called] at inStage; cases inStage
  · left
    by_cases live : 0 < replayCount world.shared.group.wal.records id
    · exact reopened_has_pending sound carries live order
    · exact reopened_has_dead sound carries (by omega) order

/-- A message newly acknowledged has just given up its lease, and with it its key. -/
theorem Moved.acked_now {now : Instant} {wallClock : Timestamp} {env : StepEnv}
    {group group' : ConsumerGroup T V} {call : Call T V} {pc next : Pc T V}
    (moved : Moved now wallClock env group pc group' next) (serves : pc.serves call) {id : MessageId}
    (acked : id ∈ call.acked next) :
    id ∈ call.acked pc ∨ ∃ lease, group.state.leased.lookup id = some lease ∧
      group'.state.dedup = group.state.dedup.release lease.idempotencyKey := by
  cases call with
  | ack other token =>
    -- Acknowledging takes the lease and its key away in one step.
    rcases Pc.stands serves with rfl | rfl | ⟨result, rfl⟩
    · cases moved with
      | quiet changed quiet => cases quiet
      | ackStale stale => cases acked
      | @acked _ _ lease active =>
        obtain rfl := List.mem_singleton.mp acked
        exact .inr ⟨lease, (lookup_of_active active).1, rfl⟩
    · cases moved with
      | quiet changed quiet => cases quiet
      | ackWritten synced => exact .inl acked
      | ackFailed failed => cases acked
    · cases moved with
      | quiet changed quiet => cases quiet
  | _ => cases acked

/-- A message newly purged was a dead letter in the hands of the purge, which goes on to its key. -/
theorem Moved.purged_now {now : Instant} {wallClock : Timestamp} {env : StepEnv}
    {group group' : ConsumerGroup T V} {call : Call T V} {pc next : Pc T V}
    (moved : Moved now wallClock env group pc group' next) (serves : pc.serves call) {id : MessageId}
    (purged : id ∈ call.purged next) :
    id ∈ call.purged pc ∨ ∃ deadLetter, pc = .appendRemove deadLetter .purge ∧ deadLetter.id = id ∧
      next = TakeCaller.purge.next deadLetter := by
  cases call with
  | purgeDeadLetter other =>
    -- A purge counts from its record on.
    rcases Pc.stands serves with rfl | ⟨deadLetter, rfl, rfl⟩ | ⟨key, result, rfl⟩ | ⟨result, rfl⟩
    · cases moved with
      | quiet changed quiet => cases quiet; cases purged
      | taken found => cases purged
    · cases moved with
      | quiet changed quiet => cases quiet
      | removeWritten synced =>
        right
        refine ⟨deadLetter, rfl, ?_, rfl⟩
        cases carried : deadLetter.idempotencyKey <;>
          simpa [TakeCaller.next, carried, Call.purged, eq_comm] using purged
      | removeFailed failed => cases purged
    · cases moved with
      | quiet changed quiet => cases quiet
      | releaseKey =>
        rcases serves with ⟨_, caller, impossible, _⟩ | ⟨_, rfl⟩
        · cases caller <;> cases impossible
        · exact .inl purged
    · cases moved with
      | quiet changed quiet => cases quiet
  | _ => cases purged

/-- What holds of each key that is registered in memory, while no ghost has come back from the logs. -/
structure Unghosted (world : World T V) : Prop where
  created : ∀ key id, world.shared.group.state.dedup.lookup key = some id →
    1 ≤ world.stage Call.born id
  unacked : ∀ key id, world.shared.group.state.dedup.lookup key = some id →
    world.stage Call.acked id = 0
  -- A purge has taken the message out before it releases the key.
  unpurged : ∀ key id, world.shared.group.state.dedup.lookup key = some id →
    world.stage Call.purged id = 0 ∨
      ∃ task ∈ world.tasks, task.cancelled = false ∧ ∃ result, task.pc = .releaseKey id key result

/-- A stage that no step of an operation brings about for a message. -/
theorem stage_zero_set {tasks : List (Task T V)} {i : Nat} {task : Task T V}
    (found : tasks[i]? = some task) (next : Pc T V) {part : Call T V → Pc T V → List MessageId}
    {id : MessageId} (zero : tally (Task.stage part id) tasks = 0) (absent : id ∉ part task.call next) :
    tally (Task.stage part id) (tasks.set i { task with pc := next }) = 0 := by
  have traded := tally_set (Task.stage part id) { task with pc := next } found
  have none_new : Task.stage part id { task with pc := next } = 0 := List.count_eq_zero_of_not_mem absent
  omega

/-- Two issued messages that one key and one id name carry that key. -/
theorem Sound.key_of {world : World T V} (sound : Sound world) {key : IdempotencyKey}
    {message : Message T} (registered : world.shared.group.state.dedup.lookup key = some message.id)
    (issued : world.Issued message) : message.idempotencyKey = some key := by
  obtain ⟨item, known⟩ := sound.sourced.dedup key _ registered
  exact congrArg Message.idempotencyKey (sound.issued_unique issued known rfl)

/-- One step of an operation brings back no ghost. -/
theorem Unghosted.move {world : World T V} {i : Nat} {env : StepEnv} {task : Task T V}
    {group : ConsumerGroup T V} {next : Pc T V} (known : Unghosted world)
    (balanced : Balanced world) (sound : Sound world) (found : world.tasks[i]? = some task)
    (alive : task.cancelled = false) (clean : env.outcome = .ok)
    (moved : Moved world.shared.now world.shared.wallClock env world.shared.group task.pc group next) :
    Unghosted ⟨{ world.shared with group := group }, world.tasks.set i { task with pc := next }⟩ := by
  have member := List.mem_of_getElem? found
  have new := List.mem_set (List.getElem?_eq_some_iff.mp found).1 { task with pc := next }
  have serves := sound.serves task member
  -- A key that has just been reserved names a message that is still in this operation's hands.
  have reserved : ∀ key id, (∃ message, task.pc = .reserve message key ∧ message.id = id ∧
      next = .appendEnqueue message .producer) →
      1 ≤ tally (Task.stage Call.born id) (world.tasks.set i { task with pc := next }) ∧
        tally (Task.stage Call.acked id) (world.tasks.set i { task with pc := next }) = 0 ∧
        tally (Task.stage Call.purged id) (world.tasks.set i { task with pc := next }) = 0 := by
    rintro key id ⟨message, here, rfl, rfl⟩
    have whole := (balanced.move sound found alive clean moved).conserved message.id
    have once := (sound.step (.step found alive moved)).born_le_one message.id
    have held := le_tally (Task.inHands Pc.held message.id) new
    have own : Task.inHands Pc.held message.id
        { task with pc := .appendEnqueue message .producer } = 1 := by
      simp [Task.inHands, alive, Pc.held, Pc.messages]
    simp only [World.inHands, World.stage] at whole once
    omega
  refine ⟨?_, ?_, ?_⟩
  · intro key id registered
    rcases moved.registered registered with earlier | fresh
    · exact (known.created key id earlier).trans
        (stage_le_set found next (moved.still_born clean serves id))
    · exact (reserved key id fresh).1
  · intro key id registered
    rcases moved.registered registered with earlier | fresh
    · apply stage_zero_set found next (known.unacked key id earlier)
      intro acked
      rcases moved.acked_now serves acked with before | ⟨lease, leased, released⟩
      · have share := le_tally (Task.stage Call.acked id) member
        have zero := known.unacked key id earlier
        have one : 0 < task.stage Call.acked id := List.count_pos_iff.mpr before
        simp only [World.stage] at zero
        omega
      · -- The acknowledged message's key has been released with its lease.
        have carries := sound.key_of earlier (sound.sourced.leased id lease leased)
        have key' : lease.idempotencyKey = some key := carries
        simp only [released, key', Dedup.release, Option.elim_some, Finmap.lookup_erase] at registered
        cases registered
    · exact (reserved key id fresh).2.1
  · intro key id registered
    rcases moved.registered registered with earlier | fresh
    · rcases known.unpurged key id earlier with zero | ⟨other, among, running, result, releasing⟩
      · by_cases purged : id ∈ task.call.purged next
        · rcases moved.purged_now serves purged with before | ⟨deadLetter, here, rfl, rfl⟩
          · have share := le_tally (Task.stage Call.purged id) member
            have one : 0 < task.stage Call.purged id := List.count_pos_iff.mpr before
            simp only [World.stage] at zero
            omega
          · have issued := sound.held task member deadLetter.message (by simp [here, Pc.messages])
            have carries : deadLetter.idempotencyKey = some key :=
              sound.key_of earlier issued
            refine .inr ⟨_, new, alive, .answered true, ?_⟩
            simp [TakeCaller.next, carries]
        · exact .inl (stage_zero_set found next zero purged)
      · rcases mem_set_or_eq { task with pc := next } found among with rfl | kept
        · -- The purge has just released the key.
          rw [releasing] at moved
          cases moved with
          | releaseKey => rw [ConsumerGroup.withState, Finmap.lookup_erase] at registered; cases registered
          | quiet changed quiet => cases quiet
        · exact .inr ⟨other, kept, running, result, releasing⟩
    · exact .inl (reserved key id fresh).2.2

/-- A group all of whose keys name messages that are there has no ghost. -/
theorem Unghosted.of_has {world : World T V} (balanced : Balanced world) (sound : Sound world)
    (named : ∀ key id, world.shared.group.state.dedup.lookup key = some id →
      world.shared.group.Has key id) : Unghosted world := by
  -- A message that is there has been created, and has not left in either way.
  have counts : ∀ key id, world.shared.group.state.dedup.lookup key = some id →
      1 ≤ world.stage Call.born id ∧ world.stage Call.acked id = 0 ∧
        world.stage Call.purged id = 0 := by
    intro key id registered
    have there : world.shared.group.Houses id := by
      rcases named key id registered with ⟨entry, member, same, _⟩ | ⟨dead, found, _⟩
      · exact .inl ⟨entry, member, same⟩
      · exact .inr (.inr (.inr ⟨dead, found⟩))
    have copies := houses_iff.mp there
    have whole := balanced.conserved id
    have once := sound.born_le_one id
    omega
  refine ⟨?_, ?_, ?_⟩
  · exact fun key id registered => (counts key id registered).1
  · exact fun key id registered => (counts key id registered).2.1
  · exact fun key id registered => .inl (counts key id registered).2.2

/-- With no operation in flight, every key of a group without ghosts names a message that is there. -/
theorem Unghosted.houses {world : World T V} (known : Unghosted world) (balanced : Balanced world)
    (quiescent : world.Quiescent) {key : IdempotencyKey} {id : MessageId}
    (registered : world.shared.group.state.dedup.lookup key = some id) :
    world.shared.group.Houses id := by
  have created := known.created key id registered
  have unacked := known.unacked key id registered
  have unpurged : world.stage Call.purged id = 0 := by
    rcases known.unpurged key id registered with zero | ⟨task, member, running, result, releasing⟩
    · exact zero
    · -- A purge that has not released its key yet is in flight.
      exfalso
      rcases quiescent task member with cancelled | finished | waits
      · rw [running] at cancelled; cases cancelled
      · rw [releasing] at finished; cases finished
      · rw [releasing] at waits; cases waits
  have whole := balanced.conserved id
  rw [quiescent.inHands fun pc idle => (Pc.idle_parts idle).2.2] at whole
  rw [houses_iff]
  omega

/-- A calm step within the life of one process. -/
def Continues (world : World T V) (act : Action T V) : Prop :=
  Calm world act ∧ ∀ order, act ≠ .reopen order

instance (world : World T V) (act : Action T V) : Decidable (Continues world act) :=
  match act with
  | .reopen _ => .isFalse fun continues => continues.2 _ rfl
  | .step _ _ | .drop _ _ | .call _ | .tick _ | .setWallClock _ =>
    decidable_of_iff (Calm world _) ⟨fun calm => ⟨calm, nofun⟩, And.left⟩

/-- No ghost comes back while the process runs. -/
theorem unghosted_of_run {visibilityTimeout : Duration} {retryPolicy : RetryPolicy}
    {reopened world : World T V} {trace : List (Transition (World T V) (Action T V))}
    (reached : Reachable World.step Calm (World.start visibilityTimeout retryPolicy) reopened)
    (initial : Unghosted reopened) (run : Run World.step Continues reopened trace world) :
    Unghosted world ∧ Balanced world := by
  -- The run goes on from a calm run, so what holds of calm runs holds of it.
  have whole : ∀ {trace : List (Transition (World T V) (Action T V))} {world : World T V},
      Run World.step Continues reopened trace world → Sound world ∧ Balanced world := by
    intro trace world run
    obtain ⟨before, earlier⟩ := reached
    have joined := earlier.append (run.mono fun _ _ allowed => allowed.1)
    exact ⟨sound_of_run joined, balanced_of_run joined⟩
  refine ⟨?_, (whole run).2⟩
  apply run.invariant_of initial whole
  intro world act next ⟨calm, continues⟩ ⟨sound, balanced⟩ _ known taken
  cases step_stepped taken with
  | @call call fresh =>
    obtain ⟨_, _, acked, purged, _⟩ := call.entry_parts
    refine ⟨?_, ?_, ?_⟩
    · intro key id registered
      have created := known.created key id registered
      simp only [World.stage, Pool.spawn, tally_append] at created ⊢
      omega
    · intro key id registered
      have unacked := known.unacked key id registered
      simpa [World.stage, Pool.spawn, Task.stage, acked] using unacked
    · intro key id registered
      refine (known.unpurged key id registered).imp ?_ ?_
      · intro zero
        simpa [World.stage, Pool.spawn, Task.stage, purged] using zero
      · rintro ⟨task, member, running, releasing⟩
        exact ⟨task, List.mem_append_left _ member, running, releasing⟩
  | step found alive moved => exact known.move balanced sound found alive calm moved
  | drop found alive dropped => exact absurd calm id
  | tick => exact ⟨known.created, known.unacked, known.unpurged⟩
  | setWallClock => exact ⟨known.created, known.unacked, known.unpurged⟩
  | @reopen order iterates => exact absurd rfl (continues order)

/-- A purged message does not wait in the group again after a restart. -/
theorem World.Purged.gone {world : World T V} {id : MessageId} (purged : world.Purged id)
    (sound : Sound world) (balanced : Balanced world) (quiescent : world.Quiescent)
    (order : List MessageId) :
    ∀ entry ∈ (world.shared.group.reopened order).state.pending, entry.id ≠ id := by
  rintro entry member rfl
  -- The message was created once, and that is used up by its purge.
  have once := sound.born_le_one entry.id
  have whole := balanced.conserved entry.id
  have taken := purged.stage
  have main := balanced.main entry.id
  rw [quiescent.inHands fun pc idle => (Pc.idle_parts idle).1] at main
  have pending := mem_reopened_pending.mp ⟨entry, member, rfl⟩
  omega

/-- The keys that a restart brings back are of existing messages, if none of them was last used by a purged
message alone. -/
theorem Registered.reopened_has {world : World T V} (known : Registered world) (sound : Sound world)
    (balanced : Balanced world) (quiescent : world.Quiescent)
    (waiting : ∀ task ∈ world.tasks, task.cancelled → task.pc.waiting) {order : List MessageId}
    (iterates : (DeadLetters.replay world.shared.group.dlq.wal.records).Iterates order)
    (covered : ∀ key id, lastUser world.shared.group.wal.records key = some id → world.Purged id →
      ∃ other dead, world.shared.group.dlq.entries.lookup other = some dead ∧ dead.idempotencyKey = some key)
    {key : IdempotencyKey} {id : MessageId}
    (found : (world.shared.group.reopened order).state.dedup.lookup key = some id) :
    (world.shared.group.reopened order).Has key id := by
  by_cases dead : ∃ other dead, (DeadLetters.replay
      world.shared.group.dlq.wal.records).lookup other = some dead ∧ dead.idempotencyKey = some key
  · -- The dead letter that is registered last has the key.
    obtain ⟨other, dead, entry, carries⟩ := dead
    obtain ⟨last, letter, stored, same, registered⟩ := reopened_of_dead iterates entry carries
    rw [registered] at found
    obtain rfl := Option.some.inj found
    exact .inr ⟨letter, stored, same⟩
  · -- No dead letter overwrites the registration that the main log leaves.
    have registered := reopened_of_replayed
      (fun other letter entry carries => dead ⟨other, letter, entry, carries⟩) order
    rw [registered] at found
    rcases known.has_or_purged sound balanced quiescent waiting found order with has | purged
    · exact has
    · have letter := covered key id (known.last key id found) purged
      exact absurd ((dead_key_iff sound balanced quiescent key).mpr letter) dead

/--
A restart brings back keys of existing messages only, exactly if no purged message was the last to use its key.

A purged message does no harm where a dead letter carries its key, because that one is registered last.
Until the next restart no enqueue is then deduplicated against a message that no longer exists.
-/
theorem no_ghost_keys {visibilityTimeout : Duration} {retryPolicy : RetryPolicy}
    {world reopened : World T V} {order : List MessageId}
    (reached : Reachable World.step Calm (World.start visibilityTimeout retryPolicy) world)
    (quiescent : world.Quiescent) (restart : world.step (.reopen order) = some reopened) :
    ((∀ key id, reopened.shared.group.state.dedup.lookup key = some id →
          reopened.shared.group.Has key id) ∧
        ∀ later, Reachable World.step Continues reopened later → later.Quiescent →
          ∀ message key id, (later.shared.group.reserve message key).2 = .done (.message id) →
            later.shared.group.Houses id) ↔
      ∀ key id, lastUser world.shared.group.wal.records key = some id → world.Purged id →
        ∃ other dead, world.shared.group.dlq.entries.lookup other = some dead ∧
          dead.idempotencyKey = some key := by
  obtain ⟨trace, run⟩ := reached
  have sound := sound_of_run run
  have balanced := balanced_of_run run
  have known := registered_of_run run
  have waiting := cancelled_waiting run
  have onward := run.snoc (show Calm world (.reopen order) from quiescent) restart
  cases step_stepped restart with
  | reopen iterates =>
    have deadKeys := dead_key_iff sound balanced quiescent
    constructor
    · rintro ⟨named, _⟩ key id last purged
      by_contra noDeadLetter
      rw [← deadKeys key] at noDeadLetter
      -- No dead letter overwrites the registration that the main log leaves.
      have registered := reopened_of_replayed
        (fun other dead found carries => noDeadLetter ⟨other, dead, found, carries⟩) order
      rw [lookup_of_lastUser last] at registered
      rcases named key id registered with ⟨entry, member, same, _⟩ | ⟨dead, found, carries⟩
      · exact absurd same (purged.gone sound balanced quiescent order entry member)
      · exact noDeadLetter ⟨id, dead, found, carries⟩
    · intro covered
      have named : ∀ key id, (world.shared.group.reopened order).state.dedup.lookup key = some id →
          (world.shared.group.reopened order).Has key id := fun _ _ =>
        known.reopened_has sound balanced quiescent waiting iterates covered
      -- From then on a registration is only taken away with its message.
      refine ⟨named, ?_⟩
      intro later ⟨rest, continued⟩ idle message key id returned
      have unghosted := Unghosted.of_has (balanced_of_run onward) (sound_of_run onward) named
      obtain ⟨still, books⟩ := unghosted_of_run ⟨_, onward⟩ unghosted continued
      apply still.houses books idle
      unfold ConsumerGroup.reserve at returned
      split at returned
      · rename_i existingId found
        cases returned
        exact found
      · cases returned

/-- A keyed message is dead-lettered and purged. -/
def purgedKey : List (Action Nat Nat) :=
  Action.run 0 (.enqueue ⟨⟨0⟩, 10, some ⟨"k"⟩⟩) 4 ++ Action.run 1 .claim 3 ++
    Action.run 2 (.nack ⟨0⟩ ⟨0⟩ none) 5 ++ Action.run 3 (.purgeDeadLetter ⟨0⟩) 3

/-- Where another message has taken the key since, the restart brings back that one. -/
theorem no_ghost_keys_reused : ∃ world reopened : World Nat Nat,
    world.Purged ⟨0⟩ ∧ world.step (.reopen []) = some reopened ∧
      (∀ key id, reopened.shared.group.state.dedup.lookup key = some id →
        reopened.shared.group.Has key id) ∧
      ∀ later, Reachable World.step Continues reopened later → later.Quiescent →
        ∀ message key id, (later.shared.group.reserve message key).2 = .done (.message id) →
          later.shared.group.Houses id := by
  -- The purged message's key has been used again, by a message that is still there.
  have reachable : ∃ world : World Nat Nat, Reachable World.step Calm
      (World.start 30 { RetryPolicy.default with maxAttempts := some 1 }) world ∧
      world.Quiescent ∧ world.Purged ⟨0⟩ ∧ (world.step (.reopen [])).isSome ∧
      (∀ task ∈ world.tasks, ∀ id ∈ task.call.purged task.pc, id = ⟨0⟩) ∧
      ∀ entry ∈ (Replay.records world.shared.group.wal.records).dedup.entries, entry.2 ≠ ⟨0⟩ :=
    reaches_of_exec (purgedKey ++ Action.run 4 (.enqueue ⟨⟨1⟩, 11, some ⟨"k"⟩⟩) 4) _
      (by decide +kernel)
  obtain ⟨world, reached, quiescent, purged, restarts, only, reused⟩ := reachable
  obtain ⟨reopened, restart⟩ := Option.isSome_iff_exists.mp restarts
  refine ⟨world, reopened, purged, restart, (no_ghost_keys reached quiescent restart).mpr ?_⟩
  rintro key id last ⟨task, member, called, answered⟩
  obtain rfl := only task member id (by simp [called, answered, Call.purged])
  exact absurd rfl (reused _ (Finmap.lookup_eq_some_iff.mp (lookup_of_lastUser last)))

/-- Otherwise the restart brings back the key of a message that is nowhere any more. -/
theorem purged_key_returns : ∃ world reopened : World Nat Nat,
    Reachable World.step Calm
        (World.start 30 { RetryPolicy.default with maxAttempts := some 1 }) world ∧
      world.Quiescent ∧ world.step (.reopen []) = some reopened ∧
      reopened.shared.group.state.dedup.lookup ⟨"k"⟩ = some ⟨0⟩ ∧
      ¬ reopened.shared.group.Has ⟨"k"⟩ ⟨0⟩ := by
  have reachable : ∃ world : World Nat Nat, Reachable World.step Calm
      (World.start 30 { RetryPolicy.default with maxAttempts := some 1 }) world ∧
      world.Quiescent ∧ ∃ reopened ∈ world.step (.reopen []),
        reopened.shared.group.state.dedup.lookup ⟨"k"⟩ = some ⟨0⟩ ∧
        reopened.shared.group.state.pending = [] ∧
        reopened.shared.group.dlq.entries.lookup ⟨0⟩ = none :=
    reaches_of_exec purgedKey _ (by decide +kernel)
  obtain ⟨world, reached, quiescent, reopened, restart, registered, empty, absent⟩ := reachable
  refine ⟨world, reopened, reached, quiescent, restart, registered, ?_⟩
  rintro (⟨entry, member, _⟩ | ⟨dead, found, _⟩)
  · rw [empty] at member
    cases member
  · rw [absent] at found
    cases found

end Qaas
