import Qaas.Group.Balance
import Qaas.Group.Promise

/-! What a crash at any point leaves of the messages that were promised to survive one. -/

namespace Qaas

open Concurrency

variable {T V : Type}

/-- Both logs end with a whole frame. -/
def World.Intact (world : World T V) : Prop :=
  world.shared.group.wal.torn = false ∧ world.shared.group.dlq.wal.torn = false

instance (world : World T V) : Decidable world.Intact :=
  inferInstanceAs (Decidable (_ ∧ _))

/-- No write fails, except that a crash may cut short the writes it falls into. -/
def CrashOnly (world : World T V) : Action T V → Prop
  | .step _ env => env.outcome = .ok ∧ world.Intact
  -- A torn frame is the end of its process, so nothing is written behind one.
  | .drop _ wrote => wrote = .failedWhole → world.Intact
  | .call _ | .tick _ | .setWallClock _ | .reopen _ => True

instance (world : World T V) (act : Action T V) : Decidable (CrashOnly world act) :=
  match act with
  | .step _ env => inferInstanceAs (Decidable (env.outcome = .ok ∧ world.Intact))
  | .drop _ wrote => inferInstanceAs (Decidable (wrote = .failedWhole → world.Intact))
  | .call _ | .tick _ | .setWallClock _ | .reopen _ => .isTrue trivial

/-- The messages of an operation that the dead-letter log holds, and the main log may still hold too. -/
def Pc.departing : Pc T V → List MessageId
  | .insertDeadLetter deadLetter _ => [deadLetter.id]
  | .appendDeadLettered id _ => [id]
  | _ => []

/-- The message of a `reprocess_dead_letter` between its two writes. -/
def Pc.returning : Pc T V → List MessageId
  | .appendEnqueue message .reprocess => [message.id]
  | _ => []

/-- A `reprocess_dead_letter` has logged the removal of a message, and not yet its enqueue. -/
def World.Returning (world : World T V) (id : MessageId) : Prop :=
  ∃ task ∈ world.tasks, id ∈ task.pc.returning

/-- Some enqueue has returned `Ok` with the id. -/
def World.Told (world : World T V) (id : MessageId) : Prop :=
  ∃ task ∈ world.tasks, task.pc = .done (.message id)

/-- The message has been given up: acknowledged with its lease token, or asked to be purged. -/
def World.Relinquished (world : World T V) (id : MessageId) : Prop :=
  ∃ task ∈ world.tasks, id ∈ task.call.acked task.pc ∨ task.call = .purgeDeadLetter id

/-- A crash now loses the message: no log holds it, although it is being moved or was promised. -/
def World.Exposed (world : World T V) (id : MessageId) : Prop :=
  world.Returning id ∨ world.Unwritten id ∧ world.Told id

instance (world : World T V) (id : MessageId) : Decidable (world.Returning id) :=
  inferInstanceAs (Decidable (∃ task ∈ world.tasks, _))

instance [DecidableEq T] [DecidableEq V] (world : World T V) (id : MessageId) :
    Decidable (world.Told id) :=
  inferInstanceAs (Decidable (∃ task ∈ world.tasks, _))

instance [DecidableEq T] [DecidableEq V] (world : World T V) (id : MessageId) :
    Decidable (world.Relinquished id) :=
  inferInstanceAs (Decidable (∃ task ∈ world.tasks, _))

instance [DecidableEq T] [DecidableEq V] (world : World T V) (id : MessageId) :
    Decidable (world.Exposed id) :=
  inferInstanceAs (Decidable (_ ∨ _))

/-- No write fails, and no crash falls where it loses the message. -/
def Spares (id : MessageId) (world : World T V) (act : Action T V) : Prop :=
  CrashOnly world act ∧
    match act with
    | .reopen _ => ¬ world.Exposed id
    | .call _ | .step _ _ | .drop _ _ | .tick _ | .setWallClock _ => True

instance [DecidableEq T] [DecidableEq V] (id : MessageId) (world : World T V) (act : Action T V) :
    Decidable (Spares id world act) :=
  match act with
  | .reopen order => inferInstanceAs (Decidable (CrashOnly world (.reopen order) ∧ ¬ world.Exposed id))
  | .call call => inferInstanceAs (Decidable (CrashOnly world (.call call) ∧ True))
  | .step task env => inferInstanceAs (Decidable (CrashOnly world (.step task env) ∧ True))
  | .drop task wrote => inferInstanceAs (Decidable (CrashOnly world (.drop task wrote) ∧ True))
  | .tick elapsed => inferInstanceAs (Decidable (CrashOnly world (.tick elapsed) ∧ True))
  | .setWallClock wallClock =>
    inferInstanceAs (Decidable (CrashOnly world (.setWallClock wallClock) ∧ True))

/-- An operation leaves a resolved delivery with nothing on its way to the dead-letter queue. -/
theorem ResolveCaller.next_departing (caller : ResolveCaller T V) : caller.next.departing = [] := by
  match caller with
  | .nack | .reclaim [] | .reclaim (_ :: _) => rfl

/-- What departs from the main log is still replayed from it. -/
theorem Pc.departing_le_logged (pc : Pc T V) (id : MessageId) :
    pc.departing.count id ≤ pc.logged.count id := by
  -- A letter on its way out of the main log is already in the other one.
  cases pc with
  | insertDeadLetter deadLetter caller | appendDeadLettered other caller =>
    rw [departing, logged, List.count_cons, List.count_cons, List.count_nil]
    omega
  | _ => exact Nat.zero_le _

/-- A quiet step moves no message to the dead-letter queue or back. -/
theorem Quiet.departing {pc next : Pc T V} (quiet : Quiet pc next) :
    pc.departing = [] ∧ next.departing = [] := by
  cases quiet <;> exact ⟨rfl, rfl⟩

/-- An enqueue record is written by the operation that had its message in hand. -/
theorem Moved.wrote {now : Instant} {wallClock : Timestamp} {env : StepEnv}
    {group group' : ConsumerGroup T V} {pc next : Pc T V}
    (moved : Moved now wallClock env group pc group' next) {id : MessageId}
    {key : Option IdempotencyKey} {item : T}
    (member : WalRecord.enqueue id key item ∈ group'.wal.records) :
    WalRecord.enqueue id key item ∈ group.wal.records ∨
      ∃ message caller, pc = .appendEnqueue message caller ∧ message.id = id := by
  -- Only the enqueue path writes an enqueue record.
  cases moved with
  | @enqueueWritten message caller | @enqueueFailed message caller =>
    rcases Log.mem_records_append member with earlier | same
    · exact .inl earlier
    · cases same
      exact .inr ⟨message, caller, rfl, rfl⟩
  | deadLetteredWritten | deadLetteredFailed | ackWritten | ackFailed | checkpointWritten
  | checkpointFailed =>
    rcases Log.mem_records_append member with earlier | same
    · exact .inl earlier
    · cases same
  | _ => exact .inl member

/--
Without write errors, a step keeps a message where a replay finds it, or takes it in hand for a return.

A message on its way to the dead-letter queue does not count for the main log, whose record of it is about to go.
-/
theorem Moved.saved {now : Instant} {wallClock : Timestamp} {env : StepEnv}
    {group group' : ConsumerGroup T V} {call : Call T V} {pc next : Pc T V}
    (moved : Moved now wallClock env group pc group' next) (clean : env.outcome = .ok)
    (intact : group.wal.torn = false) (dlqIntact : group.dlq.wal.torn = false)
    (serves : pc.serves call) {id : MessageId} (unacked : id ∉ call.acked next)
    (unpurged : call ≠ .purgeDeadLetter id) {departing departing' : Nat}
    (traded : departing' + pc.departing.count id ≤ departing + next.departing.count id)
    (among : pc.departing.count id ≤ departing)
    (saved : departing < replayCount group.wal.records id ∨
      0 < dlqReplayCount group.dlq.wal.records id) :
    departing' < replayCount group'.wal.records id ∨
      0 < dlqReplayCount group'.dlq.wal.records id ∨ id ∈ next.returning := by
  cases moved with
  | quiet changed quiet =>
    rw [quiet.departing.1, quiet.departing.2] at traded
    exact saved.imp (Nat.lt_of_le_of_lt traded) .inl
  | @enqueueWritten message caller synced =>
    simp only [ConsumerGroup.withWal, Log.records_append_ok intact clean, replayCount_enqueue]
    refine saved.imp (fun replayed => ?_) .inl
    exact Nat.lt_of_le_of_lt traded (Nat.lt_of_lt_of_le replayed (Nat.le_add_right _ _))
  | @retried failed caller attemptsLeft =>
    rw [caller.next_departing] at traded
    exact saved.imp (Nat.lt_of_le_of_lt traded) .inl
  | @exhaustedWritten failed caller exhausted synced =>
    simp only [ConsumerGroup.withDlqWal, Log.records_append_ok dlqIntact clean, dlqReplayCount_deadLetter]
    by_cases same : failed.id = id
    · -- The dead-letter log has the message before the main one gives it up.
      right
      left
      simp [FailedDelivery.deadLetter, same]
    · have apart : (failed.deadLetter wallClock).id ≠ id := same
      rw [if_neg apart]
      simp only [Pc.departing, List.count_cons, List.count_nil, beq_iff_eq, apart, if_false] at traded
      exact saved.imp (Nat.lt_of_le_of_lt traded) .inl
  | insertDeadLetter =>
    exact saved.imp (Nat.lt_of_le_of_lt (Nat.le_of_add_le_add_right traded)) .inl
  | @deadLetteredWritten other caller synced =>
    -- The record takes off one of the copies that the replay had left for it.
    rw [caller.next_departing] at traded
    simp only [ConsumerGroup.withWal, Log.records_append_ok intact clean, replayCount_deadLettered]
    simp only [Pc.departing, List.count_cons, List.count_nil, beq_iff_eq] at traded among
    refine saved.imp (fun replayed => ?_) .inl
    omega
  | @ackWritten other synced =>
    obtain ⟨token, rfl⟩ := serves
    have apart : other ≠ id := fun same => unacked (by simp [Call.acked, same])
    simp only [ConsumerGroup.withWal, Log.records_append_ok intact clean, replayCount_ack, if_neg apart]
    exact saved.imp (Nat.lt_of_le_of_lt traded) .inl
  | checkpointWritten synced =>
    simp only [ConsumerGroup.withWal, Log.records_append_ok intact clean, replayCount_checkpoint]
    exact saved.imp (Nat.lt_of_le_of_lt traded) .inl
  | annotateWritten synced =>
    simp only [ConsumerGroup.withDlqWal, Log.records_append_ok dlqIntact clean, dlqReplayCount_annotate]
    exact saved.imp (Nat.lt_of_le_of_lt traded) .inl
  | @removeWritten deadLetter caller synced =>
    simp only [ConsumerGroup.withDlqWal, Log.records_append_ok dlqIntact clean, dlqReplayCount_remove]
    cases caller with
    | reprocess =>
      by_cases same : deadLetter.id = id
      · -- From here to the enqueue record only this operation has the message.
        exact .inr (.inr (by simp [TakeCaller.next, Pc.returning, same]))
      · rw [if_neg same]
        exact saved.imp (Nat.lt_of_le_of_lt traded) .inl
    | purge =>
      obtain rfl := serves
      have apart : deadLetter.id ≠ id := fun same => unpurged (by rw [same])
      have onward : (TakeCaller.purge.next deadLetter : Pc T V).departing = [] := by
        cases carried : deadLetter.idempotencyKey <;> simp [TakeCaller.next, carried, Pc.departing]
      rw [onward] at traded
      rw [if_neg apart]
      exact saved.imp (Nat.lt_of_le_of_lt traded) .inl
  | enqueueFailed failed | exhaustedFailed _ failed | deadLetteredFailed failed | ackFailed failed
  | checkpointFailed failed | annotateFailed failed | removeFailed failed => exact (AppendOutcome.ok_ne_failed clean failed).elim
  | _ => exact saved.imp (Nat.lt_of_le_of_lt traded) .inl

/-- Without write errors, an enqueue record puts its message where a replay finds it. -/
theorem Moved.rewritten {now : Instant} {wallClock : Timestamp} {env : StepEnv}
    {group group' : ConsumerGroup T V} {message : Message T} {caller : EnqueueCaller} {next : Pc T V}
    (moved : Moved now wallClock env group (.appendEnqueue message caller) group' next)
    (clean : env.outcome = .ok) (intact : group.wal.torn = false) :
    next = .pushPending message caller ∧ WalRecord.enqueue message.id message.idempotencyKey
        message.item ∈ group'.wal.records ∧ ∀ id, replayCount group'.wal.records id =
      replayCount group.wal.records id + if message.id = id then 1 else 0 := by
  cases moved with
  | enqueueWritten synced =>
    -- The log is intact, so the new record replays right after the old ones.
    simp only [ConsumerGroup.withWal, Log.records_append_ok intact clean, replayCount_enqueue]
    exact ⟨trivial, List.mem_append_right _ List.mem_cons_self, fun id => trivial⟩
  | enqueueFailed failed => exact (AppendOutcome.ok_ne_failed clean failed).elim
  | quiet changed quiet => cases quiet

/-- Without write errors, only a purge releases a key for itself. -/
theorem Moved.releases {now : Instant} {wallClock : Timestamp} {env : StepEnv}
    {group group' : ConsumerGroup T V} {pc next : Pc T V}
    (moved : Moved now wallClock env group pc group' next) (clean : env.outcome = .ok)
    {id : MessageId} {key : IdempotencyKey} {result : Result T V}
    (releasing : next = .releaseKey id key result) :
    ∃ deadLetter, pc = .appendRemove deadLetter .purge := by
  -- With no failing write, a key is given back only when a dead letter is purged.
  cases moved with
  | quiet changed quiet => cases quiet <;> cases releasing
  | @retried failed caller | @deadLetteredWritten other caller =>
    exact absurd releasing (caller.next_steps.2.2.2 id key result)
  | @removeWritten deadLetter caller =>
    cases caller with
    | reprocess => cases releasing
    | purge => exact ⟨deadLetter, rfl⟩
  | enqueueFailed failed | exhaustedFailed _ failed | deadLetteredFailed failed | ackFailed failed
  | checkpointFailed failed | annotateFailed failed | removeFailed failed => exact (AppendOutcome.ok_ne_failed clean failed).elim
  | _ => cases releasing

/-- Without write errors, an acknowledged message stays acknowledged. -/
theorem Moved.still_acked {now : Instant} {wallClock : Timestamp} {env : StepEnv}
    {group group' : ConsumerGroup T V} {call : Call T V} {pc next : Pc T V}
    (moved : Moved now wallClock env group pc group' next) (clean : env.outcome = .ok)
    {id : MessageId} (acked : id ∈ call.acked pc) : id ∈ call.acked next := by
  -- Only an `ack` has acknowledged anything, and its write does not fail.
  cases call with
  | ack other token =>
    cases moved with
    | ackWritten synced => exact acked
    | ackFailed failed => exact (AppendOutcome.ok_ne_failed clean failed).elim
    | quiet changed quiet => cases quiet <;> cases acked
    | _ => cases acked
  | _ => cases acked

/-- What holds of a message, at any point of any operation, so that a crash there does not lose it. -/
structure Survivable (id : MessageId) (world : World T V) : Prop where
  main : world.shared.group.state.live id + world.inHands Pc.logged id ≤
    replayCount world.shared.group.wal.records id
  unfailed : ∀ task ∈ world.tasks, ∀ message, task.call = .enqueue message →
    ∀ other key result, task.pc ≠ .releaseKey other key result
  told : world.Told id → world.Written id ∨ world.Unwritten id
  -- The replayed copies outnumber the records still to come that each take one of them away.
  saved : ¬ world.Relinquished id → world.Written id →
    world.inHands Pc.departing id < replayCount world.shared.group.wal.records id ∨
      0 < dlqReplayCount world.shared.group.dlq.wal.records id ∨ world.Returning id

/-- What departs is part of what is logged. -/
theorem World.departing_le_logged (world : World T V) (id : MessageId) :
    world.inHands Pc.departing id ≤ world.inHands Pc.logged id := by
  -- Task by task.
  apply tally_le_tally
  intro task _
  unfold Task.inHands
  split
  · exact le_refl _
  · exact task.pc.departing_le_logged id

/-- A move trades the operation's own part of what is in hands, or drops it. -/
theorem inHands_move {tasks : List (Task T V)} {i : Nat} {task : Task T V}
    (found : tasks[i]? = some task) (alive : task.cancelled = false) (next : Pc T V)
    (cancelled : Bool) (part : Pc T V → List MessageId) (id : MessageId) :
    tally (Task.inHands part id) (tasks.set i { task with pc := next, cancelled := cancelled }) +
        (part task.pc).count id ≤
      tally (Task.inHands part id) tasks + (part next).count id := by
  -- The task's old share is traded for its new one.
  have traded := tally_set (Task.inHands part id) { task with pc := next, cancelled := cancelled } found
  have before : task.inHands part id = (part task.pc).count id := by simp [Task.inHands, alive]
  have after : Task.inHands part id { task with pc := next, cancelled := cancelled } ≤
      (part next).count id := by
    unfold Task.inHands
    split
    · exact Nat.zero_le _
    · exact le_refl _
  omega

/-- A message given up before a step is given up after it. -/
theorem World.Relinquished.move {world : World T V} {shared : Runtime T V} {i : Nat}
    {task : Task T V} {id : MessageId} {next : Pc T V} (relinquished : world.Relinquished id)
    (found : world.tasks[i]? = some task) (cancelled : Bool)
    (acked : id ∈ task.call.acked task.pc → id ∈ task.call.acked next) :
    World.Relinquished
      ⟨shared, world.tasks.set i { task with pc := next, cancelled := cancelled }⟩ id := by
  obtain ⟨other, among, given⟩ := relinquished
  -- The acknowledgement is the stepping task's own or somebody else's.
  rcases mem_set_or_eq { task with pc := next, cancelled := cancelled } found among with rfl | kept
  · exact ⟨_, List.mem_set (List.getElem?_eq_some_iff.mp found).1 _, given.imp_left acked⟩
  · exact ⟨other, kept, given⟩

/-- Without write errors, a promised message that is not written yet is still going to be. -/
theorem Survivable.promised {world : World T V} {i : Nat} {env : StepEnv} {task : Task T V}
    {group : ConsumerGroup T V} {next : Pc T V} {id : MessageId} (survivable : Survivable id world)
    (sound : Sound world) (found : world.tasks[i]? = some task) (clean : env.outcome = .ok)
    (intact : world.Intact)
    (moved : Moved world.shared.now world.shared.wallClock env world.shared.group task.pc group next)
    (cancelled : Bool) (promised : world.Written id ∨ world.Unwritten id) :
    World.Written ⟨{ world.shared with group := group },
        world.tasks.set i { task with pc := next, cancelled := cancelled }⟩ id ∨
      World.Unwritten ⟨{ world.shared with group := group },
        world.tasks.set i { task with pc := next, cancelled := cancelled }⟩ id := by
  have member := List.mem_of_getElem? found
  rcases promised with written | ⟨other, among, unwritten⟩ | ⟨_, record, hidden, names⟩
  · exact .inl (written.advance fun record => moved.written)
  · rcases mem_set_or_eq { task with pc := next, cancelled := cancelled } found among with rfl | kept
    · left
      -- Its own write has just succeeded, as no write before it has failed.
      cases called : other.call with
      | enqueue message =>
        rw [called] at unwritten
        cases here : other.pc with
        | appendEnqueue handed caller =>
          rw [here] at unwritten moved
          obtain rfl := List.mem_singleton.mp unwritten
          have serves := sound.serves other member
          rw [here, called] at serves
          cases caller with
          | producer =>
            obtain rfl := Call.enqueue.inj serves
            exact ⟨_, _, (moved.rewritten clean intact.1).2.1⟩
          | reprocess => cases serves
        | releaseKey => exact absurd here (survivable.unfailed other member message called _ _ _)
        | _ => rw [here] at unwritten; cases unwritten
      | _ => rw [called] at unwritten; cases unwritten
    · exact .inr (.inl ⟨other, kept, unwritten⟩)
  · exact World.written_or_unwritten (List.mem_append_right _ (moved.behind hidden)) names

/-- Without write errors, a step keeps a message safe from a crash, whoever lives to see its end. -/
theorem Survivable.move {world : World T V} {i : Nat} {env : StepEnv} {task : Task T V}
    {group : ConsumerGroup T V} {next : Pc T V} {id : MessageId} (survivable : Survivable id world)
    (sound : Sound world) (vouched : Vouched world) (found : world.tasks[i]? = some task)
    (alive : task.cancelled = false) (clean : env.outcome = .ok) (intact : world.Intact)
    (moved : Moved world.shared.now world.shared.wallClock env world.shared.group task.pc group next)
    (cancelled : Bool) :
    Survivable id ⟨{ world.shared with group := group },
      world.tasks.set i { task with pc := next, cancelled := cancelled }⟩ := by
  -- The four parts are about the log, the calls that release a key, what was told, and what a replay returns.
  have member := List.mem_of_getElem? found
  have serves := sound.serves task member
  have new := List.mem_set (List.getElem?_eq_some_iff.mp found).1
    { task with pc := next, cancelled := cancelled }
  have logged := inHands_move found alive next cancelled Pc.logged id
  have departing := inHands_move found alive next cancelled Pc.departing id
  have main := survivable.main
  have part := world.departing_le_logged id
  refine ⟨?_, ?_, ?_, ?_⟩
  · have ledger := (moved.main_ledger clean intact.1 id).1
    simp only [World.inHands] at main ⊢
    omega
  · intro other among message called released key result releasing
    rcases List.mem_or_eq_of_mem_set among with before | rfl
    · exact survivable.unfailed other before message called released key result releasing
    · obtain ⟨deadLetter, removing⟩ := moved.releases clean releasing
      rw [removing] at serves
      cases called.symm.trans serves
  · rintro ⟨other, among, returned⟩
    apply survivable.promised sound found clean intact moved cancelled
    rcases List.mem_or_eq_of_mem_set among with before | rfl
    · exact survivable.told ⟨other, before, returned⟩
    · rcases moved.returns serves returned with notified | ⟨message, key, _, hit⟩
      · exact .inl (vouched.pushed task member id notified)
      · exact vouched.dedup key id hit
  · intro kept written
    by_cases appending : ∃ message caller, task.pc = .appendEnqueue message caller ∧ message.id = id
    · -- An enqueue that is written now is replayed from now on.
      obtain ⟨message, caller, here, rfl⟩ := appending
      rw [here] at moved departing
      obtain ⟨rfl, _, replayed⟩ := moved.rewritten clean intact.1
      left
      have more := replayed message.id
      simp only [if_true] at more
      simp only [Pc.departing, List.count_nil, World.inHands] at departing main part ⊢
      omega
    · have unacked : id ∉ task.call.acked next := fun acked => kept ⟨_, new, .inl acked⟩
      have unpurged : task.call ≠ .purgeDeadLetter id := fun purging => kept ⟨_, new, .inr purging⟩
      have before : world.Written id := by
        obtain ⟨key, item, record⟩ := written
        exact ⟨key, item, (moved.wrote record).resolve_right appending⟩
      have share := le_tally (Task.inHands Pc.departing id) member
      simp only [Task.inHands, alive, Bool.false_eq_true, if_false] at share
      have unkept : ¬ world.Relinquished id := fun given =>
        kept (given.move found cancelled (moved.still_acked clean))
      have reached := fun saved => moved.saved clean intact.1 intact.2 serves unacked unpurged
        departing share saved
      -- The message was replayed, or some operation had it in hand for a return.
      rcases survivable.saved unkept before with replayed | dead | ⟨other, among, returning⟩
      · exact (reached (.inl replayed)).imp_right fun onward =>
          onward.imp_right fun returning => ⟨_, new, returning⟩
      · exact (reached (.inr dead)).imp_right fun onward =>
          onward.imp_right fun returning => ⟨_, new, returning⟩
      · rcases mem_set_or_eq { task with pc := next, cancelled := cancelled } found among
          with rfl | elsewhere
        · -- This operation's return would be an append of the message's enqueue record.
          exfalso
          cases here : other.pc with
          | appendEnqueue message caller =>
            cases caller with
            | producer => rw [here] at returning; cases returning
            | reprocess =>
              rw [here] at returning
              exact appending ⟨message, .reprocess, here, (List.mem_singleton.mp returning).symm⟩
          | _ => rw [here] at returning; cases returning
        · exact .inr (.inr ⟨other, elsewhere, returning⟩)

/-- An operation that stops where it stands leaves a message as safe as it was. -/
theorem Survivable.stall {world : World T V} {i : Nat} {task : Task T V} {group : ConsumerGroup T V}
    {id : MessageId} (survivable : Survivable id world) (found : world.tasks[i]? = some task)
    (stalled : Stalled world.shared.group group) :
    Survivable id ⟨{ world.shared with group := group },
      world.tasks.set i { task with cancelled := true }⟩ := by
  have member := List.mem_of_getElem? found
  have new := List.mem_set (List.getElem?_eq_some_iff.mp found).1 { task with cancelled := true }
  -- Every task of the new world stands where a task of the old one stood.
  have stood : ∀ other ∈ world.tasks.set i { task with cancelled := true },
      ∃ before ∈ world.tasks, before.call = other.call ∧ before.pc = other.pc := by
    intro other among
    rcases List.mem_or_eq_of_mem_set among with before | rfl
    · exact ⟨other, before, rfl, rfl⟩
    · exact ⟨task, member, rfl, rfl⟩
  have stands : ∀ before ∈ world.tasks, ∃ other ∈ world.tasks.set i { task with cancelled := true },
      other.call = before.call ∧ other.pc = before.pc := by
    intro before among
    rcases mem_set_or_eq { task with cancelled := true } found among with rfl | kept
    · exact ⟨_, new, rfl, rfl⟩
    · exact ⟨before, kept, rfl, rfl⟩
  -- What the dropped operation had in its hands counts no more.
  have fewer : ∀ part : Pc T V → List MessageId, tally (Task.inHands part id)
      (world.tasks.set i { task with cancelled := true }) ≤ tally (Task.inHands part id) world.tasks := by
    intro part
    have traded := tally_set (Task.inHands part id) { task with cancelled := true } found
    have nothing : Task.inHands part id { task with cancelled := true } = 0 := by simp [Task.inHands]
    omega
  have main := survivable.main
  have logged := fewer Pc.logged
  have departing := fewer Pc.departing
  refine ⟨?_, ?_, ?_, ?_⟩
  · rw [stalled.state, stalled.records]
    simp only [World.inHands] at main ⊢
    omega
  · intro other among message called
    obtain ⟨before, was, sameCall, samePc⟩ := stood other among
    rw [← samePc]
    exact survivable.unfailed before was message (sameCall.trans called)
  · rintro ⟨other, among, returned⟩
    obtain ⟨before, was, _, samePc⟩ := stood other among
    exact World.promised_stall (survivable.told ⟨before, was, samePc.trans returned⟩) found stalled
  · intro kept written
    have unkept : ¬ world.Relinquished id := fun given =>
      kept (given.move found true fun acked => acked)
    have before : world.Written id := by
      obtain ⟨key, item, record⟩ := written
      exact ⟨key, item, stalled.records ▸ record⟩
    rw [World.inHands, stalled.records, stalled.dlqRecords]
    rcases survivable.saved unkept before with replayed | dead | ⟨other, among, returning⟩
    · exact .inl (Nat.lt_of_le_of_lt departing replayed)
    · exact .inr (.inl dead)
    · obtain ⟨after, is, _, samePc⟩ := stands other among
      exact .inr (.inr ⟨after, is, by rwa [samePc]⟩)

/-- Without write errors, everything a group holds has been written. -/
theorem vouched_of_crashOnly {visibilityTimeout : Duration} {retryPolicy : RetryPolicy}
    {trace : List (Transition (World T V) (Action T V))} {world : World T V}
    (run : Run World.step CrashOnly (World.start visibilityTimeout retryPolicy) trace world) :
    Vouched world := by
  apply run.invariant_of (Vouched.start visibilityTimeout retryPolicy) sound_of_run
  intro world act next allowed sound _ vouched taken
  refine vouched.step sound (step_stepped taken) ?_
  -- Every step writes to an intact log, and its write succeeds.
  cases act with
  | step i env => exact fun _ _ _ _ => ⟨allowed.1, allowed.2.1⟩
  | _ => trivial

/-- A group opened on empty logs has no message to lose. -/
theorem Survivable.start (id : MessageId) (visibilityTimeout : Duration) (retryPolicy : RetryPolicy) :
    Survivable id (World.start visibilityTimeout retryPolicy : World T V) := by
  -- A new queue has told nobody anything.
  refine ⟨le_refl _, ?_, ?_, ?_⟩
  · intro task member
    cases member
  · rintro ⟨task, member, _⟩
    cases member
  · rintro _ ⟨key, item, member⟩
    cases member

/-- A message that is not exposed comes through a crash. -/
theorem Survivable.crash {world : World T V} {id : MessageId} (survivable : Survivable id world)
    (unexposed : ¬ world.Exposed id)
    (order : List MessageId) :
    Survivable id ⟨{ world.shared with
      group := world.shared.group.reopened order },
      world.tasks.map Task.kill⟩ := by
  -- Nothing is in the hands of the tasks that the crash has killed.
  have nothing : ∀ part : Pc T V → List MessageId,
      (∀ pc : Pc T V, pc.finished ∨ pc.waiting → part pc = []) →
      tally (Task.inHands part id) (world.tasks.map Task.kill) = 0 := by
    intro part empty
    rw [tally_map]
    exact tally_eq_zero.mpr fun task _ => task.kill_inHands empty id
  have departs : ∀ pc : Pc T V, pc.finished ∨ pc.waiting → pc.departing = [] := by
    intro pc idle
    cases pc with
    | insertDeadLetter | appendDeadLettered => simp [Pc.finished, Pc.waiting] at idle
    | _ => rfl
  refine ⟨?_, ?_, ?_, ?_⟩
  · rw [opened_live, World.inHands, nothing Pc.logged fun pc idle => (Pc.idle_parts idle).1]
    exact le_refl _
  · intro task among message called
    obtain ⟨before, was, rfl⟩ := List.mem_map.mp among
    rw [Task.kill_pc]
    exact survivable.unfailed before was message (by simpa using called)
  · rintro ⟨task, among, returned⟩
    obtain ⟨before, was, rfl⟩ := List.mem_map.mp among
    rw [Task.kill_pc] at returned
    -- A promise that was not written yet would have been exposed.
    have told : world.Told id := ⟨before, was, returned⟩
    rcases survivable.told told with written | unwritten
    · exact .inl (written.advance fun _ logged => logged)
    · exact absurd (.inr ⟨unwritten, told⟩) unexposed
  · intro kept written
    have unkept : ¬ world.Relinquished id := by
      rintro ⟨task, among, given⟩
      exact kept ⟨task.kill, List.mem_map_of_mem among, by simpa using given⟩
    rw [World.inHands, nothing Pc.departing departs]
    rcases survivable.saved unkept written with replayed | dead | returning
    · exact .inl (Nat.lt_of_le_of_lt (Nat.zero_le _) replayed)
    · exact .inr (.inl dead)
    · exact absurd (.inl returning) unexposed

/-- A new operation leaves a message as safe as it was. -/
theorem Survivable.call {world : World T V} {id : MessageId} (survivable : Survivable id world)
    (call : Call T V) : Survivable id (world.spawn ⟨call, call.entry, false⟩) := by
  have logged : call.entry.logged = [] := call.entry_parts.1
  have departing : call.entry.departing = [] := by
    cases call with
    | enqueue message => cases keyed : message.idempotencyKey <;> simp [Call.entry, keyed, Pc.departing]
    | _ => rfl
  have main := survivable.main
  refine ⟨?_, ?_, ?_, ?_⟩
  · simpa [World.inHands, Pool.spawn, Task.inHands, logged] using main
  · intro task among message called other key result releasing
    rcases List.mem_append.mp among with before | new
    · exact survivable.unfailed task before message called other key result releasing
    · obtain rfl := List.mem_singleton.mp new
      cases call with
      | enqueue handed => cases keyed : handed.idempotencyKey <;> simp [Call.entry, keyed] at releasing
      | _ => cases called
  · rintro ⟨task, among, returned⟩
    rcases List.mem_append.mp among with before | new
    · exact World.promised_call (survivable.told ⟨task, before, returned⟩) _
    · obtain rfl := List.mem_singleton.mp new
      exact absurd returned (call.entry_ne_done _)
  · intro kept written
    -- The new operation has given nothing up, so whoever has was there before.
    have unkept : ¬ world.Relinquished id := by
      intro relinquished
      obtain ⟨task, among, given⟩ := relinquished
      exact kept ⟨task, List.mem_append_left _ among, given⟩
    rcases survivable.saved unkept written with replayed | dead | ⟨task, among, returning⟩
    · left
      simpa [World.inHands, Pool.spawn, Task.inHands, departing] using replayed
    · exact .inr (.inl dead)
    · exact .inr (.inr ⟨task, List.mem_append_left _ among, returning⟩)

/-- While no crash exposes the message, it stays safe from the next one. -/
theorem survivable_of_run {visibilityTimeout : Duration} {retryPolicy : RetryPolicy} {id : MessageId}
    {trace : List (Transition (World T V) (Action T V))} {world : World T V}
    (run : Run World.step (Spares id) (World.start visibilityTimeout retryPolicy) trace world) :
    Survivable id world := by
  -- By induction on the run, with what is known of every state it passes.
  apply run.invariant_of (Survivable.start id visibilityTimeout retryPolicy) (fun run =>
    And.intro (sound_of_run run) (vouched_of_crashOnly (run.mono fun _ _ allowed => allowed.1)))
  intro world act next ⟨allowed, unexposed⟩ ⟨sound, vouched⟩ _ survivable taken
  cases step_stepped taken with
  | @call call fresh => exact survivable.call call
  | step found alive moved =>
    exact survivable.move sound vouched found alive allowed.1 allowed.2 moved _
  | drop found alive dropped =>
    cases dropped with
    | stalled stalled => exact survivable.stall found stalled
    | written whole clean writes moved =>
      exact survivable.move sound vouched found alive clean (allowed whole) moved true
  | tick => exact ⟨survivable.main, survivable.unfailed, survivable.told, survivable.saved⟩
  | setWallClock => exact ⟨survivable.main, survivable.unfailed, survivable.told, survivable.saved⟩
  | reopen iterates => exact survivable.crash unexposed _

/--
A promised message is pending or dead-lettered again after any crash, if no crash falls where it is exposed.

Promised means that an enqueue has returned `Ok` with its id.
It must not have been acknowledged with its lease token, or asked to be purged.
-/
theorem crash_loses_nothing {visibilityTimeout : Duration} {retryPolicy : RetryPolicy}
    {id : MessageId} {world reopened : World T V} {order : List MessageId}
    (reached : Reachable World.step (Spares id) (World.start visibilityTimeout retryPolicy) world)
    (told : world.Told id) (kept : ¬ world.Relinquished id) (unexposed : ¬ world.Exposed id)
    (crash : world.step (.reopen order) = some reopened) :
    (∃ entry ∈ reopened.shared.group.state.pending, entry.id = id) ∨
      ∃ deadLetter, reopened.shared.group.dlq.entries.lookup id = some deadLetter := by
  obtain ⟨trace, run⟩ := reached
  have survivable := survivable_of_run run
  -- An `Ok` is only given for a written message, unless its write is still out.
  have written : world.Written id :=
    (survivable.told told).resolve_right fun unwritten => unexposed (.inr ⟨unwritten, told⟩)
  cases step_stepped crash with
  | reopen iterates =>
    rcases survivable.saved kept written with replayed | dead | returning
    · -- A replay of the main log leaves the message pending.
      exact .inl (mem_reopened_pending.mpr (Nat.lt_of_le_of_lt (Nat.zero_le _) replayed))
    · right
      have there : 0 < present ((DeadLetters.replay world.shared.group.dlq.wal.records).lookup id) := dead
      cases found : (DeadLetters.replay world.shared.group.dlq.wal.records).lookup id with
      | none => rw [found] at there; cases there
      | some deadLetter => exact ⟨deadLetter, found⟩
    · exact absurd (.inl returning) unexposed

/-- A delivery exhausts its retries, and the process dies between the two records of its dead letter. -/
def dyingWhileDeadLettered : List (Action Nat Nat) :=
  Action.run 0 (.enqueue ⟨⟨0⟩, 10, none⟩) 3 ++ Action.run 1 .claim 3 ++
    Action.run 2 (.nack ⟨0⟩ ⟨0⟩ none) 2

/-- The message is there again after that crash. -/
theorem crash_loses_nothing_dead_lettered : ∃ world reopened : World Nat Nat,
    world.step (.reopen [⟨0⟩]) = some reopened ∧
      ((∃ entry ∈ reopened.shared.group.state.pending, entry.id = ⟨0⟩) ∨
        ∃ deadLetter, reopened.shared.group.dlq.entries.lookup ⟨0⟩ = some deadLetter) := by
  have reachable : ∃ world : World Nat Nat, Reachable World.step (Spares ⟨0⟩)
      (World.start 30 { RetryPolicy.default with maxAttempts := some 1 }) world ∧
      world.Told ⟨0⟩ ∧ ¬ world.Relinquished ⟨0⟩ ∧ ¬ world.Exposed ⟨0⟩ ∧
      (world.step (.reopen [⟨0⟩])).isSome :=
    reaches_of_exec dyingWhileDeadLettered _ (by decide +kernel)
  obtain ⟨world, reached, told, kept, unexposed, reopens⟩ := reachable
  obtain ⟨reopened, crash⟩ := Option.isSome_iff_exists.mp reopens
  exact ⟨world, reopened, crash, crash_loses_nothing reached told kept unexposed crash⟩

/-- A dead letter is reprocessed, and the process dies between its removal and its enqueue record. -/
def dyingWhileReprocessed : List (Action Nat Nat) :=
  Action.run 0 (.enqueue ⟨⟨0⟩, 10, none⟩) 3 ++ Action.run 1 .claim 3 ++
    Action.run 2 (.nack ⟨0⟩ ⟨0⟩ none) 5 ++ Action.run 3 (.reprocessDeadLetter ⟨0⟩) 2

/-- After that crash neither log has the message, though nobody acknowledged or purged it. -/
theorem reprocess_crash_loses : ∃ world reopened : World Nat Nat,
    Reachable World.step CrashOnly
        (World.start 30 { RetryPolicy.default with maxAttempts := some 1 }) world ∧
      world.Told ⟨0⟩ ∧ ¬ world.Relinquished ⟨0⟩ ∧ world.step (.reopen []) = some reopened ∧
      ¬ ((∃ entry ∈ reopened.shared.group.state.pending, entry.id = ⟨0⟩) ∨
        ∃ deadLetter, reopened.shared.group.dlq.entries.lookup ⟨0⟩ = some deadLetter) := by
  -- The process dies between the two logs of the reprocessing.
  have reachable : ∃ world : World Nat Nat, Reachable World.step CrashOnly
      (World.start 30 { RetryPolicy.default with maxAttempts := some 1 }) world ∧
      world.Told ⟨0⟩ ∧ ¬ world.Relinquished ⟨0⟩ ∧ ∃ reopened ∈ world.step (.reopen []),
        reopened.shared.group.state.pending = [] ∧
        reopened.shared.group.dlq.entries.lookup ⟨0⟩ = none :=
    reaches_of_exec dyingWhileReprocessed _ (by decide +kernel)
  obtain ⟨world, reached, told, kept, reopened, crash, noPending, noDeadLetter⟩ := reachable
  refine ⟨world, reopened, reached, told, kept, crash, ?_⟩
  rw [noPending, noDeadLetter]
  simp

end Qaas
