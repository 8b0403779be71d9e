import Qaas.Group.Checkpoints
import Qaas.Group.Exclusive
import Qaas.Group.Restart
import Qaas.Group.Wakeups

/-! Whether a message resumes from the same checkpoint with and without a restart. -/

namespace Qaas

open Concurrency

variable {T V : Type}

/-- No operation but this one is in flight. -/
def World.Alone (world : World T V) (i : Nat) : Prop :=
  world.All fun j task => j ≠ i → task.cancelled ∨ task.pc.finished ∨ task.pc.waiting

instance (world : World T V) (i : Nat) : Decidable (world.Alone i) :=
  inferInstanceAs (Decidable (world.All fun _ _ => _))

/-- One operation after the other, each of them successful, in the life of one process. -/
def Sequential (world : World T V) (act : Action T V) : Prop :=
  Continues world act ∧
    match act with
    | .call _ => world.Quiescent
    | .step i _ => world.Alone i
    | _ => True

instance (world : World T V) (act : Action T V) : Decidable (Sequential world act) :=
  match act with
  | .call _ => inferInstanceAs (Decidable (_ ∧ world.Quiescent))
  | .step i _ => inferInstanceAs (Decidable (_ ∧ world.Alone i))
  | .drop _ _ | .tick _ | .setWallClock _ | .reopen _ => inferInstanceAs (Decidable (_ ∧ True))

/-- What an operation in progress knows about checkpoints. -/
def Pc.Remembers (group : ConsumerGroup T V) : Pc T V → Prop
  | .pushPending message _ => currentCheckpoint group.wal.records message.id = none
  | .appendCheckpoint id token _ => (group.state.activeLease id token).isSome
  | .storeCheckpoint id token state =>
    (group.state.activeLease id token).isSome ∧ currentCheckpoint group.wal.records id = some state
  | pc => ∀ failed ∈ pc.failing, failed.checkpoint = currentCheckpoint group.wal.records failed.id

/-- Whether an operation has nothing to do with a checkpoint but to carry it. -/
def Pc.carries : Pc T V → Bool
  | .pushPending _ _ | .appendCheckpoint _ _ _ | .storeCheckpoint _ _ _ => false
  | _ => true

/-- Every live entry has the checkpoint that its message has got since it was last enqueued. -/
structure Remembered (world : World T V) : Prop where
  pending : ∀ entry ∈ world.shared.group.state.pending,
    entry.checkpoint = currentCheckpoint world.shared.group.wal.records entry.id
  delayed : ∀ entry ∈ world.shared.group.state.delayed,
    entry.checkpoint = currentCheckpoint world.shared.group.wal.records entry.id
  -- Between the two locks of a checkpoint the log is ahead of the lease.
  leased : ∀ id lease, world.shared.group.state.leased.lookup id = some lease →
    (∀ task ∈ world.tasks, task.cancelled = false → ∀ token state, task.pc ≠ .storeCheckpoint id token state) →
      lease.checkpoint = currentCheckpoint world.shared.group.wal.records id
  hands : ∀ task ∈ world.tasks, task.cancelled = false → task.pc.Remembers world.shared.group

/-- An operation that has returned, or waits for a wakeup, knows nothing. -/
theorem Pc.remembers_of_idle {pc : Pc T V} (idle : pc.finished ∨ pc.waiting)
    (group : ConsumerGroup T V) : pc.Remembers group := by
  cases pc with
  | done | parked | parkedStream => exact List.forall_mem_nil _
  | _ => simp [Pc.finished, Pc.waiting] at idle

/-- An operation that carries checkpoints knows those of the failed deliveries it carries. -/
theorem Pc.remembers_of_carries {pc : Pc T V} {group : ConsumerGroup T V} (carries : pc.carries) :
    pc.Remembers group ↔
      ∀ failed ∈ pc.failing, failed.checkpoint = currentCheckpoint group.wal.records failed.id := by
  cases pc with
  | pushPending | appendCheckpoint | storeCheckpoint => cases carries
  | _ => exact Iff.rfl

/-- Whatever an operation knows, it knows the checkpoints of the failed deliveries it carries. -/
theorem Pc.Remembers.failing {pc : Pc T V} {group : ConsumerGroup T V} (remembers : pc.Remembers group) :
    ∀ failed ∈ pc.failing, failed.checkpoint = currentCheckpoint group.wal.records failed.id := by
  cases pc with
  | pushPending | appendCheckpoint | storeCheckpoint => exact List.forall_mem_nil _
  | _ => exact remembers

/-- A caller goes on carrying checkpoints. -/
theorem ResolveCaller.carries (caller : ResolveCaller T V) :
    caller.next.carries ∧ caller.failed.carries := by
  match caller with
  | .nack | .reclaim [] | .reclaim (_ :: _) => exact ⟨rfl, rfl⟩

/-- Only an enqueue and a checkpoint do anything else with a checkpoint than carry it. -/
theorem Moved.carries {now : Instant} {wallClock : Timestamp} {env : StepEnv}
    {group group' : ConsumerGroup T V} {pc next : Pc T V}
    (moved : Moved now wallClock env group pc group' next) :
    next.carries ∨ (∃ message caller, pc = .appendEnqueue message caller) ∨
      (∃ id token state, pc = .checkLease id token state) ∨
      ∃ id token state, pc = .appendCheckpoint id token state := by
  -- An operation is about to change a checkpoint once its lease is checked or its write has gone well.
  cases moved with
  | quiet changed quiet =>
    cases quiet with
    | leaseChecked id token state => exact .inr (.inr (.inl ⟨id, token, state, rfl⟩))
    | _ => exact .inl rfl
  | enqueueWritten => exact .inr (.inl ⟨_, _, rfl⟩)
  | enqueueFailed => exact .inr (.inl ⟨_, _, rfl⟩)
  | checkpointWritten => exact .inr (.inr (.inr ⟨_, _, _, rfl⟩))
  | @retried failed caller attemptsLeft => exact .inl caller.carries.1
  | @exhaustedFailed failed caller exhausted unsynced => exact .inl caller.carries.2
  | @deadLetteredWritten id caller synced => exact .inl caller.carries.1
  | @deadLetteredFailed id caller failed => exact .inl caller.carries.2
  | @removeWritten deadLetter caller synced =>
    cases caller with
    | reprocess => exact .inl rfl
    | purge =>
      cases carried : deadLetter.idempotencyKey <;> simp [TakeCaller.next, carried, Pc.carries]
  | _ => exact .inl rfl

/-- Only an enqueue and a checkpoint change a message's current checkpoint in the log. -/
theorem Moved.current {now : Instant} {wallClock : Timestamp} {env : StepEnv}
    {group group' : ConsumerGroup T V} {pc next : Pc T V}
    (moved : Moved now wallClock env group pc group' next) (clean : env.outcome = .ok)
    (intact : group.wal.torn = false) (id : MessageId) :
    currentCheckpoint group'.wal.records id = currentCheckpoint group.wal.records id ∨
      (∃ message caller, pc = .appendEnqueue message caller) ∨
      ∃ id token state, pc = .appendCheckpoint id token state := by
  -- Of the records that end a message none is about checkpoints.
  cases moved with
  | enqueueWritten => exact .inr (.inl ⟨_, _, rfl⟩)
  | enqueueFailed => exact .inr (.inl ⟨_, _, rfl⟩)
  | checkpointWritten => exact .inr (.inr ⟨_, _, _, rfl⟩)
  | checkpointFailed => exact .inr (.inr ⟨_, _, _, rfl⟩)
  | @deadLetteredWritten other caller synced =>
    left
    rw [ConsumerGroup.withWal, Log.records_append_ok intact clean, (currentCheckpoint_end _ id other).2]
  | @ackWritten other synced =>
    left
    rw [ConsumerGroup.withWal, Log.records_append_ok intact clean, (currentCheckpoint_end _ id other).1]
  | deadLetteredFailed failed | ackFailed failed => exact (AppendOutcome.ok_ne_failed clean failed).elim
  | _ => exact .inl rfl

/-- A message that is leased, and is nowhere twice, is neither pending nor delayed. -/
theorem unlisted_of_leased {group : ConsumerGroup T V} {id : MessageId} {lease : Leased T V}
    (leased : group.state.leased.lookup id = some lease) (single : group.copies id ≤ 1) :
    (∀ entry ∈ group.state.pending, entry.id ≠ id) ∧ ∀ entry ∈ group.state.delayed, entry.id ≠ id := by
  -- With the lease there is one copy already, and a listed one would be a second.
  have one := State.leasedCount_of_leased leased
  simp only [ConsumerGroup.copies, State.live] at single
  constructor
  · rintro entry member rfl
    have there := List.count_pos_iff.mpr (List.mem_map_of_mem (f := Pending.id) member)
    simp only [State.pendingCount] at single
    omega
  · rintro entry member rfl
    have there := List.count_pos_iff.mpr (List.mem_map_of_mem (f := Delayed.id) member)
    simp only [State.delayedCount] at single
    omega

/-- Where only one operation is in flight, every other one is over or waits. -/
theorem World.Alone.idle {world : World T V} {i : Nat} (alone : world.Alone i)
    {task moved other : Task T V} (found : world.tasks[i]? = some task)
    (member : other ∈ world.tasks.set i moved) :
    other = moved ∨ other.cancelled ∨ other.pc.finished ∨ other.pc.waiting := by
  -- Any other member of the list was there before, and is not the one in flight.
  obtain ⟨j, there⟩ := List.getElem?_of_mem member
  by_cases own : j = i
  · subst own
    rw [List.getElem?_set_self (List.getElem?_eq_some_iff.mp found).1] at there
    exact .inl (Option.some.inj there).symm
  · rw [List.getElem?_set_ne fun same => own same.symm] at there
    exact .inr (alone j other there own)

/-- Where only one operation is in flight, no other one is storing a checkpoint. -/
theorem World.Alone.unstoring {world : World T V} {i : Nat} (alone : world.Alone i)
    {task : Task T V} (found : world.tasks[i]? = some task) {id : MessageId}
    (own : ∀ token state, task.pc ≠ .storeCheckpoint id token state) :
    ∀ other ∈ world.tasks, other.cancelled = false →
      ∀ token state, other.pc ≠ .storeCheckpoint id token state := by
  -- Storing is neither an end nor a wait.
  intro other member alive token state stores
  obtain ⟨j, there⟩ := List.getElem?_of_mem member
  by_cases same : j = i
  · subst same
    obtain rfl := Option.some.inj (found.symm.trans there)
    exact own token state stores
  · rcases alone j other there same with cancelled | finished | waits
    · rw [alive] at cancelled; cases cancelled
    · rw [stores] at finished; cases finished
    · rw [stores] at waits; cases waits

/-- What the operation in flight knows after its step is all that is known. -/
theorem hands_of_alone {world : World T V} {i : Nat} (alone : world.Alone i) {task moved : Task T V}
    {group : ConsumerGroup T V} (found : world.tasks[i]? = some task)
    (remembers : moved.pc.Remembers group) :
    ∀ other ∈ world.tasks.set i moved, other.cancelled = false → other.pc.Remembers group := by
  intro other member alive
  rcases alone.idle found member with rfl | cancelled | idle
  · exact remembers
  · rw [alive] at cancelled; cases cancelled
  · exact Pc.remembers_of_idle idle group

/-- A checkpoint that is in the log is stored in the lease. -/
theorem Remembered.store {world : World T V} {i : Nat} {env : StepEnv} {task : Task T V}
    {group : ConsumerGroup T V} {next : Pc T V} {id : MessageId} {token : LeaseToken} {state : V}
    (remembered : Remembered world) (alone : world.Alone i) (found : world.tasks[i]? = some task)
    (alive : task.cancelled = false) (stores : task.pc = .storeCheckpoint id token state)
    (moved : world.shared.group.move i world.shared.now world.shared.wallClock env task.pc =
      some (group, next)) :
    Remembered ⟨{ world.shared with group := group }, world.tasks.set i { task with pc := next }⟩ := by
  have knows := remembered.hands task (List.mem_of_getElem? found) alive
  rw [stores] at knows moved
  obtain ⟨active, current⟩ := knows
  obtain ⟨lease, active⟩ := Option.isSome_iff_exists.mp active
  -- In the absence of other operations the lease is still there.
  simp only [ConsumerGroup.move, ConsumerGroup.storeCheckpoint, active, Option.some.injEq,
    Prod.mk.injEq] at moved
  obtain ⟨rfl, rfl⟩ := moved
  refine ⟨remembered.pending, remembered.delayed, ?_, hands_of_alone alone found (List.forall_mem_nil _)⟩
  intro other lease' leased _
  rcases lookup_of_insert leased with ⟨rfl, rfl⟩ | ⟨apart, before⟩
  · exact current.symm
  · refine remembered.leased other lease' before (alone.unstoring found ?_)
    intro token' state' same
    rw [stores] at same
    exact apart (Pc.storeCheckpoint.inj same).1.symm

/-- A message that is written to the log has no checkpoint yet, and no entry. -/
theorem Remembered.enqueue {world : World T V} {i : Nat} {env : StepEnv} {task : Task T V}
    {group : ConsumerGroup T V} {next : Pc T V} {message : Message T} {caller : EnqueueCaller}
    (remembered : Remembered world) (alone : world.Alone i) (found : world.tasks[i]? = some task)
    (alive : task.cancelled = false) (single : world.present message.id ≤ 1)
    (intact : world.shared.group.wal.torn = false) (clean : env.outcome = .ok)
    (appends : task.pc = .appendEnqueue message caller)
    (moved : Moved world.shared.now world.shared.wallClock env world.shared.group task.pc group next) :
    Remembered ⟨{ world.shared with group := group }, world.tasks.set i { task with pc := next }⟩ := by
  -- The operation has the message in its hands, so nobody else has it.
  have absent : ¬ world.shared.group.Houses message.id := by
    rw [houses_iff]
    have held := le_tally (Task.inHands Pc.held message.id) (List.mem_of_getElem? found)
    have own : task.inHands Pc.held message.id = 1 := by
      simp [Task.inHands, alive, appends, Pc.held, Pc.messages]
    simp only [World.present, World.inHands, ConsumerGroup.copies] at single
    omega
  have unstoring := fun id => @World.Alone.unstoring _ _ _ _ alone _ found id (by simp [appends])
  rw [appends] at moved
  cases moved with
  | quiet changed quiet => cases quiet
  | enqueueFailed failed => exact (AppendOutcome.ok_ne_failed clean failed).elim
  | enqueueWritten synced =>
    -- The new record starts this message over and leaves the others alone.
    have current := fun id => currentCheckpoint_enqueue world.shared.group.wal.records id message.id
      message.idempotencyKey message.item
    rw [← Log.records_append_ok intact clean] at current
    refine ⟨?_, ?_, ?_, hands_of_alone alone found ?_⟩
    · intro entry member
      have apart : message.id ≠ entry.id := fun same => absent (.inl ⟨entry, member, same.symm⟩)
      exact (remembered.pending entry member).trans ((current entry.id).trans (if_neg apart)).symm
    · intro entry member
      have apart : message.id ≠ entry.id := fun same => absent (.inr (.inr (.inl ⟨entry, member, same.symm⟩)))
      exact (remembered.delayed entry member).trans ((current entry.id).trans (if_neg apart)).symm
    · intro id lease leased _
      have apart : message.id ≠ id := fun same => absent (.inr (.inl ⟨lease, same ▸ leased⟩))
      exact (remembered.leased id lease leased (unstoring id)).trans
        ((current id).trans (if_neg apart)).symm
    · exact (current message.id).trans (if_pos rfl)

/-- A checkpoint that is written to the log is ahead of its lease, and of no other entry. -/
theorem Remembered.checkpoint {world : World T V} {i : Nat} {env : StepEnv} {task : Task T V}
    {group : ConsumerGroup T V} {next : Pc T V} {id : MessageId} {token : LeaseToken} {state : V}
    (remembered : Remembered world) (alone : world.Alone i) (found : world.tasks[i]? = some task)
    (alive : task.cancelled = false) (single : world.present id ≤ 1)
    (intact : world.shared.group.wal.torn = false) (clean : env.outcome = .ok)
    (appends : task.pc = .appendCheckpoint id token state)
    (moved : Moved world.shared.now world.shared.wallClock env world.shared.group task.pc group next) :
    Remembered ⟨{ world.shared with group := group }, world.tasks.set i { task with pc := next }⟩ := by
  have knows := remembered.hands task (List.mem_of_getElem? found) alive
  have unstoring := fun id => @World.Alone.unstoring _ _ _ _ alone _ found id (by simp [appends])
  rw [appends] at moved knows
  obtain ⟨lease, active⟩ := Option.isSome_iff_exists.mp knows
  have leased := (Option.filter_eq_some_iff.mp active).1
  -- The message is out on its lease, so it is neither pending nor delayed.
  obtain ⟨unpending, undelayed⟩ := unlisted_of_leased leased (by
    simp only [World.present] at single
    omega)
  cases moved with
  | quiet changed quiet => cases quiet
  | checkpointFailed failed => exact (AppendOutcome.ok_ne_failed clean failed).elim
  | checkpointWritten synced =>
    have current := fun other =>
      currentCheckpoint_checkpoint world.shared.group.wal.records other id state
    rw [← Log.records_append_ok intact clean] at current
    refine ⟨?_, ?_, ?_, hands_of_alone alone found ?_⟩
    · intro entry member
      have apart : id ≠ entry.id := fun same => unpending entry member same.symm
      exact (remembered.pending entry member).trans ((current entry.id).trans (if_neg apart)).symm
    · intro entry member
      have apart : id ≠ entry.id := fun same => undelayed entry member same.symm
      exact (remembered.delayed entry member).trans ((current entry.id).trans (if_neg apart)).symm
    · -- The leased entry itself is behind the log until the checkpoint is stored.
      intro other lease' leased' storing
      have apart : id ≠ other := by
        rintro rfl
        exact storing _ (List.mem_set (List.getElem?_eq_some_iff.mp found).1 _) alive token state rfl
      exact (remembered.leased other lease' leased' (unstoring other)).trans
        ((current other).trans (if_neg apart)).symm
    · exact ⟨knows, (current id).trans (if_pos rfl)⟩

/-- One step of the operation in flight keeps every live entry's checkpoint in step with the log. -/
theorem Remembered.move {world : World T V} {i : Nat} {env : StepEnv} {task : Task T V}
    {group : ConsumerGroup T V} {next : Pc T V} (remembered : Remembered world)
    (alone : world.Alone i) (found : world.tasks[i]? = some task) (alive : task.cancelled = false)
    (single : ∀ id, world.present id ≤ 1) (intact : world.shared.group.wal.torn = false)
    (clean : env.outcome = .ok)
    (moved : world.shared.group.move i world.shared.now world.shared.wallClock env task.pc =
      some (group, next)) :
    Remembered ⟨{ world.shared with group := group }, world.tasks.set i { task with pc := next }⟩ := by
  have way := move_moved moved
  have knows := remembered.hands task (List.mem_of_getElem? found) alive
  by_cases stores : ∃ id token state, task.pc = .storeCheckpoint id token state
  · obtain ⟨id, token, state, stores⟩ := stores
    exact remembered.store alone found alive stores moved
  · have unstored : ∀ id token state, task.pc ≠ .storeCheckpoint id token state :=
      fun id token state same => stores ⟨id, token, state, same⟩
    by_cases enqueues : ∃ message caller, task.pc = .appendEnqueue message caller
    · obtain ⟨message, caller, appends⟩ := enqueues
      exact remembered.enqueue alone found alive (single message.id) intact clean appends way
    · by_cases checkpoints : ∃ id token state, task.pc = .appendCheckpoint id token state
      · obtain ⟨id, token, state, appends⟩ := checkpoints
        exact remembered.checkpoint alone found alive (single id) intact clean appends way
      · -- The log says of every message's checkpoint what it said before.
        have current : ∀ id, currentCheckpoint group.wal.records id =
            currentCheckpoint world.shared.group.wal.records id := by
          intro id
          rcases way.current clean intact id with same | appends | appends
          · exact same
          · -- The three steps that write a record about checkpoints have been dealt with.
            exact absurd appends enqueues
          · exact absurd appends checkpoints
        have before : world.shared.group.state.Keeps
            fun id checkpoint => checkpoint = currentCheckpoint group.wal.records id := by
          refine ⟨?_, ?_, ?_⟩
          · exact fun entry member => (remembered.pending entry member).trans (current entry.id).symm
          · exact fun entry member => (remembered.delayed entry member).trans (current entry.id).symm
          · intro id lease leased
            exact (remembered.leased id lease leased
              (alone.unstoring found (unstored id))).trans (current id).symm
        obtain ⟨after, failing⟩ := way.keeps before
          (fun failed member => (knows.failing failed member).trans (current failed.id).symm)
          (fun message caller pushes => by
            rw [pushes] at knows
            exact ((current message.id).trans knows).symm)
          unstored
        refine ⟨after.pending, after.delayed, fun id lease leased _ => after.leased id lease leased,
          hands_of_alone alone found ?_⟩
        rcases way.carries with carries | appends | ⟨id, token, state, checks⟩ | appends
        · exact (Pc.remembers_of_carries carries).mpr failing
        · exact absurd appends enqueues
        · -- A checkpoint goes on to its write only under an active lease.
          rw [checks] at moved
          simp only [ConsumerGroup.move, Option.some.injEq, Prod.mk.injEq] at moved
          obtain ⟨rfl, rfl⟩ := moved
          split
          · rename_i active
            exact active
          · exact List.forall_mem_nil _
        · exact absurd appends checkpoints

/-- A new operation knows nothing about checkpoints. -/
theorem Call.entry_remembers (call : Call T V) (group : ConsumerGroup T V) :
    call.entry.Remembers group := by
  cases call with
  | enqueue message =>
    cases keyed : message.idempotencyKey <;> simp [Call.entry, keyed, Pc.Remembers, Pc.failing]
  | _ => exact List.forall_mem_nil _

/-- A new group remembers nothing. -/
theorem Remembered.start (visibilityTimeout : Duration) (retryPolicy : RetryPolicy) :
    Remembered (World.start visibilityTimeout retryPolicy : World T V) := by
  refine ⟨List.forall_mem_nil _, List.forall_mem_nil _, ?_, List.forall_mem_nil _⟩
  intro id lease leased
  cases leased

/-- A call saves no checkpoint before its first step. -/
theorem Remembered.spawn {world : World T V} (remembered : Remembered world) (call : Call T V) :
    Remembered (world.spawn ⟨call, call.entry, false⟩) := by
  refine ⟨remembered.pending, remembered.delayed, ?_, ?_⟩
  · -- Whoever was about to store a checkpoint still is.
    intro id lease leased unstoring
    exact remembered.leased id lease leased fun task member =>
      unstoring task (List.mem_append_left _ member)
  · intro task member alive
    rcases List.mem_append.mp member with before | new
    · exact remembered.hands task before alive
    · obtain rfl := List.mem_singleton.mp new
      exact call.entry_remembers _

/-- In a sequential run every live entry's checkpoint is in step with the log. -/
theorem remembered_of_run {visibilityTimeout : Duration} {retryPolicy : RetryPolicy}
    {trace : List (Transition (World T V) (Action T V))} {world : World T V}
    (run : Run World.step Sequential (World.start visibilityTimeout retryPolicy) trace world) :
    Remembered world ∧ (∀ id, world.present id ≤ 1) ∧ Balanced world := by
  -- No message is ever in two places, and the log is intact.
  have known : ∀ {trace : List (Transition (World T V) (Action T V))} {world : World T V},
      Run World.step Sequential (World.start visibilityTimeout retryPolicy) trace world →
      (∀ id, world.present id ≤ 1) ∧ Balanced world := by
    intro trace world run
    exact ⟨present_le_one (run.mono fun _ _ allowed => allowed.1.2),
      balanced_of_run (run.mono fun _ _ allowed => allowed.1.1)⟩
  refine ⟨?_, known run⟩
  apply run.invariant_of (Remembered.start visibilityTimeout retryPolicy) known
  intro world act next sequential ⟨single, balanced⟩ _ remembered taken
  cases act with
  | call call =>
    cases step_stepped taken with
    | call fresh => exact remembered.spawn call
  | step i env =>
    -- The stepping operation is the only one that is not at rest.
    obtain ⟨task, group, after, found, alive, moved, rfl⟩ := step_advanced taken
    exact remembered.move sequential.2 found alive single balanced.mainIntact sequential.1.1 moved
  | tick elapsed =>
    cases taken
    exact ⟨remembered.pending, remembered.delayed, remembered.leased, remembered.hands⟩
  | setWallClock wallClock =>
    cases taken
    exact ⟨remembered.pending, remembered.delayed, remembered.leased, remembered.hands⟩
  | drop i wrote => exact absurd sequential.1.1 id
  | reopen order => exact absurd rfl (sequential.1.2 order)

/-- Only claims are called, and time goes by. -/
def Claiming (_ : World T V) : Action T V → Prop
  | .call .claim | .step _ _ | .tick _ | .setWallClock _ => True
  | _ => False

instance (world : World T V) (act : Action T V) : Decidable (Claiming world act) := by
  unfold Claiming
  split <;> infer_instance

/-- The steps of a claim, those of a watcher, and the end of any operation. -/
def Pc.claims : Pc T V → Bool
  | .reclaimExpired | .notifyReclaimed | .claimNext | .awaitChanged _ | .parked _ => true
  | .resolve _ (.reclaim _) | .insertDeadLetter _ (.reclaim _) | .appendDeadLettered _ (.reclaim _) => true
  | .pollStream _ _ | .awaitStream _ _ | .parkedStream _ _ | .notifyOne _ | .done _ => true
  | _ => false

/-- A message has one checkpoint, wherever a claim can come across it. -/
structure ResumesFrom (id : MessageId) (checkpoint : Option V) (world : World T V) : Prop where
  entries : world.shared.group.state.Keeps fun other found => other = id → found = checkpoint
  tasks : ∀ task ∈ world.tasks, task.cancelled = false → task.pc.claims ∧
    ∀ failed ∈ task.pc.failing, failed.id = id → failed.checkpoint = checkpoint

/-- A claim that resolves expired leases goes on as a claim. -/
theorem ResolveCaller.claims (rest : List (FailedDelivery T V)) :
    (ResolveCaller.reclaim rest).next.claims ∧ (ResolveCaller.reclaim rest).failed.claims := by
  cases rest <;> exact ⟨rfl, rfl⟩

/-- A claim goes on as a claim. -/
theorem Moved.claims {now : Instant} {wallClock : Timestamp} {env : StepEnv}
    {group group' : ConsumerGroup T V} {pc next : Pc T V}
    (moved : Moved now wallClock env group pc group' next) (claims : pc.claims) : next.claims := by
  -- Expired messages on their way back belong to the claim that swept them.
  cases moved with
  | quiet changed quiet => cases quiet <;> first | rfl | cases claims
  | reclaim | claimed | promoted => rfl
  | @retried failed caller attemptsLeft | @deadLetteredWritten id caller synced =>
    cases caller with
    | nack => cases claims
    | reclaim rest => exact (ResolveCaller.claims rest).1
  | @exhaustedFailed failed caller exhausted unsynced | @deadLetteredFailed id caller failed =>
    cases caller with
    | nack => cases claims
    | reclaim rest => exact (ResolveCaller.claims rest).2
  | @exhaustedWritten failed caller exhausted synced | @insertDeadLetter deadLetter caller =>
    cases caller with
    | nack => cases claims
    | reclaim rest => rfl
  | _ => cases claims

/-- Claims do not change a message's checkpoint. -/
theorem ResumesFrom.step {world next : World T V} {act : Action T V} {id : MessageId}
    {checkpoint : Option V} (resumes : ResumesFrom id checkpoint world) (claiming : Claiming world act)
    (taken : world.step act = some next) : ResumesFrom id checkpoint next := by
  -- In a run of claims alone nothing is saved, so the entries keep their checkpoint.
  cases step_stepped taken with
  | @call call fresh =>
    cases call with
    | claim =>
      refine ⟨resumes.entries, ?_⟩
      intro task member alive
      rcases List.mem_append.mp member with before | new
      · exact resumes.tasks task before alive
      · obtain rfl := List.mem_singleton.mp new
        exact ⟨rfl, List.forall_mem_nil _⟩
    | _ => exact claiming.elim
  | @step i env task group after found alive moved =>
    -- A claim pushes no message and stores no checkpoint.
    obtain ⟨claims, failing⟩ := resumes.tasks task (List.mem_of_getElem? found) alive
    obtain ⟨entries, carried⟩ := moved.keeps resumes.entries failing
      (fun message caller pushes => by rw [pushes] at claims; cases claims)
      (fun other token state stores => by rw [stores] at claims; cases claims)
    refine ⟨entries, ?_⟩
    intro other member live
    rcases List.mem_or_eq_of_mem_set member with before | rfl
    · exact resumes.tasks other before live
    · exact ⟨moved.claims claims, carried⟩
  | tick => exact ⟨resumes.entries, resumes.tasks⟩
  | setWallClock => exact ⟨resumes.entries, resumes.tasks⟩
  | drop => exact claiming.elim
  | reopen => exact claiming.elim

/-- Every claim of a message that has one checkpoint returns that one. -/
theorem ResumesFrom.granted {world later : World T V} {id : MessageId} {checkpoint : Option V}
    {trace : List (Transition (World T V) (Action T V))} (resumes : ResumesFrom id checkpoint world)
    (run : Run World.step Claiming world trace later) {claim : Claim T V}
    (claimed : claim ∈ trace.filterMap Transition.granted) (about : claim.id = id) :
    claim.checkpoint = checkpoint := by
  obtain ⟨⟨pre, act, post⟩, member, granted⟩ := List.mem_filterMap.mp claimed
  obtain ⟨⟨before, reached⟩, _, taken⟩ := run.of_mem member
  have there : ResumesFrom id checkpoint pre :=
    reached.invariant resumes fun _ _ _ claiming resumes taken => resumes.step claiming taken
  obtain ⟨entry, rest, front, rfl, _⟩ := Stepped.grants (step_stepped taken) granted
  -- The claim takes the first of the pending messages, promoted retries included.
  exact (there.entries.promote pre.shared.now).pending entry (by rw [front]; exact List.mem_cons_self) about

/-- An operation that has returned, or waits for a wakeup, carries no failed delivery. -/
theorem Pc.claims_of_idle {pc : Pc T V} (idle : pc.finished ∨ pc.waiting) :
    pc.claims ∧ pc.failing = [] := by
  cases pc with
  | done | parked | parkedStream => exact ⟨rfl, rfl⟩
  | _ => simp [Pc.finished, Pc.waiting] at idle

/-- Without a restart a message keeps the checkpoint it has got since it was last enqueued. -/
theorem Remembered.resumesFrom {world : World T V} (remembered : Remembered world)
    (quiescent : world.Quiescent) (id : MessageId) :
    ResumesFrom id (currentCheckpoint world.shared.group.wal.records id) world := by
  -- Between operations no task stands before the store that a checkpoint is waiting for.
  have idle : ∀ task ∈ world.tasks, task.cancelled = false → task.pc.finished ∨ task.pc.waiting := by
    intro task member alive
    rcases quiescent task member with cancelled | idle
    · rw [alive] at cancelled; cases cancelled
    · exact idle
  refine ⟨⟨?_, ?_, ?_⟩, ?_⟩
  · rintro entry member rfl
    exact remembered.pending entry member
  · rintro entry member rfl
    exact remembered.delayed entry member
  · rintro other lease leased rfl
    apply remembered.leased other lease leased
    intro task member alive token state stores
    -- Such a task would still have a step to take.
    rcases idle task member alive with finished | waits
    · rw [stores] at finished; cases finished
    · rw [stores] at waits; cases waits
  · intro task member alive
    obtain ⟨claims, empty⟩ := Pc.claims_of_idle (idle task member alive)
    exact ⟨claims, by rw [empty]; exact List.forall_mem_nil _⟩

/-- After a restart a message has the latest checkpoint in the log. -/
theorem resumesFrom_of_reopen {world reopened : World T V} {order : List MessageId}
    (balanced : Balanced world) (single : ∀ id, world.present id ≤ 1) (quiescent : world.Quiescent)
    (restart : world.step (.reopen order) = some reopened) (id : MessageId) :
    ResumesFrom id (lastCheckpoint id world.shared.group.wal.records) reopened := by
  cases step_stepped restart with
  | reopen iterates =>
    refine ⟨⟨?_, List.forall_mem_nil _, fun _ _ leased => (by cases leased)⟩, ?_⟩
    · rintro entry member rfl
      -- The message is pending once in the replay, because it was in one place before.
      have main := balanced.main entry.id
      rw [quiescent.inHands fun pc idle => (Pc.idle_parts idle).1] at main
      have once := single entry.id
      simp only [World.present, ConsumerGroup.copies] at once
      rw [restoreCheckpoints_of_count member (by rw [← replayCount]; omega), replay_checkpoints]
    · intro task member alive
      -- Whoever was still running has died with the process.
      obtain ⟨before, _, rfl⟩ := List.mem_map.mp member
      have finished : before.kill.pc.finished := by
        rw [Task.kill_pc]
        unfold Task.kill at alive
        split at alive
        · assumption
        · cases alive
      obtain ⟨claims, empty⟩ := Pc.claims_of_idle (.inl finished)
      exact ⟨claims, by rw [empty]; exact List.forall_mem_nil _⟩

/--
A claim returns the same checkpoint with and without a restart, exactly if the message's was not left behind.

That is so where the message has never been checkpointed, or has been since it was last put into the
live queue, by its enqueue or out of the dead-letter queue.
-/
theorem checkpoint_survives {visibilityTimeout : Duration} {retryPolicy : RetryPolicy}
    {world reopened later later' : World T V} {order : List MessageId}
    {trace trace' : List (Transition (World T V) (Action T V))} {claim claim' : Claim T V}
    (reached : Reachable World.step Sequential (World.start visibilityTimeout retryPolicy) world)
    (quiescent : world.Quiescent) (restart : world.step (.reopen order) = some reopened)
    (run : Run World.step Claiming world trace later)
    (claimed : claim ∈ trace.filterMap Transition.granted)
    (run' : Run World.step Claiming reopened trace' later')
    (claimed' : claim' ∈ trace'.filterMap Transition.granted) (same : claim.id = claim'.id) :
    claim.checkpoint = claim'.checkpoint ↔
      ((∃ state, WalRecord.checkpoint claim.id state ∈ world.shared.group.wal.records) →
        ∃ state, WalRecord.checkpoint claim.id state ∈
          sinceEnqueue claim.id world.shared.group.wal.records) := by
  obtain ⟨before, sequential⟩ := reached
  obtain ⟨remembered, single, balanced⟩ := remembered_of_run sequential
  -- The live queue hands out the current checkpoint, the reopened one the last.
  rw [(remembered.resumesFrom quiescent claim.id).granted run claimed rfl,
    (resumesFrom_of_reopen balanced single quiescent restart claim.id).granted run' claimed' same.symm,
    currentCheckpoint_eq_iff]

/-- A delivery saves a checkpoint, and gives its message back. -/
def checkpointedOnce : List (Action Nat Nat) :=
  Action.run 0 (.enqueue ⟨⟨0⟩, 10, none⟩) 3 ++ Action.run 1 .claim 3 ++
    Action.run 2 (.checkpoint ⟨0⟩ ⟨0⟩ 7) 3 ++ Action.run 3 (.nack ⟨0⟩ ⟨0⟩ none) 3 ++
    [.pass 60]

set_option synthInstance.maxSize 256 in
/-- The next delivery resumes from it, whether or not the process restarts before. -/
theorem checkpoint_survives_once : ∃ (world reopened : World Nat Nat) (claim claim' : Claim Nat Nat)
    (trace trace' : List (Transition (World Nat Nat) (Action Nat Nat))),
    Reachable World.step Sequential (World.start 30 .default) world ∧
      world.step (.reopen []) = some reopened ∧
      claim ∈ trace.filterMap Transition.granted ∧ claim' ∈ trace'.filterMap Transition.granted ∧
      claim.checkpoint = some 7 ∧ claim.checkpoint = claim'.checkpoint := by
  have reachable : ∃ world : World Nat Nat, Reachable World.step Sequential (World.start 30 .default) world ∧
      world.Quiescent ∧
      .checkpoint ⟨0⟩ 7 ∈ sinceEnqueue ⟨0⟩ world.shared.group.wal.records ∧
      ∃ reopened ∈ world.step (.reopen []), ∃ ran ∈ record World.step world (Action.run 4 .claim 3),
        ∃ ran' ∈ record World.step reopened (Action.run 4 .claim 3),
        (∀ e ∈ ran.1, Claiming e.pre e.act) ∧ (∀ e ∈ ran'.1, Claiming e.pre e.act) ∧
        ∃ claim ∈ ran.1.filterMap Transition.granted, ∃ claim' ∈ ran'.1.filterMap Transition.granted,
          claim.id = ⟨0⟩ ∧ claim'.id = ⟨0⟩ ∧ claim.checkpoint = some 7 :=
    reaches_of_exec checkpointedOnce _ (by decide +kernel)
  obtain ⟨world, reached, quiescent, resumes, reopened, restart, ⟨trace, later⟩, ran, ⟨trace', later'⟩, ran',
    claims, claims', claim, claimed, claim', claimed', about, about', saved⟩ := reachable
  refine ⟨world, reopened, claim, claim', trace, trace', reached, restart, claimed, claimed', saved, ?_⟩
  -- Both recorded runs are made of claims alone.
  have run := ((run_of_record .nil ran).strengthen claims).mono fun _ _ allowed => allowed.2
  have run' := ((run_of_record .nil ran').strengthen claims').mono fun _ _ allowed => allowed.2
  exact (checkpoint_survives reached quiescent restart run claimed run' claimed'
    (about.trans about'.symm)).mpr fun _ => ⟨7, about ▸ resumes⟩

/-- A delivery saves a checkpoint and fails for good, and the message is taken out of the dead letters. -/
def checkpointedBefore : List (Action Nat Nat) :=
  Action.run 0 (.enqueue ⟨⟨0⟩, 10, none⟩) 3 ++ Action.run 1 .claim 3 ++
    Action.run 2 (.checkpoint ⟨0⟩ ⟨0⟩ 7) 3 ++ Action.run 3 (.nack ⟨0⟩ ⟨0⟩ none) 5 ++
    Action.run 4 (.reprocessDeadLetter ⟨0⟩) 5

set_option synthInstance.maxSize 256 in
/-- The next delivery starts over, but after a restart it resumes from the checkpoint. -/
theorem checkpoint_forgotten : ∃ world reopened : World Nat Nat,
    Reachable World.step Sequential
        (World.start 30 { RetryPolicy.default with maxAttempts := some 1 }) world ∧
      world.Quiescent ∧ world.step (.reopen []) = some reopened ∧
      (∃ ran ∈ record World.step world (Action.run 5 .claim 3),
        (ran.1.filterMap Transition.granted).map (fun claim => (claim.id, claim.checkpoint)) =
          [(⟨0⟩, none)]) ∧
      ∃ ran ∈ record World.step reopened (Action.run 5 .claim 3),
        (ran.1.filterMap Transition.granted).map (fun claim => (claim.id, claim.checkpoint)) =
          [(⟨0⟩, some 7)] := by
  -- Enqueued again after its dead letter, the message starts afresh until the queue is reopened.
  have reachable : ∃ world : World Nat Nat, Reachable World.step Sequential
      (World.start 30 { RetryPolicy.default with maxAttempts := some 1 }) world ∧
      world.Quiescent ∧ ∃ reopened ∈ world.step (.reopen []),
      (∃ ran ∈ record World.step world (Action.run 5 .claim 3),
        (ran.1.filterMap Transition.granted).map (fun claim => (claim.id, claim.checkpoint)) =
          [(⟨0⟩, none)]) ∧
      ∃ ran ∈ record World.step reopened (Action.run 5 .claim 3),
        (ran.1.filterMap Transition.granted).map (fun claim => (claim.id, claim.checkpoint)) =
          [(⟨0⟩, some 7)] :=
    reaches_of_exec checkpointedBefore _ (by decide +kernel)
  obtain ⟨world, reached, quiescent, reopened, restart, without, after⟩ := reachable
  exact ⟨world, reopened, reached, quiescent, restart, without, after⟩

end Qaas
