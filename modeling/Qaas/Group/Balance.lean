import Qaas.Group.Custody

/-! The books of a group, and that every calm run keeps them balanced. -/

namespace Qaas

open Concurrency

variable {T V : Type}

/-- A task's share of what the operations in progress have in their hands. -/
def Task.inHands (part : Pc T V → List MessageId) (id : MessageId) (task : Task T V) : Nat :=
  if task.cancelled then 0 else (part task.pc).count id

/-- How often the operations in progress have a message in their hands. -/
def World.inHands (world : World T V) (part : Pc T V → List MessageId) (id : MessageId) : Nat :=
  tally (Task.inHands part id) world.tasks

/-- What the operations in progress have in their hands is in the hands of one of them. -/
theorem exists_of_inHands {part : Pc T V → List MessageId} {id : MessageId}
    {tasks : List (Task T V)} (positive : 0 < tally (Task.inHands part id) tasks) :
    ∃ task ∈ tasks, id ∈ part task.pc := by
  obtain ⟨task, member, holds⟩ := exists_of_tally_pos positive
  refine ⟨task, member, ?_⟩
  rw [← List.count_pos_iff]
  unfold Task.inHands at holds
  split at holds
  · cases holds
  · exact holds

/-- A task's share of the messages some stage of whose life it is. -/
def Task.stage (part : Call T V → Pc T V → List MessageId) (id : MessageId) (task : Task T V) : Nat :=
  (part task.call task.pc).count id

/-- How often a message has been through a stage of its life. -/
def World.stage (world : World T V) (part : Call T V → Pc T V → List MessageId) (id : MessageId) :
    Nat :=
  tally (Task.stage part id) world.tasks

/-- No write fails, nothing is cancelled, and the group is reopened only between operations. -/
def Calm (world : World T V) : Action T V → Prop
  | .step _ env => env.outcome = .ok
  | .drop _ _ => False
  | .reopen _ => world.Quiescent
  | .call _ | .tick _ | .setWallClock _ => True

instance (world : World T V) (act : Action T V) : Decidable (Calm world act) :=
  match act with
  | .step _ env => inferInstanceAs (Decidable (env.outcome = .ok))
  | .drop _ _ => .isFalse id
  | .reopen _ => inferInstanceAs (Decidable world.Quiescent)
  | .call _ | .tick _ | .setWallClock _ => .isTrue trivial

/-- The books of a group: each message's copies in memory, in hands and in the logs. -/
structure Balanced (world : World T V) : Prop where
  mainIntact : world.shared.group.wal.torn = false
  dlqIntact : world.shared.group.dlq.wal.torn = false
  -- A replay of the main log leaves exactly what is live or on its way between two places.
  main : ∀ id, replayCount world.shared.group.wal.records id =
    world.shared.group.state.live id + world.inHands Pc.logged id
  dlq : ∀ id, dlqReplayCount world.shared.group.dlq.wal.records id =
    world.shared.group.dlq.entries.count id + world.inHands Pc.recorded id
  -- What was created is somewhere, and nowhere twice.
  conserved : ∀ id, world.shared.group.state.live id + world.shared.group.dlq.entries.count id +
    world.inHands Pc.held id + world.stage Call.acked id + world.stage Call.purged id =
      world.stage Call.born id

/-- A key that is already taken names another message than the one asking for it. -/
theorem Sound.foreign {world : World T V} (sound : Sound world) {task : Task T V}
    (member : task ∈ world.tasks) {message : Message T} {key : IdempotencyKey}
    {existingId : MessageId} (reserving : task.pc = .reserve message key)
    (found : world.shared.group.state.dedup.lookup key = some existingId) :
    existingId ≠ message.id := by
  intro same
  subst same
  obtain ⟨item, other, member', called, passed⟩ := sound.sourced.dedup key _ found
  have serves := sound.serves task member
  rw [reserving] at serves
  -- Only this very call generates the id, and it has not got past its reservation.
  have generated : task.call.newId = some message.id := by simp [serves.1, Call.newId]
  have generated' : other.call.newId = some message.id := by simp [called, Call.newId]
  obtain rfl := eq_of_nodup_filterMap sound.distinct member member' generated generated'
  have shape : message = ⟨message.id, item, some key⟩ := by
    rw [serves.1] at called
    exact Call.enqueue.inj called
  exact passed key (by rw [← shape]; exact reserving)

/-- A call creates at most the message whose id it generates. -/
theorem Call.born_count_le (call : Call T V) (pc : Pc T V) (id : MessageId) :
    (call.born pc).count id ≤ if call.newId = some id then 1 else 0 := by
  -- Only `enqueue` draws a fresh identifier.
  cases call with
  | enqueue message =>
    have atMost : (Call.enqueue message).born pc = [] ∨
        (Call.enqueue message).born pc = [message.id] := by
      cases pc with
      | done result =>
        cases result with
        | message returned =>
          by_cases own : returned = message.id
          · exact .inr (by simp [Call.born, own])
          · exact .inl (by simp [Call.born, own])
        | _ => exact .inl rfl
      | appendEnqueue | pushPending | notifyOne => exact .inr rfl
      | _ => exact .inl rfl
    rcases atMost with none_born | one_born
    · rw [none_born]
      exact Nat.zero_le _
    · rw [one_born]
      simp [Call.newId, List.count_singleton]
  | _ => exact Nat.zero_le _

/-- No message is created twice. -/
theorem Sound.born_le_one {world : World T V} (sound : Sound world) (id : MessageId) :
    world.stage Call.born id ≤ 1 := by
  -- Identifiers are drawn once, so no two calls share one.
  have generated : world.stage Call.born id ≤
      tally (share (fun task : Task T V => task.call.newId) id) world.tasks := by
    apply tally_le_tally
    intro task _
    exact task.call.born_count_le task.pc id
  rw [← count_filterMap, Multiset.coe_count] at generated
  exact generated.trans (List.nodup_iff_count_le_one.mp sound.distinct id)

/-- A new operation has in hand at most the message it is about to write. -/
theorem Call.entry_parts (call : Call T V) :
    call.entry.logged = [] ∧ call.entry.recorded = [] ∧ call.acked call.entry = [] ∧
      call.purged call.entry = [] ∧ call.entry.held = call.born call.entry := by
  cases call with
  | enqueue message =>
    cases keyed : message.idempotencyKey <;>
      simp [Call.entry, keyed, Pc.logged, Pc.recorded, Call.acked, Call.purged, Call.born, Pc.held,
        Pc.messages]
  | _ => exact ⟨rfl, rfl, rfl, rfl, rfl⟩

/-- An operation that has returned, or waits for a wakeup, has nothing in its hands. -/
theorem Pc.idle_parts {pc : Pc T V} (idle : pc.finished ∨ pc.waiting) :
    pc.logged = [] ∧ pc.recorded = [] ∧ pc.held = [] := by
  cases pc with
  | done | parked | parkedStream => exact ⟨rfl, rfl, rfl⟩
  | _ => simp [Pc.finished, Pc.waiting] at idle

/-- With no operation in flight, nothing is in anybody's hands. -/
theorem World.Quiescent.inHands {world : World T V} (quiescent : world.Quiescent)
    {part : Pc T V → List MessageId}
    (empty : ∀ pc : Pc T V, pc.finished ∨ pc.waiting → part pc = []) (id : MessageId) :
    world.inHands part id = 0 := by
  apply tally_eq_zero.mpr
  intro task member
  -- A task at rest holds nothing, and a cancelled one counts for nothing.
  rcases quiescent task member with cancelled | idle
  · simp [Task.inHands, cancelled]
  · simp [Task.inHands, empty task.pc idle]

/-- A killed task has nothing in its hands. -/
theorem Task.kill_inHands {part : Pc T V → List MessageId}
    (empty : ∀ pc : Pc T V, pc.finished ∨ pc.waiting → part pc = []) (task : Task T V)
    (id : MessageId) : task.kill.inHands part id = 0 := by
  unfold Task.kill
  split
  · rename_i finished
    simp [Task.inHands, empty task.pc (.inl finished)]
  · simp [Task.inHands]

/-- The books of a group opened on empty logs are balanced. -/
theorem Balanced.start (visibilityTimeout : Duration) (retryPolicy : RetryPolicy) :
    Balanced (World.start visibilityTimeout retryPolicy : World T V) :=
  ⟨rfl, rfl, fun _ => rfl, fun _ => rfl, fun _ => rfl⟩

/-- A reopened group has live exactly what a replay of its main log leaves pending. -/
theorem opened_live (wal : Log (WalRecord T V)) (dlqWal : Log (DlqRecord T V))
    (visibilityTimeout : Duration) (retryPolicy : RetryPolicy) (order : List MessageId)
    (id : MessageId) :
    (ConsumerGroup.opened wal dlqWal visibilityTimeout retryPolicy order).state.live id =
      replayCount wal.records id := by
  -- There are no leases and no retries yet.
  simp only [ConsumerGroup.opened, State.live, State.pendingCount, State.leasedCount,
    State.delayedCount, restoreCheckpoints_ids, replayCount, Finmap.lookup_empty, present_none, List.map_nil,
    List.count_nil, Nat.add_zero]

/-- A reopened group has a message pending exactly if a replay of its main log leaves it so. -/
theorem mem_reopened_pending {group : ConsumerGroup T V} {order : List MessageId} {id : MessageId} :
    (∃ entry ∈ (group.reopened order).state.pending, entry.id = id) ↔
      0 < replayCount group.wal.records id := by
  -- After a reopening every live message is pending, once for each time it was replayed.
  have live := opened_live group.wal group.dlq.wal group.visibilityTimeout group.retryPolicy order id
  have pendingOnly : (group.reopened order).state.live id =
      (group.reopened order).state.pendingCount id := rfl
  rw [← live, pendingOnly, State.pendingCount, List.count_pos_iff, List.mem_map]

/-- Without write errors, no step tears a log. -/
theorem Moved.intact {now : Instant} {wallClock : Timestamp} {env : StepEnv}
    {group group' : ConsumerGroup T V} {pc next : Pc T V}
    (moved : Moved now wallClock env group pc group' next) (clean : env.outcome = .ok) :
    group'.wal.torn = group.wal.torn ∧ group'.dlq.wal.torn = group.dlq.wal.torn := by
  -- Only a failed write can leave bytes behind.
  cases moved with
  | enqueueWritten | deadLetteredWritten | ackWritten | checkpointWritten =>
    exact ⟨Log.torn_append_ok clean _ _, rfl⟩
  | exhaustedWritten | annotateWritten | removeWritten => exact ⟨rfl, Log.torn_append_ok clean _ _⟩
  | enqueueFailed failed | exhaustedFailed _ failed | deadLetteredFailed failed | ackFailed failed
  | checkpointFailed failed | annotateFailed failed | removeFailed failed => exact (AppendOutcome.ok_ne_failed clean failed).elim
  | _ => exact ⟨rfl, rfl⟩

/-- What the dead-letter log runs ahead by is in the operation's hands. -/
theorem Pc.recorded_le_held (pc : Pc T V) (id : MessageId) :
    pc.recorded.count id ≤ pc.held.count id := by
  -- A letter on its way into the store is in hand until it is there.
  cases pc with
  | insertDeadLetter deadLetter caller =>
    have held : (Pc.insertDeadLetter deadLetter caller).held = deadLetter.id :: caller.ids := rfl
    rw [held, Pc.recorded, List.count_cons, List.count_cons, List.count_nil]
    omega
  | appendRemove => exact le_refl _
  | _ => exact Nat.zero_le _

/-- A live task's move trades its own part of what is in hands. -/
theorem inHands_set {tasks : List (Task T V)} {i : Nat} {task : Task T V}
    (found : tasks[i]? = some task) (alive : task.cancelled = false) (next : Pc T V)
    (part : Pc T V → List MessageId) (id : MessageId) :
    tally (Task.inHands part id) (tasks.set i { task with pc := next }) + (part task.pc).count id =
      tally (Task.inHands part id) tasks + (part next).count id := by
  have traded := tally_set (Task.inHands part id) { task with pc := next } found
  simpa only [Task.inHands, alive, Bool.false_eq_true, if_false] using traded

/-- One step of an operation keeps the books balanced. -/
theorem Balanced.move {world : World T V} {i : Nat} {env : StepEnv} {task : Task T V}
    {group : ConsumerGroup T V} {next : Pc T V} (balanced : Balanced world) (sound : Sound world)
    (found : world.tasks[i]? = some task) (alive : task.cancelled = false)
    (clean : env.outcome = .ok)
    (moved : Moved world.shared.now world.shared.wallClock env world.shared.group task.pc group next) :
    Balanced ⟨{ world.shared with group := group }, world.tasks.set i { task with pc := next }⟩ := by
  have member := List.mem_of_getElem? found
  obtain ⟨mainIntact, dlqIntact⟩ := moved.intact clean
  -- Each message is in at most one place, and what is in this task's hands is part of the total.
  have total := fun id => sound.born_le_one id
  have share := fun (part : Pc T V → List MessageId) id =>
    le_tally (Task.inHands part id) member
  simp only [Task.inHands, alive, Bool.false_eq_true, if_false] at share
  refine ⟨mainIntact.trans balanced.mainIntact, dlqIntact.trans balanced.dlqIntact, ?_, ?_, ?_⟩
  · intro id
    have before := balanced.main id
    have whole := balanced.conserved id
    have traded := inHands_set found alive next Pc.logged id
    have logged := share Pc.logged id
    obtain ⟨atLeast, atMost⟩ := moved.main_ledger clean balanced.mainIntact id
    have single := total id
    have exact := atMost (by omega) (by simp only [World.inHands] at before; omega)
    simp only [World.inHands] at before ⊢
    omega
  · intro id
    have before := balanced.dlq id
    have whole := balanced.conserved id
    have single := total id
    have traded := inHands_set found alive next Pc.recorded id
    have held := share Pc.held id
    have recorded := share Pc.recorded id
    -- Without this task, the others' hands hold at least what the log runs ahead by.
    have others := tally_le_tally fun (other : Task T V) (_ : other ∈ world.tasks.set i
        { task with pc := .claimNext }) => show other.inHands Pc.recorded id ≤ other.inHands Pc.held id by
      unfold Task.inHands
      split
      · exact le_refl _
      · exact other.pc.recorded_le_held id
    have withoutRecorded := inHands_set found alive .claimNext Pc.recorded id
    have withoutHeld := inHands_set found alive .claimNext Pc.held id
    have nothing : (Pc.claimNext : Pc T V).recorded.count id = 0 ∧
        (Pc.claimNext : Pc T V).held.count id = 0 := ⟨rfl, rfl⟩
    simp only [World.inHands] at before whole ⊢
    have ledger := moved.dlq_ledger clean sound.sourced balanced.dlqIntact id (by omega) (by omega)
      (by omega)
    omega
  · intro id
    have whole := balanced.conserved id
    have single := total id
    have held := share Pc.held id
    have traded := inHands_set found alive next Pc.held id
    have acked := tally_set (Task.stage Call.acked id) { task with pc := next } found
    have purged := tally_set (Task.stage Call.purged id) { task with pc := next } found
    have born := tally_set (Task.stage Call.born id) { task with pc := next } found
    simp only [World.inHands, World.stage, Task.stage] at whole single acked purged born ⊢
    have custody := moved.custody clean sound.sourced (sound.serves task member)
      (fun message key existingId reserving taken => sound.foreign member reserving taken) id
      (by omega)
    omega

/-- Every calm step keeps the books balanced. -/
theorem Balanced.step {world world' : World T V} {act : Action T V} (balanced : Balanced world)
    (sound : Sound world) (calm : Calm world act) (stepped : Stepped world act world') :
    Balanced world' := by
  -- A call begins with empty hands, a step keeps the balance, and a reopening has both sides say what the logs say.
  cases stepped with
  | @call call fresh =>
    obtain ⟨logged, recorded, acked, purged, held⟩ := call.entry_parts
    refine ⟨balanced.mainIntact, balanced.dlqIntact, ?_, ?_, ?_⟩
    · intro id
      have before := balanced.main id
      simpa [World.inHands, Pool.spawn, Task.inHands, logged] using before
    · intro id
      have before := balanced.dlq id
      simpa [World.inHands, Pool.spawn, Task.inHands, recorded] using before
    · intro id
      have before := balanced.conserved id
      simp only [World.inHands, World.stage, Pool.spawn, tally_append, tally_cons, tally_nil,
        Task.inHands, Task.stage, acked, purged, held, List.count_nil, Bool.false_eq_true,
        if_false] at before ⊢
      omega
  | @step i env task group next found alive moved => exact balanced.move sound found alive calm moved
  | drop found alive dropped => exact absurd calm id
  | tick => exact ⟨balanced.mainIntact, balanced.dlqIntact, balanced.main, balanced.dlq, balanced.conserved⟩
  | setWallClock =>
    exact ⟨balanced.mainIntact, balanced.dlqIntact, balanced.main, balanced.dlq, balanced.conserved⟩
  | @reopen order iterates =>
    have quiescent : world.Quiescent := calm
    -- Nothing was in anybody's hands before, and nothing is after.
    have idle : ∀ (part : Pc T V → List MessageId),
        (∀ pc : Pc T V, pc.finished ∨ pc.waiting → part pc = []) → ∀ id,
        tally (Task.inHands part id) (world.tasks.map Task.kill) = 0 := by
      intro part empty id
      rw [tally_map]
      exact tally_eq_zero.mpr fun task _ => task.kill_inHands empty id
    have stages : ∀ part id, tally (Task.stage part id) (world.tasks.map Task.kill) =
        tally (Task.stage part id) world.tasks := by
      intro part id
      rw [tally_map]
      congr 1
      funext task
      simp only [Task.stage, Task.kill_call, Task.kill_pc]
    refine ⟨rfl, rfl, ?_, ?_, ?_⟩
    · intro id
      have hands := idle Pc.logged (fun pc idle => (Pc.idle_parts idle).1) id
      simp only [World.inHands, hands, opened_live]
      rfl
    · intro id
      have hands := idle Pc.recorded (fun pc idle => (Pc.idle_parts idle).2.1) id
      simp only [World.inHands, hands]
      rfl
    · intro id
      have main := balanced.main id
      have dlq := balanced.dlq id
      have whole := balanced.conserved id
      rw [quiescent.inHands fun pc idle => (Pc.idle_parts idle).1] at main
      rw [quiescent.inHands fun pc idle => (Pc.idle_parts idle).2.1] at dlq
      rw [quiescent.inHands fun pc idle => (Pc.idle_parts idle).2.2] at whole
      have hands := idle Pc.held (fun pc idle => (Pc.idle_parts idle).2.2) id
      have entries : (world.shared.group.reopened order).dlq.entries.count
          id = dlqReplayCount world.shared.group.dlq.wal.records id := rfl
      simp only [World.stage] at whole
      simp only [World.inHands, World.stage, hands, stages, opened_live, entries]
      omega

/-- After every calm run the books are balanced. -/
theorem balanced_of_run {visibilityTimeout : Duration} {retryPolicy : RetryPolicy}
    {trace : List (Transition (World T V) (Action T V))} {world : World T V}
    (run : Run World.step Calm (World.start visibilityTimeout retryPolicy) trace world) :
    Balanced world := by
  apply run.invariant_of (Balanced.start visibilityTimeout retryPolicy) sound_of_run
  intro world act next calm sound _ balanced taken
  exact balanced.step sound calm (step_stepped taken)

end Qaas
