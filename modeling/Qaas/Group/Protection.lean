import Qaas.Group.Copies
import Qaas.Group.KeyUse

/-! Which live messages the dedup map still protects, whatever fails and whenever the process restarts. -/

namespace Qaas

open Concurrency

variable {T V : Type}

/-- Every copy of every message under a key goes with an action. -/
def World.Empties (world : World T V) (act : Action T V) (key : IdempotencyKey) : Prop :=
  ∀ other ∈ world.submitted, other.idempotencyKey = some key →
    world.copiesOf other.id ≤ (world.goes act).count other.id

/-- Every key that no dead letter will carry was last used by a message that a replay leaves pending. -/
def ConsumerGroup.Replayable (group : ConsumerGroup T V) : Prop :=
  ∀ entry ∈ (Replay.records group.wal.records).pending, ∀ key ∈ entry.idempotencyKey,
    (∀ id ∈ (DeadLetters.replay group.dlq.wal.records).keys,
        ∀ dead ∈ (DeadLetters.replay group.dlq.wal.records).lookup id,
          dead.idempotencyKey ≠ some key) →
      ∃ user ∈ lastUser group.wal.records key,
        ∃ other ∈ (Replay.records group.wal.records).pending, other.id = user

/--
An action after which no copy of a message is left without its key.

A key is released, and the message it names is lost, only with the last copy under that key.
Before a restart, the main log ends the use of each key with a message that is still there.
-/
def Orderly (world : World T V) (act : Action T V) : Prop :=
  (∀ key ∈ world.frees act, world.Empties act key) ∧
    (∀ message ∈ world.submitted, ∀ key ∈ message.idempotencyKey, message.id ∈ world.goes act →
      world.shared.group.state.dedup.lookup key = some message.id →
      world.copiesOf message.id ≤ (world.goes act).count message.id → world.Empties act key) ∧
    match act with
    | .reopen _ => world.shared.group.Replayable
    | _ => True

instance (world : World T V) (act : Action T V) (key : IdempotencyKey) :
    Decidable (world.Empties act key) :=
  inferInstanceAs (Decidable (∀ other ∈ world.submitted, _))

instance (group : ConsumerGroup T V) : Decidable group.Replayable :=
  inferInstanceAs (Decidable (∀ entry ∈ (Replay.records group.wal.records).pending, _))

instance (world : World T V) (act : Action T V) : Decidable (Orderly world act) :=
  match act with
  | .reopen _ => inferInstanceAs (Decidable (_ ∧ _ ∧ world.shared.group.Replayable))
  | .call _ | .step _ _ | .drop _ _ | .tick _ | .setWallClock _ =>
    inferInstanceAs (Decidable (_ ∧ _ ∧ True))

/-- A message with a key is pending, leased, delayed or dead-lettered in the running process. -/
def ConsumerGroup.Carries (group : ConsumerGroup T V) (key : IdempotencyKey) (id : MessageId) : Prop :=
  (∃ entry ∈ group.state.pending, entry.id = id ∧ entry.idempotencyKey = some key) ∨
    (∃ lease, group.state.leased.lookup id = some lease ∧ lease.idempotencyKey = some key) ∨
    (∃ entry ∈ group.state.delayed, entry.id = id ∧ entry.idempotencyKey = some key) ∨
    ∃ dead, group.dlq.entries.lookup id = some dead ∧ dead.idempotencyKey = some key

/-- Every key of which there is a copy in the process names a message of which there is a copy there. -/
def Protected (world : World T V) : Prop :=
  ∀ message ∈ world.submitted, ∀ key, message.idempotencyKey = some key →
    0 < world.copiesOf message.id →
    ∃ named, world.shared.group.state.dedup.lookup key = some named ∧ 0 < world.copiesOf named

/-- An orderly action that brings in no message leaves every key with a copy naming one with a copy. -/
theorem Protected.left {world world' : World T V} {act : Action T V} (known : Protected world)
    (sound : Sound world) (orderly : Orderly world act) (same : world'.submitted = world.submitted)
    (left : ∀ id, 0 < world'.copiesOf id ↔ (world.goes act).count id < world.copiesOf id)
    (unfreed : ∀ key, world.frees act ≠ some key →
      world'.shared.group.state.dedup.lookup key = world.shared.group.state.dedup.lookup key) :
    Protected world' := by
  intro message submitted key keyed copied
  rw [same] at submitted
  have more := (left message.id).mp copied
  obtain ⟨releases, losses, _⟩ := orderly
  -- A key that is freed, or whose message is lost, would take this message along.
  have stays : ¬ world.Empties act key := fun empties =>
    absurd (empties message submitted keyed) (Nat.not_le.mpr more)
  have unreleased : world.frees act ≠ some key := fun frees => stays (releases key frees)
  obtain ⟨named, registered, there⟩ :=
    known message submitted key keyed (Nat.lt_of_le_of_lt (Nat.zero_le _) more)
  refine ⟨named, (unfreed key unreleased).trans registered, (left named).mpr ?_⟩
  by_contra lost
  have last : world.copiesOf named ≤ (world.goes act).count named := Nat.not_lt.mp lost
  have gone : named ∈ world.goes act := List.count_pos_iff.mp (Nat.lt_of_lt_of_le there last)
  obtain ⟨item, issued⟩ := sound.sourced.dedup key named registered
  exact stays (losses _ issued.submitted key rfl gone registered last)

/-- A reservation brings in one message, under a key that named no message before. -/
theorem Protected.reserve {world : World T V} {i : Nat} {env : StepEnv} {task : Task T V}
    {group : ConsumerGroup T V} {next : Pc T V} {message : Message T} {key : IdempotencyKey}
    (known : Protected world) (sound : Sound world) (found : world.tasks[i]? = some task)
    (alive : task.cancelled = false) (reserving : task.pc = .reserve message key)
    (moved : Moved world.shared.now world.shared.wallClock env world.shared.group task.pc group next) :
    Protected ⟨{ world.shared with group := group }, world.tasks.set i { task with pc := next }⟩ := by
  have serves := sound.serves task (List.mem_of_getElem? found)
  rw [reserving] at serves moved
  have mine : message ∈ world.submitted :=
    World.mem_submitted.mpr ⟨task, List.mem_of_getElem? found, serves.1⟩
  intro other submitted used keyed copied
  rw [submitted_set found] at submitted
  cases moved with
  | quiet changed quiet => cases quiet
  | reserveHit taken =>
    -- Nothing but the operation's own place changes.
    have same := copiesOf_deduplicated found alive reserving
    rw [same] at copied
    obtain ⟨named, registered, there⟩ := known other submitted used keyed copied
    exact ⟨named, registered, by rwa [same]⟩
  | reserveFresh absent =>
    have copies := copiesOf_reserved found alive reserving
    by_cases own : used = key
    · -- The new registration names the message that the operation now has in its hands.
      subst own
      refine ⟨message.id, Finmap.lookup_insert _, ?_⟩
      rw [copies, List.count_singleton_self]
      exact Nat.succ_pos _
    · have apart : message.id ≠ other.id := by
        intro same
        obtain rfl := sound.submitted_unique mine submitted same
        exact own (Option.some.inj (keyed.symm.trans serves.2))
      rw [copies, List.count_singleton] at copied
      simp only [beq_iff_eq, if_neg apart, Nat.add_zero] at copied
      obtain ⟨named, registered, there⟩ := known other submitted used keyed copied
      refine ⟨named, (Finmap.lookup_insert_of_ne _ own).trans registered, ?_⟩
      rw [copies]
      omega

/-- An operation that has returned, or waits for a wakeup, keeps nothing. -/
theorem Pc.idle_keeping {pc : Pc T V} (idle : pc.finished ∨ pc.waiting) : pc.keeping = [] := by
  cases pc with
  | done | parked | parkedStream => rfl
  | _ => simp [Pc.finished, Pc.waiting] at idle

/-- A replayable group names, for every key it rebuilds, a message that it rebuilds. -/
theorem Sound.protected_of_reopen {world : World T V} {order : List MessageId}
    (sound : Sound world) (replayable : world.shared.group.Replayable)
    (iterates : (DeadLetters.replay world.shared.group.dlq.wal.records).Iterates order) :
    Protected ⟨{ world.shared with group := world.shared.group.reopened order },
      world.tasks.map Task.kill⟩ := by
  -- All operations are gone, so the copies are those that the group has rebuilt.
  have rebuilt : ∀ id, World.copiesOf
      ⟨{ world.shared with group := world.shared.group.reopened order }, world.tasks.map Task.kill⟩ id =
      (world.shared.group.reopened order).copies id := by
    intro id
    have hands : tally (Task.inHands Pc.keeping id) (world.tasks.map Task.kill) = 0 := by
      apply tally_eq_zero.mpr
      intro task member
      obtain ⟨before, _, rfl⟩ := List.mem_map.mp member
      exact before.kill_inHands (fun pc idle => Pc.idle_keeping idle) id
    simp only [World.copiesOf, World.inHands, hands, Nat.add_zero]
  have pending : ∀ {id}, (∃ entry ∈ (Replay.records world.shared.group.wal.records).pending,
      entry.id = id) → 0 < (world.shared.group.reopened order).copies id := by
    intro id listed
    have counted : 0 < replayCount world.shared.group.wal.records id := by
      rwa [replayCount, List.count_pos_iff, List.mem_map]
    exact houses_iff.mp (.inl (mem_reopened_pending.mpr counted))
  intro message member key keyed copied
  rw [submitted_kill] at member
  rw [rebuilt] at copied
  by_cases dead : ∃ stored deadLetter, (DeadLetters.replay
      world.shared.group.dlq.wal.records).lookup stored = some deadLetter ∧
      deadLetter.idempotencyKey = some key
  · -- The dead letters are registered last.
    obtain ⟨stored, deadLetter, entry, carries⟩ := dead
    obtain ⟨id, last, found, _, registered⟩ := reopened_of_dead iterates entry carries
    refine ⟨id, registered, ?_⟩
    rw [rebuilt]
    exact houses_iff.mp (.inr (.inr (.inr ⟨last, found⟩)))
  · have unused : ∀ id letter, (DeadLetters.replay
        world.shared.group.dlq.wal.records).lookup id = some letter →
        letter.idempotencyKey ≠ some key :=
      fun id letter found carries => dead ⟨id, letter, found, carries⟩
    rcases houses_iff.mpr copied with there | ⟨lease, found⟩ | ⟨entry, among, _⟩ | ⟨letter, found⟩
    · have counted := mem_reopened_pending.mp there
      rw [replayCount, List.count_pos_iff] at counted
      obtain ⟨entry, listed, same⟩ := List.mem_map.mp counted
      have issued := sound.sourced.wal _ _ _ (mem_of_replay_pending listed)
      obtain rfl := sound.submitted_unique member issued.submitted same.symm
      obtain ⟨user, last, other, there, rfl⟩ := replayable entry listed key keyed
        fun id _ letter found => unused id letter found
      refine ⟨other.id, ?_, ?_⟩
      · exact (reopened_of_replayed unused order).trans (lookup_of_lastUser last)
      · rw [rebuilt]
        exact pending ⟨other, there, rfl⟩
    · cases found
    · cases among
    · -- A dead letter of the message would carry its key.
      have reopened := sound.sourced.opened world.shared.group.visibilityTimeout
        world.shared.group.retryPolicy order
      obtain ⟨same, issued⟩ := reopened.entries message.id letter found
      have unique := sound.submitted_unique issued.submitted member same
      exact absurd ((congrArg Message.idempotencyKey unique).trans keyed) (unused _ letter found)

/-- Every orderly step keeps the invariant. -/
theorem Protected.step {world world' : World T V} {act : Action T V} (known : Protected world)
    (sound : Sound world) (releasing : Releasing world) (orderly : Orderly world act)
    (stepped : Stepped world act world') : Protected world' := by
  -- The dedup map changes at a reservation or where a message leaves.
  cases stepped with
  | call fresh =>
    intro message member key keyed copied
    obtain ⟨submitted, before⟩ := sound.copied_of_call releasing fresh member keyed copied
    obtain ⟨named, registered, there⟩ := known message submitted key keyed before
    exact ⟨named, registered, copied_spawn there⟩
  | @step i env task group next found alive moved =>
    by_cases reserving : ∃ reserved key, task.pc = .reserve reserved key
    · obtain ⟨reserved, key, reserving⟩ := reserving
      exact known.reserve sound found alive reserving moved
    · have unreserved : ∀ message key, task.pc ≠ .reserve message key :=
        fun message key reserves => reserving ⟨message, key, reserves⟩
      apply known.left sound orderly (submitted_set found) (sound.copiesOf_move found alive unreserved moved)
      intro key kept
      exact moved.unfreed unreserved (by simpa [World.frees, found] using kept)
  | @drop i wrote task group next found alive dropped =>
    apply known.left sound orderly (submitted_set found) (copiesOf_drop found alive dropped)
    intro key kept
    show group.state.dedup.lookup key = _
    rw [dropped.memory.1]
  | tick => exact known
  | setWallClock => exact known
  | reopen iterates => exact sound.protected_of_reopen orderly.2.2 iterates

/-- The invariant holds after every orderly run. -/
theorem protected_of_run {visibilityTimeout : Duration} {retryPolicy : RetryPolicy}
    {world : World T V} {trace : List (Transition (World T V) (Action T V))}
    (run : Run World.step Orderly (World.start visibilityTimeout retryPolicy) trace world) :
    Protected world := by
  -- Nothing has been submitted yet.
  have initial : Protected (World.start visibilityTimeout retryPolicy : World T V) :=
    fun _ member => (List.not_mem_nil member).elim
  apply run.invariant_of initial fun earlier =>
    And.intro (sound_of_run earlier) (releasing_of_run earlier)
  intro world act next orderly ⟨sound, releasing⟩ _ known taken
  exact known.step sound releasing orderly (step_stepped taken)

/-- A message of the group carries the key that it was submitted with. -/
theorem Sound.carries_of_submitted {world : World T V} (sound : Sound world) {message : Message T}
    (submitted : message ∈ world.submitted) {key : IdempotencyKey}
    (keyed : message.idempotencyKey = some key) (houses : world.shared.group.Houses message.id) :
    world.shared.group.Carries key message.id := by
  -- What is stored under the message's id is the message itself.
  have same : ∀ {other : Message T}, world.Issued other → other.id = message.id →
      other.idempotencyKey = some key := by
    intro other issued shared
    rw [sound.submitted_unique issued.submitted submitted shared]
    exact keyed
  rcases houses with ⟨entry, member, id⟩ | ⟨lease, found⟩ | ⟨entry, member, id⟩ | ⟨dead, found⟩
  · exact .inl ⟨entry, member, id, same (sound.sourced.pending entry member) id⟩
  · exact .inr (.inl ⟨lease, found, same (sound.sourced.leased _ lease found) rfl⟩)
  · exact .inr (.inr (.inl ⟨entry, member, id, same (sound.sourced.delayed entry member) id⟩))
  · obtain ⟨id, issued⟩ := sound.sourced.entries _ dead found
    exact .inr (.inr (.inr ⟨dead, found, same issued id⟩))

/-- A message of the group was submitted with the key that it carries. -/
theorem Sound.submitted_of_carries {world : World T V} (sound : Sound world)
    {key : IdempotencyKey} {id : MessageId} (carries : world.shared.group.Carries key id) :
    world.shared.group.Houses id ∧
      ∃ message ∈ world.submitted, message.id = id ∧ message.idempotencyKey = some key := by
  -- The four structures, one by one.
  rcases carries with ⟨entry, member, rfl, keyed⟩ | ⟨lease, found, keyed⟩ | ⟨entry, member, rfl, keyed⟩ |
    ⟨dead, found, keyed⟩
  · exact ⟨.inl ⟨entry, member, rfl⟩, _, (sound.sourced.pending entry member).submitted, rfl, keyed⟩
  · exact ⟨.inr (.inl ⟨lease, found⟩), _, (sound.sourced.leased _ lease found).submitted, rfl, keyed⟩
  · exact ⟨.inr (.inr (.inl ⟨entry, member, rfl⟩)), _,
      (sound.sourced.delayed entry member).submitted, rfl, keyed⟩
  · obtain ⟨rfl, issued⟩ := sound.sourced.entries _ dead found
    exact ⟨.inr (.inr (.inr ⟨dead, found⟩)), _, issued.submitted, rfl, keyed⟩

/--
After an orderly run every key of a message in the group names such a message.

A retried enqueue under the key then returns that message's id, and creates nothing.
-/
theorem keys_stay_protected {visibilityTimeout : Duration} {retryPolicy : RetryPolicy}
    {world : World T V} {key : IdempotencyKey} {id : MessageId}
    (reached : Reachable World.step Orderly (World.start visibilityTimeout retryPolicy) world)
    (quiescent : world.Quiescent) (carries : world.shared.group.Carries key id) :
    ∃ named, world.shared.group.state.dedup.lookup key = some named ∧
      world.shared.group.Carries key named ∧
      ∀ message, world.shared.group.reserve message key =
        (world.shared.group, .done (.message named)) := by
  obtain ⟨trace, run⟩ := reached
  have sound := sound_of_run run
  -- With no operation in flight, the copies of a message are those in the group.
  have settled : ∀ id, world.copiesOf id = world.shared.group.copies id := by
    intro id
    rw [World.copiesOf, quiescent.inHands fun pc idle => Pc.idle_keeping idle, Nat.add_zero]
  obtain ⟨houses, message, submitted, rfl, keyed⟩ := sound.submitted_of_carries carries
  obtain ⟨named, registered, there⟩ := protected_of_run run message submitted key keyed
    (by rw [settled]; exact houses_iff.mp houses)
  rw [settled] at there
  obtain ⟨item, issued⟩ := sound.sourced.dedup key named registered
  refine ⟨named, registered, sound.carries_of_submitted issued.submitted rfl (houses_iff.mpr there), ?_⟩
  intro other
  rw [ConsumerGroup.reserve, registered]

/-- A keyed message is claimed and acknowledged, and its key is used again. -/
def keyReused : List (Action Nat Nat) :=
  Action.run 0 (.enqueue ⟨⟨0⟩, 10, some ⟨"k"⟩⟩) 4 ++ Action.run 1 .claim 3 ++
    Action.run 2 (.ack ⟨0⟩ ⟨0⟩) 2 ++ Action.run 3 (.enqueue ⟨⟨1⟩, 11, some ⟨"k"⟩⟩) 4 ++ [.reopen []]

/-- The restart names the message that has the key now. -/
theorem keys_stay_protected_reused : ∃ world : World Nat Nat,
    world.shared.group.Carries ⟨"k"⟩ ⟨1⟩ ∧ ∃ named,
      world.shared.group.state.dedup.lookup ⟨"k"⟩ = some named ∧
      world.shared.group.Carries ⟨"k"⟩ named ∧
      ∀ message, world.shared.group.reserve message ⟨"k"⟩ =
        (world.shared.group, .done (.message named)) := by
  have reachable : ∃ world : World Nat Nat, Reachable World.step Orderly
      (World.start 30 .default) world ∧ world.Quiescent ∧
      ∃ entry ∈ world.shared.group.state.pending, entry.id = ⟨1⟩ ∧ entry.idempotencyKey = some ⟨"k"⟩ :=
    reaches_of_exec keyReused _ (by decide +kernel)
  obtain ⟨world, reached, quiescent, pending⟩ := reachable
  exact ⟨world, .inl pending, keys_stay_protected reached quiescent (.inl pending)⟩

/-- The same, but the second enqueue is logged before the acknowledgement that has released the key. -/
def keyReusedEarly : List (Action Nat Nat) :=
  Action.run 0 (.enqueue ⟨⟨0⟩, 10, some ⟨"k"⟩⟩) 4 ++ Action.run 1 .claim 3 ++
    Action.run 2 (.ack ⟨0⟩ ⟨0⟩) 1 ++ Action.run 3 (.enqueue ⟨⟨1⟩, 11, some ⟨"k"⟩⟩) 4 ++
    [.step 2 {}, .reopen []]

/-- Replaying that acknowledgement takes the key away from the message that has it now. -/
theorem key_unprotected : ∃ world : World Nat Nat, Reachable World.step (fun _ _ => True)
      (World.start 30 .default) world ∧ world.Quiescent ∧
    world.shared.group.Carries ⟨"k"⟩ ⟨1⟩ ∧ world.shared.group.state.dedup.lookup ⟨"k"⟩ = none := by
  have reachable : ∃ world : World Nat Nat, Reachable World.step (fun _ _ => True)
      (World.start 30 .default) world ∧ world.Quiescent ∧
      (∃ entry ∈ world.shared.group.state.pending, entry.id = ⟨1⟩ ∧ entry.idempotencyKey = some ⟨"k"⟩) ∧
      world.shared.group.state.dedup.lookup ⟨"k"⟩ = none :=
    reaches_of_exec keyReusedEarly _ (by decide +kernel)
  obtain ⟨world, reached, quiescent, pending, absent⟩ := reachable
  exact ⟨world, reached, quiescent, .inl pending, absent⟩

end Qaas
