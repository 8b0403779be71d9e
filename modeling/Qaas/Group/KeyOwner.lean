import Qaas.Group.Conservation
import Qaas.Group.Copies
import Qaas.Group.Restart

/-! One live message per producer key, through every gap in which only a running operation has it. -/

namespace Qaas

open Concurrency

variable {T V : Type}

/-- A message's id and the key that its producer gave it. -/
def Message.keyed (message : Message T) : MessageId × Option IdempotencyKey :=
  (message.id, message.idempotencyKey)

/-- The messages an operation carries, also the purged one whose key it has still to release. -/
def Pc.carried : Pc T V → List (MessageId × Option IdempotencyKey)
  | .releaseKey id key _ => [(id, some key)]
  | pc => pc.messages.map Message.keyed

/-- The messages that are pending, leased, delayed, dead-lettered or carried by a running operation. -/
def World.carried (world : World T V) : Multiset (MessageId × Option IdempotencyKey) :=
  let group := world.shared.group
  (group.state.pendingMessages + group.state.leasedMessages + group.state.delayedMessages +
      group.dlq.messages).map Message.keyed +
    (world.tasks.filter fun task => !task.cancelled).flatMap fun task => task.pc.carried

/-- Every message of which there is a copy in the process owns its key there. -/
def Owned (world : World T V) : Prop :=
  ∀ message ∈ world.submitted, ∀ key, message.idempotencyKey = some key →
    0 < world.copiesOf message.id → world.shared.group.state.dedup.lookup key = some message.id

/-- No running operation is about to release a key because its write failed. -/
def Unfailed (world : World T V) : Prop :=
  ∀ task ∈ world.tasks, ∀ id key result, task.pc = .releaseKey id key result →
    task.call = .purgeDeadLetter id

/-- Without write errors only a purge gets to release a key on its own. -/
theorem Moved.purges {now : Instant} {wallClock : Timestamp} {env : StepEnv}
    {group group' : ConsumerGroup T V} {pc next : Pc T V} {call : Call T V} {id : MessageId}
    {key : IdempotencyKey} {result : Result T V}
    (moved : Moved now wallClock env group pc group' next) (clean : env.outcome = .ok)
    (serves : pc.serves call) (releases : next = .releaseKey id key result) :
    call = .purgeDeadLetter id := by
  obtain ⟨message, inHand, same, _⟩ := moved.releasing releases
  -- With no write failing, only a purge gives a key back.
  cases moved with
  | quiet changed quiet => cases quiet <;> cases releases
  | enqueueFailed failed | exhaustedFailed _ failed | deadLetteredFailed failed =>
    exact (AppendOutcome.ok_ne_failed clean failed).elim
  | @removeWritten deadLetter caller synced =>
    obtain rfl := List.mem_singleton.mp inHand
    cases caller with
    | reprocess => cases releases
    | purge =>
      have purge : call = .purgeDeadLetter deadLetter.id := serves
      rw [purge, ← same]
      rfl
  | @retried failed caller attemptsLeft | @deadLetteredWritten other caller synced =>
    exact absurd releases (caller.keyless.2 id key result).1
  | _ => cases releases

/-- In a calm run no key is ever released because a write failed. -/
theorem unfailed_of_run {visibilityTimeout : Duration} {retryPolicy : RetryPolicy}
    {trace : List (Transition (World T V) (Action T V))} {world : World T V}
    (run : Run World.step Calm (World.start visibilityTimeout retryPolicy) trace world) :
    Unfailed world := by
  -- There are no tasks at the start.
  have initial : Unfailed (World.start visibilityTimeout retryPolicy : World T V) :=
    fun _ member => (List.not_mem_nil member).elim
  apply run.invariant_of initial (fun earlier => sound_of_run earlier)
  intro world act next calm sound _ known taken
  -- A restart kills the tasks where they stand, which keeps what is known of them.
  cases step_stepped taken with
  | @call call fresh =>
    intro task member id key result releases
    rcases List.mem_append.mp member with before | new
    · exact known task before id key result releases
    · obtain rfl := List.mem_singleton.mp new
      exact absurd releases (call.entry_ne_releaseKey id key result)
  | step found alive moved =>
    intro other member id key result releases
    rcases List.mem_or_eq_of_mem_set member with before | rfl
    · exact known other before id key result releases
    · exact moved.purges calm (sound.serves _ (List.mem_of_getElem? found)) releases
  | drop found alive dropped => exact absurd calm id
  | tick => exact known
  | setWallClock => exact known
  | reopen iterates =>
    intro task member id key result releases
    obtain ⟨before, was, rfl⟩ := List.mem_map.mp member
    rw [Task.kill_pc] at releases
    rw [Task.kill_call]
    exact known before was id key result releases

/-- A process that nothing has failed in has at most one copy of each message. -/
theorem copiesOf_le_one {world : World T V} (sound : Sound world) (balanced : Balanced world)
    (unfailed : Unfailed world) (id : MessageId) : world.copiesOf id ≤ 1 := by
  -- What a purge keeps while it releases the key is already counted as purged.
  have keeping : world.inHands Pc.keeping id ≤
      world.inHands Pc.held id + world.stage Call.purged id := by
    rw [World.inHands, World.inHands, World.stage, ← tally_add]
    apply tally_le_tally
    intro task member
    cases here : task.pc with
    | releaseKey other key result =>
      have purge := unfailed task member other key result here
      simp only [Task.inHands, Task.stage, here, purge, Call.purged, Pc.keeping]
      split <;> omega
    | _ => simp only [Task.inHands, here, Pc.keeping, Nat.le_add_right]
  have whole := balanced.conserved id
  have once := sound.born_le_one id
  simp only [World.copiesOf, ConsumerGroup.copies]
  omega

/-- A copy in the group is one of the copies in the process. -/
theorem copied_of_houses {world : World T V} {id : MessageId} (houses : world.shared.group.Houses id) :
    0 < world.copiesOf id :=
  Nat.add_pos_left (houses_iff.mp houses) _

/-- A copy in the hands of a running operation is one of the copies in the process. -/
theorem copied_of_keeping {world : World T V} {id : MessageId} {task : Task T V}
    (member : task ∈ world.tasks) (alive : task.cancelled = false) (keeps : id ∈ task.pc.keeping) :
    0 < world.copiesOf id := by
  -- The task's own share is one of those counted.
  have own := le_tally (Task.inHands Pc.keeping id) member
  have counted : 0 < task.pc.keeping.count id := List.count_pos_iff.mpr keeps
  simp only [Task.inHands, alive, Bool.false_eq_true, if_false] at own
  simp only [World.copiesOf, World.inHands]
  omega

/-- The key that a step releases is the key of a message that goes with the step. -/
theorem Owned.freed {world : World T V} {i : Nat} {task : Task T V} (known : Owned world)
    (sound : Sound world) (releasing : Releasing world) (env : StepEnv)
    (found : world.tasks[i]? = some task) (alive : task.cancelled = false) {key : IdempotencyKey}
    (frees : task.pc.frees world.shared.group = some key) :
    ∃ id ∈ world.goes (.step i env), world.shared.group.state.dedup.lookup key = some id := by
  have member := List.mem_of_getElem? found
  have goes : world.goes (.step i env) = task.pc.goes world.shared.group env.outcome := by
    simp [World.goes, found]
  rw [goes]
  -- Two steps free a key: the end of an acknowledgement and a release.
  cases here : task.pc with
  | releaseAcked id token =>
    simp only [here, Pc.frees] at frees
    obtain ⟨lease, active, keyed⟩ := Option.bind_eq_some_iff.mp frees
    obtain ⟨leased, _⟩ := lookup_of_active active
    refine ⟨id, by simp [Pc.goes, active], ?_⟩
    exact known _ (sound.sourced.leased id lease leased).submitted key keyed
      (copied_of_houses (.inr (.inl ⟨lease, leased⟩)))
  | releaseKey id other result =>
    obtain rfl : other = key := by simpa [here, Pc.frees] using frees
    obtain ⟨message, submitted, rfl, keyed⟩ := releasing task member id other result here
    refine ⟨message.id, by simp [Pc.goes], ?_⟩
    exact known message submitted other keyed
      (copied_of_keeping member alive (by simp [here, Pc.keeping]))
  | _ => simp [here, Pc.frees] at frees

/-- A reservation makes its message the owner of a key under which there was no copy. -/
theorem Owned.reserve {world : World T V} {i : Nat} {env : StepEnv} {task : Task T V}
    {group : ConsumerGroup T V} {next : Pc T V} {message : Message T} {key : IdempotencyKey}
    (known : Owned world) (sound : Sound world) (found : world.tasks[i]? = some task)
    (alive : task.cancelled = false) (reserving : task.pc = .reserve message key)
    (moved : Moved world.shared.now world.shared.wallClock env world.shared.group task.pc group next) :
    Owned ⟨{ world.shared with group := group }, world.tasks.set i { task with pc := next }⟩ := by
  have serves := sound.serves task (List.mem_of_getElem? found)
  rw [reserving] at serves moved
  have mine : message ∈ world.submitted :=
    World.mem_submitted.mpr ⟨task, List.mem_of_getElem? found, serves.1⟩
  intro other submitted used keyed copied
  rw [submitted_set found] at submitted
  cases moved with
  | quiet changed quiet => cases quiet
  | reserveHit taken =>
    -- Nothing but the operation's own place changes.
    rw [copiesOf_deduplicated found alive reserving] at copied
    exact known other submitted used keyed copied
  | reserveFresh absent =>
    rw [copiesOf_reserved found alive reserving, List.count_singleton] at copied
    by_cases own : message.id = other.id
    · obtain rfl := sound.submitted_unique mine submitted own
      obtain rfl : used = key := Option.some.inj (keyed.symm.trans serves.2)
      exact Finmap.lookup_insert _
    · simp only [beq_iff_eq, if_neg own, Nat.add_zero] at copied
      have registered := known other submitted used keyed copied
      -- The key that has just been taken named no message.
      have apart : used ≠ key := by
        rintro rfl
        rw [absent] at registered
        cases registered
      exact (Finmap.lookup_insert_of_ne _ apart).trans registered

/-- One step of an operation leaves every message of which there is a copy the owner of its key. -/
theorem Owned.move {world : World T V} {i : Nat} {env : StepEnv} {task : Task T V}
    {group : ConsumerGroup T V} {next : Pc T V} (known : Owned world) (sound : Sound world)
    (releasing : Releasing world) (single : ∀ id, world.copiesOf id ≤ 1)
    (found : world.tasks[i]? = some task) (alive : task.cancelled = false)
    (unreserved : ∀ message key, task.pc ≠ .reserve message key)
    (moved : Moved world.shared.now world.shared.wallClock env world.shared.group task.pc group next) :
    Owned ⟨{ world.shared with group := group }, world.tasks.set i { task with pc := next }⟩ := by
  intro message submitted key keyed copied
  rw [submitted_set found] at submitted
  have more := (sound.copiesOf_move found alive unreserved moved message.id).mp copied
  have registered := known message submitted key keyed (Nat.lt_of_le_of_lt (Nat.zero_le _) more)
  rw [moved.unfreed unreserved, registered]
  intro frees
  -- The freed key's owner goes with the step, and this message has no copy but the one that goes.
  obtain ⟨id, gone, owner⟩ := known.freed sound releasing env found alive frees
  obtain rfl : message.id = id := Option.some.inj (registered.symm.trans owner)
  have counted := List.count_pos_iff.mpr gone
  have atMost := single message.id
  omega

/-- Within the life of one process every message of which there is a copy owns its key. -/
theorem owned_of_run {visibilityTimeout : Duration} {retryPolicy : RetryPolicy}
    {trace : List (Transition (World T V) (Action T V))} {world : World T V}
    (run : Run World.step Continues (World.start visibilityTimeout retryPolicy) trace world) :
    Owned world := by
  have initial : Owned (World.start visibilityTimeout retryPolicy : World T V) :=
    fun _ member => (List.not_mem_nil member).elim
  -- What holds of every calm run carries the ownership along.
  have base : ∀ {trace : List (Transition (World T V) (Action T V))} {world : World T V},
      Run World.step Continues (World.start visibilityTimeout retryPolicy) trace world →
      Sound world ∧ Releasing world ∧ ∀ id, world.copiesOf id ≤ 1 := by
    intro trace world run
    have calm := run.mono fun _ _ allowed => allowed.1
    exact ⟨sound_of_run run, releasing_of_run run,
      copiesOf_le_one (sound_of_run run) (balanced_of_run calm) (unfailed_of_run calm)⟩
  apply run.invariant_of initial base
  intro world act next ⟨calm, continues⟩ ⟨sound, releasing, single⟩ _ known taken
  cases step_stepped taken with
  | call fresh =>
    intro message member key keyed copied
    obtain ⟨submitted, before⟩ := sound.copied_of_call releasing fresh member keyed copied
    exact known message submitted key keyed before
  | @step i env task group next found alive moved =>
    by_cases reserving : ∃ reserved key, task.pc = .reserve reserved key
    · -- A reservation is the only step that hands a key to a message.
      obtain ⟨reserved, key, reserving⟩ := reserving
      exact known.reserve sound found alive reserving moved
    · exact known.move sound releasing single found alive
        (fun message key reserves => reserving ⟨message, key, reserves⟩) moved
  | drop found alive dropped => exact absurd calm id
  | tick => exact known
  | setWallClock => exact known
  | reopen iterates => exact absurd rfl (continues _)

/-- What an operation keeps is what it carries, without the keys. -/
theorem Pc.carried_ids (pc : Pc T V) : pc.carried.map Prod.fst = pc.keeping := by
  cases pc with
  | releaseKey => rfl
  | _ => simp only [Pc.carried, Pc.keeping, Pc.held, List.map_map, Function.comp_def, Message.keyed]

/-- What the running operations carry, counted by its ids. -/
theorem count_carried (tasks : List (Task T V)) (id : MessageId) :
    (((tasks.filter fun task => !task.cancelled).flatMap fun task => task.pc.carried).map
      Prod.fst).count id = tally (Task.inHands Pc.keeping id) tasks := by
  -- Along the tasks, as the listing is made.
  induction tasks with
  | nil => rfl
  | cons task rest ih =>
    cases cancelled : task.cancelled with
    | true => simp [cancelled, Task.inHands, ← ih]
    | false =>
      rw [List.filter_cons_of_pos (by simp [cancelled]), List.flatMap_cons, List.map_append,
        List.count_append, ih, Pc.carried_ids, tally_cons]
      simp [Task.inHands, cancelled]

/-- The messages in the group and in hands, counted by their ids, are the copies. -/
theorem Sound.carried_ids {world : World T V} (sound : Sound world) (id : MessageId) :
    (world.carried.map Prod.fst).count id = world.copiesOf id := by
  have group : ∀ messages : Multiset (Message T),
      (messages.map Message.keyed).map Prod.fst = messages.map Message.id := by
    intro messages
    rw [Multiset.map_map]
    rfl
  -- Each of the four structures lists a message's id as often as the message is in it.
  have pending : (world.shared.group.state.pendingMessages.map Message.id).count id =
      world.shared.group.state.pendingCount id := by
    simp only [State.pendingMessages, Multiset.map_coe, List.map_map, Multiset.coe_count]
    rfl
  have leased : (world.shared.group.state.leasedMessages.map Message.id).count id =
      world.shared.group.state.leasedCount id := by
    rw [State.leasedMessages, Multiset.map_map]
    exact count_keys _ _
  have delayed : (world.shared.group.state.delayedMessages.map Message.id).count id =
      world.shared.group.state.delayedCount id := by
    simp only [State.delayedMessages, Multiset.map_coe, List.map_map, Multiset.coe_count]
    rfl
  have dead : (world.shared.group.dlq.messages.map Message.id).count id =
      world.shared.group.dlq.entries.count id := by
    rw [sound.sourced.dead_ids]
    exact count_keys _ _
  rw [World.carried, Multiset.map_add, group, Multiset.map_add, Multiset.map_add, Multiset.map_add,
    Multiset.count_add, Multiset.count_add, Multiset.count_add, Multiset.count_add, pending, leased,
    delayed, dead, Multiset.map_coe, Multiset.coe_count, count_carried]
  rfl

/-- Whatever is carried under a key was submitted with it. -/
theorem Sound.submitted_of_carried {world : World T V} (sound : Sound world)
    (releasing : Releasing world) {id : MessageId} {key : IdempotencyKey}
    (carried : (id, some key) ∈ world.carried) :
    ∃ message ∈ world.submitted, message.id = id ∧ message.idempotencyKey = some key := by
  rcases Multiset.mem_add.mp carried with housed | inHands
  · obtain ⟨message, member, same⟩ := Multiset.mem_map.mp housed
    obtain ⟨rfl, keyed⟩ := Prod.mk.inj same
    refine ⟨message, World.Issued.submitted (sound.sourced.messages ?_), rfl, keyed⟩
    simpa [or_assoc] using member
  · obtain ⟨task, running, among⟩ := List.mem_flatMap.mp (Multiset.mem_coe.mp inHands)
    have member := (List.mem_filter.mp running).1
    -- A task that gives a key back no longer holds the message itself.
    by_cases releases : ∃ other taken result, task.pc = .releaseKey other taken result
    · obtain ⟨other, taken, result, here⟩ := releases
      rw [here] at among
      obtain ⟨rfl, rfl⟩ : id = other ∧ key = taken := by simpa [Pc.carried] using among
      exact releasing task member id key result here
    · have held : (id, some key) ∈ task.pc.messages.map Message.keyed := by
        cases here : task.pc with
        | releaseKey other taken result => exact absurd ⟨other, taken, result, here⟩ releases
        | _ => rw [here] at among; exact among
      obtain ⟨message, inHand, same⟩ := List.mem_map.mp held
      obtain ⟨rfl, keyed⟩ := Prod.mk.inj same
      exact ⟨message, (sound.held task member message inHand).submitted, rfl, keyed⟩

/-- In the life of one process at most one message has a key, and the key names it while it exists. -/
theorem one_message_per_key {visibilityTimeout : Duration} {retryPolicy : RetryPolicy}
    {world : World T V}
    (reached : Reachable World.step Continues (World.start visibilityTimeout retryPolicy) world)
    (key : IdempotencyKey) :
    (world.carried.filter fun message => message.2 = some key).card ≤ 1 ∧
      ∀ id, (id, some key) ∈ world.carried →
        world.shared.group.state.dedup.lookup key = some id := by
  obtain ⟨trace, run⟩ := reached
  have calm := run.mono fun _ _ allowed => allowed.1
  have sound := sound_of_run run
  have single := copiesOf_le_one sound (balanced_of_run calm) (unfailed_of_run calm)
  have owner : ∀ id, (id, some key) ∈ world.carried →
      world.shared.group.state.dedup.lookup key = some id := by
    intro id carried
    obtain ⟨message, submitted, rfl, keyed⟩ := sound.submitted_of_carried (releasing_of_run run) carried
    apply owned_of_run run message submitted key keyed
    rw [← sound.carried_ids, Multiset.count_pos]
    exact Multiset.mem_map_of_mem Prod.fst carried
  refine ⟨?_, owner⟩
  -- All that is carried under the key has the id that the key names, and no id is there twice.
  rcases Multiset.empty_or_exists_mem (world.carried.filter fun message => message.2 = some key) with
    none | ⟨⟨id, taken⟩, member⟩
  · simp [none]
  · obtain ⟨carried, rfl⟩ := Multiset.mem_filter.mp member
    have named := owner id carried
    calc (world.carried.filter fun message => message.2 = some key).card
        ≤ (world.carried.filter fun message => id = message.1).card := by
          apply Multiset.card_le_card
          rw [Multiset.le_filter]
          refine ⟨Multiset.filter_le _ _, ?_⟩
          rintro ⟨other, taken⟩ among
          obtain ⟨carried, rfl⟩ := Multiset.mem_filter.mp among
          exact Option.some.inj (named.symm.trans (owner other carried))
      _ = (world.carried.map Prod.fst).count id := (Multiset.count_map _ _ _).symm
      _ ≤ 1 := by
          rw [sound.carried_ids]
          exact single id

/-- A message fails for good, and an enqueue under its key comes while it is on its way to the dead letters. -/
def keyHeldInFlight : List (Action Nat Nat) :=
  Action.run 0 (.enqueue ⟨⟨0⟩, 10, some ⟨"k"⟩⟩) 4 ++ Action.run 1 .claim 3 ++
    Action.run 2 (.nack ⟨0⟩ ⟨0⟩ none) 2 ++ Action.run 3 (.enqueue ⟨⟨1⟩, 11, some ⟨"k"⟩⟩) 1

/-- In no structure of the group, the message is still the only one under its key. -/
theorem one_message_per_key_in_flight : ∃ world : World Nat Nat,
    (⟨⟨0⟩, some ⟨"k"⟩⟩ ∈ world.carried ∧ ¬ world.shared.group.Houses ⟨0⟩) ∧
    (world.carried.filter fun message => message.2 = some ⟨"k"⟩).card ≤ 1 ∧
    ∀ id, (id, some ⟨"k"⟩) ∈ world.carried →
      world.shared.group.state.dedup.lookup ⟨"k"⟩ = some id := by
  -- The message is in the hands of an operation and in none of the structures.
  have reachable : ∃ world : World Nat Nat, Reachable World.step Continues
      (World.start 30 { RetryPolicy.default with maxAttempts := some 1 }) world ∧
      (⟨⟨0⟩, some ⟨"k"⟩⟩ ∈ world.carried ∧ ¬ world.shared.group.Houses ⟨0⟩) :=
    reaches_of_exec keyHeldInFlight _ (by decide +kernel)
  obtain ⟨world, reached, about⟩ := reachable
  exact ⟨world, about, one_message_per_key reached ⟨"k"⟩⟩

end Qaas
