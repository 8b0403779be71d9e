import Qaas.Group.Balance

/-! No message is lost or duplicated while nothing fails, in memory or in the two logs. -/

namespace Qaas

open Concurrency

variable {T V : Type}

/-- The messages waiting to be claimed. -/
def State.pendingMessages (state : State T V) : Multiset (Message T) :=
  state.pending.map Pending.message

/-- The messages out on a lease. -/
def State.leasedMessages (state : State T V) : Multiset (Message T) :=
  state.leased.entries.map fun entry => entry.2.message entry.1

/-- The messages waiting out a backoff. -/
def State.delayedMessages (state : State T V) : Multiset (Message T) :=
  state.delayed.map Delayed.message

/-- The messages in the dead-letter queue. -/
def DeadLetterQueue.messages (dlq : DeadLetterQueue T V) : Multiset (Message T) :=
  dlq.entries.entries.map fun entry => entry.2.message

/-- Where a message can be. -/
inductive Place
  | pending
  | leased
  | delayed
  | deadLettered
  | acked
  | purged
  deriving DecidableEq, Repr

/-- How many calls have returned that took a message out for good. -/
def World.returned (world : World T V) (part : Call T V → Pc T V → List MessageId)
    (id : MessageId) : Nat :=
  tally (fun task => if task.pc.finished then task.stage part id else 0) world.tasks

/-- How many copies of a message are in a place. -/
def World.copies [DecidableEq T] (world : World T V) (message : Message T) : Place → Nat
  | .pending => world.shared.group.state.pendingMessages.count message
  | .leased => world.shared.group.state.leasedMessages.count message
  | .delayed => world.shared.group.state.delayedMessages.count message
  | .deadLettered => world.shared.group.dlq.messages.count message
  | .acked => world.returned Call.acked message.id
  | .purged => world.returned Call.purged message.id

/-- An enqueue of the message has returned `Ok` with the id it generated. -/
def World.Enqueued (world : World T V) (message : Message T) : Prop :=
  ∃ task ∈ world.tasks, task.call = .enqueue message ∧ task.pc = .done (.message message.id)

/-- Where one id stands for one message, counting messages is counting ids. -/
theorem count_by_id [DecidableEq T] {messages : Multiset (Message T)} {message : Message T}
    (unique : ∀ other ∈ messages, other.id = message.id → other = message) :
    messages.count message = (messages.map Message.id).count message.id := by
  rw [Multiset.count_map, Multiset.count, Multiset.countP_eq_card_filter]
  congr 1
  -- Issued messages with one id are one message.
  apply Multiset.filter_congr
  intro other member
  exact ⟨fun same => by rw [same], fun same => (unique other member same.symm).symm⟩

/-- Every message in a group's four structures is an issued one. -/
theorem Sourced.messages {issued : Message T → Prop} {group : ConsumerGroup T V}
    (sourced : Sourced issued group) {message : Message T}
    (member : message ∈ group.state.pendingMessages ∨ message ∈ group.state.leasedMessages ∨
      message ∈ group.state.delayedMessages ∨ message ∈ group.dlq.messages) : issued message := by
  -- The four structures, one by one.
  rcases member with pending | leased | delayed | dead
  · obtain ⟨entry, listed, rfl⟩ := List.mem_map.mp (Multiset.mem_coe.mp pending)
    exact sourced.pending entry listed
  · obtain ⟨⟨id, lease⟩, listed, rfl⟩ := Multiset.mem_map.mp leased
    exact sourced.leased id lease (Finmap.lookup_eq_some_iff.mpr listed)
  · obtain ⟨entry, listed, rfl⟩ := List.mem_map.mp (Multiset.mem_coe.mp delayed)
    exact sourced.delayed entry listed
  · obtain ⟨⟨id, deadLetter⟩, listed, rfl⟩ := Multiset.mem_map.mp dead
    exact (sourced.entries id deadLetter (Finmap.lookup_eq_some_iff.mpr listed)).2

/-- The ids of the dead letters are the keys they are stored under. -/
theorem Sourced.dead_ids {issued : Message T → Prop} {group : ConsumerGroup T V}
    (sourced : Sourced issued group) :
    group.dlq.messages.map Message.id = group.dlq.entries.entries.map Sigma.fst := by
  rw [DeadLetterQueue.messages, Multiset.map_map]
  apply Multiset.map_congr rfl
  -- A dead letter is stored under its own id.
  intro ⟨id, deadLetter⟩ listed
  exact (sourced.entries id deadLetter (Finmap.lookup_eq_some_iff.mpr listed)).1

/-- The copies of an issued message in the four structures, counted by its id. -/
theorem Sound.copies_by_id [DecidableEq T] {world : World T V} (sound : Sound world)
    {message : Message T} (issued : world.Issued message) :
    world.copies message .pending = world.shared.group.state.pendingCount message.id ∧
      world.copies message .leased = world.shared.group.state.leasedCount message.id ∧
      world.copies message .delayed = world.shared.group.state.delayedCount message.id ∧
      world.copies message .deadLettered = world.shared.group.dlq.entries.count message.id := by
  -- No other issued message has this id, so counting ids counts the message.
  have unique := fun other (known : world.Issued other) => sound.issued_unique known issued
  have sourced := sound.sourced
  refine ⟨?_, ?_, ?_, ?_⟩
  · rw [World.copies, count_by_id fun other member => unique other (sourced.messages (.inl member))]
    simp only [State.pendingMessages, Multiset.map_coe, List.map_map, Multiset.coe_count]
    rfl
  · rw [World.copies,
      count_by_id fun other member => unique other (sourced.messages (.inr (.inl member)))]
    rw [State.leasedMessages, Multiset.map_map]
    exact count_keys _ _
  · rw [World.copies,
      count_by_id fun other member => unique other (sourced.messages (.inr (.inr (.inl member))))]
    simp only [State.delayedMessages, Multiset.map_coe, List.map_map, Multiset.coe_count]
    rfl
  · rw [World.copies,
      count_by_id fun other member => unique other (sourced.messages (.inr (.inr (.inr member)))),
      sourced.dead_ids]
    exact count_keys _ _

/-- In a calm run only operations that wait for a wakeup are ever cancelled. -/
theorem cancelled_waiting {visibilityTimeout : Duration} {retryPolicy : RetryPolicy}
    {trace : List (Transition (World T V) (Action T V))} {world : World T V}
    (run : Run World.step Calm (World.start visibilityTimeout retryPolicy) trace world) :
    ∀ task ∈ world.tasks, task.cancelled → task.pc.waiting := by
  induction run with
  | nil => simp [World.start]
  | snoc _ calm taken ih =>
    intro task member cancelled
    cases step_stepped taken with
    | call fresh =>
      rcases List.mem_append.mp member with before | new
      · exact ih task before cancelled
      · obtain rfl := List.mem_singleton.mp new
        cases cancelled
    | @step i env moving group next found alive moved =>
      rcases List.mem_or_eq_of_mem_set member with before | rfl
      · exact ih task before cancelled
      · exact absurd cancelled (by simp [alive])
    | drop found alive dropped => exact absurd calm id
    | tick => exact ih task member cancelled
    | setWallClock => exact ih task member cancelled
    | reopen iterates =>
      obtain ⟨before, was, rfl⟩ := List.mem_map.mp member
      rw [Task.kill_pc]
      unfold Task.kill at cancelled
      split at cancelled
      · exact ih before was cancelled
      · rename_i unfinished
        -- The process died between operations, so an unfinished one was cancelled or waiting.
        have quiescent : World.Quiescent _ := calm
        rcases quiescent before was with dropped | finished | waiting
        · exact ih before was dropped
        · exact absurd finished unfinished
        · exact waiting

/-- An operation that waits for a wakeup neither acknowledges nor purges. -/
theorem Pc.waiting_stage {pc : Pc T V} (waiting : pc.waiting) (call : Call T V) :
    call.acked pc = [] ∧ call.purged pc = [] := by
  cases pc with
  | parked | parkedStream => cases call <;> exact ⟨rfl, rfl⟩
  | _ => simp [Pc.waiting] at waiting

/-- With no operation in flight, every message taken out for good was taken by a call that has returned. -/
theorem returned_eq_stage {world : World T V} (quiescent : world.Quiescent)
    (waiting : ∀ task ∈ world.tasks, task.cancelled → task.pc.waiting)
    {part : Call T V → Pc T V → List MessageId}
    (idle : ∀ (call : Call T V) (pc : Pc T V), pc.waiting → part call pc = []) (id : MessageId) :
    world.returned part id = world.stage part id := by
  have same : ∀ task ∈ world.tasks,
      (if task.pc.finished then task.stage part id else 0) = task.stage part id := by
    intro task member
    by_cases finished : task.pc.finished
    · simp [finished]
    · -- Not finished and not in flight, so waiting for a wakeup.
      have waits : task.pc.waiting := by
        rcases quiescent task member with cancelled | done | waits
        · exact waiting task member cancelled
        · exact absurd done finished
        · exact waits
      simp [finished, Task.stage, idle task.call task.pc waits]
  simp only [World.returned, World.stage, tally, List.map_congr_left same]

/-- A message that was enqueued is an issued one, and counts as created. -/
theorem World.Enqueued.born {world : World T V} {message : Message T}
    (enqueued : world.Enqueued message) :
    world.Issued message ∧ 1 ≤ world.stage Call.born message.id := by
  obtain ⟨task, member, called, returned⟩ := enqueued
  refine ⟨⟨task, member, called, by simp [returned]⟩, ?_⟩
  -- The returned call is one of those that count as created.
  have own := le_tally (Task.stage Call.born message.id) member
  have created : task.stage Call.born message.id = 1 := by
    simp [Task.stage, called, returned, Call.born]
  rw [created] at own
  exact own

section

variable [DecidableEq T] {world : World T V}

/-- With no operation in flight, every enqueued message is in exactly one place, and once. -/
theorem Balanced.one_place (balanced : Balanced world) (sound : Sound world) (quiescent : world.Quiescent)
    (waiting : ∀ task ∈ world.tasks, task.cancelled → task.pc.waiting) {message : Message T}
    (enqueued : world.Enqueued message) :
    ∃ place, world.copies message place = 1 ∧ ∀ other, other ≠ place → world.copies message other = 0 := by
  obtain ⟨issued, created⟩ := enqueued.born
  obtain ⟨pending, leased, delayed, dead⟩ := sound.copies_by_id issued
  have acked : world.copies message .acked = world.stage Call.acked message.id :=
    returned_eq_stage quiescent waiting (fun call pc waits => (Pc.waiting_stage waits call).1) _
  have purged : world.copies message .purged = world.stage Call.purged message.id :=
    returned_eq_stage quiescent waiting (fun call pc waits => (Pc.waiting_stage waits call).2) _
  have noHeld := quiescent.inHands fun pc idle => (Pc.idle_parts idle).2.2
  -- The six numbers add up to one, so one of them is one and the others are zero.
  have whole := balanced.conserved message.id
  have once := sound.born_le_one message.id
  rw [noHeld, State.live, ← pending, ← leased, ← delayed, ← dead, ← acked, ← purged] at whole
  have somewhere : ∃ place, 0 < world.copies message place := by
    by_contra nowhere
    have zero : ∀ place, world.copies message place = 0 := fun place =>
      Nat.eq_zero_of_not_pos fun positive => nowhere ⟨place, positive⟩
    simp only [zero] at whole
    omega
  obtain ⟨place, positive⟩ := somewhere
  refine ⟨place, ?_, ?_⟩
  · cases place <;> omega
  · intro other apart
    cases place <;> cases other <;> first | exact absurd rfl apart | omega

/-- With no operation in flight, the log gives back as pending what is in the group. -/
theorem Balanced.reopened_pending (balanced : Balanced world) (sound : Sound world)
    (quiescent : world.Quiescent) (visibilityTimeout : Duration) (retryPolicy : RetryPolicy)
    (order : List MessageId) :
    (ConsumerGroup.opened world.shared.group.wal world.shared.group.dlq.wal visibilityTimeout retryPolicy
      order).state.pendingMessages =
    world.shared.group.state.pendingMessages + world.shared.group.state.leasedMessages +
      world.shared.group.state.delayedMessages := by
  have reopenedSourced := sound.sourced.opened visibilityTimeout retryPolicy order
  have noLogged := quiescent.inHands fun pc idle => (Pc.idle_parts idle).1
  -- Both sides hold issued messages only, and each of these equally often.
  ext message
  by_cases issued : world.Issued message
  · obtain ⟨pending, leased, delayed, _⟩ := sound.copies_by_id issued
    simp only [World.copies] at pending leased delayed
    rw [Multiset.count_add, Multiset.count_add, pending, leased, delayed]
    have main := balanced.main message.id
    rw [noLogged, Nat.add_zero, State.live] at main
    rw [← main, ← opened_live world.shared.group.wal world.shared.group.dlq.wal
      visibilityTimeout retryPolicy order, count_by_id fun other member =>
        sound.issued_unique (reopenedSourced.messages (.inl member)) issued]
    simp only [State.pendingMessages, Multiset.map_coe, List.map_map, Multiset.coe_count]
    rfl
  · have absent : ∀ messages : Multiset (Message T),
        (∀ other ∈ messages, world.Issued other) → messages.count message = 0 := by
      intro messages known
      exact Multiset.count_eq_zero.mpr fun member => issued (known message member)
    rw [Multiset.count_add, Multiset.count_add,
      absent _ fun other member => reopenedSourced.messages (.inl member),
      absent _ fun other member => sound.sourced.messages (.inl member),
      absent _ fun other member => sound.sourced.messages (.inr (.inl member)),
      absent _ fun other member => sound.sourced.messages (.inr (.inr (.inl member)))]

/-- With no operation in flight, the other log gives back the dead letters. -/
theorem Balanced.reopened_dlq (balanced : Balanced world) (sound : Sound world)
    (quiescent : world.Quiescent) (visibilityTimeout : Duration) (retryPolicy : RetryPolicy)
    (order : List MessageId) :
    (ConsumerGroup.opened world.shared.group.wal world.shared.group.dlq.wal visibilityTimeout retryPolicy
      order).dlq.messages = world.shared.group.dlq.messages := by
  have reopenedSourced := sound.sourced.opened visibilityTimeout retryPolicy order
  have noRecorded := quiescent.inHands fun pc idle => (Pc.idle_parts idle).2.1
  ext message
  by_cases issued : world.Issued message
  · obtain ⟨_, _, _, dead⟩ := sound.copies_by_id issued
    simp only [World.copies] at dead
    have dlq := balanced.dlq message.id
    rw [noRecorded, Nat.add_zero] at dlq
    rw [dead, ← dlq, count_by_id fun other member =>
        sound.issued_unique (reopenedSourced.messages (.inr (.inr (.inr member)))) issued,
      reopenedSourced.dead_ids]
    exact count_keys _ _
  · -- Neither side has a message that nobody has enqueued.
    rw [Multiset.count_eq_zero.mpr fun member => issued
        (reopenedSourced.messages (.inr (.inr (.inr member)))),
      Multiset.count_eq_zero.mpr fun member => issued
        (sound.sourced.messages (.inr (.inr (.inr member))))]

end

/--
With no operation in flight, every enqueued message is in exactly one place, and once.

Reopening both logs then gives back the same messages, live and dead-lettered.
-/
theorem conservation [DecidableEq T] {visibilityTimeout : Duration} {retryPolicy : RetryPolicy}
    {world : World T V}
    (reached : Reachable World.step Calm (World.start visibilityTimeout retryPolicy) world)
    (quiescent : world.Quiescent) :
    (∀ message, world.Enqueued message → ∃ place, world.copies message place = 1 ∧
      ∀ other, other ≠ place → world.copies message other = 0) ∧
    ∀ visibilityTimeout retryPolicy order,
      let group := world.shared.group
      let reopened := ConsumerGroup.opened group.wal group.dlq.wal visibilityTimeout retryPolicy order
      reopened.state.pendingMessages = group.state.pendingMessages + group.state.leasedMessages +
          group.state.delayedMessages ∧
        reopened.dlq.messages = group.dlq.messages := by
  obtain ⟨trace, run⟩ := reached
  have sound := sound_of_run run
  have balanced := balanced_of_run run
  refine ⟨fun message enqueued => ?_, fun visibilityTimeout retryPolicy order => ⟨?_, ?_⟩⟩
  · exact balanced.one_place sound quiescent (cancelled_waiting run) enqueued
  · exact balanced.reopened_pending sound quiescent visibilityTimeout retryPolicy order
  · exact balanced.reopened_dlq sound quiescent visibilityTimeout retryPolicy order

/-- One message of each fate: purged, acknowledged, dead-lettered, leased and pending. -/
def everyFate : List (Action Nat Nat) :=
  Action.run 0 (.enqueue ⟨⟨0⟩, 10, some ⟨"k"⟩⟩) 4 ++ Action.run 1 .claim 3 ++
    Action.run 2 (.nack ⟨0⟩ ⟨0⟩ none) 5 ++ Action.run 3 (.purgeDeadLetter ⟨0⟩) 3 ++
    Action.run 4 (.enqueue ⟨⟨1⟩, 11, none⟩) 3 ++ Action.run 5 .claim 3 ++
    Action.run 6 (.ack ⟨1⟩ ⟨1⟩) 2 ++
    Action.run 7 (.enqueue ⟨⟨2⟩, 12, some ⟨"k"⟩⟩) 4 ++ Action.run 8 .claim 3 ++
    Action.run 9 (.nack ⟨2⟩ ⟨2⟩ none) 5 ++
    Action.run 10 (.enqueue ⟨⟨3⟩, 13, none⟩) 3 ++ Action.run 11 .claim 3 ++
    Action.run 12 (.enqueue ⟨⟨4⟩, 14, none⟩) 3

/-- Under a policy that gives up after one delivery, the five messages end where their calls put them. -/
theorem conservation_every_fate : ∃ world : World Nat Nat,
    [world.copies ⟨⟨0⟩, 10, some ⟨"k"⟩⟩ .purged, world.copies ⟨⟨1⟩, 11, none⟩ .acked,
      world.copies ⟨⟨2⟩, 12, some ⟨"k"⟩⟩ .deadLettered, world.copies ⟨⟨3⟩, 13, none⟩ .leased,
      world.copies ⟨⟨4⟩, 14, none⟩ .pending] = [1, 1, 1, 1, 1] ∧
    (∀ message, world.Enqueued message → ∃ place, world.copies message place = 1 ∧
      ∀ other, other ≠ place → world.copies message other = 0) ∧
    ∀ visibilityTimeout retryPolicy order,
      let group := world.shared.group
      let reopened := ConsumerGroup.opened group.wal group.dlq.wal visibilityTimeout retryPolicy order
      reopened.state.pendingMessages = group.state.pendingMessages + group.state.leasedMessages +
          group.state.delayedMessages ∧
        reopened.dlq.messages = group.dlq.messages := by
  -- One message for each place that it can end in.
  have reachable : ∃ world : World Nat Nat, Reachable World.step Calm
      (World.start 30 { RetryPolicy.default with maxAttempts := some 1 }) world ∧
      world.Quiescent ∧
      [world.copies ⟨⟨0⟩, 10, some ⟨"k"⟩⟩ .purged, world.copies ⟨⟨1⟩, 11, none⟩ .acked,
        world.copies ⟨⟨2⟩, 12, some ⟨"k"⟩⟩ .deadLettered, world.copies ⟨⟨3⟩, 13, none⟩ .leased,
        world.copies ⟨⟨4⟩, 14, none⟩ .pending] = [1, 1, 1, 1, 1] :=
    reaches_of_exec everyFate _ (by decide +kernel)
  obtain ⟨world, reached, quiescent, fates⟩ := reachable
  exact ⟨world, fates, conservation reached quiescent⟩

end Qaas
