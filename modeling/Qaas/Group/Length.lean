import Qaas.Group.Conservation

/-! The number of unacknowledged messages, and those that it misses. -/

namespace Qaas

open Concurrency

variable {T V : Type}

/-- The id that an enqueue has returned for the message it was called with. -/
def Task.returned (task : Task T V) : Option MessageId :=
  match task.call, task.pc with
  -- A deduplicated call returns another message's id.
  | .enqueue message, .done (.message id) => if id = message.id then some id else none
  | _, _ => none

/-- The ids that enqueues have returned. -/
def World.returnedIds (world : World T V) : List MessageId :=
  world.tasks.filterMap Task.returned

/-- A message is neither acknowledged or purged, nor about to be, nor recorded in the dead-letter queue. -/
def World.Lives (world : World T V) (id : MessageId) : Prop :=
  world.stage Call.acked id = 0 ∧ world.stage Call.purged id = 0 ∧
    dlqReplayCount world.shared.group.dlq.wal.records id = 0

instance (world : World T V) (id : MessageId) : Decidable (world.Lives id) :=
  inferInstanceAs (Decidable (_ ∧ _))

/-- How many messages live whose enqueue has returned. -/
def World.liveCount (world : World T V) : Nat :=
  (world.returnedIds.filter fun id => world.Lives id).length

/-- The messages that an operation has taken out of the group and has not put back, nor recorded as dead. -/
def Pc.between : Pc T V → List MessageId
  | .resolve failed caller => failed.id :: caller.ids
  | .insertDeadLetter _ caller | .appendDeadLettered _ caller => caller.ids
  | .appendEnqueue message .reprocess | .pushPending message .reprocess => [message.id]
  | _ => []

/-- The message that an enqueue is about to put into the group. -/
def Pc.making : Pc T V → List MessageId
  | .appendEnqueue message .producer | .pushPending message .producer => [message.id]
  | _ => []

/-- The messages that running operations have taken out and not put back. -/
def World.between (world : World T V) : List MessageId :=
  world.tasks.flatMap fun task => if task.cancelled then [] else task.pc.between

/-- The messages that are pending, leased or delayed. -/
def State.ids (state : State T V) : Multiset MessageId :=
  state.pending.map Pending.id + state.leased.keys.val + state.delayed.map Delayed.id

/-- How many messages that are taken out and not put back have had their enqueue return. -/
def World.hidden (world : World T V) : Nat :=
  (world.between.filter (· ∈ world.returnedIds)).length

/-- How many messages are in the group whose enqueue has not returned yet. -/
def World.early (world : World T V) : Nat :=
  (world.shared.group.state.ids.filter (· ∉ world.returnedIds)).card

/-- The length counts every message that lives, so that a group with one does not look empty. -/
structure World.LengthShows (world : World T V) : Prop where
  covers : world.liveCount ≤ world.shared.group.len
  empty : world.shared.group.isEmpty = true → world.liveCount = 0

/-- A message that an operation holds is between two places, recorded as dead or on its way into the group. -/
theorem Pc.held_eq (pc : Pc T V) (id : MessageId) :
    pc.held.count id = pc.between.count id + pc.recorded.count id + pc.making.count id := by
  -- A message on its way into the group is either new, or comes back from the dead letters.
  cases pc with
  | appendEnqueue message caller | pushPending message caller =>
    cases caller <;> simp [held, messages, between, recorded, making]
  | resolve failed caller => simp [held, messages, between, recorded, making, ResolveCaller.ids, FailedDelivery.message]
  | insertDeadLetter deadLetter caller =>
    simp only [held, messages, between, recorded, making, ResolveCaller.ids, List.map_cons, List.count_cons,
      List.count_nil, DeadLetter.message]
    omega
  | appendDeadLettered other caller => simp [held, messages, between, recorded, making, ResolveCaller.ids]
  | appendRemove deadLetter caller => simp [held, messages, between, recorded, making, DeadLetter.message]
  | _ => rfl

/-- Each message is listed as often as it is live. -/
theorem State.count_ids (state : State T V) (id : MessageId) : state.ids.count id = state.live id := by
  have leased : state.leased.keys.val.count id = state.leasedCount id := count_keys state.leased id
  rw [ids, Multiset.count_add, Multiset.count_add, leased, Multiset.coe_count, Multiset.coe_count]
  rfl

/-- The length is the number of messages in the group. -/
theorem ConsumerGroup.len_eq (group : ConsumerGroup T V) : group.len = group.state.ids.card := by
  rw [State.ids, Multiset.card_add, Multiset.card_add, Multiset.coe_card, Multiset.coe_card, List.length_map,
    List.length_map]
  rfl

theorem World.count_between (world : World T V) (id : MessageId) :
    world.between.count id = world.inHands Pc.between id := by
  unfold between inHands tally Task.inHands
  rw [List.count_flatMap]
  congr 2
  funext task
  cases cancelled : task.cancelled <;> simp [cancelled]

/-- An enqueue that has returned its message's id is the one that created the message. -/
theorem Task.of_returned {task : Task T V} {id : MessageId} (returned : task.returned = some id) :
    ∃ message, task.call = .enqueue message ∧ message.id = id ∧ task.pc = .done (.message id) := by
  unfold Task.returned at returned
  split at returned
  · rename_i message other called at_
    obtain ⟨same, shown⟩ := Option.ite_none_right_eq_some.mp returned
    obtain rfl := Option.some.inj shown
    exact ⟨message, called, same.symm, at_⟩
  · cases returned

/-- No id is returned twice for its own message. -/
theorem Sound.returnedIds_nodup {world : World T V} (sound : Sound world) : world.returnedIds.Nodup := by
  -- Every enqueue has generated an id of its own, and returns at most that one.
  refine List.nodup_iff_count_le_one.mpr fun id => ?_
  have generated : world.returnedIds.count id ≤
      tally (share (fun task : Task T V => task.call.newId) id) world.tasks := by
    rw [← Multiset.coe_count, World.returnedIds, count_filterMap]
    refine tally_le_tally fun task _ => ?_
    unfold share
    by_cases returned : task.returned = some id
    · obtain ⟨message, called, same, _⟩ := Task.of_returned returned
      rw [if_pos returned, if_pos (by simp [called, Call.newId, same])]
    · rw [if_neg returned]
      exact Nat.zero_le _
  rw [← count_filterMap, Multiset.coe_count] at generated
  exact generated.trans (List.nodup_iff_count_le_one.mp sound.distinct id)

/-- A message whose enqueue has returned was created, and nobody is about to put it into the group. -/
theorem Sound.of_returned {world : World T V} (sound : Sound world) {id : MessageId}
    (there : id ∈ world.returnedIds) : world.stage Call.born id = 1 ∧ world.inHands Pc.making id = 0 := by
  obtain ⟨task, member, returned⟩ := List.mem_filterMap.mp there
  obtain ⟨message, called, rfl, at_⟩ := Task.of_returned returned
  -- The call that has returned is the one that has created the message.
  constructor
  · have own := le_tally (Task.stage Call.born message.id) member
    have share : task.stage Call.born message.id = 1 := by simp [Task.stage, Call.born, called, at_]
    have most := sound.born_le_one message.id
    unfold World.stage at most ⊢
    omega
  · by_contra positive
    obtain ⟨other, among, makes⟩ := exists_of_inHands (Nat.pos_of_ne_zero positive)
    -- Whoever makes the message was called with it, so it is the call that has returned.
    have maker : other.call.newId = some message.id ∧ other.pc.finished = false := by
      have serves := sound.serves other among
      cases standing : other.pc with
      | appendEnqueue made caller | pushPending made caller =>
        rw [standing] at serves makes
        cases caller with
        | producer =>
          have same : message.id = made.id := List.mem_singleton.mp makes
          have calls : other.call = .enqueue made := serves
          exact ⟨by simp [calls, Call.newId, same], rfl⟩
        | reprocess => cases makes
      | _ => rw [standing] at makes; cases makes
    have own : task.call.newId = some message.id := by simp [called, Call.newId]
    obtain rfl := eq_of_nodup_filterMap sound.distinct among member maker.1 own
    have finished := maker.2
    rw [at_] at finished
    cases finished

/-- A message whose enqueue has returned lives exactly if it is in the group or between two places. -/
theorem Balanced.lives {world : World T V} (balanced : Balanced world) (sound : Sound world) {id : MessageId}
    (there : id ∈ world.returnedIds) : world.shared.group.state.live id + world.inHands Pc.between id =
      if world.Lives id then 1 else 0 := by
  obtain ⟨born, notMade⟩ := sound.of_returned there
  have whole := balanced.conserved id
  have dead := balanced.dlq id
  have held : world.inHands Pc.held id =
      world.inHands Pc.between id + world.inHands Pc.recorded id + world.inHands Pc.making id := by
    unfold World.inHands
    rw [← tally_add, ← tally_add]
    congr 1
    funext task
    unfold Task.inHands
    split
    · rfl
    · exact task.pc.held_eq id
  rw [born, held, notMade] at whole
  -- Where a created message can be sums up to one: in the group, in hands, acknowledged, purged or dead.
  by_cases lives : world.Lives id
  · rw [if_pos lives]
    obtain ⟨acked, purged, recorded⟩ := lives
    omega
  · rw [if_neg lives]
    unfold World.Lives at lives
    omega

/-- While nothing fails, the length counts every message that lives exactly if no more of them are between two
places than messages are in the group whose enqueue has yet to return. -/
theorem lengthShows_iff {visibilityTimeout : Duration} {retryPolicy : RetryPolicy}
    {trace : List (Transition (World T V) (Action T V))} {world : World T V}
    (run : Run World.step Calm (World.start visibilityTimeout retryPolicy) trace world) :
    world.LengthShows ↔ world.hidden ≤ world.early := by
  have sound := sound_of_run run
  have balanced := balanced_of_run run
  -- Among the messages whose enqueue has returned, those that live are in the group or between places.
  have living : ((world.returnedIds.filter fun id => world.Lives id : List MessageId) : Multiset MessageId) =
      (world.shared.group.state.ids + world.between).filter (· ∈ world.returnedIds) := by
    ext id
    rw [Multiset.coe_count, Multiset.count_filter, Multiset.count_add, State.count_ids, Multiset.coe_count,
      world.count_between]
    -- A message whose enqueue has returned is counted once, if it lives.
    by_cases there : id ∈ world.returnedIds
    · have once := List.count_eq_one_of_mem sound.returnedIds_nodup there
      rw [if_pos there, balanced.lives sound there]
      by_cases lives : world.Lives id
      · rw [if_pos lives, List.count_filter (by simpa using lives), once]
      · rw [if_neg lives, List.count_eq_zero]
        exact fun member => lives (of_decide_eq_true (List.mem_filter.mp member).2)
    · rw [if_neg there, List.count_eq_zero]
      exact fun member => there (List.mem_filter.mp member).1
  have count := congrArg Multiset.card living
  rw [Multiset.filter_add, Multiset.card_add] at count
  -- The group has these messages, and those whose enqueue has yet to return.
  have group := congrArg Multiset.card (Multiset.filter_add_not (· ∈ world.returnedIds) world.shared.group.state.ids)
  rw [Multiset.card_add, ← ConsumerGroup.len_eq] at group
  have shown : world.liveCount = ((world.shared.group.state.ids).filter (· ∈ world.returnedIds)).card + world.hidden :=
    count
  have early : world.early = ((world.shared.group.state.ids).filter (¬ · ∈ world.returnedIds)).card := rfl
  constructor
  · intro ⟨covers, _⟩
    omega
  · intro fewer
    have covers : world.liveCount ≤ world.shared.group.len := by omega
    refine ⟨covers, fun empty => ?_⟩
    have nothing : world.shared.group.len = 0 := of_decide_eq_true empty
    omega

/-- A message is claimed and fails, up to where its lease has been released. -/
def halfNacked : List (Action Nat Nat) :=
  Action.run 0 (.enqueue ⟨⟨0⟩, 10, none⟩) 3 ++ Action.run 1 .claim 3 ++ Action.run 2 (.nack ⟨0⟩ ⟨0⟩ none) 1

/-- Between its lease and its backoff a message that will be retried is not counted, and the group looks empty. -/
theorem lengthHides_halfNacked :
    ¬ ∀ (visibilityTimeout : Duration) (retryPolicy : RetryPolicy)
      (trace : List (Transition (World Nat Nat) (Action Nat Nat))) (world : World Nat Nat),
      Run World.step (fun _ _ => True) (World.start visibilityTimeout retryPolicy) trace world →
      world.LengthShows := by
  intro always
  have recorded : ∃ ran ∈ record World.step (World.start 30 .default) halfNacked,
      ran.2.liveCount = 1 ∧ ran.2.shared.group.isEmpty = true := by
    decide +kernel
  obtain ⟨⟨trace, world⟩, ran, lives, empty⟩ := recorded
  have shows := always 30 .default trace world (run_of_record .nil ran)
  rw [shows.empty empty] at lives
  cases lives

theorem lengthShows_iff_nacked :
    ∃ ran ∈ record World.step (World.start 30 .default) (halfNacked ++ [.step 2 {}]),
      ran.2.liveCount = 1 ∧ ran.2.LengthShows := by
  have recorded : ∃ ran ∈ record World.step (World.start 30 .default) (halfNacked ++ [.step 2 {}]),
      (∀ e ∈ ran.1, Calm e.pre e.act) ∧ ran.2.liveCount = 1 ∧ ran.2.hidden ≤ ran.2.early := by
    decide +kernel
  obtain ⟨⟨trace, world⟩, ran, calm, lives, fewer⟩ := recorded
  have run := ((run_of_record .nil ran).strengthen calm).mono fun _ _ both => both.2
  exact ⟨(trace, world), ran, lives, (lengthShows_iff run).mpr fewer⟩

end Qaas
