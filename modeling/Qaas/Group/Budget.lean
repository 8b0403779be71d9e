import Qaas.Group.Redelivery

/-! How many deliveries of a message are attempted, and where each of them goes when it fails. -/

namespace Qaas

open Concurrency

variable {T V : Type}

/-- How often deliveries of each message have failed since it was last pushed, one more step on. -/
def recount (failures : MessageId → Nat) (e : Transition (World T V) (Action T V)) (id : MessageId) : Nat :=
  if id ∈ Transition.pushed e then 0
  else failures id + if (Transition.failure e id).isSome then 1 else 0

/-- How many deliveries of a message have failed since it was last enqueued or reprocessed. -/
def failuresSincePush (trace : List (Transition (World T V) (Action T V))) : MessageId → Nat :=
  trace.foldl recount fun _ => 0

/-- A running operation has still to put a failed delivery where it belongs. -/
def World.Settling (world : World T V) (failed : FailedDelivery T V) : Prop :=
  ∃ task ∈ world.tasks, task.cancelled = false ∧ (failed ∈ task.pc.failing ∨
    ∃ deadLetteredAt caller, task.pc = .insertDeadLetter (failed.deadLetter deadLetteredAt) caller)

/-- A step puts a failed delivery among the dead letters if its attempts are used up, else among the retries. -/
def Transition.Settles (maxAttempts : UInt32) (e : Transition (World T V) (Action T V))
    (failed : FailedDelivery T V) : Prop :=
  if maxAttempts ≤ failed.deliveryCount then
    ∃ deadLetteredAt, e.post.shared.group.dlq.entries =
      e.pre.shared.group.dlq.entries.insert failed.id (failed.deadLetter deadLetteredAt)
  else
    ∃ availableAt, e.post.shared.group.state.delayed =
      e.pre.shared.group.state.delayed ++ [failed.delayed availableAt]

/-- Every claim counts one delivery more than have failed, within the budget and without wrapping around. -/
def ClaimsCounted (maxAttempts : UInt32) (trace : List (Transition (World T V) (Action T V))) : Prop :=
  ∀ n e claim, (trace)[n]? = some e → Transition.granted e = some claim →
    claim.deliveryCount.toNat = failuresSincePush (trace.take n) claim.id + 1 ∧
    claim.deliveryCount.toNat ≤ max maxAttempts.toNat 1 ∧
    -- The front entry's count is what the claim increments.
    ∃ entry ∈ (e.pre.shared.group.state.promoteReadyDelayed e.pre.shared.now).pending.head?,
      claim.deliveryCount.toNat = entry.deliveryCount.toNat + 1

/-- Every failed delivery, as its lease was, is put where it belongs, unless some operation has still to do so. -/
def FailuresSettled (maxAttempts : UInt32) (trace : List (Transition (World T V) (Action T V)))
    (world : World T V) : Prop :=
  ∀ n e id failed, (trace)[n]? = some e → Transition.failure e id = some failed →
    (∃ lease, e.pre.shared.group.state.leased.lookup id = some lease ∧
      failed = lease.failed id failed.reason) ∧
    (world.Settling failed ∨
      ∃ (r : Nat) (f : Transition (World T V) (Action T V)),
        n < r ∧ (trace)[r]? = some f ∧ Transition.Settles maxAttempts f failed)

/-- The delivery counts in a group, against how often deliveries of each message have failed. -/
structure Counted (maxAttempts : UInt32) (failures : MessageId → Nat) (state : State T V) : Prop where
  pending : ∀ entry ∈ state.pending, entry.deliveryCount.toNat = failures entry.id ∧
    (failures entry.id = 0 ∨ failures entry.id < maxAttempts.toNat)
  delayed : ∀ entry ∈ state.delayed, entry.deliveryCount.toNat = failures entry.id ∧
    failures entry.id < maxAttempts.toNat
  leased : ∀ id lease, state.leased.lookup id = some lease →
    lease.deliveryCount.toNat = failures id + 1 ∧ failures id + 1 ≤ max maxAttempts.toNat 1

/-- The delivery counts of a process, those of deliveries that are still to be resolved included. -/
structure Budgeted (maxAttempts : UInt32) (failures : MessageId → Nat) (world : World T V) : Prop where
  policy : world.shared.group.retryPolicy.maxAttempts = some maxAttempts
  counted : Counted maxAttempts failures world.shared.group.state
  failing : ∀ failed, world.Resolves failed → failed.deliveryCount.toNat = failures failed.id

/-- What is pending after a step waited before, is a retry whose backoff is over, or is pushed by the step. -/
theorem Moved.pending_from {now : Instant} {wallClock : Timestamp} {env : StepEnv}
    {group group' : ConsumerGroup T V} {pc next : Pc T V} {entry : Pending T V}
    (moved : Moved now wallClock env group pc group' next) (waits : entry ∈ group'.state.pending) :
    entry ∈ (group.state.promoteReadyDelayed now).pending ∨ entry.deliveryCount = 0 ∧ entry.id ∈ pc.pushes := by
  -- A claim takes the front entry away, and a push adds one at the back.
  cases moved with
  | claimed front =>
    left
    rw [front]
    exact List.mem_cons_of_mem _ waits
  | promoted => exact .inl waits
  | @pushPending message caller =>
    rcases List.mem_append.mp waits with old | new
    · exact .inl (List.mem_append_left _ old)
    · obtain rfl := List.mem_singleton.mp new
      exact .inr ⟨rfl, List.mem_cons_self⟩
  | _ => exact .inl (List.mem_append_left _ waits)

/-- A lease after a step was there before with the same count, or is the next delivery of the front entry. -/
theorem Moved.leased_from {now : Instant} {wallClock : Timestamp} {env : StepEnv}
    {group group' : ConsumerGroup T V} {pc next : Pc T V} {id : MessageId} {lease : Leased T V}
    (moved : Moved now wallClock env group pc group' next)
    (leased : group'.state.leased.lookup id = some lease) :
    (∃ old, group.state.leased.lookup id = some old ∧ lease.deliveryCount = old.deliveryCount) ∨
      ∃ entry ∈ (group.state.promoteReadyDelayed now).pending, entry.id = id ∧
        lease.deliveryCount = entry.deliveryCount + 1 := by
  cases moved with
  | @claimed entry rest front =>
    rcases lookup_of_insert leased with ⟨rfl, rfl⟩ | ⟨_, before⟩
    · exact .inr ⟨entry, by rw [front]; exact List.mem_cons_self, rfl, rfl⟩
    · exact .inl ⟨lease, before, rfl⟩
  | reclaim reclaims =>
    simp only [ConsumerGroup.withState, lookup_foldl_erase] at leased
    split at leased
    · cases leased
    · exact .inl ⟨lease, leased, rfl⟩
  | acked | nacked => exact .inl ⟨lease, (lookup_of_erase leased).2, rfl⟩
  | @checkpointStored other token state old active
  | @published other token data isFinal old sequence active =>
    -- The lease is stored again with the count it had.
    rcases lookup_of_insert leased with ⟨rfl, rfl⟩ | ⟨_, before⟩
    · exact .inl ⟨old, (lookup_of_active active).1, rfl⟩
    · exact .inl ⟨lease, before, rfl⟩
  | _ => exact .inl ⟨lease, leased, rfl⟩

/-- No step of an operation changes the retry policy. -/
theorem Moved.policy {now : Instant} {wallClock : Timestamp} {env : StepEnv}
    {group group' : ConsumerGroup T V} {pc next : Pc T V}
    (moved : Moved now wallClock env group pc group' next) : group'.retryPolicy = group.retryPolicy := by
  -- The policy is not among the fields that any step sets.
  cases moved <;> rfl

/-- Nor does dropping one. -/
theorem Dropped.policy {now : Instant} {wallClock : Timestamp} {wrote : AppendOutcome}
    {group group' : ConsumerGroup T V} {pc next : Pc T V}
    (dropped : Dropped now wallClock wrote group pc group' next) :
    group'.retryPolicy = group.retryPolicy := by
  cases dropped with
  | stalled stalled => exact stalled.retryPolicy
  | written _ _ _ moved => exact moved.policy

/-- Promoted retries have the counts that they were delayed with. -/
theorem Counted.promoted {maxAttempts : UInt32} {failures : MessageId → Nat} {state : State T V}
    (counted : Counted maxAttempts failures state) (now : Instant) :
    ∀ entry ∈ (state.promoteReadyDelayed now).pending, entry.deliveryCount.toNat = failures entry.id ∧
      (failures entry.id = 0 ∨ failures entry.id < maxAttempts.toNat) := by
  intro entry member
  -- A promoted retry waits behind those that were pending.
  rcases List.mem_append.mp member with old | ready
  · exact counted.pending entry old
  · obtain ⟨retry, delayed, rfl⟩ := List.mem_map.mp ready
    obtain ⟨count, below⟩ := counted.delayed retry (List.mem_of_mem_filter delayed)
    exact ⟨count, .inr below⟩

/-- The count of a message's next delivery is within the budget, and its increment does not wrap around. -/
theorem next_count {maxAttempts count : UInt32} {failures : Nat} (same : count.toNat = failures)
    (below : failures = 0 ∨ failures < maxAttempts.toNat) :
    (count + 1).toNat = failures + 1 ∧ failures + 1 ≤ max maxAttempts.toNat 1 := by
  -- The largest budget is the largest count, and the next delivery stays within it.
  have bound := maxAttempts.toNat_lt
  have wraps : (count + 1).toNat = (failures + 1) % 2 ^ 32 := by
    rw [UInt32.toNat_add, same]
    rfl
  rw [wraps, Nat.mod_eq_of_lt (by omega)]
  omega

/-- A message that is neither pushed in a step nor fails in it keeps its number of failures. -/
theorem recount_kept {failures : MessageId → Nat} {e : Transition (World T V) (Action T V)} {id : MessageId}
    (unpushed : id ∉ Transition.pushed e) (unfailed : Transition.failure e id = none) :
    recount failures e id = failures id := by
  simp [recount, unpushed, unfailed]

/-- A message to be pushed is in the hands of the operation. -/
theorem Pc.held_of_pushes {pc : Pc T V} {id : MessageId} (pushed : id ∈ pc.pushes) : id ∈ pc.held := by
  cases pc with
  | pushPending message caller => exact pushed
  | _ => cases pushed

/-- An operation that resolves failed deliveries pushes nothing. -/
theorem Pc.unpushed_of_failing {pc : Pc T V} {failed : FailedDelivery T V} {id : MessageId}
    (failing : failed ∈ pc.failing) : id ∉ pc.pushes := by
  cases pc with
  | pushPending message caller => cases failing
  | _ => exact nofun

/-- A message that is pushed is in the group after the step. -/
theorem Moved.copies_of_pushed {now : Instant} {wallClock : Timestamp} {env : StepEnv}
    {group group' : ConsumerGroup T V} {pc next : Pc T V} {id : MessageId}
    (moved : Moved now wallClock env group pc group' next) (pushed : id ∈ pc.pushes) :
    0 < group'.copies id := by
  cases pc with
  | pushPending message caller =>
    obtain rfl := List.mem_singleton.mp pushed
    cases moved with
    | quiet changed quiet => cases quiet
    | pushPending =>
      simp only [ConsumerGroup.copies, ConsumerGroup.withState, State.live, State.pendingCount,
        List.map_append, List.count_append, Pending.fresh, List.map_cons, List.map_nil,
        List.count_singleton_self]
      omega
  | _ => cases pushed

/-- A message that waits, in one place, does not fail. -/
theorem Pc.unfailed_of_waiting {group : ConsumerGroup T V} {now : Instant} {id : MessageId} (pc : Pc T V)
    (single : group.copies id ≤ 1) (waits : 0 < group.state.pendingCount id + group.state.delayedCount id) :
    pc.failure group now id = none := by
  -- It would have a lease as well.
  rw [Option.eq_none_iff_forall_ne_some]
  intro failed fails
  obtain ⟨lease, leased, _⟩ := Pc.failure_leased fails
  have out := State.leasedCount_of_leased leased
  simp only [ConsumerGroup.copies, State.live] at single
  omega

/-- A message that is out on a lease is in the group. -/
theorem copies_of_leased {group : ConsumerGroup T V} {id : MessageId} {lease : Leased T V}
    (leased : group.state.leased.lookup id = some lease) : 0 < group.copies id := by
  have out := State.leasedCount_of_leased leased
  simp only [ConsumerGroup.copies, State.live]
  omega

/-- A step that pushes and fails nothing leaves the delivery counts as they are. -/
theorem Budgeted.idle {maxAttempts : UInt32} {failures : MessageId → Nat} {world next : World T V}
    {act : Action T V} (budgeted : Budgeted maxAttempts failures world)
    (taken : world.step act = some next) (unpushed : Transition.pushed ⟨world, act, next⟩ = [])
    (unfailed : ∀ id, Transition.failure ⟨world, act, next⟩ id = none)
    (policy : next.shared.group.retryPolicy = world.shared.group.retryPolicy)
    (same : next.shared.group.state = world.shared.group.state) :
    Budgeted maxAttempts (recount failures ⟨world, act, next⟩) next := by
  -- Without a push or a failure, all the numbers stay.
  have kept : recount failures ⟨world, act, next⟩ = failures := by
    funext id
    exact recount_kept (by rw [unpushed]; exact nofun) (unfailed id)
  rw [kept]
  refine ⟨?_, ?_, ?_⟩
  · rw [policy]
    exact budgeted.policy
  · rw [same]
    exact budgeted.counted
  · intro failed resolves
    rcases resolves_of_step taken resolves with old | new
    · exact budgeted.failing failed old
    · rw [unfailed failed.id] at new
      cases new

/-- A step of an operation keeps the counts in the group in line with the failures. -/
theorem Counted.move {maxAttempts : UInt32} {failures failures' : MessageId → Nat} {now : Instant}
    {wallClock : Timestamp} {env : StepEnv} {group group' : ConsumerGroup T V} {pc next : Pc T V}
    (counted : Counted maxAttempts failures group.state)
    (policy : group.retryPolicy.maxAttempts = some maxAttempts)
    (moved : Moved now wallClock env group pc group' next) (alone : ∀ id, group.copies id ≤ 1)
    (pushed : ∀ id ∈ pc.pushes, failures' id = 0)
    (kept : ∀ id, 0 < group.copies id → pc.failure group now id = none → failures' id = failures id)
    (ended : ∀ id, (pc.failure group now id).isSome → group'.state.leased.lookup id = none)
    (resolved : ∀ failed ∈ pc.failing, failed.deliveryCount.toNat = failures' failed.id) :
    Counted maxAttempts failures' group'.state := by
  -- A message that waits neither fails in the step nor is pushed by it.
  have waiting : ∀ id, 0 < group.state.pendingCount id + group.state.delayedCount id →
      failures' id = failures id := by
    intro id waits
    apply kept id
    · simp only [ConsumerGroup.copies, State.live]
      omega
    · exact pc.unfailed_of_waiting (alone id) waits
  have queued : ∀ entry ∈ (group.state.promoteReadyDelayed now).pending,
      failures' entry.id = failures entry.id := by
    intro entry member
    apply waiting
    rw [← group.state.promoted_count now]
    exact Nat.add_pos_left (List.count_pos_iff.mpr (List.mem_map_of_mem member)) _
  refine ⟨?_, ?_, ?_⟩
  · intro entry member
    rcases moved.pending_from member with old | ⟨first, new⟩
    · rw [queued entry old]
      exact counted.promoted now entry old
    · rw [pushed entry.id new, first]
      exact ⟨rfl, .inl rfl⟩
  · intro entry member
    rcases moved.delayed_from member with old | ⟨failed, caller, availableAt, standing, attemptsLeft, rfl⟩
    · rw [waiting entry.id (Nat.add_pos_right _ (List.count_pos_iff.mpr (List.mem_map_of_mem old)))]
      exact counted.delayed entry old
    · -- Only a delivery with attempts left is retried.
      have count := resolved failed (by rw [standing]; exact List.mem_cons_self)
      have below : failed.deliveryCount < maxAttempts := by
        simpa [RetryPolicy.isExhausted, policy] using attemptsLeft
      exact ⟨count, count ▸ below⟩
  · intro id lease leased
    rcases moved.leased_from leased with ⟨old, before, same⟩ | ⟨entry, waits, rfl, count⟩
    · -- The lease has not ended, so that no delivery of the message has failed.
      have unfailed : pc.failure group now id = none := by
        rw [← Option.not_isSome_iff_eq_none]
        intro fails
        rw [ended id fails] at leased
        cases leased
      rw [kept id (copies_of_leased before) unfailed, same]
      exact counted.leased id old before
    · obtain ⟨same, below⟩ := counted.promoted now entry waits
      rw [queued entry waits, count]
      exact next_count same below

/-- A step of an operation keeps the delivery counts in line with the failures. -/
theorem Budgeted.move {maxAttempts : UInt32} {failures : MessageId → Nat} {world next : World T V}
    {i : Nat} {env : StepEnv} (budgeted : Budgeted maxAttempts failures world)
    (taken : world.step (.step i env) = some next) (single : ∀ id, world.present id ≤ 1)
    (single' : ∀ id, next.present id ≤ 1) :
    Budgeted maxAttempts (recount failures ⟨world, .step i env, next⟩) next := by
  obtain ⟨task, group, after, found, alive, move, shape⟩ := step_move taken
  have moved := move_moved move
  have member := List.mem_of_getElem? found
  have inGroup : next.shared.group = group := by rw [shape]
  have pushes : Transition.pushed ⟨world, .step i env, next⟩ = task.pc.pushes := by
    simp only [Transition.pushed, found, Option.elim_some]
  have fails : ∀ id, Transition.failure ⟨world, .step i env, next⟩ id =
      task.pc.failure world.shared.group world.shared.now id := by
    intro id
    simp only [Transition.failure, found, Option.bind_some]
  -- What is in the group is not in the hands of the operation.
  have unpushed : ∀ id, 0 < world.shared.group.copies id → id ∉ task.pc.pushes := by
    intro id housed pushed
    have outside := World.present_of_held member alive (Pc.held_of_pushes pushed)
    have whole := single id
    omega
  have resolved : ∀ failed, world.Resolves failed → next.Resolves failed ∨ failed ∈ task.pc.failing →
      failed.deliveryCount.toNat = recount failures ⟨world, .step i env, next⟩ failed.id := by
    intro failed before after
    rw [budgeted.failing failed before, recount_kept]
    · rw [pushes]
      intro pushed
      rcases after with still | own
      · -- The message would be in the group after the step, and in somebody's hands.
        have housed := moved.copies_of_pushed pushed
        rw [← inGroup] at housed
        have outside := still.present
        have whole := single' failed.id
        omega
      · exact Pc.unpushed_of_failing own pushed
    · rw [fails, Option.eq_none_iff_forall_ne_some]
      intro other new
      obtain ⟨lease, leased, _⟩ := Pc.failure_leased new
      have housed := copies_of_leased leased
      have outside := before.present
      have whole := single failed.id
      omega
  refine ⟨?_, ?_, ?_⟩
  · rw [inGroup, moved.policy]
    exact budgeted.policy
  · rw [inGroup]
    refine budgeted.counted.move budgeted.policy moved
      (fun id => (Nat.le_add_right _ _).trans (single id)) ?_ ?_ ?_ ?_
    · intro id pushed
      simp [recount, pushes, pushed]
    · intro id housed unfailed
      exact recount_kept (by rw [pushes]; exact unpushed id housed) (by rw [fails]; exact unfailed)
    · exact fun id fails => move_ended move fails
    · intro failed holds
      exact resolved failed ⟨task, member, alive, holds⟩ (.inr holds)
  · intro failed resolves
    rcases resolves_of_step taken resolves with old | new
    · exact resolved failed old (.inl resolves)
    · -- The delivery fails in this step, on a lease with one count more than failures before.
      rw [fails] at new
      obtain ⟨lease, leased, same⟩ := Pc.failure_leased new
      have recounted : recount failures ⟨world, .step i env, next⟩ failed.id = failures failed.id + 1 := by
        simp [recount, pushes, fails, new, unpushed _ (copies_of_leased leased)]
      rw [recounted, same]
      exact (budgeted.counted.leased failed.id lease leased).1

/-- A step of one process keeps the delivery counts in line with the failures. -/
theorem Budgeted.step {maxAttempts : UInt32} {failures : MessageId → Nat} {world next : World T V}
    {act : Action T V} (budgeted : Budgeted maxAttempts failures world) (within : InProcess world act)
    (taken : world.step act = some next) (single : ∀ id, world.present id ≤ 1)
    (single' : ∀ id, next.present id ≤ 1) :
    Budgeted maxAttempts (recount failures ⟨world, act, next⟩) next := by
  cases act with
  | call call =>
    apply budgeted.idle taken rfl (fun _ => rfl) <;> cases step_stepped taken <;> rfl
  | tick elapsed => apply budgeted.idle taken rfl (fun _ => rfl) <;> cases taken <;> rfl
  | setWallClock wallClock => apply budgeted.idle taken rfl (fun _ => rfl) <;> cases taken <;> rfl
  | reopen order => exact absurd rfl (within order)
  | drop i wrote =>
    -- A dropped operation leaves the messages in memory as they are.
    cases step_stepped taken with
    | drop found alive dropped =>
      exact budgeted.idle taken rfl (fun _ => rfl) dropped.policy dropped.memory.1
  | step i env => exact budgeted.move taken single single'

/-- All through the life of a process the delivery counts are in line with the failures. -/
theorem budgeted_of_run {visibilityTimeout : Duration} {retryPolicy : RetryPolicy} {maxAttempts : UInt32}
    {trace : List (Transition (World T V) (Action T V))} {world : World T V}
    (limited : retryPolicy.maxAttempts = some maxAttempts)
    (run : Run World.step InProcess (World.start visibilityTimeout retryPolicy) trace world) :
    Budgeted maxAttempts (failuresSincePush trace) world := by
  induction run with
  | nil => exact ⟨limited, ⟨nofun, nofun, nofun⟩, fun failed ⟨task, member, _⟩ => nomatch member⟩
  | @snoc trace world next act before within taken ih =>
    rw [failuresSincePush, List.foldl_append]
    exact ih.step within taken (present_le_one before) (present_le_one (before.snoc within taken))

/-- Every dead letter has used its attempts up, and so has one that is about to be stored. -/
structure Capped (maxAttempts : UInt32) (world : World T V) : Prop where
  policy : world.shared.group.retryPolicy.maxAttempts = some maxAttempts
  entries : ∀ id deadLetter, world.shared.group.dlq.entries.lookup id = some deadLetter →
    maxAttempts ≤ deadLetter.deliveryCount
  storing : ∀ task ∈ world.tasks, task.cancelled = false → ∀ deadLetter caller,
    task.pc = .insertDeadLetter deadLetter caller → maxAttempts ≤ deadLetter.deliveryCount

/-- A dead letter after a step was there before, but for its verdict, or is stored by the step. -/
theorem Moved.entries_from {now : Instant} {wallClock : Timestamp} {env : StepEnv}
    {group group' : ConsumerGroup T V} {pc next : Pc T V} {id : MessageId} {deadLetter : DeadLetter T V}
    (moved : Moved now wallClock env group pc group' next)
    (found : group'.dlq.entries.lookup id = some deadLetter) :
    (∃ old, group.dlq.entries.lookup id = some old ∧ deadLetter.deliveryCount = old.deliveryCount) ∨
      ∃ caller, pc = .insertDeadLetter deadLetter caller := by
  cases moved with
  | @insertDeadLetter new caller =>
    rcases lookup_of_insert found with ⟨rfl, rfl⟩ | ⟨_, before⟩
    · exact .inr ⟨caller, rfl⟩
    · exact .inl ⟨deadLetter, before, rfl⟩
  | verdictStored =>
    obtain ⟨old, triage, before, rfl⟩ := DeadLetters.lookup_of_annotate found
    exact .inl ⟨old, before, rfl⟩
  | taken => exact .inl ⟨deadLetter, (lookup_of_erase found).2, rfl⟩
  | _ => exact .inl ⟨deadLetter, found, rfl⟩

/-- A dead letter is about to be stored after a step only if the step has found the attempts used up. -/
theorem Moved.stores {now : Instant} {wallClock : Timestamp} {env : StepEnv}
    {group group' : ConsumerGroup T V} {pc next : Pc T V} {deadLetter : DeadLetter T V}
    {caller : ResolveCaller T V} (moved : Moved now wallClock env group pc group' next)
    (stores : next = .insertDeadLetter deadLetter caller) :
    group.retryPolicy.isExhausted deadLetter.deliveryCount = true := by
  -- The caller of a resolution never goes on to store the same dead letter.
  have goes : ∀ caller' : ResolveCaller T V, caller'.next ≠ .insertDeadLetter deadLetter caller ∧
      caller'.failed ≠ .insertDeadLetter deadLetter caller := by
    intro caller'
    match caller' with
    | .nack | .reclaim [] | .reclaim (_ :: _) => exact ⟨nofun, nofun⟩
  cases moved with
  | quiet changed quiet => cases quiet <;> cases stores
  | exhaustedWritten exhausted =>
    cases stores
    exact exhausted
  | @enqueueFailed message caller' failed =>
    cases keyed : message.idempotencyKey <;> rw [keyed] at stores <;> cases stores
  | retried | deadLetteredWritten => exact absurd stores (goes _).1
  | exhaustedFailed | deadLetteredFailed => exact absurd stores (goes _).2
  | @removeWritten letter caller' synced =>
    cases caller' with
    | reprocess => cases stores
    | purge =>
      cases keyed : letter.idempotencyKey <;> simp only [TakeCaller.next, keyed] at stores <;> cases stores
  | _ => cases stores

/-- No step of one process stores a dead letter that has attempts left. -/
theorem Capped.step {maxAttempts : UInt32} {world next : World T V} {act : Action T V}
    (capped : Capped maxAttempts world) (within : InProcess world act) (stepped : Stepped world act next) :
    Capped maxAttempts next := by
  -- A new operation stores nothing, and a dropped one does not go on.
  cases stepped with
  | @call call fresh =>
    refine ⟨capped.policy, capped.entries, ?_⟩
    intro task member running deadLetter caller standing
    rcases List.mem_append.mp member with old | new
    · exact capped.storing task old running deadLetter caller standing
    · obtain rfl := List.mem_singleton.mp new
      cases call with
      | enqueue message => cases keyed : message.idempotencyKey <;> simp [Call.entry, keyed] at standing
      | _ => cases standing
  | step found alive moved =>
    refine ⟨moved.policy ▸ capped.policy, ?_, ?_⟩
    · intro id deadLetter stored
      rcases moved.entries_from stored with ⟨old, before, same⟩ | ⟨caller, standing⟩
      · rw [same]
        exact capped.entries id old before
      · exact capped.storing _ (List.mem_of_getElem? found) alive deadLetter caller standing
    · intro task member running deadLetter caller standing
      rcases List.mem_or_eq_of_mem_set member with old | rfl
      · exact capped.storing task old running deadLetter caller standing
      · -- The step has asked the policy.
        have exhausted := moved.stores standing
        simpa [RetryPolicy.isExhausted, capped.policy] using exhausted
  | drop found alive dropped =>
    refine ⟨dropped.policy ▸ capped.policy, ?_, ?_⟩
    · rw [dropped.memory.2.1]
      exact capped.entries
    · intro task member running deadLetter caller standing
      rcases List.mem_or_eq_of_mem_set member with old | rfl
      · exact capped.storing task old running deadLetter caller standing
      · cases running
  | tick => exact ⟨capped.policy, capped.entries, capped.storing⟩
  | setWallClock => exact ⟨capped.policy, capped.entries, capped.storing⟩
  | reopen => exact absurd rfl (within _)

/-- Every dead letter of a process that opened on empty logs has used its attempts up. -/
theorem capped_of_run {visibilityTimeout : Duration} {retryPolicy : RetryPolicy} {maxAttempts : UInt32}
    {trace : List (Transition (World T V) (Action T V))} {world : World T V}
    (limited : retryPolicy.maxAttempts = some maxAttempts)
    (run : Run World.step InProcess (World.start visibilityTimeout retryPolicy) trace world) :
    Capped maxAttempts world := by
  have initial : Capped maxAttempts (World.start visibilityTimeout retryPolicy : World T V) := by
    refine ⟨limited, fun id deadLetter found => ?_, fun task member => nomatch member⟩
    -- An empty log leaves no dead letter.
    have empty : (World.start visibilityTimeout retryPolicy : World T V).shared.group.dlq.entries = ∅ := rfl
    rw [empty, Finmap.lookup_empty] at found
    cases found
  apply run.invariant initial
  intro world act next within capped taken
  exact capped.step within (step_stepped taken)

/-- The caller of a resolution goes on with all the rest of its batch. -/
theorem ResolveCaller.next_failing (caller : ResolveCaller T V) : caller.next.failing = caller.rest := by
  match caller with
  | .nack | .reclaim [] | .reclaim (_ :: _) => rfl

/-- An operation keeps a failed delivery until it puts it where it belongs, if no write fails. -/
theorem Moved.settles {maxAttempts : UInt32} {now : Instant} {wallClock : Timestamp} {env : StepEnv}
    {group group' : ConsumerGroup T V} {pc next : Pc T V} {failed : FailedDelivery T V}
    (moved : Moved now wallClock env group pc group' next) (clean : env.outcome = .ok)
    (policy : group.retryPolicy.maxAttempts = some maxAttempts)
    (capped : ∀ deadLetter caller, pc = .insertDeadLetter deadLetter caller →
      maxAttempts ≤ deadLetter.deliveryCount)
    (holds : failed ∈ pc.failing ∨ ∃ deadLetteredAt caller,
      pc = .insertDeadLetter (failed.deadLetter deadLetteredAt) caller) :
    (failed ∈ next.failing ∨ ∃ deadLetteredAt caller,
        next = .insertDeadLetter (failed.deadLetter deadLetteredAt) caller) ∨
      if maxAttempts ≤ failed.deliveryCount then
        ∃ deadLetteredAt,
          group'.dlq.entries = group.dlq.entries.insert failed.id (failed.deadLetter deadLetteredAt)
      else ∃ availableAt, group'.state.delayed = group.state.delayed ++ [failed.delayed availableAt] := by
  cases pc with
  | resolve first caller =>
    have member : failed ∈ first :: caller.rest := by
      rcases holds with member | ⟨_, _, standing⟩
      · exact member
      · cases standing
    -- The first of the batch is resolved now, and the rest of it later.
    cases moved with
    | quiet changed quiet => cases quiet
    | retried attemptsLeft =>
      rcases List.mem_cons.mp member with rfl | later
      · have below : ¬ maxAttempts ≤ failed.deliveryCount := by
          simpa [RetryPolicy.isExhausted, policy] using attemptsLeft
        rw [if_neg below]
        exact .inr ⟨_, rfl⟩
      · rw [caller.next_failing]
        exact .inl (.inl later)
    | exhaustedWritten exhausted =>
      rcases List.mem_cons.mp member with rfl | later
      · exact .inl (.inr ⟨wallClock, caller, rfl⟩)
      · exact .inl (.inl later)
    | exhaustedFailed exhausted unsynced => exact (AppendOutcome.ok_ne_failed clean unsynced).elim
  -- A dead letter that is inserted has used up its attempts.
  | insertDeadLetter deadLetter caller =>
    cases moved with
    | quiet changed quiet => cases quiet
    | insertDeadLetter =>
      rcases holds with later | ⟨deadLetteredAt, _, standing⟩
      · exact .inl (.inl later)
      · cases standing
        have reached : maxAttempts ≤ failed.deliveryCount := capped _ _ rfl
        rw [if_pos reached]
        exact .inr ⟨deadLetteredAt, rfl⟩
  | appendDeadLettered id caller =>
    have later : failed ∈ caller.rest := by
      rcases holds with member | ⟨_, _, standing⟩
      · exact member
      · cases standing
    cases moved with
    | quiet changed quiet => cases quiet
    | deadLetteredWritten =>
      rw [caller.next_failing]
      exact .inl (.inl later)
    | deadLetteredFailed unsynced => exact (AppendOutcome.ok_ne_failed clean unsynced).elim
  | _ =>
    rcases holds with member | ⟨_, _, standing⟩
    · cases member
    · cases standing

/-- A process without write errors keeps a failed delivery until it puts it where it belongs. -/
theorem settling_of_step {maxAttempts : UInt32} {world next : World T V} {act : Action T V}
    {failed : FailedDelivery T V} (capped : Capped maxAttempts world) (within : InProcess world act)
    (calm : Calm world act) (stepped : Stepped world act next) (settling : world.Settling failed) :
    next.Settling failed ∨ Transition.Settles maxAttempts ⟨world, act, next⟩ failed := by
  obtain ⟨task, member, running, holds⟩ := settling
  -- The operation that holds the delivery puts it where it belongs, or goes on holding it.
  cases stepped with
  | call fresh => exact .inl ⟨task, List.mem_append_left _ member, running, holds⟩
  | @step i env mover group after found alive moved =>
    obtain ⟨j, there⟩ := List.mem_iff_getElem?.mp member
    by_cases mine : i = j
    · subst mine
      obtain rfl := Option.some.inj (found.symm.trans there)
      have bound := (List.getElem?_eq_some_iff.mp found).1
      rcases moved.settles calm capped.policy (capped.storing mover member alive) holds with still | settles
      · exact .inl ⟨_, List.mem_set bound _, alive, still⟩
      · exact .inr settles
    · -- Another operation moves.
      have still : (world.tasks.set i { mover with pc := after })[j]? = some task := by
        rw [List.getElem?_set_ne mine]
        exact there
      exact .inl ⟨task, List.mem_of_getElem? still, running, holds⟩
  | drop => exact absurd calm id
  | tick => exact .inl ⟨task, member, running, holds⟩
  | setWallClock => exact .inl ⟨task, member, running, holds⟩
  | reopen => exact absurd rfl (within _)

/-- In the life of a process every claim is counted within the budget. -/
theorem claimsCounted {visibilityTimeout : Duration} {retryPolicy : RetryPolicy} {maxAttempts : UInt32}
    {trace : List (Transition (World T V) (Action T V))} {world : World T V}
    (limited : retryPolicy.maxAttempts = some maxAttempts)
    (run : Run World.step InProcess (World.start visibilityTimeout retryPolicy) trace world) :
    ClaimsCounted maxAttempts trace := by
  intro n e claim there granted
  obtain ⟨reached, taken⟩ := run.take there
  have budgeted := budgeted_of_run limited reached
  obtain ⟨entry, rest, front, rfl, _⟩ := Stepped.grants (step_stepped taken) granted
  -- The front entry counts the failures so far, and the claim one delivery more.
  have member : entry ∈ (e.pre.shared.group.state.promoteReadyDelayed e.pre.shared.now).pending := by
    rw [front]
    exact List.mem_cons_self
  obtain ⟨same, below⟩ := budgeted.counted.promoted e.pre.shared.now entry member
  obtain ⟨count, bound⟩ := next_count same below
  refine ⟨count, count.trans_le bound, entry, ?_, ?_⟩
  · rw [front]
    rfl
  · rw [same]
    exact count

/-- The operation that ends a lease as failed has the delivery to put where it belongs. -/
theorem settling_of_failure {world next : World T V} {act : Action T V} {id : MessageId}
    {failed : FailedDelivery T V} (taken : world.step act = some next)
    (fails : Transition.failure ⟨world, act, next⟩ id = some failed) : next.Settling failed := by
  -- Only a step of an operation makes a delivery fail.
  cases act with
  | step i env =>
    obtain ⟨task, group, after, found, alive, moved, rfl⟩ := step_move taken
    simp only [Transition.failure, found, Option.bind_some] at fails
    have bound := (List.getElem?_eq_some_iff.mp found).1
    exact ⟨_, List.mem_set bound _, alive, .inl (move_failure moved fails)⟩
  | _ => cases fails

/-- A failed delivery of a process without write errors is kept until it is put where it belongs. -/
theorem settling_of_run {maxAttempts : UInt32} {start world : World T V}
    {trace : List (Transition (World T V) (Action T V))} {failed : FailedDelivery T V}
    (run : Run World.step (fun world act => InProcess world act ∧ Calm world act) start trace world)
    (capped : Capped maxAttempts start) (settling : start.Settling failed) :
    Capped maxAttempts world ∧ (world.Settling failed ∨
      ∃ (k : Nat) (f : Transition (World T V) (Action T V)),
        (trace)[k]? = some f ∧ Transition.Settles maxAttempts f failed) := by
  -- Induction on the run: a delivery is held by an operation until a step settles it.
  induction run with
  | nil => exact ⟨capped, .inl settling⟩
  | @snoc trace world next act _ allowed taken ih =>
    obtain ⟨reached, before⟩ := ih
    have stepped := step_stepped taken
    refine ⟨reached.step allowed.1 stepped, ?_⟩
    rcases before with still | ⟨k, f, there, settles⟩
    · rcases settling_of_step reached allowed.1 allowed.2 stepped still with kept | settles
      · exact .inl kept
      · exact .inr ⟨trace.length, _, List.getElem?_concat_length, settles⟩
    · refine .inr ⟨k, f, ?_, settles⟩
      rw [List.getElem?_append_left (List.getElem?_eq_some_iff.mp there).1]
      exact there

/-- With no operation in flight, every failed delivery has been put where it belongs. -/
theorem World.Quiescent.settled {world : World T V} (quiescent : world.Quiescent)
    (failed : FailedDelivery T V) : ¬ world.Settling failed := by
  rintro ⟨task, member, running, holds⟩
  rcases quiescent task member with cancelled | finished | waiting
  · rw [running] at cancelled
    cases cancelled
  all_goals
    -- An operation that has returned, or is parked, has no delivery to settle.
    rcases holds with holds | ⟨_, _, standing⟩
    · cases standing : task.pc with
      | done | parked | parkedStream => rw [standing] at holds; cases holds
      | _ => simp_all [Pc.finished, Pc.waiting]
    · simp_all [Pc.finished, Pc.waiting]

/--
Each claim counts one delivery more than have failed since the message was enqueued or reprocessed.
The count stays within the budget, so that it never wraps around.

A failed delivery goes to the dead letters if its attempts are used up, and to the retries otherwise.
No dead letter ever has attempts left, and no retry has none.
-/
theorem delivery_budget {visibilityTimeout : Duration} {retryPolicy : RetryPolicy} {maxAttempts : UInt32}
    {trace : List (Transition (World T V) (Action T V))} {world : World T V}
    (limited : retryPolicy.maxAttempts = some maxAttempts)
    (run : Run World.step (fun world act => InProcess world act ∧ Calm world act)
      (World.start visibilityTimeout retryPolicy) trace world) :
    ClaimsCounted maxAttempts trace ∧ FailuresSettled maxAttempts trace world ∧
      ∀ e ∈ trace, (∀ entry ∈ e.post.shared.group.state.delayed, entry.deliveryCount < maxAttempts) ∧
        ∀ id deadLetter, e.post.shared.group.dlq.entries.lookup id = some deadLetter →
          maxAttempts ≤ deadLetter.deliveryCount := by
  have inProcess := run.mono fun _ _ allowed => allowed.1
  refine ⟨claimsCounted limited inProcess, ?_, ?_⟩
  · intro n e id failed there fails
    obtain ⟨reached, taken⟩ := inProcess.take there
    obtain ⟨within, _⟩ := (run.of_mem (List.mem_of_getElem? there)).2.1
    refine ⟨Transition.failure_leased fails, ?_⟩
    -- From the failure on, the operation that ended the lease has the delivery until it has settled it.
    have onward := run.drop there
    have settling := settling_of_failure taken fails
    have capped := capped_of_run limited (reached.snoc within taken)
    rcases (settling_of_run onward capped settling).2 with still | ⟨k, f, later, settles⟩
    · exact .inl still
    · rw [List.getElem?_drop] at later
      exact .inr ⟨n + 1 + k, f, by omega, later, settles⟩
  · intro e member
    obtain ⟨⟨before, reached⟩, within, taken⟩ := inProcess.of_mem member
    have after := reached.snoc within taken
    refine ⟨?_, (capped_of_run limited after).entries⟩
    intro entry waits
    obtain ⟨same, below⟩ := (budgeted_of_run limited after).counted.delayed entry waits
    rw [UInt32.lt_iff_toNat_lt, same]
    exact below

/-- A message is given back twice, for good the second time, since it may only be delivered twice. -/
def givingUp : List (Action Nat Nat) :=
  Action.run 0 (.enqueue ⟨⟨0⟩, 10, none⟩) 3 ++ Action.run 1 .claim 3 ++
    Action.run 2 (.nack ⟨0⟩ ⟨0⟩ none) 3 ++ [.pass 1] ++ Action.run 3 .claim 3 ++
    Action.run 4 (.nack ⟨0⟩ ⟨1⟩ (some "bad")) 5

set_option synthInstance.maxSize 256 in
/-- The second delivery is counted as such, and its failure makes a dead letter with the reason given. -/
theorem delivery_budget_givenUp : ∃ (trace : List (Transition (World Nat Nat) (Action Nat Nat)))
    (claim : Claim Nat Nat) (failed : FailedDelivery Nat Nat)
    (r : Nat) (f : Transition (World Nat Nat) (Action Nat Nat)),
    delivery trace 15 = some claim ∧ claim.id = ⟨0⟩ ∧
      claim.deliveryCount.toNat = failuresSincePush (trace.take 15) ⟨0⟩ + 1 ∧
      failuresSincePush (trace.take 15) ⟨0⟩ = 1 ∧
      ((trace)[18]?.bind fun e => Transition.failure e ⟨0⟩) = some failed ∧ failed.reason = some "bad" ∧
      failed.deliveryCount = 2 ∧ 18 < r ∧ (trace)[r]? = some f ∧ Transition.Settles 2 f failed := by
  -- The schedule runs through, and leaves every operation finished.
  have recorded : ∃ ran ∈ record World.step (World.start 30 ⟨1, 60, 2, 0, some 2⟩) givingUp,
      (∀ e ∈ ran.1, InProcess e.pre e.act ∧ Calm e.pre e.act) ∧ ran.2.Quiescent ∧
      (∃ claim ∈ delivery ran.1 15, claim.id = ⟨0⟩) ∧ failuresSincePush (ran.1.take 15) ⟨0⟩ = 1 ∧
      ∃ failed ∈ (ran.1)[18]?.bind fun e => Transition.failure e ⟨0⟩,
        failed.reason = some "bad" ∧ failed.deliveryCount = 2 := by
    decide +kernel
  obtain ⟨⟨trace, world⟩, ran, calm, quiescent, ⟨claim, delivered, about⟩, before, failed, fails, reason,
    count⟩ := recorded
  have run : Run World.step (fun world act => True ∧ (InProcess world act ∧ Calm world act))
      (World.start 30 ⟨1, 60, 2, 0, some 2⟩) trace world := (run_of_record .nil ran).strengthen calm
  obtain ⟨counted, settled, _⟩ := delivery_budget rfl (run.mono fun _ _ allowed => allowed.2)
  obtain ⟨e, there, granted⟩ := Option.bind_eq_some_iff.mp delivered
  obtain ⟨e', there', fails'⟩ := Option.bind_eq_some_iff.mp fails
  rcases (settled 18 e' ⟨0⟩ failed there' fails').2 with settling | ⟨r, f, after, later, settles⟩
  · exact absurd settling (quiescent.settled failed)
  · have first := (counted 15 e claim there granted).1
    rw [about] at first
    exact ⟨trace, claim, failed, r, f, delivered, about, first, before, fails, reason, count, after, later,
      settles⟩

end Qaas
