import Qaas.Group.Checkpoints
import Qaas.Group.Exclusive

/-! The deliveries that fail, and what the operations that have ended their leases have still to resolve. -/

namespace Qaas

open Concurrency

variable {T V : Type}

/-- The delivery of a message that fails with the next step of an operation: given back, or timed out. -/
def Pc.failure (group : ConsumerGroup T V) (now : Instant) (id : MessageId) :
    Pc T V → Option (FailedDelivery T V)
  | .releaseNacked other token reason =>
    if other = id then (group.state.activeLease id token).map (Leased.failed · id reason) else none
  | .reclaimExpired =>
    ((group.state.leased.lookup id).filter (Leased.expired · now)).map
      (Leased.failed · id (some "visibility timeout expired"))
  | _ => none

/-- The delivery of a message that fails in a step. -/
def Transition.failure (e : Transition (World T V) (Action T V)) (id : MessageId) :
    Option (FailedDelivery T V) :=
  match e.act with
  | .step i _ => e.pre.tasks[i]?.bind fun task => task.pc.failure e.pre.shared.group e.pre.shared.now id
  | _ => none

/-- A running operation has a failed delivery still to resolve. -/
def World.Resolves (world : World T V) (failed : FailedDelivery T V) : Prop :=
  ∃ task ∈ world.tasks, task.cancelled = false ∧ failed ∈ task.pc.failing

/-- A delivery that fails is one of the message asked for. -/
theorem Pc.failure_id {group : ConsumerGroup T V} {now : Instant} {id : MessageId} {pc : Pc T V}
    {failed : FailedDelivery T V} (fails : pc.failure group now id = some failed) : failed.id = id := by
  cases pc with
  | releaseNacked other token reason =>
    simp only [failure] at fails
    split at fails
    · obtain ⟨lease, _, rfl⟩ := Option.map_eq_some_iff.mp fails
      rfl
    · cases fails
  | reclaimExpired =>
    obtain ⟨lease, _, rfl⟩ := Option.map_eq_some_iff.mp fails
    rfl
  | _ => cases fails

/-- A delivery fails on a lease that its message has. -/
theorem Pc.failure_leased {group : ConsumerGroup T V} {now : Instant} {id : MessageId} {pc : Pc T V}
    {failed : FailedDelivery T V} (fails : pc.failure group now id = some failed) :
    ∃ lease, group.state.leased.lookup id = some lease ∧ failed = lease.failed id failed.reason := by
  -- A message is given back under the token of its lease, and times out if its lease is expired.
  cases pc with
  | releaseNacked other token reason =>
    simp only [failure] at fails
    split at fails
    · obtain ⟨lease, active, rfl⟩ := Option.map_eq_some_iff.mp fails
      exact ⟨lease, (lookup_of_active active).1, rfl⟩
    · cases fails
  | reclaimExpired =>
    obtain ⟨lease, expired, rfl⟩ := Option.map_eq_some_iff.mp fails
    exact ⟨lease, (Option.filter_eq_some_iff.mp expired).1, rfl⟩
  | _ => cases fails

/-- A delivery that fails in a step was out on a lease before it. -/
theorem Transition.failure_leased {e : Transition (World T V) (Action T V)} {id : MessageId}
    {failed : FailedDelivery T V} (fails : Transition.failure e id = some failed) :
    ∃ lease, e.pre.shared.group.state.leased.lookup id = some lease ∧
      failed = lease.failed id failed.reason := by
  -- Only an operation's own step ends a lease.
  obtain ⟨pre, act, post⟩ := e
  cases act with
  | step i env =>
    obtain ⟨task, _, fails⟩ := Option.bind_eq_some_iff.mp fails
    exact Pc.failure_leased fails
  | _ => cases fails

/-- A step that ends no lease as failed gives an operation nothing more to resolve. -/
theorem Moved.failing {now : Instant} {wallClock : Timestamp} {env : StepEnv}
    {group group' : ConsumerGroup T V} {pc next : Pc T V}
    (moved : Moved now wallClock env group pc group' next)
    (unnacked : ∀ id token reason, pc ≠ .releaseNacked id token reason) (unclaimed : pc ≠ .reclaimExpired) :
    ∀ failed ∈ next.failing, failed ∈ pc.failing := by
  -- A batch is worked off from its front, and no other step than a reclaim or a nack starts one.
  cases moved with
  | quiet changed quiet => cases quiet <;> exact List.forall_mem_nil _
  | reclaim => exact absurd rfl unclaimed
  | nacked => exact absurd rfl (unnacked _ _ _)
  | @enqueueFailed message caller failed => cases message.idempotencyKey <;> exact List.forall_mem_nil _
  | @retried failed caller attemptsLeft =>
    exact fun other member => List.mem_cons_of_mem _ (caller.failing.1 other member)
  | exhaustedWritten => exact fun _ member => List.mem_cons_of_mem _ member
  | @exhaustedFailed failed caller exhausted unsynced =>
    exact fun other member => List.mem_cons_of_mem _ (caller.failing.2 other member)
  | insertDeadLetter => exact fun _ member => member
  | @deadLetteredWritten id caller synced => exact caller.failing.1
  | @deadLetteredFailed id caller failed => exact caller.failing.2
  | @removeWritten deadLetter caller synced =>
    cases caller with
    | reprocess => exact List.forall_mem_nil _
    | purge => cases carried : deadLetter.idempotencyKey <;> simp [TakeCaller.next, carried, Pc.failing]
  | _ => exact List.forall_mem_nil _

/-- A batch of expired leases holds the deliveries that fail by their timeout. -/
theorem reclaimExpired_failing {group group' : ConsumerGroup T V} {now : Instant}
    {order : List MessageId} {next : Pc T V} {failed : FailedDelivery T V}
    (stepped : group.reclaimExpired now order = some (group', next)) :
    failed ∈ next.failing ↔ (Pc.reclaimExpired : Pc T V).failure group now failed.id = some failed := by
  unfold ConsumerGroup.reclaimExpired at stepped
  split at stepped
  · rename_i iterates
    -- The order lists exactly the messages whose leases have expired.
    have listed : ∀ id, id ∈ order ↔ ∃ lease, group.state.leased.lookup id = some lease ∧
        lease.expired now := by
      intro id
      rw [← mem_expiredIds, ← iterates.2, List.mem_toFinset]
    have batch : failed ∈ (order.filterMap fun id => (group.state.leased.lookup id).map fun lease =>
        lease.failed id (some "visibility timeout expired")) ↔
        (Pc.reclaimExpired : Pc T V).failure group now failed.id = some failed := by
      simp only [List.mem_filterMap, Pc.failure, Option.map_eq_some_iff, Option.filter_eq_some_iff]
      constructor
      · rintro ⟨id, member, lease, found, rfl⟩
        obtain ⟨other, there, expired⟩ := (listed id).mp member
        obtain rfl := Option.some.inj (found.symm.trans there)
        exact ⟨lease, ⟨found, expired⟩, rfl⟩
      · rintro ⟨lease, ⟨found, expired⟩, same⟩
        exact ⟨failed.id, (listed failed.id).mpr ⟨lease, found, expired⟩, lease, found, same⟩
    rw [← batch]
    dsimp only at stepped
    split at stepped
    · rename_i none
      cases stepped
      rw [none]
      rfl
    · rename_i first rest some
      cases stepped
      rw [some]
      rfl
  · cases stepped

/-- A delivery that an operation has to resolve after a step failed in it, or was to be resolved before. -/
theorem move_failing {self : Nat} {now : Instant} {wallClock : Timestamp} {env : StepEnv}
    {group group' : ConsumerGroup T V} {pc next : Pc T V} {failed : FailedDelivery T V}
    (moved : group.move self now wallClock env pc = some (group', next))
    (failing : failed ∈ next.failing) :
    failed ∈ pc.failing ∨ pc.failure group now failed.id = some failed := by
  -- Only giving a message back and reclaiming expired leases make deliveries fail.
  cases standing : pc with
  | releaseNacked id token reason =>
    subst standing
    cases active : group.state.activeLease id token with
    | none =>
      simp only [ConsumerGroup.move, ConsumerGroup.releaseNacked, active] at moved
      cases moved
      cases failing
    | some lease =>
      simp only [ConsumerGroup.move, ConsumerGroup.releaseNacked, active] at moved
      cases moved
      obtain rfl := List.mem_singleton.mp failing
      right
      simp [Pc.failure, Leased.failed, active]
  | reclaimExpired =>
    subst standing
    exact .inr ((reclaimExpired_failing moved).mp failing)
  | _ =>
    rw [← standing]
    exact .inl ((move_moved moved).failing (by simp [standing]) (by simp [standing]) failed failing)

/-- An operation that ends a lease as failed has the delivery to resolve. -/
theorem move_failure {self : Nat} {now : Instant} {wallClock : Timestamp} {env : StepEnv}
    {group group' : ConsumerGroup T V} {pc next : Pc T V} {id : MessageId} {failed : FailedDelivery T V}
    (moved : group.move self now wallClock env pc = some (group', next))
    (fails : pc.failure group now id = some failed) : failed ∈ next.failing := by
  obtain rfl := Pc.failure_id fails
  -- The operation takes the delivery along to its next step.
  cases pc with
  | releaseNacked other token reason =>
    simp only [Pc.failure] at fails
    split at fails
    · rename_i same
      obtain ⟨lease, active, taken⟩ := Option.map_eq_some_iff.mp fails
      rw [← same] at active taken
      simp only [ConsumerGroup.move, ConsumerGroup.releaseNacked, active] at moved
      cases moved
      exact List.mem_singleton.mpr taken.symm
    · cases fails
  | reclaimExpired => exact (reclaimExpired_failing moved).mpr fails
  | _ => cases fails

/-- A lease that ends as failed is gone after the step. -/
theorem move_ended {self : Nat} {now : Instant} {wallClock : Timestamp} {env : StepEnv}
    {group group' : ConsumerGroup T V} {pc next : Pc T V} {id : MessageId}
    (moved : group.move self now wallClock env pc = some (group', next))
    (fails : (pc.failure group now id).isSome) : group'.state.leased.lookup id = none := by
  obtain ⟨failed, fails⟩ := Option.isSome_iff_exists.mp fails
  have holds := move_failure moved fails
  obtain rfl := Pc.failure_id fails
  cases move_moved moved with
  | @nacked other token reason lease active =>
    obtain rfl := List.mem_singleton.mp holds
    exact Finmap.lookup_erase _ _
  | @reclaim order first rest reclaims =>
    -- Every member of the batch is of a message whose lease is taken out.
    have among : failed ∈ first :: rest := holds
    rw [reclaims.taken, List.mem_filterMap] at among
    obtain ⟨id, listed, taken⟩ := among
    obtain ⟨lease, _, rfl⟩ := Option.map_eq_some_iff.mp taken
    simp only [ConsumerGroup.withState, lookup_foldl_erase]
    exact if_pos listed
  | quiet changed quiet => cases quiet <;> cases holds
  | _ => cases fails

/-- What is delayed after a step was delayed before, or is the retry of a delivery the step resolves. -/
theorem Moved.delayed_from {now : Instant} {wallClock : Timestamp} {env : StepEnv}
    {group group' : ConsumerGroup T V} {pc next : Pc T V} {entry : Delayed T V}
    (moved : Moved now wallClock env group pc group' next) (waits : entry ∈ group'.state.delayed) :
    entry ∈ group.state.delayed ∨ ∃ failed caller availableAt, pc = .resolve failed caller ∧
      group.retryPolicy.isExhausted failed.deliveryCount = false ∧ entry = failed.delayed availableAt := by
  -- A claim or a promotion only takes retries out, and a resolution puts one in.
  cases moved with
  | claimed | promoted => exact .inl (List.mem_of_mem_filter waits)
  | retried attemptsLeft =>
    rcases List.mem_append.mp waits with old | new
    · exact .inl old
    · exact .inr ⟨_, _, _, rfl, attemptsLeft, List.mem_singleton.mp new⟩
  | _ => exact .inl waits

/-- An operation starts with nothing to resolve. -/
theorem Call.entry_failing (call : Call T V) : (call.entry : Pc T V).failing = [] := by
  cases call with
  | enqueue message => cases keyed : message.idempotencyKey <;> simp [Call.entry, keyed, Pc.failing]
  | _ => rfl

/-- No killed operation has anything to resolve. -/
theorem Task.kill_failing (task : Task T V) (running : task.kill.cancelled = false) :
    task.kill.pc.failing = [] := by
  unfold Task.kill at running ⊢
  split
  · -- Only an operation that had returned is left as it was.
    rename_i finished
    cases standing : task.pc with
    | done => rfl
    | _ => rw [standing] at finished; cases finished
  · rename_i unfinished
    rw [if_neg unfinished] at running
    cases running

/-- A failed delivery is to be resolved after a step if it failed in the step, or was to be resolved before. -/
theorem resolves_of_step {world next : World T V} {act : Action T V} {failed : FailedDelivery T V}
    (taken : world.step act = some next) (resolves : next.Resolves failed) :
    world.Resolves failed ∨ Transition.failure ⟨world, act, next⟩ failed.id = some failed := by
  obtain ⟨task, member, running, holds⟩ := resolves
  -- Only a step of the operation itself changes what it has to resolve.
  cases act with
  | step i env =>
    obtain ⟨mover, group, after, found, alive, moved, rfl⟩ := step_move taken
    rcases List.mem_or_eq_of_mem_set member with old | rfl
    · exact .inl ⟨task, old, running, holds⟩
    · rcases move_failing moved holds with before | fails
      · exact .inl ⟨mover, List.mem_of_getElem? found, alive, before⟩
      · -- What the operation has to resolve now, it has just taken from the leases.
        right
        simp only [Transition.failure, found, Option.bind_some]
        exact fails
  | call call =>
    cases step_stepped taken with
    | call fresh =>
      rcases List.mem_append.mp member with old | new
      · exact .inl ⟨task, old, running, holds⟩
      · obtain rfl := List.mem_singleton.mp new
        rw [call.entry_failing] at holds
        cases holds
  | drop i wrote =>
    cases step_stepped taken with
    | drop found alive dropped =>
      rcases List.mem_or_eq_of_mem_set member with old | rfl
      · exact .inl ⟨task, old, running, holds⟩
      · cases running
  | tick elapsed =>
    cases taken
    exact .inl ⟨task, member, running, holds⟩
  | setWallClock wallClock =>
    cases taken
    exact .inl ⟨task, member, running, holds⟩
  | reopen order =>
    cases step_stepped taken with
    | reopen iterates =>
      -- Whatever was in progress when the process died is not in progress any more.
      obtain ⟨before, _, rfl⟩ := List.mem_map.mp member
      rw [before.kill_failing running] at holds
      cases holds

/-- What an operation has to resolve is in its hands. -/
theorem Pc.held_of_failing {pc : Pc T V} {failed : FailedDelivery T V}
    (failing : failed ∈ pc.failing) : failed.id ∈ pc.held := by
  -- The rest of a batch is in the caller's hands.
  have rest : ∀ caller : ResolveCaller T V, failed ∈ caller.rest → failed.id ∈ caller.ids := by
    intro caller member
    cases caller with
    | nack => cases member
    | reclaim rest =>
      exact List.mem_map.mpr ⟨failed.message, List.mem_map.mpr ⟨failed, member, rfl⟩, rfl⟩
  cases pc with
  | resolve first caller =>
    rcases List.mem_cons.mp failing with rfl | later
    · exact List.mem_cons_self
    · exact List.mem_cons_of_mem _ (rest caller later)
  | insertDeadLetter deadLetter caller => exact List.mem_cons_of_mem _ (rest caller failing)
  | appendDeadLettered other caller => exact rest caller failing
  | _ => cases failing

/-- A message in a running operation's hands is present outside the group. -/
theorem World.present_of_held {world : World T V} {task : Task T V} {id : MessageId}
    (member : task ∈ world.tasks) (running : task.cancelled = false) (held : id ∈ task.pc.held) :
    world.shared.group.copies id + 1 ≤ world.present id := by
  have own := le_tally (Task.inHands Pc.held id) member
  have one : 0 < (task.pc.held).count id := List.count_pos_iff.mpr held
  simp only [Task.inHands, running, Bool.false_eq_true, if_false] at own
  simp only [World.present, World.inHands]
  omega

/-- A message whose failed delivery is still to be resolved is present outside the group. -/
theorem World.Resolves.present {world : World T V} {failed : FailedDelivery T V}
    (resolves : world.Resolves failed) :
    world.shared.group.copies failed.id + 1 ≤ world.present failed.id := by
  obtain ⟨task, member, running, holds⟩ := resolves
  exact World.present_of_held member running (Pc.held_of_failing holds)

end Qaas
