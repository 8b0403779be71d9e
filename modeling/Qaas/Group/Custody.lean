import Qaas.Group.Ledger

/-! Where each message is over its whole life, while nothing fails and nobody is cancelled. -/

namespace Qaas

open Concurrency

variable {T V : Type}

/-- The message an `ack` has taken out for good. -/
def Call.acked (call : Call T V) (pc : Pc T V) : List MessageId :=
  match call, pc with
  | .ack id _, .appendAck _ => [id]
  | .ack id _, .done (.answered true) => [id]
  | _, _ => []

/-- The message a `purge_dead_letter` has taken out for good. -/
def Call.purged (call : Call T V) (pc : Pc T V) : List MessageId :=
  match call, pc with
  | .purgeDeadLetter id, .releaseKey _ _ _ => [id]
  | .purgeDeadLetter id, .done (.answered true) => [id]
  | _, _ => []

/-- The message an enqueue creates, from the moment its key, if any, is its own. -/
def Call.born (call : Call T V) (pc : Pc T V) : List MessageId :=
  match call, pc with
  | .enqueue message, .appendEnqueue _ _ => [message.id]
  | .enqueue message, .pushPending _ _ => [message.id]
  | .enqueue message, .notifyOne _ => [message.id]
  -- A deduplicated call returns another message's id.
  | .enqueue message, .done (.message id) => if id = message.id then [message.id] else []
  | _, _ => []

/-- A quiet step begins and ends no message's life. -/
theorem Quiet.custody {call : Call T V} {pc next : Pc T V} (quiet : Quiet pc next)
    (serves : pc.serves call) :
    call.acked next = call.acked pc ∧ call.purged next = call.purged pc ∧
      call.born next = call.born pc := by
  -- A quiet step goes on within the same call.
  cases quiet with
  | notifyOne result =>
    rcases serves with ⟨message, rfl, rfl⟩ | ⟨id, rfl, rfl⟩ | ⟨id, token, reason, rfl, rfl⟩ |
      ⟨claim, rfl, rfl⟩
    · simp [Call.acked, Call.purged, Call.born]
    · exact ⟨rfl, rfl, rfl⟩
    · exact ⟨rfl, rfl, rfl⟩
    · exact ⟨rfl, rfl, rfl⟩
  | notifyPublished sequence =>
    obtain ⟨id, token, data, isFinal, rfl⟩ := serves
    exact ⟨rfl, rfl, rfl⟩
  | takeMissing id caller =>
    cases caller <;> obtain rfl := serves <;> exact ⟨rfl, rfl, rfl⟩
  | _ => obtain rfl := serves; exact ⟨rfl, rfl, rfl⟩

/-- The calls that resolve a delivery neither end nor begin a message's life themselves. -/
theorem ResolveCaller.custody {call : Call T V} {id : MessageId} {caller : ResolveCaller T V}
    (serves : caller.serves id call) (pc : Pc T V) :
    call.acked pc = [] ∧ call.purged pc = [] ∧ call.born pc = [] := by
  -- Resolving belongs to a `nack` or a claim, which end and create no message.
  cases caller with
  | nack =>
    obtain ⟨token, reason, rfl⟩ := serves
    exact ⟨rfl, rfl, rfl⟩
  | reclaim rest =>
    obtain rfl := serves
    exact ⟨rfl, rfl, rfl⟩

/-- The caller of a resolution goes on with the messages it still holds. -/
theorem ResolveCaller.next_held (caller : ResolveCaller T V) : caller.next.held = caller.ids := by
  rw [Pc.held, caller.next_messages, ids]

/-- The copies of a message within a call's reach: in the group, in the operation's hands and at the end of life. -/
def ConsumerGroup.places (group : ConsumerGroup T V) (call : Call T V) (pc : Pc T V) (id : MessageId) : Nat :=
  group.state.live id + group.dlq.entries.count id + pc.held.count id + (call.acked pc).count id +
    (call.purged pc).count id

/-- A resolution that is recorded moves its message on, from the lease to a backoff or to the dead letters. -/
theorem Moved.custody_resolving {now : Instant} {wallClock : Timestamp} {env : StepEnv}
    {group group' : ConsumerGroup T V} {call : Call T V} {pc next : Pc T V}
    (moved : Moved now wallClock env group pc group' next) (resolves : pc.resolves = true)
    (clean : env.outcome = .ok) (serves : pc.serves call) (id : MessageId)
    (single : group.state.live id + group.dlq.entries.count id + pc.held.count id ≤ 1) :
    group'.places call next id + (call.born pc).count id =
      group.places call pc id + (call.born next).count id := by
  -- The rest of the batch stays with the caller.
  unfold ConsumerGroup.places
  cases moved with
  | quiet changed quiet => cases quiet <;> cases resolves
  | @retried failed caller attemptsLeft =>
    obtain ⟨acked, purged, born⟩ := ResolveCaller.custody serves (.resolve failed caller)
    obtain ⟨acked', purged', born'⟩ := ResolveCaller.custody serves caller.next
    rw [acked, purged, born, acked', purged', born', caller.next_held]
    have held : (Pc.resolve failed caller).held = failed.id :: caller.ids := rfl
    have delayed := group.state.live_delay
      (failed.delayed (now + group.retryPolicy.delayFor failed.deliveryCount env.draw)) id
    rw [held]
    simp only [ConsumerGroup.withState, FailedDelivery.delayed, List.count_cons, List.count_nil] at delayed ⊢
    omega
  | @exhaustedWritten failed caller exhausted told =>
    obtain ⟨acked, purged, born⟩ := ResolveCaller.custody serves (.resolve failed caller)
    obtain ⟨acked', purged', born'⟩ := ResolveCaller.custody serves
      (.insertDeadLetter (failed.deadLetter wallClock) caller)
    rw [acked, purged, born, acked', purged', born']
    rfl
  | @insertDeadLetter deadLetter caller =>
    obtain ⟨acked, purged, born⟩ := ResolveCaller.custody serves (.insertDeadLetter deadLetter caller)
    obtain ⟨acked', purged', born'⟩ := ResolveCaller.custody serves
      (.appendDeadLettered deadLetter.id caller)
    rw [acked, purged, born, acked', purged', born']
    have inserted := present_insert group.dlq.entries deadLetter.id id deadLetter
    have held : (Pc.insertDeadLetter deadLetter caller).held = deadLetter.id :: caller.ids := rfl
    have held' : (Pc.appendDeadLettered deadLetter.id caller).held = caller.ids := rfl
    rw [held, List.count_cons] at single
    rw [held, held', List.count_cons]
    simp only [ConsumerGroup.withEntries, DeadLetters.count, beq_iff_eq] at single inserted ⊢
    -- The entry cannot have been there, because the message was in the operation's hands.
    by_cases same : deadLetter.id = id
    · rw [if_pos same] at inserted single ⊢
      omega
    · rw [if_neg same] at inserted ⊢
      omega
  | @deadLetteredWritten other caller told =>
    obtain ⟨acked, purged, born⟩ := ResolveCaller.custody serves (.appendDeadLettered other caller)
    obtain ⟨acked', purged', born'⟩ := ResolveCaller.custody serves caller.next
    rw [acked, purged, born, acked', purged', born', caller.next_held]
    rfl
  | exhaustedFailed _ failed | deadLetteredFailed failed => exact (AppendOutcome.ok_ne_failed clean failed).elim
  | _ => cases resolves

/-- A step that changes a lease moves its message on, or leaves it there. -/
theorem Moved.custody_leasing {now : Instant} {wallClock : Timestamp} {env : StepEnv}
    {group group' : ConsumerGroup T V} {call : Call T V} {pc next : Pc T V}
    (moved : Moved now wallClock env group pc group' next) (leases : pc.leases = true) (serves : pc.serves call)
    (id : MessageId) :
    group'.places call next id + (call.born pc).count id =
      group.places call pc id + (call.born next).count id := by
  unfold ConsumerGroup.places
  cases moved with
  | quiet changed quiet =>
    obtain ⟨acked, purged, born⟩ := quiet.custody serves
    rw [acked, purged, born, Pc.held, Pc.held, quiet.messages.1, quiet.messages.2]
  | @acked other token lease active =>
    -- An acknowledged message is at the end of its life.
    obtain rfl := serves
    have taken := State.live_erase active (group.state.dedup.release lease.idempotencyKey) id
    simp only [ConsumerGroup.withState, Call.acked, Call.purged, Call.born, Pc.held, Pc.messages, List.map_nil,
      List.count_nil] at taken ⊢
    omega
  | ackStale stale => obtain rfl := serves; rfl
  | @nacked other token reason lease active =>
    obtain rfl := serves
    have taken := State.live_erase active group.state.dedup id
    have held : (Pc.resolve (lease.failed other reason) .nack).held = [other] := rfl
    rw [held]
    simp only [ConsumerGroup.withState, Call.acked, Call.purged, Call.born, Pc.held, Pc.messages, List.map_nil,
      List.count_nil] at taken ⊢
    omega
  | checkpointStored active | published sequence active =>
    obtain rfl := serves
    simp only [ConsumerGroup.withState, State.live_store active, Call.acked, Call.purged, Call.born, Pc.held,
      Pc.messages]
  | _ => cases leases

/-- A step that takes a dead letter out moves it on, to the pending messages or to the end of its life. -/
theorem Moved.custody_taking {now : Instant} {wallClock : Timestamp} {env : StepEnv}
    {group group' : ConsumerGroup T V} {call : Call T V} {pc next : Pc T V} {issued : Message T → Prop}
    (moved : Moved now wallClock env group pc group' next) (unburies : pc.unburies = true)
    (clean : env.outcome = .ok) (sourced : Sourced issued group) (serves : pc.serves call) (id : MessageId) :
    group'.places call next id + (call.born pc).count id =
      group.places call pc id + (call.born next).count id := by
  unfold ConsumerGroup.places
  cases moved with
  | quiet changed quiet =>
    obtain ⟨acked, purged, born⟩ := quiet.custody serves
    rw [acked, purged, born, Pc.held, Pc.held, quiet.messages.1, quiet.messages.2]
  | @verdictStored other verdict found =>
    obtain rfl := serves
    simp only [ConsumerGroup.withEntries, DeadLetters.count_annotate, Call.acked, Call.purged,
      Call.born, Pc.held, Pc.messages]
  | @taken other caller deadLetter found =>
    -- The entry leaves the queue for the operation's hands, under the id it is stored by.
    obtain ⟨rfl, _⟩ := sourced.entries other deadLetter found
    have erased := DeadLetters.count_erase found id
    have held : (Pc.appendRemove deadLetter caller : Pc T V).held = [deadLetter.id] := rfl
    rw [held]
    cases caller <;> obtain rfl := serves <;>
      simp only [ConsumerGroup.withEntries, Call.acked, Call.purged, Call.born, Pc.held, Pc.messages,
        List.map_nil, List.count_nil] <;>
      omega
  | @removeWritten deadLetter caller told =>
    cases caller with
    | reprocess => obtain rfl := serves; rfl
    | purge =>
      obtain rfl := serves
      -- The dead letter leaves the operation's hands for good, with or without a key to release.
      cases carried : deadLetter.idempotencyKey <;>
        simp only [ConsumerGroup.withDlqWal, TakeCaller.next, carried, Call.acked, Call.purged,
          Call.born, Pc.held, Pc.messages, DeadLetter.message, List.map_cons, List.map_nil,
          List.count_nil] <;>
        omega
  | removeFailed failed => exact (AppendOutcome.ok_ne_failed clean failed).elim
  | _ => cases unburies

/--
Without write errors, a step moves each message from one place to another.

The places are the live queue, the dead-letter queue, the operation's hands, and the two ends of life.
-/
theorem Moved.custody {now : Instant} {wallClock : Timestamp} {env : StepEnv}
    {group group' : ConsumerGroup T V} {call : Call T V} {pc next : Pc T V}
    {issued : Message T → Prop} (moved : Moved now wallClock env group pc group' next)
    (clean : env.outcome = .ok) (sourced : Sourced issued group) (serves : pc.serves call)
    (foreign : ∀ message key existingId, pc = .reserve message key →
      group.state.dedup.lookup key = some existingId → existingId ≠ message.id) (id : MessageId)
    (single : group.state.live id + group.dlq.entries.count id + pc.held.count id ≤ 1) :
    group'.state.live id + group'.dlq.entries.count id + next.held.count id +
        (call.acked next).count id + (call.purged next).count id + (call.born pc).count id =
      group.state.live id + group.dlq.entries.count id + pc.held.count id +
        (call.acked pc).count id + (call.purged pc).count id + (call.born next).count id := by
  have step := moved
  cases moved with
  | quiet changed quiet =>
    obtain ⟨acked, purged, born⟩ := quiet.custody serves
    rw [acked, purged, born, Pc.held, Pc.held, quiet.messages.1, quiet.messages.2]
  | @reserveHit message key existingId found =>
    obtain ⟨rfl, keyed⟩ := serves
    have other := foreign message key existingId rfl found
    simp [Call.acked, Call.purged, Call.born, Pc.held, Pc.messages, other]
  | @reserveFresh message key absent =>
    obtain ⟨rfl, keyed⟩ := serves
    have same : State.live { group.state with dedup := group.state.dedup.insert key message.id } id =
        group.state.live id := rfl
    simp [ConsumerGroup.withState, same, Call.acked, Call.purged, Call.born, Pc.held, Pc.messages]
  | @enqueueWritten message caller told =>
    cases caller <;> obtain rfl := serves <;>
      simp [ConsumerGroup.withWal, Call.acked, Call.purged, Call.born, Pc.held, Pc.messages]
  | @pushPending message caller =>
    -- The message leaves the operation's hands for the live queue.
    have pushed := group.state.live_push (.fresh message.id message.item message.idempotencyKey) id
    simp only [Pending.fresh] at pushed
    cases caller <;> obtain rfl := serves <;>
      simp only [ConsumerGroup.withState, pushed, Call.acked, Call.purged, Call.born, Pc.held, Pc.messages,
        Pending.fresh, List.map_cons, List.map_nil, List.count_nil] <;>
      omega
  | @releaseKey other key result =>
    rcases serves with ⟨message, caller, serves, _, _, rfl⟩ | ⟨rfl, rfl⟩
    · cases caller <;> obtain rfl := serves <;> rfl
    · rfl
  -- What is taken out of the group is in the hands of the operation from then on, and the other way round.
  | @reclaim order failed rest reclaims =>
    obtain rfl := serves
    have taken := reclaims.live id
    have held : (Pc.resolve failed (.reclaim rest)).held = (failed :: rest).map FailedDelivery.id := by
      simp [Pc.held, Pc.messages, ResolveCaller.messages, FailedDelivery.message]
    rw [held]
    simp only [ConsumerGroup.withState, Call.acked, Call.purged, Call.born, Pc.held, Pc.messages, List.map_nil,
      List.count_nil] at taken ⊢
    omega
  | @claimed entry rest front =>
    obtain rfl := serves
    obtain ⟨_, exact⟩ := claimed_live front
      (entry.lease ⟨group.nextLeaseToken⟩ (now + group.visibilityTimeout))
      (group.state.promoteReadyDelayed now).dedup id
    have same := exact (by omega)
    simp only [Call.acked, Call.purged, Call.born, Pc.held, Pc.messages, List.map_nil, List.count_nil]
    omega
  | promoted wakeAt empty =>
    obtain rfl := serves
    simp only [ConsumerGroup.withState, promoted_live, Call.acked, Call.purged, Call.born, Pc.held,
      Pc.messages]
  | retried | exhaustedWritten | exhaustedFailed | insertDeadLetter | deadLetteredWritten | deadLetteredFailed =>
    exact step.custody_resolving rfl clean serves id single
  | acked | ackStale | nacked | checkpointStored | published => exact step.custody_leasing rfl serves id
  | verdictStored | taken | removeWritten | removeFailed => exact step.custody_taking rfl clean sourced serves id
  | @ackWritten other told =>
    obtain ⟨token, rfl⟩ := serves
    rfl
  | checkpointWritten told | annotateWritten told => obtain rfl := serves; rfl
  | enqueueFailed failed | ackFailed failed | checkpointFailed failed | annotateFailed failed =>
    exact (AppendOutcome.ok_ne_failed clean failed).elim

/-- The caller of a resolution has recorded nothing yet for the rest of its batch. -/
theorem ResolveCaller.next_recorded (caller : ResolveCaller T V) : caller.next.recorded = [] := by
  match caller with
  | .nack => rfl
  | .reclaim [] => rfl
  | .reclaim (_ :: _) => rfl

/-- A quiet step has recorded nothing. -/
theorem Quiet.recorded {pc next : Pc T V} (quiet : Quiet pc next) :
    pc.recorded = [] ∧ next.recorded = [] := by
  cases quiet <;> exact ⟨rfl, rfl⟩

/-- Without write errors, the dead-letter log runs ahead of the entries by what is in some operation's hands. -/
theorem Moved.dlq_ledger {now : Instant} {wallClock : Timestamp} {env : StepEnv}
    {group group' : ConsumerGroup T V} {pc next : Pc T V} {issued : Message T → Prop}
    (moved : Moved now wallClock env group pc group' next) (clean : env.outcome = .ok)
    (sourced : Sourced issued group) (intact : group.dlq.wal.torn = false) (id : MessageId)
    (single : group.dlq.entries.count id + pc.held.count id ≤ 1)
    (logged : dlqReplayCount group.dlq.wal.records id + pc.held.count id ≤
      1 + pc.recorded.count id)
    (covered : pc.recorded.count id ≤ dlqReplayCount group.dlq.wal.records id) :
    dlqReplayCount group'.dlq.wal.records id + group.dlq.entries.count id + pc.recorded.count id =
      dlqReplayCount group.dlq.wal.records id + group'.dlq.entries.count id +
        next.recorded.count id := by
  -- The dead letters in memory and those that the log replays to differ by what is on its way from one to the other.
  cases moved with
  | quiet changed quiet => rw [quiet.recorded.1, quiet.recorded.2]
  | retried attemptsLeft => rw [ResolveCaller.next_recorded]; rfl
  | @exhaustedWritten failed caller exhausted synced =>
    -- The message is in the operation's hands, so the log cannot hold it already.
    have held : (Pc.resolve failed caller).held = failed.id :: caller.ids := rfl
    rw [held, List.count_cons] at logged
    simp only [ConsumerGroup.withDlqWal, Log.records_append_ok intact clean, dlqReplayCount_deadLetter,
      Pc.recorded, FailedDelivery.deadLetter, List.count_cons, List.count_nil, beq_iff_eq] at logged ⊢
    by_cases same : failed.id = id
    · rw [if_pos same] at logged
      rw [if_pos same, if_pos same]
      omega
    · rw [if_neg same, if_neg same]
  | @insertDeadLetter deadLetter caller =>
    have inserted := present_insert group.dlq.entries deadLetter.id id deadLetter
    have held : (Pc.insertDeadLetter deadLetter caller).held = deadLetter.id :: caller.ids := rfl
    rw [held, List.count_cons] at single
    simp only [ConsumerGroup.withEntries, DeadLetters.count, Pc.recorded, List.count_cons,
      List.count_nil, beq_iff_eq] at single inserted ⊢
    by_cases same : deadLetter.id = id
    · rw [if_pos same] at single inserted
      rw [if_pos same]
      omega
    · rw [if_neg same] at inserted
      rw [if_neg same]
      omega
  | deadLetteredWritten synced => rw [ResolveCaller.next_recorded]; rfl
  | annotateWritten synced =>
    simp only [ConsumerGroup.withDlqWal, Log.records_append_ok intact clean, dlqReplayCount_annotate, Pc.recorded]
  | verdictStored found =>
    simp only [ConsumerGroup.withEntries, DeadLetters.count_annotate, Pc.recorded]
  | @taken other caller deadLetter found =>
    obtain ⟨rfl, _⟩ := sourced.entries other deadLetter found
    have erased := DeadLetters.count_erase found id
    simp only [ConsumerGroup.withEntries, Pc.recorded, List.count_nil]
    omega
  | @removeWritten deadLetter caller synced =>
    have onward : (caller.next deadLetter : Pc T V).recorded = [] := by
      cases caller with
      | reprocess => rfl
      | purge => cases carried : deadLetter.idempotencyKey <;> simp [TakeCaller.next, carried, Pc.recorded]
    rw [onward]
    simp only [ConsumerGroup.withDlqWal, Log.records_append_ok intact clean, dlqReplayCount_remove, Pc.recorded,
      List.count_cons, List.count_nil, beq_iff_eq] at logged covered ⊢
    have held : (Pc.appendRemove deadLetter caller : Pc T V).held = [deadLetter.id] := rfl
    rw [held, List.count_singleton] at logged
    by_cases same : deadLetter.id = id
    · simp only [same, beq_self_eq_true, if_true] at logged covered ⊢
      omega
    · simp only [same, if_false]
  | reserveHit | reserveFresh | enqueueWritten | pushPending | releaseKey | reclaim | claimed
  | promoted | acked | ackStale | ackWritten | nacked | checkpointWritten | checkpointStored
  | published => rfl
  | enqueueFailed failed | exhaustedFailed _ failed | deadLetteredFailed failed | ackFailed failed
  | checkpointFailed failed | annotateFailed failed | removeFailed failed => exact (AppendOutcome.ok_ne_failed clean failed).elim

end Qaas
