import Qaas.Group.Sound

/-! How many copies of a message there are, place by place, and what one step does to the numbers. -/

namespace Qaas

open Concurrency

variable {T V : Type}

/-- How often a message is pending. -/
def State.pendingCount (state : State T V) (id : MessageId) : Nat :=
  (state.pending.map Pending.id).count id

/-- Whether a message is out on a lease. -/
def State.leasedCount (state : State T V) (id : MessageId) : Nat :=
  present (state.leased.lookup id)

/-- How often a message waits out a backoff. -/
def State.delayedCount (state : State T V) (id : MessageId) : Nat :=
  (state.delayed.map Delayed.id).count id

/-- How often a message is in the live queue. -/
def State.live (state : State T V) (id : MessageId) : Nat :=
  state.pendingCount id + state.leasedCount id + state.delayedCount id

/-- Whether a message is in the dead-letter queue. -/
def DeadLetters.count (entries : DeadLetters T V) (id : MessageId) : Nat :=
  present (entries.lookup id)

/-- The message is pending, leased, delayed or dead-lettered in the running process. -/
def ConsumerGroup.Houses (group : ConsumerGroup T V) (id : MessageId) : Prop :=
  (∃ entry ∈ group.state.pending, entry.id = id) ∨
    (∃ lease, group.state.leased.lookup id = some lease) ∨
    (∃ entry ∈ group.state.delayed, entry.id = id) ∨
    ∃ deadLetter, group.dlq.entries.lookup id = some deadLetter

/-- A map has an entry of a key exactly if it counts one. -/
theorem present_pos {α : Type} {entry : Option α} : 0 < present entry ↔ ∃ value, entry = some value := by
  cases entry <;> simp

/-- A message is in one of the four structures exactly if they count a copy of it. -/
theorem houses_iff {group : ConsumerGroup T V} {id : MessageId} :
    group.Houses id ↔ 0 < group.state.live id + group.dlq.entries.count id := by
  -- To be in one of the four structures is to count there.
  have pending : (∃ entry ∈ group.state.pending, entry.id = id) ↔ 0 < group.state.pendingCount id := by
    rw [State.pendingCount, List.count_pos_iff, List.mem_map]
  have delayed : (∃ entry ∈ group.state.delayed, entry.id = id) ↔ 0 < group.state.delayedCount id := by
    rw [State.delayedCount, List.count_pos_iff, List.mem_map]
  rw [ConsumerGroup.Houses, pending, delayed, ← present_pos, ← present_pos, State.live,
    State.leasedCount, DeadLetters.count]
  omega

/-- Whatever a group houses, each of its four structures holds an issued message only. -/
theorem Sourced.issued_of_houses {issued : Message T → Prop} {group : ConsumerGroup T V}
    {id : MessageId} (sourced : Sourced issued group) (houses : group.Houses id) :
    ∃ message, issued message ∧ message.id = id := by
  rcases houses with ⟨entry, member, rfl⟩ | ⟨lease, found⟩ | ⟨entry, member, rfl⟩ | ⟨dead, found⟩
  · exact ⟨_, sourced.pending entry member, rfl⟩
  · exact ⟨_, sourced.leased id lease found, rfl⟩
  · exact ⟨_, sourced.delayed entry member, rfl⟩
  · -- A dead letter is stored under its own id.
    obtain ⟨rfl, known⟩ := sourced.entries id dead found
    exact ⟨_, known, rfl⟩

instance (group : ConsumerGroup T V) (id : MessageId) : Decidable (group.Houses id) :=
  decidable_of_iff _ houses_iff.symm

/-- How often a replay of the main log leaves a message pending. -/
def replayCount (records : List (WalRecord T V)) (id : MessageId) : Nat :=
  ((Replay.records records).pending.map Pending.id).count id

/-- Whether a replay of the dead-letter log leaves a message in the queue. -/
def dlqReplayCount (records : List (DlqRecord T V)) (id : MessageId) : Nat :=
  (DeadLetters.replay records).count id

/-- The ids of the batch still to be resolved. -/
def ResolveCaller.ids (caller : ResolveCaller T V) : List MessageId :=
  caller.messages.map Message.id

/-- The messages in an operation's hands that a replay of the main log would leave pending. -/
def Pc.logged : Pc T V → List MessageId
  | .pushPending message _ => [message.id]
  | .resolve failed caller => failed.id :: caller.ids
  | .insertDeadLetter deadLetter caller => deadLetter.id :: caller.ids
  | .appendDeadLettered id caller => id :: caller.ids
  | .appendAck id => [id]
  | _ => []

/-- The messages in an operation's hands that the dead-letter log holds and the memory does not. -/
def Pc.recorded : Pc T V → List MessageId
  | .insertDeadLetter deadLetter _ | .appendRemove deadLetter _ => [deadLetter.id]
  | _ => []

/-- The messages in an operation's hands and nowhere else in memory. -/
def Pc.held (pc : Pc T V) : List MessageId :=
  pc.messages.map Message.id

/-- Erasing the first entry of an id takes one off its count. -/
theorem count_eraseP (entries : List (Pending T V)) (id other : MessageId) :
    ((entries.eraseP fun entry => entry.id = other).map Pending.id).count id =
      (entries.map Pending.id).count id - if other = id then 1 else 0 := by
  -- Along the queue, up to the entry that is taken out.
  induction entries with
  | nil => simp
  | cons entry rest ih =>
    by_cases here : entry.id = other
    · rw [List.eraseP_cons_of_pos (by simpa using here), List.map_cons, List.count_cons]
      by_cases same : other = id
      · simp [here, same]
      · have apart : ¬ entry.id = id := fun equal => same (here.symm.trans equal)
        simp [same, apart]
    · rw [List.eraseP_cons_of_neg (by simpa using here), List.map_cons, List.map_cons,
        List.count_cons, List.count_cons, ih]
      by_cases same : other = id
      · have apart : ¬ entry.id = id := fun equal => here (equal.trans same.symm)
        simp [apart]
      · simp [same]

/-- Acknowledging erases the first entry of the id, if there is one. -/
theorem Replay.record_ack_pending (replay : Replay T V) (id : MessageId) :
    (replay.record (.ack id)).pending = replay.pending.eraseP fun entry => entry.id = id := by
  simp only [Replay.record]
  split
  · rfl
  · rename_i absent
    -- Without an entry of the id there is nothing to erase.
    rw [List.find?_eq_none] at absent
    exact (List.eraseP_of_forall_not absent).symm

/-- A logged enqueue is replayed as one more entry. -/
@[simp] theorem replayCount_enqueue (records : List (WalRecord T V)) (id other : MessageId)
    (key : Option IdempotencyKey) (item : T) :
    replayCount (records ++ [.enqueue other key item]) id =
      replayCount records id + if other = id then 1 else 0 := by
  simp [replayCount, Replay.record, Pending.fresh, List.count_singleton]

/-- A logged acknowledgement takes one entry out. -/
@[simp] theorem replayCount_ack (records : List (WalRecord T V)) (id other : MessageId) :
    replayCount (records ++ [.ack other]) id =
      replayCount records id - if other = id then 1 else 0 := by
  rw [replayCount, Replay.records_append, Replay.record_ack_pending, count_eraseP, replayCount]

/-- A logged dead-lettering takes one entry out. -/
@[simp] theorem replayCount_deadLettered (records : List (WalRecord T V)) (id other : MessageId) :
    replayCount (records ++ [.deadLettered other]) id =
      replayCount records id - if other = id then 1 else 0 := by
  rw [replayCount, Replay.records_append]
  exact count_eraseP _ id other

/-- A logged checkpoint moves no message. -/
@[simp] theorem replayCount_checkpoint (records : List (WalRecord T V)) (id other : MessageId)
    (state : V) : replayCount (records ++ [.checkpoint other state]) id = replayCount records id := by
  simp [replayCount, Replay.record]

/-- A recorded dead letter is replayed as an entry. -/
@[simp] theorem dlqReplayCount_deadLetter (records : List (DlqRecord T V)) (id : MessageId)
    (deadLetter : DeadLetter T V) :
    dlqReplayCount (records ++ [.deadLetter deadLetter]) id =
      if deadLetter.id = id then 1 else dlqReplayCount records id := by
  simp only [dlqReplayCount, DeadLetters.replay_append, DeadLetters.replayRecord, DeadLetters.count]
  -- A second letter of a message overwrites the first.
  by_cases same : deadLetter.id = id
  · subst same
    simp
  · rw [Finmap.lookup_insert_of_ne _ (fun equal => same equal.symm), if_neg same]

/-- A logged removal takes the entry out. -/
@[simp] theorem dlqReplayCount_remove (records : List (DlqRecord T V)) (id other : MessageId) :
    dlqReplayCount (records ++ [.remove other]) id =
      if other = id then 0 else dlqReplayCount records id := by
  simp only [dlqReplayCount, DeadLetters.replay_append, DeadLetters.replayRecord, DeadLetters.count]
  by_cases same : other = id
  · subst same
    simp
  · rw [Finmap.lookup_erase_ne (fun equal => same equal.symm), if_neg same]

/-- An annotation neither adds nor removes an entry. -/
@[simp] theorem DeadLetters.count_annotate (entries : DeadLetters T V) (id other : MessageId)
    (verdict : TriageVerdict) : (entries.annotate other verdict).count id = entries.count id := by
  unfold DeadLetters.annotate
  split
  · rename_i old stored
    by_cases same : id = other
    · subst same
      simp [DeadLetters.count, stored]
    · simp [DeadLetters.count, Finmap.lookup_insert_of_ne _ same]
  · rfl

/-- A logged annotation neither adds nor removes an entry. -/
@[simp] theorem dlqReplayCount_annotate (records : List (DlqRecord T V)) (id other : MessageId)
    (verdict : TriageVerdict) :
    dlqReplayCount (records ++ [.annotate other verdict]) id = dlqReplayCount records id := by
  simp [dlqReplayCount, DeadLetters.replayRecord]

/-- A successful append to an intact log adds the record at the end. -/
theorem Log.records_append_ok {R : Type} {log : Log R} {outcome : AppendOutcome}
    (intact : log.torn = false) (clean : outcome = .ok) (record : R) :
    (log.append record outcome).1.records = log.records ++ [record] := by
  simp [clean, land, intact]

/-- A successful append does not tear the log. -/
theorem Log.torn_append_ok {R : Type} {outcome : AppendOutcome} (clean : outcome = .ok) (log : Log R)
    (record : R) : (log.append record outcome).1.torn = log.torn := by
  rw [clean, append_ok_fst, land]
  split <;> rfl

/-- A promotion moves entries between the two lists of live messages. -/
theorem State.promoted_count (state : State T V) (now : Instant) (id : MessageId) :
    (state.promoteReadyDelayed now).pendingCount id + (state.promoteReadyDelayed now).delayedCount id =
      state.pendingCount id + state.delayedCount id := by
  -- Every delayed delivery is either ready or not.
  have split : (state.delayed.map Delayed.id).count id =
      ((state.delayed.filter fun entry => entry.availableAt ≤ now).map Delayed.id).count id +
        ((state.delayed.filter fun entry => ¬ entry.availableAt ≤ now).map Delayed.id).count id := by
    simp only [List.count, List.countP_map, decide_not]
    exact List.countP_eq_countP_filter_add _ _ _
  -- What becomes ready keeps its id.
  have ids : ((state.delayed.filter fun entry => entry.availableAt ≤ now).map
      Delayed.pending).map Pending.id =
      (state.delayed.filter fun entry => entry.availableAt ≤ now).map Delayed.id := by
    rw [List.map_map]
    rfl
  simp only [pendingCount, delayedCount, promoteReadyDelayed, List.map_append, List.count_append, ids]
  rw [split]
  omega

/-- A batch takes out exactly the leases of its own messages. -/
theorem Reclaims.leasedCount {state : State T V} {now : Instant} {order : List MessageId}
    {batch : List (FailedDelivery T V)} (reclaims : Reclaims state now order batch) (id : MessageId) :
    present ((order.foldl (fun leased id => leased.erase id) state.leased).lookup id) +
      (batch.map FailedDelivery.id).count id = state.leasedCount id := by
  -- The ids of the batch are the iterated ones, each of which had a lease.
  have ids : batch.map FailedDelivery.id = order := by
    rw [reclaims.taken]
    have all : ∀ id ∈ order, ∃ lease, state.leased.lookup id = some lease := by
      intro id member
      obtain ⟨lease, found, _⟩ := (reclaims.expired id).mp member
      exact ⟨lease, found⟩
    clear reclaims
    induction order with
    | nil => rfl
    | cons first rest ih =>
      obtain ⟨lease, found⟩ := all first List.mem_cons_self
      rw [List.filterMap_cons_some (by rw [found]; rfl), List.map_cons,
        ih fun id member => all id (List.mem_cons_of_mem _ member)]
      rfl
  rw [lookup_foldl_erase, ids]
  by_cases member : id ∈ order
  · obtain ⟨lease, found, _⟩ := (reclaims.expired id).mp member
    rw [List.count_eq_one_of_mem reclaims.nodup member]
    simp [member, State.leasedCount, found]
  · rw [List.count_eq_zero_of_not_mem member]
    simp [member, State.leasedCount]

/-- A message that is pushed is live once more. -/
theorem State.live_push (state : State T V) (entry : Pending T V) (id : MessageId) :
    State.live { state with pending := state.pending ++ [entry] } id = state.live id + [entry.id].count id := by
  simp only [live, pendingCount, leasedCount, delayedCount, List.map_append, List.map_cons, List.map_nil,
    List.count_append]
  omega

/-- So is one whose delivery is put off. -/
theorem State.live_delay (state : State T V) (entry : Delayed T V) (id : MessageId) :
    State.live { state with delayed := state.delayed ++ [entry] } id = state.live id + [entry.id].count id := by
  simp only [live, pendingCount, leasedCount, delayedCount, List.map_append, List.map_cons, List.map_nil,
    List.count_append]
  omega

/-- A message whose lease is taken out is live once less. -/
theorem State.live_erase {state : State T V} {other : MessageId} {token : LeaseToken} {lease : Leased T V}
    (active : state.activeLease other token = some lease) (dedup : Dedup) (id : MessageId) :
    State.live { state with leased := state.leased.erase other, dedup } id + [other].count id = state.live id := by
  have erased := present_erase_found (lookup_of_active active).1 id
  simp only [live, pendingCount, leasedCount, delayedCount, List.count_singleton, beq_iff_eq]
  omega

/-- A lease may be replaced by another of the same message. -/
theorem State.live_store {state : State T V} {other : MessageId} {token : LeaseToken} {lease : Leased T V}
    (active : state.activeLease other token = some lease) (later : Leased T V) (id : MessageId) :
    State.live { state with leased := state.leased.insert other later } id = state.live id := by
  simp only [live, pendingCount, leasedCount, delayedCount,
    present_insert_found (lookup_of_active active).1 later id]

/-- A batch takes its messages out of the live queue. -/
theorem Reclaims.live {state : State T V} {now : Instant} {order : List MessageId}
    {batch : List (FailedDelivery T V)} (reclaims : Reclaims state now order batch) (id : MessageId) :
    State.live { state with leased := order.foldl (fun leased id => leased.erase id) state.leased } id +
      (batch.map FailedDelivery.id).count id = state.live id := by
  have taken := reclaims.leasedCount id
  simp only [State.live, State.pendingCount, State.leasedCount, State.delayedCount] at taken ⊢
  omega

/-- An entry that is taken out is one dead letter less. -/
theorem DeadLetters.count_erase {entries : DeadLetters T V} {other : MessageId} {deadLetter : DeadLetter T V}
    (found : entries.lookup other = some deadLetter) (id : MessageId) :
    DeadLetters.count (entries.erase other) id + [other].count id = entries.count id := by
  rw [count, count, List.count_singleton]
  simpa only [beq_iff_eq] using present_erase_found found id

/-- The caller of a resolution goes on with the logged messages it still has. -/
theorem ResolveCaller.next_logged (caller : ResolveCaller T V) : caller.next.logged = caller.ids := by
  match caller with
  | .nack => rfl
  | .reclaim [] => rfl
  | .reclaim (_ :: _) => simp [ResolveCaller.next, Pc.logged, ids, messages, FailedDelivery.message]

/-- A quiet step begins and ends without a logged message in hand. -/
theorem Quiet.logged {pc next : Pc T V} (quiet : Quiet pc next) : pc.logged = [] ∧ next.logged = [] := by
  cases quiet <;> exact ⟨rfl, rfl⟩

/-- The ids of a batch are those of its deliveries. -/
theorem ResolveCaller.ids_reclaim (rest : List (FailedDelivery T V)) :
    (ResolveCaller.reclaim rest).ids = rest.map FailedDelivery.id := by
  simp [ids, messages, FailedDelivery.message]

/-- A claim leases one message of the live queue, and overwrites a lease only of a message it holds twice. -/
theorem claimed_live {state : State T V} {now : Instant} {entry : Pending T V}
    {rest : List (Pending T V)} (front : (state.promoteReadyDelayed now).pending = entry :: rest)
    (lease : Leased T V) (dedup : Dedup) (id : MessageId) :
    State.live ⟨rest, state.leased.insert entry.id lease,
        (state.promoteReadyDelayed now).delayed, dedup⟩ id ≤ state.live id ∧
      (state.live id ≤ 1 → State.live ⟨rest, state.leased.insert entry.id lease,
        (state.promoteReadyDelayed now).delayed, dedup⟩ id = state.live id) := by
  have counts := state.promoted_count now id
  have popped : (state.promoteReadyDelayed now).pendingCount id =
      (rest.map Pending.id).count id + if entry.id = id then 1 else 0 := by
    simp [State.pendingCount, front, List.count_cons]
  have leased := present_insert state.leased entry.id id lease
  simp only [State.live, State.pendingCount, State.leasedCount, State.delayedCount] at counts popped ⊢
  -- Only the claimed message's own lease can be overwritten.
  have bound : present (state.leased.lookup id) ≤ 1 := by
    cases state.leased.lookup id <;> simp
  by_cases same : entry.id = id
  · rw [if_pos same] at popped leased
    omega
  · rw [if_neg same] at popped leased
    omega

/-- A promotion alone changes nothing in the number of live messages. -/
theorem promoted_live (state : State T V) (now : Instant) (id : MessageId) :
    (state.promoteReadyDelayed now).live id = state.live id := by
  -- Promotion moves messages within the live queue.
  have counts := state.promoted_count now id
  have leased : (state.promoteReadyDelayed now).leasedCount id = state.leasedCount id := rfl
  simp only [State.live]
  omega

/--
Without write errors, a step never leaves a replay of the main log with less than it left before.

The comparison is with the live messages and those in the operation's hands.
Where no message is live twice it is exact.
-/
theorem Moved.main_ledger {now : Instant} {wallClock : Timestamp} {env : StepEnv}
    {group group' : ConsumerGroup T V} {pc next : Pc T V}
    (moved : Moved now wallClock env group pc group' next) (clean : env.outcome = .ok)
    (intact : group.wal.torn = false) (id : MessageId) :
    replayCount group.wal.records id + group'.state.live id + next.logged.count id ≤
        replayCount group'.wal.records id + group.state.live id + pc.logged.count id ∧
      (group.state.live id ≤ 1 → pc.logged.count id ≤ replayCount group.wal.records id →
        replayCount group'.wal.records id + group.state.live id + pc.logged.count id ≤
          replayCount group.wal.records id + group'.state.live id + next.logged.count id) := by
  -- Each step moves a message between the group, the hands of an operation and the log in step with the records.
  cases moved with
  | quiet changed quiet =>
    rw [quiet.logged.1, quiet.logged.2]
    exact ⟨le_refl _, fun _ _ => le_refl _⟩
  -- A record and the push that follows it come one after the other.
  | enqueueWritten synced =>
    simp only [ConsumerGroup.withWal, Log.records_append_ok intact clean, replayCount_enqueue, Pc.logged,
      List.count_cons, List.count_nil, beq_iff_eq]
    omega
  | @pushPending message caller =>
    have pushed := group.state.live_push (.fresh message.id message.item message.idempotencyKey) id
    simp only [ConsumerGroup.withState, Pc.logged, Pending.fresh, List.count_nil] at pushed ⊢
    omega
  | @reclaim order failed rest reclaims =>
    have taken := reclaims.live id
    simp only [ConsumerGroup.withState, Pc.logged, ResolveCaller.ids_reclaim, ← List.map_cons,
      List.count_nil] at taken ⊢
    omega
  | @claimed entry rest front =>
    obtain ⟨fewer, exact⟩ := claimed_live front
      (entry.lease ⟨group.nextLeaseToken⟩ (now + group.visibilityTimeout))
      (group.state.promoteReadyDelayed now).dedup id
    simp only [Pc.logged, List.count_nil]
    exact ⟨by omega, fun single _ => by rw [exact single]⟩
  | promoted wakeAt empty =>
    simp only [ConsumerGroup.withState, promoted_live, Pc.logged, List.count_nil]
    omega
  | @retried failed caller attemptsLeft =>
    rw [caller.next_logged]
    have delayed := group.state.live_delay
      (failed.delayed (now + group.retryPolicy.delayFor failed.deliveryCount env.draw)) id
    simp only [ConsumerGroup.withState, Pc.logged, FailedDelivery.delayed, List.count_cons, List.count_nil]
      at delayed ⊢
    omega
  | @deadLetteredWritten other caller synced =>
    rw [caller.next_logged]
    simp only [ConsumerGroup.withWal, Log.records_append_ok intact clean, replayCount_deadLettered, Pc.logged,
      List.count_cons, beq_iff_eq]
    omega
  -- What a call returns leaves the group before the log says so.
  | @acked other token lease active =>
    have taken := State.live_erase active (group.state.dedup.release lease.idempotencyKey) id
    simp only [ConsumerGroup.withState, Pc.logged, List.count_nil] at taken ⊢
    omega
  | @ackWritten other synced =>
    simp only [ConsumerGroup.withWal, Log.records_append_ok intact clean, replayCount_ack, Pc.logged,
      List.count_cons, List.count_nil, beq_iff_eq]
    omega
  | @nacked other token reason lease active =>
    have taken := State.live_erase active group.state.dedup id
    simp only [ConsumerGroup.withState, Pc.logged, Leased.failed, ResolveCaller.ids, ResolveCaller.messages,
      List.map_nil, List.count_nil] at taken ⊢
    omega
  | checkpointWritten synced =>
    simp only [ConsumerGroup.withWal, Log.records_append_ok intact clean, replayCount_checkpoint, Pc.logged,
      List.count_nil]
    omega
  | @checkpointStored other token state lease active =>
    simp only [ConsumerGroup.withState, Pc.logged, State.live_store active, List.count_nil]
    omega
  | @published other token data isFinal lease sequence active =>
    simp only [ConsumerGroup.withState, Pc.logged, State.live_store active, List.count_nil]
    omega
  | @removeWritten deadLetter caller synced =>
    cases caller with
    | reprocess => exact ⟨le_refl _, fun _ _ => le_refl _⟩
    | purge =>
      cases carried : deadLetter.idempotencyKey <;>
        simp only [TakeCaller.next, carried] <;>
        exact ⟨le_refl _, fun _ _ => le_refl _⟩
  | reserveHit | reserveFresh | releaseKey | ackStale | exhaustedWritten | insertDeadLetter
  | annotateWritten | verdictStored | taken => exact ⟨le_refl _, fun _ _ => le_refl _⟩
  -- Nothing fails to be written while the writes go well.
  | enqueueFailed failed | exhaustedFailed _ failed | deadLetteredFailed failed | ackFailed failed
  | checkpointFailed failed | annotateFailed failed | removeFailed failed => exact (AppendOutcome.ok_ne_failed clean failed).elim

end Qaas
