import Qaas.Group.Moves

/-! Every message in a group, in memory or in a log, is one that some producer handed in. -/

namespace Qaas

open Concurrency

variable {T V : Type}

/-- The message as its producer handed it in. -/
def Pending.message (entry : Pending T V) : Message T :=
  ⟨entry.id, entry.item, entry.idempotencyKey⟩

/-- The message as its producer handed it in. -/
def Delayed.message (entry : Delayed T V) : Message T :=
  ⟨entry.id, entry.item, entry.idempotencyKey⟩

/-- The message as its producer handed it in. -/
def Leased.message (lease : Leased T V) (id : MessageId) : Message T :=
  ⟨id, lease.item, lease.idempotencyKey⟩

/-- The message as its producer handed it in. -/
def DeadLetter.message (deadLetter : DeadLetter T V) : Message T :=
  ⟨deadLetter.id, deadLetter.item, deadLetter.idempotencyKey⟩

/-- The message as its producer handed it in. -/
def FailedDelivery.message (failed : FailedDelivery T V) : Message T :=
  ⟨failed.id, failed.item, failed.idempotencyKey⟩

/-- The messages of the batch still to be resolved. -/
def ResolveCaller.messages : ResolveCaller T V → List (Message T)
  | .nack => []
  | .reclaim rest => rest.map FailedDelivery.message

/-- The messages that an operation holds in its local variables and nobody else does. -/
def Pc.messages : Pc T V → List (Message T)
  | .appendEnqueue message _ | .pushPending message _ => [message]
  | .resolve failed caller => failed.message :: caller.messages
  | .insertDeadLetter deadLetter caller => deadLetter.message :: caller.messages
  -- The message itself is in the dead-letter queue by now.
  | .appendDeadLettered _ caller => caller.messages
  | .appendRemove deadLetter _ => [deadLetter.message]
  | _ => []

/-- Every message in a group's four structures is an issued one. -/
structure Housed (issued : Message T → Prop) (group : ConsumerGroup T V) : Prop where
  pending : ∀ entry ∈ group.state.pending, issued entry.message
  leased : ∀ id lease, group.state.leased.lookup id = some lease → issued (lease.message id)
  delayed : ∀ entry ∈ group.state.delayed, issued entry.message
  entries : ∀ id deadLetter, group.dlq.entries.lookup id = some deadLetter →
    deadLetter.id = id ∧ issued deadLetter.message

/-- Every message in the readable parts of a group's two logs is an issued one. -/
structure Recorded (issued : Message T → Prop) (group : ConsumerGroup T V) : Prop where
  wal : ∀ id key item, WalRecord.enqueue id key item ∈ group.wal.records → issued ⟨id, item, key⟩
  dlqWal : ∀ deadLetter, DlqRecord.deadLetter deadLetter ∈ group.dlq.wal.records →
    issued deadLetter.message

/-- Every message in a group, in memory or in the readable part of a log, is an issued one. -/
structure Sourced (issued : Message T → Prop) (group : ConsumerGroup T V) : Prop
    extends Housed issued group, Recorded issued group where
  -- A key names a message that carries it.
  dedup : ∀ key id, group.state.dedup.lookup key = some id → ∃ item, issued ⟨id, item, some key⟩

variable {issued : Message T → Prop}

/-- A landed record is readable on an intact log, and hidden behind the torn frame on another. -/
theorem Log.mem_records_land {R : Type} {log : Log R} {record other : R}
    (member : other ∈ (log.land record).records) : other ∈ log.records ∨ other = record := by
  unfold land at member
  split at member
  · -- Behind a torn write nothing is read any more.
    exact .inl member
  · simpa using member

/-- An append leaves every record that can be read, and may add its own. -/
theorem Log.mem_records_append {R : Type} {log : Log R} {record other : R} {outcome : AppendOutcome}
    (member : other ∈ (log.append record outcome).1.records) :
    other ∈ log.records ∨ other = record := by
  rw [append_fst] at member
  -- A write that failed may have landed all the same.
  split at member
  · exact mem_records_land member
  · split at member <;> exact .inl member

/-- The state may change by steps that bring in only issued messages. -/
theorem Housed.withState {group : ConsumerGroup T V} {state : State T V}
    (housed : Housed issued group)
    (pending : ∀ entry ∈ state.pending, issued entry.message)
    (leased : ∀ id lease, state.leased.lookup id = some lease → issued (lease.message id))
    (delayed : ∀ entry ∈ state.delayed, issued entry.message) :
    Housed issued (group.withState state) :=
  { housed with pending, leased, delayed }

/-- A lease that was found by its token is the message's lease. -/
theorem lookup_of_active {state : State T V} {id : MessageId} {token : LeaseToken}
    {lease : Leased T V} (active : state.activeLease id token = some lease) :
    state.leased.lookup id = some lease ∧ lease.token = token := by
  obtain ⟨found, same⟩ := Option.filter_eq_some_iff.mp active
  exact ⟨found, by simpa using same⟩

/-- A failed delivery is of the message that was on the lease. -/
@[simp] theorem Leased.failed_message (lease : Leased T V) (id : MessageId) (reason : Option String) :
    (lease.failed id reason).message = lease.message id := rfl

/-- A dead letter is of the message whose delivery failed. -/
@[simp] theorem FailedDelivery.deadLetter_message (failed : FailedDelivery T V) (now : Timestamp) :
    (failed.deadLetter now).message = failed.message := rfl

/-- A retry is of the message whose delivery failed. -/
@[simp] theorem FailedDelivery.delayed_message (failed : FailedDelivery T V) (availableAt : Instant) :
    (failed.delayed availableAt).message = failed.message := rfl

/-- Promotion keeps the message. -/
@[simp] theorem Delayed.pending_message (entry : Delayed T V) : entry.pending.message = entry.message :=
  rfl

/-- Every message of a batch was on a lease that the batch took out. -/
theorem Reclaims.messages_leased {state : State T V} {now : Instant} {order : List MessageId}
    {batch : List (FailedDelivery T V)} (reclaims : Reclaims state now order batch)
    {failed : FailedDelivery T V} (member : failed ∈ batch) :
    ∃ lease, state.leased.lookup failed.id = some lease ∧ failed.message = lease.message failed.id := by
  -- The batch is made of the leases found under the expired ids.
  rw [reclaims.taken] at member
  obtain ⟨id, _, found⟩ := List.mem_filterMap.mp member
  obtain ⟨lease, leased, rfl⟩ := Option.map_eq_some_iff.mp found
  exact ⟨lease, leased, rfl⟩

/-- The messages in the pending list after a promotion were pending or delayed before. -/
theorem mem_promoted {state : State T V} {now : Instant} {entry : Pending T V}
    (member : entry ∈ (state.promoteReadyDelayed now).pending) :
    entry ∈ state.pending ∨ ∃ delayed ∈ state.delayed, entry = delayed.pending := by
  rcases List.mem_append.mp member with waiting | ready
  · exact .inl waiting
  · obtain ⟨delayed, kept, rfl⟩ := List.mem_map.mp ready
    exact .inr ⟨delayed, (List.mem_filter.mp kept).1, rfl⟩

/-- The caller of a resolution goes on with the messages it still has. -/
theorem ResolveCaller.next_messages (caller : ResolveCaller T V) :
    caller.next.messages = caller.messages := by
  -- A reclaim with nothing left to resolve goes on, otherwise to the next delivery.
  match caller with
  | .nack => rfl
  | .reclaim [] => rfl
  | .reclaim (_ :: _) => rfl

/-- After an error the caller goes on with the messages it still has. -/
theorem ResolveCaller.failed_messages (caller : ResolveCaller T V) :
    caller.failed.messages = caller.messages := by
  match caller with
  | .nack => rfl
  | .reclaim [] => rfl
  | .reclaim (_ :: _) => rfl

/-- A quiet step begins and ends without a message in hand. -/
theorem Quiet.messages {pc next : Pc T V} (quiet : Quiet pc next) :
    pc.messages = [] ∧ next.messages = [] := by
  cases quiet <;> exact ⟨rfl, rfl⟩

/-- An operation that resolves a failed delivery. -/
def Pc.resolves : Pc T V → Bool
  | .resolve _ _ | .insertDeadLetter _ _ | .appendDeadLettered _ _ => true
  | _ => false

/-- An operation that changes a lease it has been given the token of. -/
def Pc.leases : Pc T V → Bool
  | .releaseAcked _ _ | .releaseNacked _ _ _ | .storeCheckpoint _ _ _ | .pushChunk _ _ _ _ => true
  | _ => false

/-- An operation that takes a dead letter out, or changes its verdict. -/
def Pc.unburies : Pc T V → Bool
  | .takeEntry _ _ | .appendRemove _ _ | .storeVerdict _ _ => true
  | _ => false

/-- A lease may give way to one of the same message. -/
theorem Housed.store {group : ConsumerGroup T V} {id : MessageId} {token : LeaseToken} {lease later : Leased T V}
    (housed : Housed issued group) (active : group.state.activeLease id token = some lease)
    (same : later.message id = lease.message id) :
    Housed issued (group.withState { group.state with leased := group.state.leased.insert id later }) := by
  -- The lease is replaced by one of the same message.
  refine housed.withState housed.pending (fun other found lookup => ?_) housed.delayed
  rcases lookup_of_insert lookup with ⟨rfl, rfl⟩ | ⟨_, earlier⟩
  · rw [same]
    exact housed.leased other lease (lookup_of_active active).1
  · exact housed.leased other found earlier

/-- A step that resolves a failed delivery puts its message where it goes next. -/
theorem Moved.housed_resolving {now : Instant} {wallClock : Timestamp} {env : StepEnv}
    {group group' : ConsumerGroup T V} {pc next : Pc T V}
    (moved : Moved now wallClock env group pc group' next) (resolves : pc.resolves = true)
    (housed : Housed issued group) (held : ∀ message ∈ pc.messages, issued message) :
    Housed issued group' ∧ ∀ message ∈ next.messages, issued message := by
  -- Whatever comes of the delivery, the caller keeps the rest of its batch.
  cases moved with
  | quiet changed quiet => cases quiet <;> cases resolves
  | @retried failed caller attemptsLeft =>
    refine ⟨housed.withState housed.pending housed.leased ?_, ?_⟩
    · intro entry member
      rcases List.mem_append.mp member with earlier | new
      · exact housed.delayed entry earlier
      · obtain rfl := List.mem_singleton.mp new
        exact held failed.message (by simp [Pc.messages])
    · intro message member
      rw [caller.next_messages] at member
      exact held message (by simp [Pc.messages, member])
  | exhaustedWritten exhausted told => exact ⟨{ housed with }, held⟩
  | @exhaustedFailed failed caller exhausted refused =>
    refine ⟨{ housed with }, fun message member => ?_⟩
    rw [caller.failed_messages] at member
    exact held message (by simp [Pc.messages, member])
  | @insertDeadLetter deadLetter caller =>
    refine ⟨{ housed with entries := ?_ }, fun message member => held message (List.mem_cons_of_mem _ member)⟩
    intro id entry found
    rcases lookup_of_insert found with ⟨rfl, rfl⟩ | ⟨_, earlier⟩
    · exact ⟨rfl, held entry.message (by simp [Pc.messages])⟩
    · exact housed.entries id entry earlier
  | @deadLetteredWritten id caller told =>
    refine ⟨{ housed with }, ?_⟩
    rw [caller.next_messages]
    exact held
  | @deadLetteredFailed id caller failed =>
    refine ⟨{ housed with }, ?_⟩
    rw [caller.failed_messages]
    exact held
  | _ => cases resolves

/-- A step that changes a lease leaves the message on it, or takes the message in hand. -/
theorem Moved.housed_leasing {now : Instant} {wallClock : Timestamp} {env : StepEnv}
    {group group' : ConsumerGroup T V} {pc next : Pc T V}
    (moved : Moved now wallClock env group pc group' next) (leases : pc.leases = true)
    (housed : Housed issued group) : Housed issued group' ∧ ∀ message ∈ next.messages, issued message := by
  cases moved with
  | quiet changed quiet =>
    refine ⟨{ housed with }, ?_⟩
    rw [quiet.messages.2]
    simp
  | ackStale stale => exact ⟨housed, by simp [Pc.messages]⟩
  | @acked id token lease active =>
    refine ⟨housed.withState housed.pending ?_ housed.delayed, by simp [Pc.messages]⟩
    intro other lease found
    exact housed.leased other lease (lookup_of_erase found).2
  | @nacked id token reason lease active =>
    refine ⟨housed.withState housed.pending ?_ housed.delayed, ?_⟩
    · intro other lease found
      exact housed.leased other lease (lookup_of_erase found).2
    · -- The message that was on the lease is in the operation's hands now.
      intro message member
      obtain rfl : message = lease.message id := by
        simpa [Pc.messages, ResolveCaller.messages] using member
      exact housed.leased id lease (lookup_of_active active).1
  | checkpointStored active => exact ⟨housed.store active rfl, by simp [Pc.messages]⟩
  | published sequence active => exact ⟨housed.store active rfl, by simp [Pc.messages]⟩
  | _ => cases leases

/-- A step that takes a dead letter out has it in hand, until it is gone for good or pending again. -/
theorem Moved.housed_taking {now : Instant} {wallClock : Timestamp} {env : StepEnv}
    {group group' : ConsumerGroup T V} {pc next : Pc T V}
    (moved : Moved now wallClock env group pc group' next) (unburies : pc.unburies = true)
    (housed : Housed issued group) (held : ∀ message ∈ pc.messages, issued message) :
    Housed issued group' ∧ ∀ message ∈ next.messages, issued message := by
  -- A verdict leaves the message of its dead letter, and what is taken out has been there.
  cases moved with
  | quiet changed quiet =>
    refine ⟨{ housed with }, ?_⟩
    rw [quiet.messages.2]
    simp
  | @verdictStored id verdict found =>
    refine ⟨{ housed with entries := ?_ }, by simp [Pc.messages]⟩
    intro other entry lookup
    simp only [ConsumerGroup.withEntries, DeadLetters.annotate] at lookup
    split at lookup
    · rename_i old stored
      rcases lookup_of_insert lookup with ⟨rfl, rfl⟩ | ⟨_, earlier⟩
      · exact housed.entries other old stored
      · exact housed.entries other entry earlier
    · exact housed.entries other entry lookup
  | @taken id caller deadLetter found =>
    refine ⟨{ housed with entries := ?_ }, ?_⟩
    · intro other entry lookup
      exact housed.entries other entry (lookup_of_erase lookup).2
    · simpa [Pc.messages] using (housed.entries id deadLetter found).2
  | @removeWritten deadLetter caller told =>
    refine ⟨{ housed with }, ?_⟩
    cases caller with
    | reprocess => exact held
    | purge => cases carried : deadLetter.idempotencyKey <;> simp [TakeCaller.next, carried, Pc.messages]
  | removeFailed => exact ⟨{ housed with }, by simp [Pc.messages]⟩
  | _ => cases unburies

/-- A claim leases a message that was pending, or whose backoff has elapsed. -/
theorem Housed.claimed {group : ConsumerGroup T V} {now : Instant} {entry : Pending T V} {rest : List (Pending T V)}
    (housed : Housed issued group) (front : (group.state.promoteReadyDelayed now).pending = entry :: rest)
    (token : UInt64) (leasedUntil : Instant) :
    Housed issued { group with
      state := { group.state.promoteReadyDelayed now with
        pending := rest
        leased := group.state.leased.insert entry.id (entry.lease ⟨token⟩ leasedUntil) }
      nextLeaseToken := token + 1 } := by
  -- The lease is of the first pending message, which may have waited out its backoff before.
  have promoted : ∀ entry ∈ (group.state.promoteReadyDelayed now).pending, issued entry.message := by
    intro entry member
    rcases mem_promoted member with waiting | ⟨delayed, retry, rfl⟩
    · exact housed.pending entry waiting
    · exact housed.delayed delayed retry
  rw [front] at promoted
  refine { housed with pending := ?_, leased := ?_, delayed := ?_ }
  · intro other member
    exact promoted other (List.mem_cons_of_mem _ member)
  · intro id lease found
    rcases lookup_of_insert found with ⟨rfl, rfl⟩ | ⟨_, earlier⟩
    · exact promoted entry List.mem_cons_self
    · exact housed.leased id lease earlier
  · intro entry member
    exact housed.delayed entry (List.mem_filter.mp member).1

/-- A sweep has in its hands what was on the leases that it takes out. -/
theorem Housed.reclaimed {group : ConsumerGroup T V} {now : Instant} {order : List MessageId}
    {batch : List (FailedDelivery T V)} (housed : Housed issued group)
    (reclaims : Reclaims group.state now order batch) :
    Housed issued (group.withState { group.state with
        leased := order.foldl (fun leased id => leased.erase id) group.state.leased }) ∧
      ∀ delivery ∈ batch, issued delivery.message := by
  -- The failed deliveries are of the leases that are taken out.
  refine ⟨housed.withState housed.pending (fun id lease found => ?_) housed.delayed, fun delivery member => ?_⟩
  · rw [lookup_foldl_erase] at found
    split at found
    · cases found
    · exact housed.leased id lease found
  · obtain ⟨lease, leased, same⟩ := reclaims.messages_leased member
    rw [same]
    exact housed.leased delivery.id lease leased

/-- One step brings in no message that was not issued, in memory or in the operation's hands. -/
theorem Moved.housed {now : Instant} {wallClock : Timestamp} {env : StepEnv}
    {group group' : ConsumerGroup T V} {pc next : Pc T V}
    (moved : Moved now wallClock env group pc group' next) (housed : Housed issued group)
    (held : ∀ message ∈ pc.messages, issued message)
    (reserved : ∀ message key, pc = .reserve message key → issued message) :
    Housed issued group' ∧ ∀ message ∈ next.messages, issued message := by
  have step := moved
  -- One case per way to move; most change one place, and the new messages there were held before.
  cases moved with
  | quiet changed quiet =>
    refine ⟨{ housed with }, ?_⟩
    rw [quiet.messages.2]
    simp
  | reserveHit found => exact ⟨housed, by simp [Pc.messages]⟩
  | @reserveFresh message key absent =>
    have known : issued message := reserved message key rfl
    exact ⟨housed.withState housed.pending housed.leased housed.delayed,
      by simpa [Pc.messages] using known⟩
  | enqueueWritten told => exact ⟨{ housed with }, held⟩
  | @enqueueFailed message caller failed =>
    refine ⟨{ housed with }, ?_⟩
    cases message.idempotencyKey <;> simp [releaseThenFail, Pc.messages]
  | @pushPending message caller =>
    have known : issued message := held message (by simp [Pc.messages])
    refine ⟨housed.withState ?_ housed.leased housed.delayed, by simp [Pc.messages]⟩
    intro entry member
    rcases List.mem_append.mp member with earlier | new
    · exact housed.pending entry earlier
    · obtain rfl := List.mem_singleton.mp new
      exact known
  | releaseKey =>
    exact ⟨housed.withState housed.pending housed.leased housed.delayed, by simp [Pc.messages]⟩
  -- A batch that is reclaimed consists of what was leased.
  | @reclaim order failed rest reclaims =>
    obtain ⟨kept, batch⟩ := housed.reclaimed reclaims
    refine ⟨kept, fun message member => ?_⟩
    obtain ⟨delivery, inBatch, rfl⟩ :=
      List.mem_map.mp (show message ∈ (failed :: rest).map FailedDelivery.message from member)
    exact batch delivery inBatch
  | claimed front => exact ⟨housed.claimed front _ _, by simp [Pc.messages]⟩
  | promoted wakeAt empty =>
    refine ⟨housed.withState ?_ housed.leased ?_, by simp [Pc.messages]⟩
    · intro entry member
      rw [empty] at member
      cases member
    · intro entry member
      exact housed.delayed entry (List.mem_filter.mp member).1
  | retried | exhaustedWritten | exhaustedFailed | insertDeadLetter | deadLetteredWritten | deadLetteredFailed =>
    exact step.housed_resolving rfl housed held
  | ackStale | acked | nacked | checkpointStored | published => exact step.housed_leasing rfl housed
  | verdictStored | taken | removeWritten | removeFailed => exact step.housed_taking rfl housed held
  | ackWritten | ackFailed | checkpointWritten | checkpointFailed | annotateWritten | annotateFailed =>
    exact ⟨{ housed with }, by simp [Pc.messages]⟩

/-- The enqueue that a step adds to the main log is of the message it had in hand. -/
theorem Moved.enqueued {now : Instant} {wallClock : Timestamp} {env : StepEnv}
    {group group' : ConsumerGroup T V} {pc next : Pc T V}
    (moved : Moved now wallClock env group pc group' next) {id : MessageId}
    {key : Option IdempotencyKey} {item : T}
    (member : WalRecord.enqueue id key item ∈ group'.wal.records) :
    WalRecord.enqueue id key item ∈ group.wal.records ∨ ⟨id, item, key⟩ ∈ pc.messages := by
  -- Only the enqueue path writes an enqueue record, of the message in its hands.
  cases moved with
  | enqueueWritten | enqueueFailed =>
    rcases Log.mem_records_append member with earlier | same
    · exact .inl earlier
    · cases same
      exact .inr List.mem_cons_self
  | deadLetteredWritten | deadLetteredFailed | ackWritten | ackFailed | checkpointWritten
  | checkpointFailed =>
    rcases Log.mem_records_append member with earlier | same
    · exact .inl earlier
    · cases same
  | _ => exact .inl member

/-- The dead letter that a step adds to the dead-letter log is of a message it had in hand. -/
theorem Moved.deadLettered {now : Instant} {wallClock : Timestamp} {env : StepEnv}
    {group group' : ConsumerGroup T V} {pc next : Pc T V}
    (moved : Moved now wallClock env group pc group' next) {deadLetter : DeadLetter T V}
    (member : DlqRecord.deadLetter deadLetter ∈ group'.dlq.wal.records) :
    DlqRecord.deadLetter deadLetter ∈ group.dlq.wal.records ∨ deadLetter.message ∈ pc.messages := by
  -- Only an exhausted delivery writes a dead letter, of the message in its hands.
  cases moved with
  | exhaustedWritten | exhaustedFailed =>
    rcases Log.mem_records_append member with earlier | same
    · exact .inl earlier
    · cases same
      exact .inr List.mem_cons_self
  | annotateWritten | annotateFailed | removeWritten | removeFailed =>
    rcases Log.mem_records_append member with earlier | same
    · exact .inl earlier
    · cases same
  | _ => exact .inl member

/-- One step writes no message that was not issued to a log. -/
theorem Moved.recorded {now : Instant} {wallClock : Timestamp} {env : StepEnv}
    {group group' : ConsumerGroup T V} {pc next : Pc T V}
    (moved : Moved now wallClock env group pc group' next) (recorded : Recorded issued group)
    (held : ∀ message ∈ pc.messages, issued message) : Recorded issued group' := by
  -- What a step appends, it had in hand.
  constructor
  · intro id key item member
    rcases moved.enqueued member with earlier | inHand
    · exact recorded.wal id key item earlier
    · exact held _ inHand
  · intro deadLetter member
    rcases moved.deadLettered member with earlier | inHand
    · exact recorded.dlqWal deadLetter earlier
    · exact held _ inHand

/-- A key is registered by the reservation of it, and by nothing else. -/
theorem Moved.registered {now : Instant} {wallClock : Timestamp} {env : StepEnv}
    {group group' : ConsumerGroup T V} {pc next : Pc T V}
    (moved : Moved now wallClock env group pc group' next) {key : IdempotencyKey} {id : MessageId}
    (found : group'.state.dedup.lookup key = some id) :
    group.state.dedup.lookup key = some id ∨
      ∃ message, pc = .reserve message key ∧ message.id = id ∧
        next = .appendEnqueue message .producer := by
  -- Only a reservation registers a key; the other two changes take one away.
  cases moved with
  | @reserveFresh message reserved absent =>
    rcases lookup_of_insert found with ⟨rfl, rfl⟩ | ⟨_, earlier⟩
    · exact .inr ⟨message, rfl, rfl, rfl⟩
    · exact .inl earlier
  | releaseKey => exact .inl (lookup_of_erase found).2
  | @acked other token lease active =>
    cases carried : lease.idempotencyKey with
    | none =>
      simp only [carried, Dedup.release, Option.elim_none] at found
      exact .inl found
    | some released =>
      simp only [carried, Dedup.release, Option.elim_some] at found
      exact .inl (lookup_of_erase found).2
  | _ => exact .inl found

/-- One step brings in no message that was not issued, in the group or in the operation's hands. -/
theorem Moved.sourced {now : Instant} {wallClock : Timestamp} {env : StepEnv}
    {group group' : ConsumerGroup T V} {pc next : Pc T V}
    (moved : Moved now wallClock env group pc group' next) (sourced : Sourced issued group)
    (held : ∀ message ∈ pc.messages, issued message)
    (reserved : ∀ message key, pc = .reserve message key →
      issued message ∧ message.idempotencyKey = some key) :
    Sourced issued group' ∧ ∀ message ∈ next.messages, issued message := by
  -- The three parts come from one lemma each.
  obtain ⟨housed, inHand⟩ := moved.housed sourced.toHoused held fun message key reserving =>
    (reserved message key reserving).1
  have recorded := moved.recorded sourced.toRecorded held
  refine ⟨{ toHoused := housed, toRecorded := recorded, dedup := ?_ }, inHand⟩
  intro key id found
  rcases moved.registered found with earlier | ⟨message, reserving, rfl, _⟩
  · exact sourced.dedup key id earlier
  · obtain ⟨known, keyed⟩ := reserved message key reserving
    exact ⟨message.item, by rw [← keyed]; exact known⟩

/-- The calls that get to `resolve_failed_delivery` for a message. -/
def ResolveCaller.serves (id : MessageId) (call : Call T V) : ResolveCaller T V → Prop
  | .nack => ∃ token reason, call = .nack id token reason
  | .reclaim _ => call = .claim

/-- The calls that get to `DeadLetterQueue::take` for a message. -/
def TakeCaller.serves (id : MessageId) (call : Call T V) : TakeCaller → Prop
  | .reprocess => call = .reprocessDeadLetter id
  | .purge => call = .purgeDeadLetter id

/-- The calls that get to `write_enqueue_record` for a message. -/
def EnqueueCaller.serves (message : Message T) (call : Call T V) : EnqueueCaller → Prop
  | .producer => call = .enqueue message
  | .reprocess => call = .reprocessDeadLetter message.id

/-- The calls that can stand at a step, and what its local variables say about them. -/
def Pc.serves (call : Call T V) : Pc T V → Prop
  | .reserve message key => call = .enqueue message ∧ message.idempotencyKey = some key
  | .appendEnqueue message caller | .pushPending message caller => caller.serves message call
  | .releaseKey id key result =>
    -- Either the write of the record failed, or the dead letter has been purged.
    (∃ message caller, EnqueueCaller.serves message call caller ∧ message.id = id ∧
        message.idempotencyKey = some key ∧ result = .ioError) ∨
      call = .purgeDeadLetter id ∧ result = .answered true
  | .notifyOne result =>
    (∃ message, call = .enqueue message ∧ result = .message message.id) ∨
      (∃ id, call = .reprocessDeadLetter id ∧ result = .answered true) ∨
      (∃ id token reason, call = .nack id token reason ∧ result = .answered true) ∨
      ∃ claim, call = .claim ∧ result = .claimed claim
  | .reclaimExpired | .notifyReclaimed | .claimNext | .awaitChanged _ | .parked _ => call = .claim
  | .resolve failed caller => caller.serves failed.id call
  | .insertDeadLetter deadLetter caller => caller.serves deadLetter.id call
  | .appendDeadLettered id caller => caller.serves id call
  | .releaseAcked id token => call = .ack id token
  | .appendAck id => ∃ token, call = .ack id token
  | .releaseNacked id token reason => call = .nack id token reason
  | .checkLease id token state | .appendCheckpoint id token state
  | .storeCheckpoint id token state => call = .checkpoint id token state
  | .pushChunk id token data isFinal => call = .publishPartialResult id token data isFinal
  | .notifyPublished _ => ∃ id token data isFinal, call = .publishPartialResult id token data isFinal
  | .pollStream id after | .awaitStream id after | .parkedStream id after =>
    call = .partialResultsSince id after
  | .checkEntry id verdict | .appendAnnotate id verdict | .storeVerdict id verdict =>
    call = .annotateDeadLetter id verdict
  | .takeEntry id caller => caller.serves id call
  | .appendRemove deadLetter caller => caller.serves deadLetter.id call
  | .done _ => True

/-- Every operation starts at a step of its own. -/
theorem Call.entry_serves (call : Call T V) : call.entry.serves call := by
  -- An enqueue starts at its reservation when it carries a key.
  cases call with
  | enqueue message =>
    cases keyed : message.idempotencyKey <;>
      simp [Call.entry, keyed, Pc.serves, EnqueueCaller.serves]
  | _ => rfl

/-- No operation starts out finished. -/
theorem Call.entry_ne_done (call : Call T V) (result : Result T V) : call.entry ≠ .done result := by
  cases call with
  | enqueue message => cases keyed : message.idempotencyKey <;> simp [Call.entry, keyed]
  | _ => simp [Call.entry]

/-- A quiet step stays within its operation. -/
theorem Quiet.serves {call : Call T V} {pc next : Pc T V} (quiet : Quiet pc next)
    (serves : pc.serves call) : next.serves call := by
  cases quiet <;> first | exact serves | trivial

/-- A resolution goes on within the operation that called it. -/
theorem ResolveCaller.next_serves {call : Call T V} {id : MessageId} {caller : ResolveCaller T V}
    (serves : caller.serves id call) : caller.next.serves call := by
  -- A `nack` is over now, and a reclaim is still a claim's.
  match caller with
  | .nack =>
    obtain ⟨token, reason, rfl⟩ := serves
    exact .inr (.inr (.inl ⟨id, token, reason, rfl, rfl⟩))
  | .reclaim [] => exact serves
  | .reclaim (_ :: _) => exact serves

/-- After an error a resolution goes on within the operation that called it. -/
theorem ResolveCaller.failed_serves {call : Call T V} {id : MessageId} {caller : ResolveCaller T V}
    (serves : caller.serves id call) : caller.failed.serves call := by
  match caller with
  | .nack => trivial
  | .reclaim [] => exact serves
  | .reclaim (_ :: _) => exact serves

/-- Every step of an operation stays within it. -/
theorem Moved.serves {now : Instant} {wallClock : Timestamp} {env : StepEnv}
    {group group' : ConsumerGroup T V} {call : Call T V} {pc next : Pc T V}
    (moved : Moved now wallClock env group pc group' next) (sourced : Sourced issued group)
    (serves : pc.serves call) : next.serves call := by
  cases moved with
  | quiet changed quiet => exact quiet.serves serves
  | reserveFresh absent => exact serves.1
  | enqueueWritten synced => exact serves
  | @enqueueFailed message caller failed =>
    cases carried : message.idempotencyKey with
    | none => trivial
    | some key => exact .inl ⟨message, caller, serves, rfl, carried, rfl⟩
  | @pushPending message caller =>
    cases caller with
    | producer => exact .inl ⟨message, serves, rfl⟩
    | reprocess => exact .inr (.inl ⟨message.id, serves, rfl⟩)
  | reclaim reclaims => exact serves
  | claimed front => exact .inr (.inr (.inr ⟨_, serves, rfl⟩))
  | promoted wakeAt empty => exact serves
  | retried attemptsLeft => exact ResolveCaller.next_serves serves
  | exhaustedWritten exhausted synced => exact serves
  | exhaustedFailed exhausted unsynced => exact ResolveCaller.failed_serves serves
  | insertDeadLetter => exact serves
  | deadLetteredWritten synced => exact ResolveCaller.next_serves serves
  | deadLetteredFailed failed => exact ResolveCaller.failed_serves serves
  | @acked id token lease active => exact ⟨token, serves⟩
  | @nacked id token reason lease active => exact ⟨token, reason, serves⟩
  | checkpointWritten synced => exact serves
  | published sequence active => exact ⟨_, _, _, _, serves⟩
  | annotateWritten synced => exact serves
  | @taken id caller deadLetter found =>
    -- The dead letter of an id carries that id.
    obtain rfl := (sourced.entries id deadLetter found).1
    exact serves
  | @removeWritten deadLetter caller synced =>
    cases caller with
    | reprocess => exact serves
    | purge =>
      cases carried : deadLetter.idempotencyKey with
      | none => simp only [TakeCaller.next, carried]; trivial
      | some key => simp only [TakeCaller.next, carried]; exact .inr ⟨serves, rfl⟩
  | reserveHit | releaseKey | ackStale | ackWritten | ackFailed | checkpointFailed | checkpointStored
  | annotateFailed | verdictStored | removeFailed => trivial

end Qaas
