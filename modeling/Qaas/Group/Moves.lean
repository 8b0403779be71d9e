import Qaas.Concurrency.Entries
import Qaas.Group.World

/-! What one atomic step can do to a group, said once for every proof about steps. -/

namespace Qaas

open Concurrency

variable {T V : Type}

/-- Steps that change nothing but who waits for a wakeup. -/
inductive Quiet : Pc T V → Pc T V → Prop
  | notifyOne (result : Result T V) : Quiet (.notifyOne result) (.done result)
  | reclaimNone : Quiet .reclaimExpired .claimNext
  | notifyReclaimed : Quiet .notifyReclaimed .claimNext
  | awoken (wakeAt : Option Instant) : Quiet (.awaitChanged wakeAt) .reclaimExpired
  | park (wakeAt : Option Instant) : Quiet (.awaitChanged wakeAt) (.parked wakeAt)
  | unpark (wakeAt : Option Instant) : Quiet (.parked wakeAt) .reclaimExpired
  | nackStale (id : MessageId) (token : LeaseToken) (reason : Option String) :
      Quiet (.releaseNacked id token reason) (.done (.answered false))
  | leaseChecked (id : MessageId) (token : LeaseToken) (state : V) :
      Quiet (.checkLease id token state) (.appendCheckpoint id token state)
  | checkStale (id : MessageId) (token : LeaseToken) (state : V) :
      Quiet (.checkLease id token state) (.done (.answered false))
  | storeStale (id : MessageId) (token : LeaseToken) (state : V) :
      Quiet (.storeCheckpoint id token state) (.done (.answered false))
  | publishStale (id : MessageId) (token : LeaseToken) (data : V) (isFinal : Bool) :
      Quiet (.pushChunk id token data isFinal) (.done (.published none))
  | notifyPublished (sequence : UInt64) :
      Quiet (.notifyPublished sequence) (.done (.published (some sequence)))
  | polled (id : MessageId) (after : UInt64) (poll : PartialResultsPoll V) :
      Quiet (.pollStream id after) (.done (.polled poll))
  | streamEmpty (id : MessageId) (after : UInt64) :
      Quiet (.pollStream id after) (.awaitStream id after)
  | streamAwoken (id : MessageId) (after : UInt64) :
      Quiet (.awaitStream id after) (.pollStream id after)
  | streamPark (id : MessageId) (after : UInt64) :
      Quiet (.awaitStream id after) (.parkedStream id after)
  | streamUnpark (id : MessageId) (after : UInt64) :
      Quiet (.parkedStream id after) (.pollStream id after)
  | entryChecked (id : MessageId) (verdict : TriageVerdict) :
      Quiet (.checkEntry id verdict) (.appendAnnotate id verdict)
  | entryMissing (id : MessageId) (verdict : TriageVerdict) :
      Quiet (.checkEntry id verdict) (.done (.answered false))
  | takeMissing (id : MessageId) (caller : TakeCaller) :
      Quiet (.takeEntry id caller) (.done (.answered false))

/-- What `reclaim_expired_leases` takes out: every expired lease once, in some order. -/
structure Reclaims (state : State T V) (now : Instant) (order : List MessageId)
    (batch : List (FailedDelivery T V)) : Prop where
  nodup : order.Nodup
  expired : ∀ id, id ∈ order ↔ ∃ lease, state.leased.lookup id = some lease ∧ lease.expired now
  taken : batch = order.filterMap fun id =>
    (state.leased.lookup id).map fun lease => lease.failed id (some "visibility timeout expired")

/-- The group with another main log. -/
def ConsumerGroup.withWal (group : ConsumerGroup T V) (wal : Log (WalRecord T V)) :
    ConsumerGroup T V :=
  { group with wal := wal }

/-- The group with other dead letters in memory. -/
def ConsumerGroup.withEntries (group : ConsumerGroup T V) (entries : DeadLetters T V) :
    ConsumerGroup T V :=
  { group with dlq := { group.dlq with entries := entries } }

/-- The group with another dead-letter log. -/
def ConsumerGroup.withDlqWal (group : ConsumerGroup T V) (wal : Log (DlqRecord T V)) :
    ConsumerGroup T V :=
  { group with dlq := { group.dlq with wal := wal } }

/-- The ways one atomic step can change a group and the operation that takes it. -/
inductive Moved (now : Instant) (wallClock : Timestamp) (env : StepEnv) (group : ConsumerGroup T V) :
    Pc T V → ConsumerGroup T V → Pc T V → Prop
  | quiet (changed : Notify) {pc next : Pc T V} (quiet : Quiet pc next) :
      Moved now wallClock env group pc { group with changed := changed } next
  | reserveHit {message : Message T} {key : IdempotencyKey} {existingId : MessageId}
      (found : group.state.dedup.lookup key = some existingId) :
      Moved now wallClock env group (.reserve message key) group (.done (.message existingId))
  | reserveFresh {message : Message T} {key : IdempotencyKey}
      (absent : group.state.dedup.lookup key = none) :
      Moved now wallClock env group (.reserve message key)
        (group.withState { group.state with dedup := group.state.dedup.insert key message.id })
        (.appendEnqueue message .producer)
  | enqueueWritten {message : Message T} {caller : EnqueueCaller} (told : env.outcome.acknowledged = true) :
      Moved now wallClock env group (.appendEnqueue message caller)
        (group.withWal
          (group.wal.append (.enqueue message.id message.idempotencyKey message.item)
            env.outcome).1)
        (.pushPending message caller)
  | enqueueFailed {message : Message T} {caller : EnqueueCaller} (failed : env.outcome.acknowledged = false) :
      Moved now wallClock env group (.appendEnqueue message caller)
        (group.withWal
          (group.wal.append (.enqueue message.id message.idempotencyKey message.item)
            env.outcome).1)
        (releaseThenFail message.id message.idempotencyKey)
  | pushPending {message : Message T} {caller : EnqueueCaller} :
      Moved now wallClock env group (.pushPending message caller)
        (group.withState { group.state with
          pending := group.state.pending ++
            [.fresh message.id message.item message.idempotencyKey] })
        (.notifyOne (caller.result message.id))
  | releaseKey {id : MessageId} {key : IdempotencyKey} {result : Result T V} :
      Moved now wallClock env group (.releaseKey id key result)
        (group.withState { group.state with dedup := group.state.dedup.erase key }) (.done result)
  | reclaim {order : List MessageId} {failed : FailedDelivery T V} {rest : List (FailedDelivery T V)}
      (reclaims : Reclaims group.state now order (failed :: rest)) :
      Moved now wallClock env group .reclaimExpired
        (group.withState { group.state with
          leased := order.foldl (fun leased id => leased.erase id) group.state.leased })
        (.resolve failed (.reclaim rest))
  | claimed {entry : Pending T V} {rest : List (Pending T V)}
      (front : (group.state.promoteReadyDelayed now).pending = entry :: rest) :
      Moved now wallClock env group .claimNext
        { group with
          state := { group.state.promoteReadyDelayed now with
            pending := rest
            leased := group.state.leased.insert entry.id
              (entry.lease ⟨group.nextLeaseToken⟩ (now + group.visibilityTimeout)) }
          nextLeaseToken := group.nextLeaseToken + 1 }
        (.notifyOne (.claimed (entry.claim ⟨group.nextLeaseToken⟩)))
  | promoted (wakeAt : Option Instant) (empty : (group.state.promoteReadyDelayed now).pending = []) :
      Moved now wallClock env group .claimNext
        (group.withState (group.state.promoteReadyDelayed now)) (.awaitChanged wakeAt)
  | retried {failed : FailedDelivery T V} {caller : ResolveCaller T V}
      (attemptsLeft : group.retryPolicy.isExhausted failed.deliveryCount = false) :
      Moved now wallClock env group (.resolve failed caller)
        (group.withState { group.state with
          delayed := group.state.delayed ++
            [failed.delayed (now + group.retryPolicy.delayFor failed.deliveryCount env.draw)] })
        caller.next
  | exhaustedWritten {failed : FailedDelivery T V} {caller : ResolveCaller T V}
      (exhausted : group.retryPolicy.isExhausted failed.deliveryCount = true)
      (told : env.outcome.acknowledged = true) :
      Moved now wallClock env group (.resolve failed caller)
        (group.withDlqWal
          (group.dlq.wal.append (.deadLetter (failed.deadLetter wallClock)) env.outcome).1)
        (.insertDeadLetter (failed.deadLetter wallClock) caller)
  | exhaustedFailed {failed : FailedDelivery T V} {caller : ResolveCaller T V}
      (exhausted : group.retryPolicy.isExhausted failed.deliveryCount = true)
      (refused : env.outcome.acknowledged = false) :
      Moved now wallClock env group (.resolve failed caller)
        (group.withDlqWal
          (group.dlq.wal.append (.deadLetter (failed.deadLetter wallClock)) env.outcome).1)
        caller.failed
  | insertDeadLetter {deadLetter : DeadLetter T V} {caller : ResolveCaller T V} :
      Moved now wallClock env group (.insertDeadLetter deadLetter caller)
        (group.withEntries (group.dlq.entries.insert deadLetter.id deadLetter))
        (.appendDeadLettered deadLetter.id caller)
  | deadLetteredWritten {id : MessageId} {caller : ResolveCaller T V} (told : env.outcome.acknowledged = true) :
      Moved now wallClock env group (.appendDeadLettered id caller)
        (group.withWal (group.wal.append (.deadLettered id) env.outcome).1) caller.next
  | deadLetteredFailed {id : MessageId} {caller : ResolveCaller T V} (failed : env.outcome.acknowledged = false) :
      Moved now wallClock env group (.appendDeadLettered id caller)
        (group.withWal (group.wal.append (.deadLettered id) env.outcome).1) caller.failed
  | acked {id : MessageId} {token : LeaseToken} {lease : Leased T V}
      (active : group.state.activeLease id token = some lease) :
      Moved now wallClock env group (.releaseAcked id token)
        (group.withState { group.state with
          leased := group.state.leased.erase id
          dedup := group.state.dedup.release lease.idempotencyKey })
        (.appendAck id)
  | ackStale {id : MessageId} {token : LeaseToken}
      (stale : group.state.activeLease id token = none) :
      Moved now wallClock env group (.releaseAcked id token) group (.done (.answered false))
  | ackWritten {id : MessageId} (told : env.outcome.acknowledged = true) :
      Moved now wallClock env group (.appendAck id)
        (group.withWal (group.wal.append (.ack id) env.outcome).1) (.done (.answered true))
  | ackFailed {id : MessageId} (failed : env.outcome.acknowledged = false) :
      Moved now wallClock env group (.appendAck id)
        (group.withWal (group.wal.append (.ack id) env.outcome).1) (.done .ioError)
  | nacked {id : MessageId} {token : LeaseToken} {reason : Option String} {lease : Leased T V}
      (active : group.state.activeLease id token = some lease) :
      Moved now wallClock env group (.releaseNacked id token reason)
        (group.withState { group.state with leased := group.state.leased.erase id })
        (.resolve (lease.failed id reason) .nack)
  | checkpointWritten {id : MessageId} {token : LeaseToken} {state : V}
      (told : env.outcome.acknowledged = true) :
      Moved now wallClock env group (.appendCheckpoint id token state)
        (group.withWal (group.wal.append (.checkpoint id state) env.outcome).1)
        (.storeCheckpoint id token state)
  | checkpointFailed {id : MessageId} {token : LeaseToken} {state : V}
      (failed : env.outcome.acknowledged = false) :
      Moved now wallClock env group (.appendCheckpoint id token state)
        (group.withWal (group.wal.append (.checkpoint id state) env.outcome).1) (.done .ioError)
  | checkpointStored {id : MessageId} {token : LeaseToken} {state : V} {lease : Leased T V}
      (active : group.state.activeLease id token = some lease) :
      Moved now wallClock env group (.storeCheckpoint id token state)
        (group.withState { group.state with
          leased := group.state.leased.insert id { lease with checkpoint := some state } })
        (.done (.answered true))
  | published {id : MessageId} {token : LeaseToken} {data : V} {isFinal : Bool} {lease : Leased T V}
      (sequence : UInt64) (active : group.state.activeLease id token = some lease) :
      Moved now wallClock env group (.pushChunk id token data isFinal)
        (group.withState { group.state with
          leased := group.state.leased.insert id
            { lease with stream := lease.stream ++ [⟨sequence, data, isFinal⟩] } })
        (.notifyPublished sequence)
  | annotateWritten {id : MessageId} {verdict : TriageVerdict} (told : env.outcome.acknowledged = true) :
      Moved now wallClock env group (.appendAnnotate id verdict)
        (group.withDlqWal (group.dlq.wal.append (.annotate id verdict) env.outcome).1)
        (.storeVerdict id verdict)
  | annotateFailed {id : MessageId} {verdict : TriageVerdict} (failed : env.outcome.acknowledged = false) :
      Moved now wallClock env group (.appendAnnotate id verdict)
        (group.withDlqWal (group.dlq.wal.append (.annotate id verdict) env.outcome).1)
        (.done .ioError)
  | verdictStored {id : MessageId} {verdict : TriageVerdict} (found : Bool) :
      Moved now wallClock env group (.storeVerdict id verdict)
        (group.withEntries (group.dlq.entries.annotate id verdict)) (.done (.answered found))
  | taken {id : MessageId} {caller : TakeCaller} {deadLetter : DeadLetter T V}
      (found : group.dlq.entries.lookup id = some deadLetter) :
      Moved now wallClock env group (.takeEntry id caller)
        (group.withEntries (group.dlq.entries.erase id)) (.appendRemove deadLetter caller)
  | removeWritten {deadLetter : DeadLetter T V} {caller : TakeCaller} (told : env.outcome.acknowledged = true) :
      Moved now wallClock env group (.appendRemove deadLetter caller)
        (group.withDlqWal (group.dlq.wal.append (.remove deadLetter.id) env.outcome).1)
        (caller.next deadLetter)
  | removeFailed {deadLetter : DeadLetter T V} {caller : TakeCaller} (failed : env.outcome.acknowledged = false) :
      Moved now wallClock env group (.appendRemove deadLetter caller)
        (group.withDlqWal (group.dlq.wal.append (.remove deadLetter.id) env.outcome).1)
        (.done .ioError)

/-- A step that does not touch the wakeups either. -/
theorem Moved.still {now : Instant} {wallClock : Timestamp} {env : StepEnv}
    {group : ConsumerGroup T V} {pc next : Pc T V} (quiet : Quiet pc next) :
    Moved now wallClock env group pc group next :=
  .quiet group.changed quiet

/-- The expired leases are the ones whose timeout has passed. -/
theorem mem_expiredIds {state : State T V} {now : Instant} {id : MessageId} :
    id ∈ state.expiredIds now ↔
      ∃ lease, state.leased.lookup id = some lease ∧ lease.expired now := by
  simp only [State.expiredIds, Finset.mem_filter, Finmap.mem_keys, ← Finmap.lookup_isSome,
    Option.any_eq_true]
  -- The expired ids are keys of the lease table.
  constructor
  · intro ⟨_, lease, found, expired⟩
    exact ⟨lease, found, expired⟩
  · intro ⟨lease, found, expired⟩
    exact ⟨by simp [found], lease, found, expired⟩

/-- Taking out the expired leases either finds none, or starts a batch with the first of them. -/
theorem reclaimExpired_moved {now : Instant} {wallClock : Timestamp} {env : StepEnv}
    {group group' : ConsumerGroup T V} {order : List MessageId} {next : Pc T V}
    (stepped : group.reclaimExpired now order = some (group', next)) :
    Moved now wallClock env group .reclaimExpired group' next := by
  unfold ConsumerGroup.reclaimExpired at stepped
  -- The sweep visits each expired lease once, in whatever order the map yields them.
  split at stepped
  · rename_i iterates
    obtain ⟨nodup, whole⟩ := iterates
    dsimp only at stepped
    split at stepped
    · cases stepped
      exact .still .reclaimNone
    · rename_i failed rest batch
      cases stepped
      refine .reclaim ⟨nodup, ?_, batch.symm⟩
      intro id
      rw [← mem_expiredIds, ← whole, List.mem_toFinset]
  · cases stepped

/-- An append to the main log moves on as the call is told that it ended. -/
theorem append_moved {now : Instant} {wallClock : Timestamp} {env : StepEnv}
    {group : ConsumerGroup T V} {record : WalRecord T V} {pc written failed : Pc T V}
    (success : env.outcome.acknowledged = true →
      Moved now wallClock env group pc
        (group.withWal (group.wal.append record env.outcome).1) written)
    (failure : env.outcome.acknowledged = false →
      Moved now wallClock env group pc
        (group.withWal (group.wal.append record env.outcome).1) failed) :
    Moved now wallClock env group pc (group.append record env.outcome written failed).1
      (group.append record env.outcome written failed).2 := by
  cases told : env.outcome.acknowledged with
  | true => simpa [ConsumerGroup.append, ConsumerGroup.withWal, told] using success told
  | false => simpa [ConsumerGroup.append, ConsumerGroup.withWal, told] using failure told

/-- An append to the dead-letter log moves on as the call is told that it ended. -/
theorem appendDlq_moved {now : Instant} {wallClock : Timestamp} {env : StepEnv}
    {group : ConsumerGroup T V} {record : DlqRecord T V} {pc written failed : Pc T V}
    (success : env.outcome.acknowledged = true →
      Moved now wallClock env group pc
        (group.withDlqWal (group.dlq.wal.append record env.outcome).1) written)
    (failure : env.outcome.acknowledged = false →
      Moved now wallClock env group pc
        (group.withDlqWal (group.dlq.wal.append record env.outcome).1) failed) :
    Moved now wallClock env group pc (group.appendDlq record env.outcome written failed).1
      (group.appendDlq record env.outcome written failed).2 := by
  -- Whether the record is reported as written decides how the operation goes on.
  cases told : env.outcome.acknowledged with
  | true =>
    simpa [ConsumerGroup.appendDlq, DeadLetterQueue.append, ConsumerGroup.withDlqWal, told]
      using success told
  | false =>
    simpa [ConsumerGroup.appendDlq, DeadLetterQueue.append, ConsumerGroup.withDlqWal, told]
      using failure told

/-- Taking the lock for a claim leases the front message, or finds none. -/
theorem claimNext_moved (now : Instant) (wallClock : Timestamp) (env : StepEnv)
    (group : ConsumerGroup T V) :
    Moved now wallClock env group .claimNext (group.claimNext now).1 (group.claimNext now).2 := by
  -- After promotion there is a message to lease or none.
  cases front : (group.state.promoteReadyDelayed now).pending with
  | nil =>
    simp only [ConsumerGroup.claimNext, front]
    exact .promoted _ front
  | cons entry rest =>
    simp only [ConsumerGroup.claimNext, front]
    exact .claimed front

/-- Resolving a failed delivery schedules a retry, or starts dead-lettering it. -/
theorem resolve_moved (now : Instant) (wallClock : Timestamp) (env : StepEnv)
    (group : ConsumerGroup T V) (failed : FailedDelivery T V) (caller : ResolveCaller T V) :
    Moved now wallClock env group (.resolve failed caller)
      (group.resolve now wallClock env failed caller).1
      (group.resolve now wallClock env failed caller).2 := by
  -- The retry policy decides between a backoff and a dead letter.
  cases exhausted : group.retryPolicy.isExhausted failed.deliveryCount with
  | false =>
    simp only [ConsumerGroup.resolve, exhausted, Bool.false_eq_true, if_false]
    exact .retried exhausted
  | true =>
    simp only [ConsumerGroup.resolve, exhausted, if_true]
    exact appendDlq_moved (.exhaustedWritten exhausted) (.exhaustedFailed exhausted)

/-- Every atomic step of an operation is one of the ways listed. -/
theorem move_moved {self : Nat} {now : Instant} {wallClock : Timestamp} {env : StepEnv}
    {group group' : ConsumerGroup T V} {pc next : Pc T V}
    (stepped : group.move self now wallClock env pc = some (group', next)) :
    Moved now wallClock env group pc group' next := by
  -- One case for each program point, in the order of `ConsumerGroup.move`.
  cases pc with
  | reserve message key =>
    simp only [ConsumerGroup.move, ConsumerGroup.reserve] at stepped
    cases found : group.state.dedup.lookup key <;> rw [found] at stepped <;> cases stepped
    · exact .reserveFresh found
    · exact .reserveHit found
  | appendEnqueue message caller =>
    cases stepped
    exact append_moved .enqueueWritten .enqueueFailed
  | pushPending message caller => cases stepped; exact .pushPending
  | releaseKey id key result => cases stepped; exact .releaseKey
  | notifyOne result => cases stepped; exact .quiet _ (.notifyOne result)
  | reclaimExpired => exact reclaimExpired_moved stepped
  | notifyReclaimed => cases stepped; exact .quiet _ .notifyReclaimed
  | claimNext =>
    have same : group.claimNext now = (group', next) := Option.some.inj stepped
    have moved := claimNext_moved now wallClock env group
    rw [same] at moved
    exact moved
  -- A task that waits is woken, or parks until it is or until its time has come.
  | awaitChanged wakeAt =>
    cases stepped
    split
    · exact .quiet _ (.awoken wakeAt)
    · exact .quiet _ (.park wakeAt)
  | parked wakeAt =>
    simp only [ConsumerGroup.move] at stepped
    split at stepped
    · cases stepped; exact .quiet _ (.unpark wakeAt)
    · split at stepped <;> cases stepped
      exact .quiet _ (.unpark wakeAt)
  | resolve failed caller =>
    have same : group.resolve now wallClock env failed caller = (group', next) :=
      Option.some.inj stepped
    have moved := resolve_moved now wallClock env group failed caller
    rw [same] at moved
    exact moved
  | insertDeadLetter deadLetter caller => cases stepped; exact .insertDeadLetter
  | appendDeadLettered id caller =>
    cases stepped
    exact append_moved .deadLetteredWritten .deadLetteredFailed
  -- A token that is stale changes nothing.
  | releaseAcked id token =>
    simp only [ConsumerGroup.move, ConsumerGroup.releaseAcked] at stepped
    cases active : group.state.activeLease id token <;> rw [active] at stepped <;> cases stepped
    · exact .ackStale active
    · exact .acked active
  | appendAck id => cases stepped; exact append_moved .ackWritten .ackFailed
  | releaseNacked id token reason =>
    simp only [ConsumerGroup.move, ConsumerGroup.releaseNacked] at stepped
    cases active : group.state.activeLease id token <;> rw [active] at stepped <;> cases stepped
    · exact .still (.nackStale id token reason)
    · exact .nacked active
  | checkLease id token state =>
    cases stepped
    split
    · exact .still (.leaseChecked id token state)
    · exact .still (.checkStale id token state)
  | appendCheckpoint id token state =>
    cases stepped
    exact append_moved .checkpointWritten .checkpointFailed
  | storeCheckpoint id token state =>
    simp only [ConsumerGroup.move, ConsumerGroup.storeCheckpoint] at stepped
    cases active : group.state.activeLease id token <;> rw [active] at stepped <;> cases stepped
    · exact .still (.storeStale id token state)
    · exact .checkpointStored active
  | pushChunk id token data isFinal =>
    simp only [ConsumerGroup.move, ConsumerGroup.pushChunk] at stepped
    cases active : group.state.activeLease id token <;> rw [active] at stepped <;> cases stepped
    · exact .still (.publishStale id token data isFinal)
    · exact .published _ active
  | notifyPublished sequence => cases stepped; exact .quiet _ (.notifyPublished sequence)
  -- A poll has an answer once its message has no lease, or has chunks behind the cursor.
  | pollStream id after =>
    cases stepped
    unfold ConsumerGroup.pollStream
    split
    · exact .still (.polled id after _)
    · split
      · exact .still (.streamEmpty id after)
      · exact .still (.polled id after _)
  | awaitStream id after =>
    cases stepped
    split
    · exact .quiet _ (.streamAwoken id after)
    · exact .quiet _ (.streamPark id after)
  | parkedStream id after =>
    simp only [ConsumerGroup.move] at stepped
    split at stepped <;> cases stepped
    exact .quiet _ (.streamUnpark id after)
  | checkEntry id verdict =>
    cases stepped
    split
    · exact .still (.entryChecked id verdict)
    · exact .still (.entryMissing id verdict)
  | appendAnnotate id verdict =>
    cases stepped
    exact appendDlq_moved .annotateWritten .annotateFailed
  | storeVerdict id verdict => cases stepped; exact .verdictStored _
  -- A dead letter that is not there is not taken.
  | takeEntry id caller =>
    simp only [ConsumerGroup.move, ConsumerGroup.takeEntry] at stepped
    cases found : group.dlq.entries.lookup id <;> rw [found] at stepped <;> cases stepped
    · exact .still (.takeMissing id caller)
    · exact .taken found
  | appendRemove deadLetter caller =>
    cases stepped
    exact appendDlq_moved .removeWritten .removeFailed
  | done result => cases stepped

end Qaas
