import Qaas.Concurrency.Pool
import Qaas.Concurrency.Run
import Qaas.Group.Open

/-! The operations of a consumer group, cut into the atomic steps that other tasks can come between. -/

namespace Qaas

open Concurrency

/-- A message as a producer hands it in, with the id it is given. -/
structure Message (T : Type) where
  id : MessageId
  item : T
  idempotencyKey : Option IdempotencyKey
  deriving DecidableEq, Repr

/-- An operation, with its arguments. -/
inductive Call (T V : Type)
  -- `enqueue` and `enqueue_with_key`; the id is the one `MessageId::new` generates for the call.
  | enqueue (message : Message T)
  | claim
  | ack (id : MessageId) (token : LeaseToken)
  | nack (id : MessageId) (token : LeaseToken) (reason : Option String)
  | checkpoint (id : MessageId) (token : LeaseToken) (state : V)
  | publishPartialResult (id : MessageId) (token : LeaseToken) (data : V) (isFinal : Bool)
  | partialResultsSince (id : MessageId) (after : UInt64)
  | annotateDeadLetter (id : MessageId) (verdict : TriageVerdict)
  | reprocessDeadLetter (id : MessageId)
  | purgeDeadLetter (id : MessageId)
  deriving DecidableEq, Repr

/-- What `partial_results_since` reports. -/
inductive PartialResultsPoll (V : Type)
  | chunks (chunks : List (StreamChunk V))
  | notActive
  deriving DecidableEq, Repr

/-- What an operation returns. -/
inductive Result (T V : Type)
  -- `Ok` of an enqueue.
  | message (id : MessageId)
  | claimed (claim : Claim T V)
  -- `Ok` of the operations that say whether they found what they were about.
  | answered (found : Bool)
  | published (sequence : Option UInt64)
  | polled (poll : PartialResultsPoll V)
  | ioError
  deriving DecidableEq, Repr

/-- Who calls `write_enqueue_record`. -/
inductive EnqueueCaller
  | producer
  | reprocess
  deriving DecidableEq, Repr

/-- Who calls `resolve_failed_delivery`; `reclaim_expired_leases` has the rest of its batch to go. -/
inductive ResolveCaller (T V : Type)
  | nack
  | reclaim (rest : List (FailedDelivery T V))
  deriving DecidableEq, Repr

/-- Who calls `DeadLetterQueue::take`. -/
inductive TakeCaller
  | reprocess
  | purge
  deriving DecidableEq, Repr

/-- The atomic step an operation takes next, with the local variables it has by then. -/
inductive Pc (T V : Type)
  -- `enqueue_with_id_and_key`: look the key up, or reserve it.
  | reserve (message : Message T) (key : IdempotencyKey)
  -- `write_enqueue_record`
  | appendEnqueue (message : Message T) (caller : EnqueueCaller)
  | pushPending (message : Message T) (caller : EnqueueCaller)
  -- `dedup.remove(key)`, for a failed write and for `purge_dead_letter`.
  | releaseKey (id : MessageId) (key : IdempotencyKey) (result : Result T V)
  | notifyOne (result : Result T V)
  -- `claim`
  | reclaimExpired
  | notifyReclaimed
  | claimNext
  | awaitChanged (wakeAt : Option Instant)
  | parked (wakeAt : Option Instant)
  -- `resolve_failed_delivery`
  | resolve (failed : FailedDelivery T V) (caller : ResolveCaller T V)
  | insertDeadLetter (deadLetter : DeadLetter T V) (caller : ResolveCaller T V)
  | appendDeadLettered (id : MessageId) (caller : ResolveCaller T V)
  -- `ack`
  | releaseAcked (id : MessageId) (token : LeaseToken)
  | appendAck (id : MessageId)
  -- `nack`
  | releaseNacked (id : MessageId) (token : LeaseToken) (reason : Option String)
  -- `checkpoint`
  | checkLease (id : MessageId) (token : LeaseToken) (state : V)
  | appendCheckpoint (id : MessageId) (token : LeaseToken) (state : V)
  | storeCheckpoint (id : MessageId) (token : LeaseToken) (state : V)
  -- `publish_partial_result`
  | pushChunk (id : MessageId) (token : LeaseToken) (data : V) (isFinal : Bool)
  | notifyPublished (sequence : UInt64)
  -- `partial_results_since`
  | pollStream (id : MessageId) (after : UInt64)
  | awaitStream (id : MessageId) (after : UInt64)
  | parkedStream (id : MessageId) (after : UInt64)
  -- `DeadLetterQueue::annotate`
  | checkEntry (id : MessageId) (verdict : TriageVerdict)
  | appendAnnotate (id : MessageId) (verdict : TriageVerdict)
  | storeVerdict (id : MessageId) (verdict : TriageVerdict)
  -- `DeadLetterQueue::take`
  | takeEntry (id : MessageId) (caller : TakeCaller)
  | appendRemove (deadLetter : DeadLetter T V) (caller : TakeCaller)
  | done (result : Result T V)
  deriving DecidableEq

variable {T V : Type}

/-- The first step of an operation. -/
def Call.entry : Call T V → Pc T V
  | .enqueue message =>
    match message.idempotencyKey with
    | some key => .reserve message key
    | none => .appendEnqueue message .producer
  | .claim => .reclaimExpired
  | .ack id token => .releaseAcked id token
  | .nack id token reason => .releaseNacked id token reason
  | .checkpoint id token state => .checkLease id token state
  | .publishPartialResult id token data isFinal => .pushChunk id token data isFinal
  | .partialResultsSince id after => .pollStream id after
  | .annotateDeadLetter id verdict => .checkEntry id verdict
  | .reprocessDeadLetter id => .takeEntry id .reprocess
  | .purgeDeadLetter id => .takeEntry id .purge

/-- What a step leaves to chance or to the world outside. -/
structure StepEnv where
  -- How an append ends.
  outcome : AppendOutcome := .ok
  -- The order in which the lease map iterates the expired leases.
  order : List MessageId := []
  -- What `fastrand::f64` returns.
  draw : Draw := .zero

/-- What `write_enqueue_record` lets its caller return. -/
def EnqueueCaller.result (id : MessageId) : EnqueueCaller → Result T V
  | .producer => .message id
  | .reprocess => .answered true

/-- How the caller goes on after a delivery has been resolved. -/
def ResolveCaller.next : ResolveCaller T V → Pc T V
  | .nack => .notifyOne (.answered true)
  | .reclaim [] => .notifyReclaimed
  | .reclaim (failed :: rest) => .resolve failed (.reclaim rest)

/-- How the caller goes on after an error: a reclaim only logs it. -/
def ResolveCaller.failed : ResolveCaller T V → Pc T V
  | .nack => .done .ioError
  | .reclaim rest => ResolveCaller.next (.reclaim rest)

/-- Release a key if there is one, and return an error. -/
def releaseThenFail (id : MessageId) : Option IdempotencyKey → Pc T V
  | some key => .releaseKey id key .ioError
  | none => .done .ioError

/-- How the caller of `take` goes on with the entry. -/
def TakeCaller.next (deadLetter : DeadLetter T V) : TakeCaller → Pc T V
  | .reprocess =>
    .appendEnqueue ⟨deadLetter.id, deadLetter.item, deadLetter.idempotencyKey⟩ .reprocess
  | .purge =>
    match deadLetter.idempotencyKey with
    | some key => .releaseKey deadLetter.id key (.answered true)
    | none => .done (.answered true)

/-- Replace the part of a group that its lock protects. -/
def ConsumerGroup.withState (group : ConsumerGroup T V) (state : State T V) : ConsumerGroup T V :=
  { group with state := state }

/-- Append one record to the main log, and go on as the write ends. -/
def ConsumerGroup.append (group : ConsumerGroup T V) (record : WalRecord T V)
    (outcome : AppendOutcome) (written failed : Pc T V) : ConsumerGroup T V × Pc T V :=
  let (wal, ok) := group.wal.append record outcome
  ({ group with wal }, if ok then written else failed)

/-- Append one record to the dead-letter queue's log, and go on as the write ends. -/
def ConsumerGroup.appendDlq (group : ConsumerGroup T V) (record : DlqRecord T V)
    (outcome : AppendOutcome) (written failed : Pc T V) : ConsumerGroup T V × Pc T V :=
  let (dlq, ok) := group.dlq.append record outcome
  ({ group with dlq }, if ok then written else failed)

/-- `enqueue_with_id_and_key`, under the lock. -/
def ConsumerGroup.reserve (group : ConsumerGroup T V) (message : Message T) (key : IdempotencyKey) :
    ConsumerGroup T V × Pc T V :=
  match group.state.dedup.lookup key with
  | some existingId => (group, .done (.message existingId))
  | none =>
    (group.withState { group.state with dedup := group.state.dedup.insert key message.id },
      .appendEnqueue message .producer)

/-- `reclaim_expired_leases`, up to the loop over the batch it took out. -/
def ConsumerGroup.reclaimExpired (group : ConsumerGroup T V) (now : Instant)
    (order : List MessageId) : Option (ConsumerGroup T V × Pc T V) :=
  -- The map may iterate the expired leases in any order, and yields each of them once.
  if order.Nodup ∧ order.toFinset = group.state.expiredIds now then
    let expired := order.filterMap fun id =>
      (group.state.leased.lookup id).map fun lease => lease.failed id (some "visibility timeout expired")
    let leased := order.foldl (fun leased id => leased.erase id) group.state.leased
    match expired with
    | [] => some (group, .claimNext)
    | failed :: rest =>
      some (group.withState { group.state with leased }, .resolve failed (.reclaim rest))
  else none

/-- `claim`, from the second time it takes the lock. -/
def ConsumerGroup.claimNext (group : ConsumerGroup T V) (now : Instant) :
    ConsumerGroup T V × Pc T V :=
  let state := group.state.promoteReadyDelayed now
  match state.pending with
  | entry :: pending =>
    let token : LeaseToken := ⟨group.nextLeaseToken⟩
    let lease := entry.lease token (now + group.visibilityTimeout)
    ({ group with
        state := { state with pending, leased := state.leased.insert entry.id lease }
        nextLeaseToken := group.nextLeaseToken + 1 },
      .notifyOne (.claimed (entry.claim token)))
  | [] => (group.withState state, .awaitChanged state.earliestWake)

/-- `resolve_failed_delivery`, up to the end of its first write. -/
def ConsumerGroup.resolve (group : ConsumerGroup T V) (now : Instant) (wallClock : Timestamp)
    (env : StepEnv) (failed : FailedDelivery T V) (caller : ResolveCaller T V) :
    ConsumerGroup T V × Pc T V :=
  if group.retryPolicy.isExhausted failed.deliveryCount then
    let deadLetter := failed.deadLetter wallClock
    group.appendDlq (.deadLetter deadLetter) env.outcome (.insertDeadLetter deadLetter caller)
      caller.failed
  else
    let delay := group.retryPolicy.delayFor failed.deliveryCount env.draw
    (group.withState
        { group.state with delayed := group.state.delayed ++ [failed.delayed (now + delay)] },
      caller.next)

/-- `ack`, under the lock. -/
def ConsumerGroup.releaseAcked (group : ConsumerGroup T V) (id : MessageId) (token : LeaseToken) :
    ConsumerGroup T V × Pc T V :=
  match group.state.activeLease id token with
  | some lease =>
    (group.withState { group.state with
        leased := group.state.leased.erase id
        dedup := group.state.dedup.release lease.idempotencyKey },
      .appendAck id)
  | none => (group, .done (.answered false))

/-- `nack`, under the lock. -/
def ConsumerGroup.releaseNacked (group : ConsumerGroup T V) (id : MessageId) (token : LeaseToken)
    (reason : Option String) : ConsumerGroup T V × Pc T V :=
  match group.state.activeLease id token with
  | some lease =>
    (group.withState { group.state with leased := group.state.leased.erase id },
      .resolve (lease.failed id reason) .nack)
  | none => (group, .done (.answered false))

/-- `checkpoint`, under the lock for the second time. -/
def ConsumerGroup.storeCheckpoint (group : ConsumerGroup T V) (id : MessageId) (token : LeaseToken)
    (state : V) : ConsumerGroup T V × Pc T V :=
  match group.state.activeLease id token with
  | some lease =>
    (group.withState { group.state with
        leased := group.state.leased.insert id { lease with checkpoint := some state } },
      .done (.answered true))
  | none => (group, .done (.answered false))

/-- `publish_partial_result`, under the lock. -/
def ConsumerGroup.pushChunk (group : ConsumerGroup T V) (id : MessageId) (token : LeaseToken)
    (data : V) (isFinal : Bool) : ConsumerGroup T V × Pc T V :=
  match group.state.activeLease id token with
  | some lease =>
    let sequence := UInt64.ofNat lease.stream.length + 1
    (group.withState { group.state with
        leased := group.state.leased.insert id
          { lease with stream := lease.stream ++ [⟨sequence, data, isFinal⟩] } },
      .notifyPublished sequence)
  | none => (group, .done (.published none))

/-- `partial_results_since`, under the lock. -/
def ConsumerGroup.pollStream (group : ConsumerGroup T V) (id : MessageId) (after : UInt64) : Pc T V :=
  match group.state.leased.lookup id with
  | none => .done (.polled .notActive)
  | some lease =>
    match lease.stream.filter fun chunk => after < chunk.sequence with
    | [] => .awaitStream id after
    | chunks => .done (.polled (.chunks chunks))

/-- `DeadLetterQueue::annotate`, under the lock for the second time. -/
def ConsumerGroup.storeVerdict (group : ConsumerGroup T V) (id : MessageId)
    (verdict : TriageVerdict) : ConsumerGroup T V × Pc T V :=
  ({ group with dlq := { group.dlq with entries := group.dlq.entries.annotate id verdict } },
    .done (.answered (group.dlq.entries.lookup id).isSome))

/-- `DeadLetterQueue::take`, under the lock. -/
def ConsumerGroup.takeEntry (group : ConsumerGroup T V) (id : MessageId) (caller : TakeCaller) :
    ConsumerGroup T V × Pc T V :=
  match group.dlq.entries.lookup id with
  | some deadLetter =>
    ({ group with dlq := { group.dlq with entries := group.dlq.entries.erase id } },
      .appendRemove deadLetter caller)
  | none => (group, .done (.answered false))

/-- Whether a deadline has passed. -/
def elapsed (wakeAt : Option Instant) (now : Instant) : Bool :=
  wakeAt.any (· ≤ now)

/-- Ask for a wakeup of the group, and go on at once or wait for it. -/
def ConsumerGroup.listen (group : ConsumerGroup T V) (self : Nat) (ready waiting : Pc T V) :
    ConsumerGroup T V × Pc T V :=
  let (changed, woken) := group.changed.notified self
  ({ group with changed }, if woken then ready else waiting)

/-- The next atomic step of one operation. -/
def ConsumerGroup.move (self : Nat) (now : Instant) (wallClock : Timestamp) (env : StepEnv)
    (group : ConsumerGroup T V) : Pc T V → Option (ConsumerGroup T V × Pc T V)
  | .reserve message key => some (group.reserve message key)
  | .appendEnqueue message caller =>
    some (group.append (.enqueue message.id message.idempotencyKey message.item) env.outcome
      (.pushPending message caller) (releaseThenFail message.id message.idempotencyKey))
  | .pushPending message caller =>
    some (group.withState { group.state with
        pending := group.state.pending ++
          [.fresh message.id message.item message.idempotencyKey] },
      .notifyOne (caller.result message.id))
  | .releaseKey _ key result =>
    some (group.withState { group.state with dedup := group.state.dedup.erase key }, .done result)
  | .notifyOne result => some ({ group with changed := group.changed.notifyOne }, .done result)
  | .reclaimExpired => group.reclaimExpired now env.order
  | .notifyReclaimed => some ({ group with changed := group.changed.notifyWaiters }, .claimNext)
  | .claimNext => some (group.claimNext now)
  | .awaitChanged wakeAt => some (group.listen self .reclaimExpired (.parked wakeAt))
  | .parked wakeAt =>
    -- `timeout_at` polls the wakeup before it looks at the deadline.
    if group.changed.ready self then
      some ({ group with changed := group.changed.withdraw self }, .reclaimExpired)
    else if elapsed wakeAt now then
      some ({ group with changed := group.changed.cancel self }, .reclaimExpired)
    else none
  | .resolve failed caller => some (group.resolve now wallClock env failed caller)
  | .insertDeadLetter deadLetter caller =>
    some ({ group with
        dlq := { group.dlq with entries := group.dlq.entries.insert deadLetter.id deadLetter } },
      .appendDeadLettered deadLetter.id caller)
  | .appendDeadLettered id caller =>
    some (group.append (.deadLettered id) env.outcome caller.next caller.failed)
  | .releaseAcked id token => some (group.releaseAcked id token)
  | .appendAck id =>
    some (group.append (.ack id) env.outcome (.done (.answered true)) (.done .ioError))
  | .releaseNacked id token reason => some (group.releaseNacked id token reason)
  | .checkLease id token state =>
    some (group, if (group.state.activeLease id token).isSome then .appendCheckpoint id token state
      else .done (.answered false))
  | .appendCheckpoint id token state =>
    some (group.append (.checkpoint id state) env.outcome (.storeCheckpoint id token state)
      (.done .ioError))
  | .storeCheckpoint id token state => some (group.storeCheckpoint id token state)
  | .pushChunk id token data isFinal => some (group.pushChunk id token data isFinal)
  | .notifyPublished sequence =>
    some ({ group with changed := group.changed.notifyWaiters }, .done (.published (some sequence)))
  | .pollStream id after => some (group, group.pollStream id after)
  | .awaitStream id after => some (group.listen self (.pollStream id after) (.parkedStream id after))
  | .parkedStream id after =>
    if group.changed.ready self then
      some ({ group with changed := group.changed.withdraw self }, .pollStream id after)
    else none
  | .checkEntry id verdict =>
    some (group, if (group.dlq.entries.lookup id).isSome then .appendAnnotate id verdict
      else .done (.answered false))
  | .appendAnnotate id verdict =>
    some (group.appendDlq (.annotate id verdict) env.outcome (.storeVerdict id verdict)
      (.done .ioError))
  | .storeVerdict id verdict => some (group.storeVerdict id verdict)
  | .takeEntry id caller => some (group.takeEntry id caller)
  | .appendRemove deadLetter caller =>
    some (group.appendDlq (.remove deadLetter.id) env.outcome (caller.next deadLetter)
      (.done .ioError))
  | .done _ => none

end Qaas
