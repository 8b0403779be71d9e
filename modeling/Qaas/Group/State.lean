import Qaas.Concurrency.Notify
import Qaas.DeadLetter
import Qaas.Retry
import Mathlib.Data.Multiset.Fold

/-! The data of a consumer group: its records, its four in-memory structures and its configuration. -/

namespace Qaas

open Concurrency

variable {T V : Type}

/-- One entry of a consumer group's log; a JSON value has the type `V`. -/
inductive WalRecord (T V : Type)
  | enqueue (id : MessageId) (idempotencyKey : Option IdempotencyKey) (item : T)
  | ack (id : MessageId)
  | deadLettered (id : MessageId)
  | checkpoint (id : MessageId) (state : V)
  deriving DecidableEq, Repr

/-- A process-local counter value, handed out with a lease and compared on its return. -/
structure LeaseToken where
  value : UInt64
  deriving DecidableEq, Repr

/-- One piece of a delivery's stream of partial results. -/
structure StreamChunk (V : Type) where
  sequence : UInt64
  data : V
  isFinal : Bool
  deriving DecidableEq, Repr

/-- A message waiting to be claimed. -/
structure Pending (T V : Type) where
  id : MessageId
  item : T
  deliveryCount : UInt32
  idempotencyKey : Option IdempotencyKey
  checkpoint : Option V
  deriving DecidableEq, Repr

/-- A message out on a lease. -/
structure Leased (T V : Type) where
  item : T
  token : LeaseToken
  expiresAt : Instant
  deliveryCount : UInt32
  idempotencyKey : Option IdempotencyKey
  checkpoint : Option V
  stream : List (StreamChunk V)
  deriving DecidableEq

/-- A message waiting out a retry backoff. -/
structure Delayed (T V : Type) where
  id : MessageId
  item : T
  deliveryCount : UInt32
  availableAt : Instant
  idempotencyKey : Option IdempotencyKey
  checkpoint : Option V
  deriving DecidableEq

/-- The messages out on a lease, by id. -/
abbrev Leases (T V : Type) := Finmap fun _ : MessageId => Leased T V

/-- The message each idempotency key is taken by. -/
abbrev Dedup := Finmap fun _ : IdempotencyKey => MessageId

/-- Everything under the group's lock. -/
structure State (T V : Type) where
  pending : List (Pending T V)
  leased : Leases T V
  delayed : List (Delayed T V)
  dedup : Dedup

/-- A group in memory, and its two logs. -/
structure ConsumerGroup (T V : Type) where
  state : State T V
  changed : Notify
  wal : Log (WalRecord T V)
  dlq : DeadLetterQueue T V
  visibilityTimeout : Duration
  retryPolicy : RetryPolicy
  nextLeaseToken : UInt64

/-- The messages that a group has not seen acknowledged. -/
def ConsumerGroup.len {T V : Type} (group : ConsumerGroup T V) : Nat :=
  group.state.pending.length + group.state.leased.keys.card + group.state.delayed.length

/-- No message is unacknowledged. -/
def ConsumerGroup.isEmpty (group : ConsumerGroup T V) : Bool :=
  group.len == 0

/-- What a successful `claim` returns. -/
structure Claim (T V : Type) where
  id : MessageId
  token : LeaseToken
  idempotencyKey : IdempotencyKey
  item : T
  deliveryCount : UInt32
  checkpoint : Option V
  deriving DecidableEq, Repr

/-- The arguments of `resolve_failed_delivery`: a delivery that was nacked or whose lease expired. -/
structure FailedDelivery (T V : Type) where
  id : MessageId
  item : T
  deliveryCount : UInt32
  idempotencyKey : Option IdempotencyKey
  checkpoint : Option V
  reason : Option String
  deriving DecidableEq, Repr

/-- A delivery that failed, as its lease was when it ended. -/
def Leased.failed (lease : Leased T V) (id : MessageId) (reason : Option String) :
    FailedDelivery T V :=
  ⟨id, lease.item, lease.deliveryCount, lease.idempotencyKey, lease.checkpoint, reason⟩

/-- The dead letter of a delivery that exhausted its retries. -/
def FailedDelivery.deadLetter (failed : FailedDelivery T V) (now : Timestamp) : DeadLetter T V where
  id := failed.id
  idempotencyKey := failed.idempotencyKey
  item := failed.item
  deliveryCount := failed.deliveryCount
  lastError := failed.reason
  deadLetteredAt := now
  checkpoint := failed.checkpoint
  triage := none

/-- The retry of a delivery that may still be repeated. -/
def FailedDelivery.delayed (failed : FailedDelivery T V) (availableAt : Instant) : Delayed T V where
  id := failed.id
  item := failed.item
  deliveryCount := failed.deliveryCount
  availableAt := availableAt
  idempotencyKey := failed.idempotencyKey
  checkpoint := failed.checkpoint

/-- A retry whose backoff has elapsed, as it goes back to the claimable messages. -/
def Delayed.pending (entry : Delayed T V) : Pending T V :=
  ⟨entry.id, entry.item, entry.deliveryCount, entry.idempotencyKey, entry.checkpoint⟩

/-- Grant a lease on a message for its next delivery. -/
def Pending.lease (entry : Pending T V) (token : LeaseToken) (expiresAt : Instant) : Leased T V where
  item := entry.item
  token := token
  expiresAt := expiresAt
  deliveryCount := entry.deliveryCount + 1
  idempotencyKey := entry.idempotencyKey
  checkpoint := entry.checkpoint
  stream := []

/-- The idempotency key a claim carries: the producer's own, or one derived from the message's id. -/
def effectiveIdempotencyKey (id : MessageId) (explicit : Option IdempotencyKey) : IdempotencyKey :=
  explicit.getD ⟨id.display⟩

/-- The claim a consumer gets with a lease. -/
def Pending.claim (entry : Pending T V) (token : LeaseToken) : Claim T V where
  id := entry.id
  token := token
  idempotencyKey := effectiveIdempotencyKey entry.id entry.idempotencyKey
  item := entry.item
  deliveryCount := entry.deliveryCount + 1
  checkpoint := entry.checkpoint

/-- Move every delayed message whose backoff has elapsed to the back of the pending ones. -/
def State.promoteReadyDelayed (state : State T V) (now : Instant) : State T V :=
  { state with
    pending := state.pending ++
      (state.delayed.filter fun entry => entry.availableAt ≤ now).map Delayed.pending
    delayed := state.delayed.filter fun entry => ¬ entry.availableAt ≤ now }

/-- Whether a lease's visibility timeout has passed. -/
def Leased.expired (lease : Leased T V) (now : Instant) : Bool :=
  lease.expiresAt ≤ now

/-- The ids of the expired leases, of which the map yields a list in an order of its own. -/
def State.expiredIds (state : State T V) (now : Instant) : Finset MessageId :=
  state.leased.keys.filter fun id => (state.leased.lookup id).any (Leased.expired · now)

/-- The lease of a message, if its token is the one given. -/
def State.activeLease (state : State T V) (id : MessageId) (token : LeaseToken) :
    Option (Leased T V) :=
  (state.leased.lookup id).filter fun lease => lease.token = token

/-- The earliest of some instants, if there is one. -/
def earliest (instants : Multiset Instant) : Option Instant :=
  (instants.map some).fold (Option.merge min) none

/-- The earliest instant at which anything leased or delayed could become claimable. -/
def State.earliestWake (state : State T V) : Option Instant :=
  let earliestLeaseExpiry := earliest (state.leased.entries.map fun entry => entry.2.expiresAt)
  let earliestRetry := earliest (state.delayed.map Delayed.availableAt)
  Option.merge min earliestLeaseExpiry earliestRetry

/-- The entry that a fresh `Enqueue` record adds to the pending messages. -/
def Pending.fresh (id : MessageId) (item : T) (idempotencyKey : Option IdempotencyKey) : Pending T V :=
  ⟨id, item, 0, idempotencyKey, none⟩

end Qaas
