import Qaas.Group.State

/-! Opening a consumer group: what it rebuilds from its two logs. -/

namespace Qaas

variable {T V : Type}

/-- `if let Some(key) = &key { dedup.insert(key, id) }` -/
def Dedup.register (dedup : Dedup) (key : Option IdempotencyKey) (id : MessageId) : Dedup :=
  key.elim dedup fun key => dedup.insert key id

/-- `if let Some(key) = &key { dedup.remove(key) }` -/
def Dedup.release (dedup : Dedup) (key : Option IdempotencyKey) : Dedup :=
  key.elim dedup dedup.erase

/-- The latest checkpoint of each message. -/
abbrev Checkpoints (V : Type) := Finmap fun _ : MessageId => V

/-- The local variables of `open` while it reads the main log. -/
structure Replay (T V : Type) where
  pending : List (Pending T V) := []
  dedup : Dedup := ∅
  checkpoints : Checkpoints V := ∅

/-- Replay one record of the main log. -/
def Replay.record (replay : Replay T V) : WalRecord T V → Replay T V
  | .enqueue id idempotencyKey item =>
    { replay with
      pending := replay.pending ++ [.fresh id item idempotencyKey]
      dedup := replay.dedup.register idempotencyKey id }
  | .ack id =>
    match replay.pending.find? fun entry => entry.id = id with
    | some acked =>
      { replay with
        pending := replay.pending.eraseP fun entry => entry.id = id
        dedup := replay.dedup.release acked.idempotencyKey }
    | none => replay
  | .deadLettered id =>
    -- Unlike an ack, dead-lettering keeps the message's key.
    { replay with pending := replay.pending.eraseP fun entry => entry.id = id }
  | .checkpoint id state => { replay with checkpoints := replay.checkpoints.insert id state }

/-- Replay a whole main log. -/
def Replay.records (records : List (WalRecord T V)) : Replay T V :=
  records.foldl Replay.record {}

/-- Give each message still pending its latest checkpoint. -/
def restoreCheckpoints : List (Pending T V) → Checkpoints V → List (Pending T V)
  | [], _ => []
  | entry :: rest, checkpoints =>
    -- `remove` takes the checkpoint out, so a second entry of the same id finds none.
    { entry with checkpoint := checkpoints.lookup entry.id } ::
      restoreCheckpoints rest (checkpoints.erase entry.id)

/-- Register the keys of the dead letters, in the order their map iterates. -/
def Dedup.reseed (dedup : Dedup) (idsAndKeys : List (MessageId × Option IdempotencyKey)) : Dedup :=
  idsAndKeys.foldl (fun dedup entry => dedup.register entry.2 entry.1) dedup

/-- Open a group on its two logs, with the dead letters iterated in the given order. -/
def ConsumerGroup.opened (wal : Log (WalRecord T V)) (dlqWal : Log (DlqRecord T V))
    (visibilityTimeout : Duration) (retryPolicy : RetryPolicy) (order : List MessageId) :
    ConsumerGroup T V :=
  let replay := Replay.records wal.records
  let dlq := DeadLetterQueue.opened dlqWal
  { state :=
      { pending := restoreCheckpoints replay.pending replay.checkpoints
        leased := ∅
        delayed := []
        dedup := replay.dedup.reseed (dlq.idsAndKeys order) }
    changed := {}
    wal := wal.reopen
    dlq := dlq
    visibilityTimeout := visibilityTimeout
    retryPolicy := retryPolicy
    nextLeaseToken := 0 }

end Qaas
