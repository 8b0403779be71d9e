import Qaas.Concurrency.Pool
import Qaas.Concurrency.Run
import Qaas.Types.Ids
import Qaas.Wal.Log

/-! The audit log: a bounded channel that nobody waits for, and workers that drain it into a file. -/

namespace Qaas

open Concurrency

/-- How many workers drain the channel, and how much it holds. -/
structure AuditLoggerConfig where
  workers : Nat
  channelCapacity : Nat

/-- An event, and when it was logged. -/
structure AuditRecord (E : Type) where
  at_ : Timestamp
  event : E
  deriving DecidableEq

/-- A logger: its channel, who still shares the receiver and whether it is locked, the file, and the two
counters. Beside them stand the exact counts, and that of the records lost to a failed append. -/
structure AuditLogger (E : Type) where
  channelCapacity : Nat
  channel : List (AuditRecord E)
  senderDropped : Bool
  receivers : Nat
  receiverLocked : Bool
  wal : Log (AuditRecord E)
  written : UInt64
  dropped : UInt64
  writes : Nat
  drops : Nat
  failures : Nat

/-- Where a worker stands: before the lock of the receiver, waiting for a record with it, before the
append, before the count, or at its end. -/
inductive WorkerStage (E : Type) where
  | lock
  | recv
  | append (record : AuditRecord E)
  | count
  | stopped

/-- Where a call of `log` stands: before the channel, before the count of what it refused, or at its
end. -/
inductive LogStage where
  | trySend
  | refused
  | returned
  deriving DecidableEq

/-- A worker, or a call of `log`. -/
inductive AuditTask (E : Type) where
  | worker (stage : WorkerStage E)
  | log (record : AuditRecord E) (stage : LogStage)

/-- Why the channel refuses a record. -/
inductive TrySendError where
  | full
  | closed

variable {E : Type}

/-- Put a record into the channel, if there is room and somebody left to receive it. -/
def AuditLogger.trySend (logger : AuditLogger E) (record : AuditRecord E) :
    Except TrySendError (AuditLogger E) :=
  if logger.receivers = 0 then .error .closed
  else if logger.channel.length < logger.channelCapacity then
    .ok { logger with channel := logger.channel ++ [record] }
  else .error .full

/-- The next step of a worker, whose append ends as it is told. -/
def AuditLogger.work (logger : AuditLogger E) (outcome : AppendOutcome) :
    WorkerStage E → Option (AuditLogger E × WorkerStage E)
  | .lock => if logger.receiverLocked then none else some ({ logger with receiverLocked := true }, .recv)
  | .recv =>
    match logger.channel with
    | record :: rest => some ({ logger with channel := rest, receiverLocked := false }, .append record)
    | [] =>
      -- Once the sender is gone, an empty channel stays so.
      if logger.senderDropped then
        some ({ logger with receiverLocked := false, receivers := logger.receivers - 1 }, .stopped)
      else none
  | .append record =>
    let (wal, ok) := logger.wal.append record outcome
    if ok then some ({ logger with wal := wal }, .count)
    else some ({ logger with wal := wal, failures := logger.failures + 1 }, .lock)
  | .count => some ({ logger with written := logger.written + 1, writes := logger.writes + 1 }, .lock)
  | .stopped => none

/-- The next step of a call of `log`. -/
def AuditLogger.log (logger : AuditLogger E) (record : AuditRecord E) :
    LogStage → Option (AuditLogger E × LogStage)
  | .trySend =>
    match logger.trySend record with
    | .ok logger => some (logger, .returned)
    | .error .full | .error .closed => some (logger, .refused)
  | .refused => some ({ logger with dropped := logger.dropped + 1, drops := logger.drops + 1 }, .returned)
  | .returned => none

/-- The next step of either. -/
def AuditLogger.move (outcome : AppendOutcome) (logger : AuditLogger E) :
    AuditTask E → Option (AuditLogger E × AuditTask E)
  | .worker stage => (logger.work outcome stage).map fun moved => (moved.1, .worker moved.2)
  | .log record stage => (logger.log record stage).map fun moved => (moved.1, .log record moved.2)

/-- A logger with its workers and every call of `log`. -/
abbrev AuditPool (E : Type) := Pool (AuditLogger E) (AuditTask E)

/-- The largest capacity of a channel. -/
def maxPermits : Nat :=
  2 ^ 61 - 1

/-- Open a logger on a file; a channel without room, or with too much, cannot be made. -/
def AuditPool.opened (config : AuditLoggerConfig) (wal : Log (AuditRecord E)) : Option (AuditPool E) :=
  if config.channelCapacity = 0 ∨ maxPermits < config.channelCapacity then none
  else
    some {
      shared := {
        channelCapacity := config.channelCapacity
        channel := []
        senderDropped := false
        receivers := max config.workers 1
        receiverLocked := false
        wal := wal
        written := 0
        dropped := 0
        writes := 0
        drops := 0
        failures := 0 }
      tasks := List.replicate (max config.workers 1) (.worker .lock) }

/-- Somebody logs a record, a worker or a call takes its next step, or the logger is dropped. -/
inductive AuditAction (E : Type) where
  | log (record : AuditRecord E)
  | step (task : Nat) (outcome : AppendOutcome)
  | drop

/-- A call of `log` that has not returned. -/
def AuditTask.calling : AuditTask E → Bool
  | .log _ .trySend | .log _ .refused => true
  | _ => false

/-- One step; nobody logs with a logger that was dropped, nor drops one that somebody logs with. -/
def AuditPool.step (pool : AuditPool E) : AuditAction E → Option (AuditPool E)
  | .log record => if pool.shared.senderDropped then none else some (pool.spawn (.log record .trySend))
  | .step i outcome => pool.advance i (AuditLogger.move outcome)
  | .drop =>
    if pool.shared.senderDropped ∨ pool.tasks.any AuditTask.calling then none
    else some { pool with shared := { pool.shared with senderDropped := true } }

end Qaas
