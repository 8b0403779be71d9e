import Qaas.Group.Step

/-! A consumer group in use: many tasks on one process, cancellations, time, and restarts. -/

namespace Qaas

open Concurrency

variable {T V : Type}

/-- One process with the group it has open. -/
structure Runtime (T V : Type) where
  group : ConsumerGroup T V
  now : Instant
  wallClock : Timestamp

/-- One operation in progress, finished, or cancelled on the way. -/
structure Task (T V : Type) where
  call : Call T V
  pc : Pc T V
  -- The future was dropped, or the process died; the operation stays where it stood.
  cancelled : Bool := false
  deriving DecidableEq

/-- A process and every operation ever called on it. -/
abbrev World (T V : Type) := Pool (Runtime T V) (Task T V)

/-- What can happen next. -/
inductive Action (T V : Type)
  | call (call : Call T V)
  | step (task : Nat) (env : StepEnv)
  -- The caller drops the operation's future; a write it waits for may have reached the file.
  | drop (task : Nat) (wrote : AppendOutcome)
  | tick (elapsed : { elapsed : Duration // 0 ≤ elapsed })
  | setWallClock (wallClock : Timestamp)
  -- The process dies and the group is opened again; its dead letters are iterated in this order.
  | reopen (order : List MessageId)

/-- A whole number of seconds passes. -/
def Action.pass (seconds : Nat) : Action T V :=
  .tick ⟨seconds, Nat.cast_nonneg seconds⟩

/-- Whether an operation has returned. -/
def Pc.finished : Pc T V → Bool
  | .done _ => true
  | _ => false

/-- Whether an operation waits for a wakeup. -/
def Pc.waiting : Pc T V → Bool
  | .parked _ | .parkedStream _ _ => true
  | _ => false

/-- Whether an operation can be dropped before its next step, which then begins with an `await`. -/
def Pc.awaits : Pc T V → Bool
  | .notifyOne _ | .notifyReclaimed | .notifyPublished _ => false
  | .awaitChanged _ | .awaitStream _ _ | .done _ => false
  | _ => true

/-- Whether the next step of an operation appends to a log. -/
def Pc.writes (retryPolicy : RetryPolicy) : Pc T V → Bool
  | .appendEnqueue _ _ | .appendDeadLettered _ _ | .appendAck _ | .appendCheckpoint _ _ _ => true
  | .appendAnnotate _ _ | .appendRemove _ _ => true
  | .resolve failed _ => retryPolicy.isExhausted failed.deliveryCount
  | _ => false

/-- Drop the future of an operation at its next `await`. -/
def ConsumerGroup.abandon (self : Nat) (now : Instant) (wallClock : Timestamp)
    (wrote : AppendOutcome) (group : ConsumerGroup T V) (pc : Pc T V) :
    Option (ConsumerGroup T V × Pc T V) :=
  if pc.awaits then
    match wrote with
    | .ok | .lostEmpty | .lostTorn => none
    | .failedEmpty =>
      if pc.waiting then some ({ group with changed := group.changed.cancel self }, pc)
      else some (group, pc)
    | .failedTorn =>
      if pc.writes group.retryPolicy then
        (group.move self now wallClock { outcome := .failedTorn } pc).map fun moved => (moved.1, pc)
      else none
    | .failedWhole =>
      -- The file system finishes a write whose future is gone.
      if pc.writes group.retryPolicy then group.move self now wallClock {} pc else none
  else none

/-- One step of a task. -/
def Runtime.advance (self : Nat) (env : StepEnv) (runtime : Runtime T V) (task : Task T V) :
    Option (Runtime T V × Task T V) :=
  if task.cancelled then none
  else (runtime.group.move self runtime.now runtime.wallClock env task.pc).map fun moved =>
    ({ runtime with group := moved.1 }, { task with pc := moved.2 })

/-- Dropping a task. -/
def Runtime.abandon (self : Nat) (wrote : AppendOutcome) (runtime : Runtime T V) (task : Task T V) :
    Option (Runtime T V × Task T V) :=
  if task.cancelled then none
  else (runtime.group.abandon self runtime.now runtime.wallClock wrote task.pc).map fun moved =>
    ({ runtime with group := moved.1 }, { task with pc := moved.2, cancelled := true })

/-- What becomes of a task when its process dies. -/
def Task.kill (task : Task T V) : Task T V :=
  if task.pc.finished then task else { task with cancelled := true }

/-- The message id an enqueue generates. -/
def Call.newId : Call T V → Option MessageId
  | .enqueue message => some message.id
  | _ => none

/-- An operation that generates no id yet in use. -/
def World.Fresh (world : World T V) (call : Call T V) : Prop :=
  ∀ task ∈ world.tasks, ∀ id ∈ call.newId, task.call.newId ≠ some id

instance (world : World T V) (call : Call T V) : Decidable (world.Fresh call) :=
  inferInstanceAs (Decidable (∀ task ∈ world.tasks, ∀ _ ∈ call.newId, _))

/-- The orders in which a map of dead letters may be iterated. -/
def DeadLetters.Iterates (entries : DeadLetters T V) (order : List MessageId) : Prop :=
  order.Nodup ∧ order.toFinset = entries.keys

instance (entries : DeadLetters T V) (order : List MessageId) : Decidable (entries.Iterates order) :=
  inferInstanceAs (Decidable (_ ∧ _))

/-- A group opened again on its own logs, with its own configuration. -/
abbrev ConsumerGroup.reopened (group : ConsumerGroup T V) (order : List MessageId) :
    ConsumerGroup T V :=
  .opened group.wal group.dlq.wal group.visibilityTimeout group.retryPolicy order

/-- One step of the system. -/
def World.step (world : World T V) : Action T V → Option (World T V)
  | .call call => if world.Fresh call then some (world.spawn ⟨call, call.entry, false⟩) else none
  | .step task env => world.advance task (Runtime.advance task env)
  | .drop task wrote => world.advance task (Runtime.abandon task wrote)
  | .tick elapsed =>
    some { world with shared := { world.shared with now := world.shared.now + elapsed.val } }
  | .setWallClock wallClock => some { world with shared := { world.shared with wallClock } }
  | .reopen order =>
    let group := world.shared.group
    if (DeadLetters.replay group.dlq.wal.records).Iterates order then
      some ⟨{ world.shared with group := group.reopened order }, world.tasks.map Task.kill⟩
    else none

/-- A group opened on two empty logs, before any operation. -/
def World.start (visibilityTimeout : Duration) (retryPolicy : RetryPolicy) : World T V :=
  ⟨⟨ConsumerGroup.opened {} {} visibilityTimeout retryPolicy [], 0, ⟨0⟩⟩, []⟩

/-- No operation is in flight: each has returned, was cancelled, or waits for a wakeup. -/
def World.Quiescent (world : World T V) : Prop :=
  ∀ task ∈ world.tasks, task.cancelled ∨ task.pc.finished ∨ task.pc.waiting

instance (world : World T V) : Decidable world.Quiescent :=
  inferInstanceAs (Decidable (∀ task ∈ world.tasks, _))

/-- A call, and as many steps of it as it takes when nothing fails. -/
def Action.run (task : Nat) (call : Call T V) (steps : Nat) : List (Action T V) :=
  .call call :: List.replicate steps (.step task {})

end Qaas
