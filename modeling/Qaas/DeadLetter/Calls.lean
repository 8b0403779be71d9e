import Qaas.Concurrency.Pool
import Qaas.Concurrency.Run
import Qaas.DeadLetter

/-! The dead-letter queue as concurrent calls share it. -/

namespace Qaas

open Concurrency

variable {T V : Type}

/-- A call of one of the queue's methods. -/
inductive DlqCall (T V : Type) where
  | record (deadLetter : DeadLetter T V)
  | take (id : MessageId)
  | annotate (id : MessageId) (verdict : TriageVerdict)
  deriving DecidableEq, Repr

/-- What a call returns. -/
inductive DlqResult (T V : Type) where
  | recorded
  | taken (deadLetter : Option (DeadLetter T V))
  | annotated (applied : Bool)
  deriving DecidableEq, Repr

/-- The next step of a call: one access to the entries, or one append to the log. -/
inductive DlqPc (T V : Type) where
  -- `record`
  | appendDeadLetter (deadLetter : DeadLetter T V)
  | insert (deadLetter : DeadLetter T V)
  -- `take`
  | remove (id : MessageId)
  | appendRemove (id : MessageId) (deadLetter : DeadLetter T V)
  -- `annotate`
  | check (id : MessageId) (verdict : TriageVerdict)
  | appendAnnotate (id : MessageId) (verdict : TriageVerdict)
  | store (id : MessageId) (verdict : TriageVerdict)
  | done (result : DlqResult T V)
  deriving DecidableEq, Repr

/-- The first step of a call. -/
def DlqCall.entry : DlqCall T V → DlqPc T V
  | .record deadLetter => .appendDeadLetter deadLetter
  | .take id => .remove id
  | .annotate id verdict => .check id verdict

/-- Append one record, where no write fails. -/
def DeadLetterQueue.log (dlq : DeadLetterQueue T V) (record : DlqRecord T V) : DeadLetterQueue T V :=
  (dlq.append record .ok).1

/-- One step of a call, refused when it has returned. -/
def DeadLetterQueue.move (dlq : DeadLetterQueue T V) :
    DlqPc T V → Option (DeadLetterQueue T V × DlqPc T V)
  | .appendDeadLetter deadLetter => some (dlq.log (.deadLetter deadLetter), .insert deadLetter)
  | .insert deadLetter =>
    some ({ dlq with entries := dlq.entries.insert deadLetter.id deadLetter }, .done .recorded)
  | .remove id =>
    match dlq.entries.lookup id with
    | some deadLetter =>
      some ({ dlq with entries := dlq.entries.erase id }, .appendRemove id deadLetter)
    | none => some (dlq, .done (.taken none))
  | .appendRemove id deadLetter => some (dlq.log (.remove id), .done (.taken (some deadLetter)))
  | .check id verdict =>
    some (dlq, if (dlq.entries.lookup id).isSome then .appendAnnotate id verdict
      else .done (.annotated false))
  | .appendAnnotate id verdict => some (dlq.log (.annotate id verdict), .store id verdict)
  | .store id verdict =>
    some ({ dlq with entries := dlq.entries.annotate id verdict },
      .done (.annotated (dlq.entries.lookup id).isSome))
  | .done _ => none

/-- A dead-letter queue and the calls on it. -/
abbrev DlqPool (T V : Type) := Pool (DeadLetterQueue T V) (DlqPc T V)

/-- A call begins, or a running one takes its next step. -/
inductive DlqAction (T V : Type) where
  | call (call : DlqCall T V)
  | step (task : Nat)
  deriving DecidableEq, Repr

/-- One step of the calls on a queue. -/
def DlqPool.step (pool : DlqPool T V) : DlqAction T V → Option (DlqPool T V)
  | .call call => some (pool.spawn call.entry)
  | .step i => pool.advance i DeadLetterQueue.move

/-- A queue that has just been opened on a log. -/
def DlqPool.start (wal : Log (DlqRecord T V)) : DlqPool T V :=
  ⟨.opened wal, []⟩

/-- Whether a call has returned. -/
def DlqPc.returned : DlqPc T V → Bool
  | .done _ => true
  | _ => false

/-- No call is in flight. -/
def DlqPool.Idle (pool : DlqPool T V) : Prop :=
  ∀ pc ∈ pool.tasks, pc.returned

instance DlqPool.decidableIdle (pool : DlqPool T V) : Decidable pool.Idle :=
  inferInstanceAs (Decidable (∀ pc ∈ pool.tasks, pc.returned))

@[simp] theorem DeadLetterQueue.log_entries (dlq : DeadLetterQueue T V) (record : DlqRecord T V) :
    (dlq.log record).entries = dlq.entries := rfl

/-- On an intact log an append adds its record at the end. -/
theorem DeadLetterQueue.log_wal {dlq : DeadLetterQueue T V} (intact : dlq.wal.torn = false)
    (record : DlqRecord T V) :
    (dlq.log record).wal = { dlq.wal with records := dlq.wal.records ++ [record] } := by
  simp [log, append, Log.append_ok intact]

end Qaas
