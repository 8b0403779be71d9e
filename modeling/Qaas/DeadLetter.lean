import Mathlib.Data.Finmap
import Qaas.Types.Ids
import Qaas.Wal.Log

/-! A durable holding area for messages that ran out of retries. -/

namespace Qaas

/-- Whether a triaged failure is worth retrying. -/
inductive TriageClassification
  | transient
  | permanent
  deriving DecidableEq, Repr

/-- A triage agent's verdict on a dead letter. -/
structure TriageVerdict where
  classification : TriageClassification
  reason : String
  triagedAt : Timestamp
  deriving DecidableEq, Repr

/-- A message that ran out of retries, and everything known about why. -/
structure DeadLetter (T V : Type) where
  id : MessageId
  idempotencyKey : Option IdempotencyKey
  item : T
  deliveryCount : UInt32
  lastError : Option String
  deadLetteredAt : Timestamp
  checkpoint : Option V
  triage : Option TriageVerdict
  deriving DecidableEq, Repr

/-- One entry of a dead-letter queue's log. -/
inductive DlqRecord (T V : Type)
  | deadLetter (deadLetter : DeadLetter T V)
  | remove (id : MessageId)
  | annotate (id : MessageId) (verdict : TriageVerdict)
  deriving DecidableEq, Repr

variable {T V : Type}

/-- Dead letters by message id. -/
abbrev DeadLetters (T V : Type) := Finmap fun _ : MessageId => DeadLetter T V

/-- Attach a verdict to the entry of a message, if it has one. -/
def DeadLetters.annotate (entries : DeadLetters T V) (id : MessageId) (verdict : TriageVerdict) :
    DeadLetters T V :=
  match entries.lookup id with
  | some entry => entries.insert id { entry with triage := some verdict }
  | none => entries

/-- Replay one record. -/
def DeadLetters.replayRecord (entries : DeadLetters T V) : DlqRecord T V → DeadLetters T V
  | .deadLetter deadLetter => entries.insert deadLetter.id deadLetter
  | .remove id => entries.erase id
  | .annotate id verdict => entries.annotate id verdict

/-- The entries that `open` rebuilds from the records of the log. -/
def DeadLetters.replay (records : List (DlqRecord T V)) : DeadLetters T V :=
  records.foldl DeadLetters.replayRecord ∅

/-- Replaying one more record works on the entries replayed so far. -/
@[simp] theorem DeadLetters.replay_append (records : List (DlqRecord T V)) (record : DlqRecord T V) :
    DeadLetters.replay (records ++ [record]) = (DeadLetters.replay records).replayRecord record := by
  simp [DeadLetters.replay]

/-- The entries in memory, and their log. -/
structure DeadLetterQueue (T V : Type) where
  entries : DeadLetters T V
  wal : Log (DlqRecord T V)

/-- Open the log and rebuild the entries from it. -/
def DeadLetterQueue.opened (wal : Log (DlqRecord T V)) : DeadLetterQueue T V :=
  { entries := .replay wal.records, wal := wal.reopen }

/-- Append one record, and say whether it was written. -/
def DeadLetterQueue.append (dlq : DeadLetterQueue T V) (record : DlqRecord T V)
    (outcome : AppendOutcome) : DeadLetterQueue T V × Bool :=
  let (wal, written) := dlq.wal.append record outcome
  ({ dlq with wal }, written)

/-- `ids_and_keys`, in the order the map iterates its entries. -/
def DeadLetterQueue.idsAndKeys (dlq : DeadLetterQueue T V) (order : List MessageId) :
    List (MessageId × Option IdempotencyKey) :=
  order.filterMap fun id => (dlq.entries.lookup id).map fun entry => (entry.id, entry.idempotencyKey)

end Qaas
