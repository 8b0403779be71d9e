import Mathlib.Algebra.Group.Nat.Defs
import Mathlib.Data.Nat.Notation

/-! Message identifiers, idempotency keys and wall-clock timestamps. -/

namespace Qaas

/-- A wall-clock instant, as milliseconds since the Unix epoch. -/
structure Timestamp where
  millis : UInt64
  deriving DecidableEq, Repr

/-- A unique identifier for a single queued message, a UUID underneath. -/
structure MessageId where
  uuid : BitVec 128
  deriving DecidableEq, Repr

/-- The lower-case hexadecimal digits of a value, most significant first. -/
def hexDigits (value : Nat) : Nat → List Char
  | 0 => []
  | digits + 1 => hexDigits (value / 16) digits ++ [Nat.digitChar (value % 16)]

/-- The hyphenated form of the UUID. -/
def MessageId.display (id : MessageId) : String :=
  -- Groups of 8, 4, 4, 4 and 12 digits, from the most significant bit down.
  let group (low digits : Nat) := hexDigits (id.uuid.toNat / 2 ^ low) digits
  String.ofList (group 96 8 ++ ['-'] ++ group 80 4 ++ ['-'] ++ group 64 4 ++ ['-'] ++
    group 48 4 ++ ['-'] ++ group 0 12)

-- Five groups of digits, as in the canonical text of a UUID.
example : MessageId.display ⟨0x0192f3a45b6c7d8e9fa0b1c2d3e4f506⟩ =
    "0192f3a4-5b6c-7d8e-9fa0-b1c2d3e4f506" := by decide +kernel

/-- A correlation id of distributed tracing, a UUID underneath. -/
structure TraceId where
  uuid : BitVec 128
  deriving DecidableEq, Repr

/-- The hyphenated form of the UUID. -/
def TraceId.display (id : TraceId) : String :=
  MessageId.display ⟨id.uuid⟩

/-- A caller-supplied key identifying a logical operation. -/
structure IdempotencyKey where
  key : String
  deriving DecidableEq, Repr

/-- A key was constructed from an empty string. -/
inductive InvalidIdempotencyKey
  | invalidIdempotencyKey
  deriving DecidableEq, Repr

/-- Validate a key. -/
def IdempotencyKey.new (key : String) : Except InvalidIdempotencyKey IdempotencyKey :=
  if key.isEmpty then .error .invalidIdempotencyKey else .ok ⟨key⟩

/-- Whether a key's own constructor would accept its text. -/
def IdempotencyKey.Accepted (key : IdempotencyKey) : Prop :=
  ∃ accepted, IdempotencyKey.new key.key = .ok accepted

/-- The key that no constructor builds. -/
def IdempotencyKey.empty : IdempotencyKey :=
  ⟨""⟩

/-- The constructor refuses the empty key, and no other. -/
theorem IdempotencyKey.accepted_iff {key : IdempotencyKey} : key.Accepted ↔ key ≠ .empty := by
  obtain ⟨text⟩ := key
  by_cases same : text = ""
  · simp [Accepted, new, empty, same]
  · simp [Accepted, new, empty, same, String.isEmpty_iff]

end Qaas
