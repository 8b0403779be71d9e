import Qaas.Group.Origin

/-! How far an operation of a group still has to go, and which operations may have to wait. -/

namespace Qaas

open Concurrency

variable {T V : Type}

/-- The operations that never wait for another: all but a claim, and a poll of a stream. -/
def Call.waitless : Call T V → Bool
  | .claim | .partialResultsSince _ _ => false
  | _ => true

/-- How many steps an operation that never waits has at most still to take. -/
def Pc.togo : Pc T V → Nat
  | .releaseKey _ _ _ | .notifyOne _ | .notifyPublished _ => 1
  | .appendAck _ | .storeCheckpoint _ _ _ | .storeVerdict _ _ => 1
  | .pushPending _ _ | .appendDeadLettered _ _ | .releaseAcked _ _ | .pushChunk _ _ _ _ => 2
  | .appendCheckpoint _ _ _ | .appendAnnotate _ _ => 2
  | .appendEnqueue _ _ | .insertDeadLetter _ _ | .checkLease _ _ _ | .checkEntry _ _ => 3
  | .reserve _ _ | .appendRemove _ _ | .resolve _ _ => 4
  | .takeEntry _ _ | .releaseNacked _ _ _ => 5
  | _ => 0

section

variable {call : Call T V} {pc next : Pc T V}

/-- A step that only concerns the wakeups is one of the last, or of an operation that may wait. -/
theorem Quiet.togo (quiet : Quiet pc next) (serves : pc.serves call) (waitless : call.waitless) :
    next.togo < pc.togo := by
  -- The steps of a claim and of a poll cannot be those of this operation.
  cases quiet with
  | reclaimNone | notifyReclaimed | awoken | park | unpark =>
    obtain rfl : call = .claim := serves
    cases waitless
  | polled id after | streamEmpty id after | streamAwoken id after | streamPark id after | streamUnpark id after =>
    obtain rfl : call = .partialResultsSince id after := serves
    cases waitless
  | _ => simp [Pc.togo]

/-- The caller of a resolution has a step to go at most. -/
theorem ResolveCaller.next_togo {caller : ResolveCaller T V} {id : MessageId} (serves : caller.serves id call)
    (waitless : call.waitless) : caller.next.togo < 2 ∧ caller.failed.togo < 2 := by
  cases caller with
  | nack => exact ⟨Nat.one_lt_two, Nat.zero_lt_two⟩
  | reclaim rest =>
    obtain rfl : call = .claim := serves
    cases waitless

/-- Whatever comes of a step, an operation that never waits has fewer steps to go. -/
theorem Moved.togo {now : Instant} {wallClock : Timestamp} {env : StepEnv} {group group' : ConsumerGroup T V}
    (moved : Moved now wallClock env group pc group' next) (serves : pc.serves call) (waitless : call.waitless) :
    next.togo < pc.togo := by
  cases moved with
  | quiet changed quiet => exact quiet.togo serves waitless
  | @enqueueFailed message caller failed =>
    cases carried : message.idempotencyKey <;> simp [releaseThenFail, Pc.togo]
  | reclaim | claimed | promoted =>
    obtain rfl : call = .claim := serves
    cases waitless
  | retried => exact (ResolveCaller.next_togo serves waitless).1.trans (show 2 < 4 by decide)
  | exhaustedFailed => exact (ResolveCaller.next_togo serves waitless).2.trans (show 2 < 4 by decide)
  | deadLetteredWritten => exact (ResolveCaller.next_togo serves waitless).1
  | deadLetteredFailed => exact (ResolveCaller.next_togo serves waitless).2
  | @removeWritten deadLetter caller synced =>
    cases caller with
    | reprocess => simp [TakeCaller.next, Pc.togo]
    | purge => cases carried : deadLetter.idempotencyKey <;> simp [TakeCaller.next, carried, Pc.togo]
  | _ => simp [Pc.togo]

variable {self : Nat} {now : Instant} {wallClock : Timestamp} {group : ConsumerGroup T V}

/-- An operation that never waits can always take its next step. -/
theorem ConsumerGroup.move_of_waitless (serves : pc.serves call) (waitless : call.waitless)
    (running : ∀ result, pc ≠ .done result) : (group.move self now wallClock {} pc).isSome := by
  cases pc with
  | reclaimExpired | parked =>
    obtain rfl : call = .claim := serves
    cases waitless
  | parkedStream id after =>
    obtain rfl : call = .partialResultsSince id after := serves
    cases waitless
  | done result => exact absurd rfl (running result)
  | _ => rfl

/-- An operation that cannot be dropped now can take its next step, and then has returned or can be. -/
theorem ConsumerGroup.move_of_not_awaits (busy : pc.awaits = false) (running : ∀ result, pc ≠ .done result) :
    ∃ group' next, (∀ env, group.move self now wallClock env pc = some (group', next)) ∧
      (next.awaits ∨ ∃ result, next = .done result) := by
  cases pc with
  | notifyOne | notifyPublished => exact ⟨_, _, fun _ => rfl, .inr ⟨_, rfl⟩⟩
  | notifyReclaimed => exact ⟨_, _, fun _ => rfl, .inl rfl⟩
  | awaitChanged | awaitStream =>
    refine ⟨_, _, fun _ => rfl, .inl ?_⟩
    dsimp only [listen]
    split <;> rfl
  | done result => exact absurd rfl (running result)
  | _ => cases busy

/-- An operation that can be dropped can be dropped before anything is written. -/
theorem ConsumerGroup.abandon_of_awaits (awaits : pc.awaits) :
    (group.abandon self now wallClock .failedEmpty pc).isSome := by
  unfold abandon
  rw [if_pos awaits]
  dsimp only
  split <;> rfl

end

end Qaas
