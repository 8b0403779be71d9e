import Mathlib.Algebra.Order.Field.Rat

/-! Exponential backoff with jitter for redelivery, over exact rational seconds. -/

namespace Qaas

/-- A length of time in seconds. -/
abbrev Duration := ℚ

/-- A point in time of the process's monotonic clock, in seconds. -/
abbrev Instant := ℚ

/-- The time between two instants, none if they are in the other order. -/
def durationSince (now earlier : Instant) : Duration :=
  max (now - earlier) 0

/-- What `fastrand::f64` can return. -/
abbrev Draw := { draw : ℚ // 0 ≤ draw ∧ draw < 1 }

/-- The draw that adds nothing. -/
def Draw.zero : Draw := ⟨0, by decide +kernel⟩

/-- How long to wait before a failed delivery is claimable again, and when to give up. -/
structure RetryPolicy where
  baseDelay : Duration
  maxDelay : Duration
  multiplier : ℚ
  jitter : ℚ
  maxAttempts : Option UInt32

/-- The exponent stops growing here. -/
def maxBackoffExponent : UInt32 := 32

/-- Half a second, doubling up to a minute, a fifth of jitter, five deliveries. -/
def RetryPolicy.default : RetryPolicy where
  baseDelay := 1 / 2
  maxDelay := 60
  multiplier := 2
  jitter := 1 / 5
  maxAttempts := some 5

/-- Spread a delay over the part of it that the jitter allows. -/
def applyJitter (cappedSecs jitter : ℚ) (draw : Draw) : ℚ :=
  let jitter := max 0 (min jitter 1)
  let floor := cappedSecs * (1 - jitter)
  floor + draw.val * (cappedSecs - floor)

/-- The backoff after this many deliveries. -/
def RetryPolicy.delayFor (policy : RetryPolicy) (deliveryCount : UInt32) (draw : Draw) : Duration :=
  -- `saturating_sub`: a count of zero backs off like the first delivery.
  let exponent := min (deliveryCount.toNat - 1) maxBackoffExponent.toNat
  let rawSecs := policy.baseDelay * policy.multiplier ^ exponent
  let cappedSecs := min rawSecs policy.maxDelay
  let jitteredSecs := applyJitter cappedSecs policy.jitter draw
  max jitteredSecs 0

/-- Whether a message has been delivered too often to be tried again. -/
def RetryPolicy.isExhausted (policy : RetryPolicy) (deliveryCount : UInt32) : Bool :=
  policy.maxAttempts.any fun maxAttempts => maxAttempts ≤ deliveryCount

/-- However the policy is set, a backoff is never negative. -/
theorem RetryPolicy.delayFor_nonneg (policy : RetryPolicy) (deliveryCount : UInt32) (draw : Draw) :
    0 ≤ policy.delayFor deliveryCount draw :=
  le_max_right _ _

end Qaas
