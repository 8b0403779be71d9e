import Mathlib.Tactic.Linarith
import Mathlib.Tactic.Ring
import Qaas.Retry

/-! The documented backoff, and the policies whose delays follow it. -/

namespace Qaas

/-- A policy whose fields are in their documented ranges. -/
structure RetryPolicy.Valid (policy : RetryPolicy) : Prop where
  baseDelay : 0 ≤ policy.baseDelay
  maxDelay : 0 ≤ policy.maxDelay
  multiplier : 1 ≤ policy.multiplier
  jitter : 0 ≤ policy.jitter ∧ policy.jitter ≤ 1

/-- The documented delay before a retry, from which the jitter takes its part. -/
def RetryPolicy.cappedDelay (policy : RetryPolicy) (deliveryCount : UInt32) : Duration :=
  min (policy.baseDelay * policy.multiplier ^ (deliveryCount.toNat - 1)) policy.maxDelay

/-- The delay that is computed before the jitter, whose exponent stops growing. -/
def RetryPolicy.clampedDelay (policy : RetryPolicy) (deliveryCount : UInt32) : Duration :=
  min (policy.baseDelay * policy.multiplier ^ min (deliveryCount.toNat - 1) maxBackoffExponent.toNat)
    policy.maxDelay

/-- After this many deliveries the delay is as documented: at most the capped delay, of which no more
than the jitter is missing; without jitter it is the capped delay, and no later delay is shorter. -/
def RetryPolicy.BacksOff (policy : RetryPolicy) (deliveryCount : UInt32) : Prop :=
  (∀ draw, (1 - policy.jitter) * policy.cappedDelay deliveryCount ≤ policy.delayFor deliveryCount draw ∧
    policy.delayFor deliveryCount draw ≤ policy.cappedDelay deliveryCount) ∧
  (policy.jitter = 0 → ∀ draw, policy.delayFor deliveryCount draw = policy.cappedDelay deliveryCount ∧
    ∀ later other, deliveryCount ≤ later →
      policy.delayFor deliveryCount draw ≤ policy.delayFor later other)

/-- The exponent is not clamped, or nothing grows with it, or the delay is at its cap when it is. -/
def RetryPolicy.Reaches (policy : RetryPolicy) (deliveryCount : UInt32) : Prop :=
  deliveryCount ≤ maxBackoffExponent + 1 ∨ policy.baseDelay = 0 ∨ policy.multiplier = 1 ∨
    policy.maxDelay ≤ policy.baseDelay * policy.multiplier ^ maxBackoffExponent.toNat

section

variable {policy : RetryPolicy} {deliveryCount : UInt32}

/-- A longer exponent makes no shorter delay. -/
theorem RetryPolicy.Valid.delay_mono (valid : policy.Valid) {few many : ℕ} (order : few ≤ many) :
    min (policy.baseDelay * policy.multiplier ^ few) policy.maxDelay ≤
      min (policy.baseDelay * policy.multiplier ^ many) policy.maxDelay :=
  min_le_min_right _ (mul_le_mul_of_nonneg_left (pow_le_pow_right₀ valid.multiplier order) valid.baseDelay)

/-- Clamping the exponent makes no longer delay. -/
theorem RetryPolicy.Valid.clamped_le (valid : policy.Valid) (deliveryCount : UInt32) :
    policy.clampedDelay deliveryCount ≤ policy.cappedDelay deliveryCount :=
  valid.delay_mono (min_le_left _ _)

/-- No delay is negative before the jitter either. -/
theorem RetryPolicy.Valid.clamped_nonneg (valid : policy.Valid) (deliveryCount : UInt32) :
    0 ≤ policy.clampedDelay deliveryCount :=
  le_min (mul_nonneg valid.baseDelay (pow_nonneg (zero_le_one.trans valid.multiplier) _)) valid.maxDelay

/-- The delay is the clamped one, of which the draw gives back a part of what the jitter took. -/
theorem RetryPolicy.Valid.delayFor_eq (valid : policy.Valid) (deliveryCount : UInt32) (draw : Draw) :
    policy.delayFor deliveryCount draw =
      policy.clampedDelay deliveryCount * (1 - policy.jitter + draw.val * policy.jitter) := by
  -- A jitter in its range is not clamped.
  have range : max 0 (min policy.jitter 1) = policy.jitter := by
    rw [min_eq_left valid.jitter.2, max_eq_right valid.jitter.1]
  have spread : applyJitter (policy.clampedDelay deliveryCount) policy.jitter draw =
      policy.clampedDelay deliveryCount * (1 - policy.jitter + draw.val * policy.jitter) := by
    simp only [applyJitter, range]
    ring
  have part : 0 ≤ 1 - policy.jitter + draw.val * policy.jitter :=
    add_nonneg (sub_nonneg.mpr valid.jitter.2) (mul_nonneg draw.property.1 valid.jitter.1)
  -- A product of two factors that are not negative needs no lower bound.
  have whole := mul_nonneg (valid.clamped_nonneg deliveryCount) part
  show max (applyJitter (policy.clampedDelay deliveryCount) policy.jitter draw) 0 = _
  rw [spread, max_eq_left whole]

/-- Whatever is drawn, the delay is at most the clamped one. -/
theorem RetryPolicy.Valid.delayFor_le (valid : policy.Valid) (deliveryCount : UInt32) (draw : Draw) :
    policy.delayFor deliveryCount draw ≤ policy.clampedDelay deliveryCount := by
  rw [valid.delayFor_eq]
  refine mul_le_of_le_one_right (valid.clamped_nonneg deliveryCount) ?_
  have part := mul_le_of_le_one_left valid.jitter.1 draw.property.2.le
  linarith

/-- Whatever is drawn, no more than the jitter is missing from the clamped delay. -/
theorem RetryPolicy.Valid.le_delayFor (valid : policy.Valid) (deliveryCount : UInt32) (draw : Draw) :
    (1 - policy.jitter) * policy.clampedDelay deliveryCount ≤ policy.delayFor deliveryCount draw := by
  rw [valid.delayFor_eq, mul_comm]
  refine mul_le_mul_of_nonneg_left ?_ (valid.clamped_nonneg deliveryCount)
  exact le_add_of_nonneg_right (mul_nonneg draw.property.1 valid.jitter.1)

/-- Clamping the exponent has no effect exactly if it is not clamped, if nothing grows with it, or if the
delay is at its cap by then. -/
theorem RetryPolicy.Valid.capped_le_iff (valid : policy.Valid) (first : 1 ≤ deliveryCount) :
    policy.cappedDelay deliveryCount ≤ policy.clampedDelay deliveryCount ↔ policy.Reaches deliveryCount := by
  unfold cappedDelay clampedDelay Reaches
  have limit : (maxBackoffExponent + 1).toNat = maxBackoffExponent.toNat + 1 := rfl
  have counts := UInt32.le_iff_toNat_le.mp first
  have one : (1 : UInt32).toNat = 1 := rfl
  rw [UInt32.le_iff_toNat_le, limit]
  -- Either the exponent is clamped, or it is used as it is.
  rcases Nat.lt_or_ge maxBackoffExponent.toNat (deliveryCount.toNat - 1) with clamped | unclamped
  · rw [min_eq_right clamped.le]
    constructor
    · -- Otherwise the delay still grows beyond the clamped exponent.
      intro same
      by_contra apart
      simp only [not_or, not_le] at apart
      obtain ⟨_, based, grows, below⟩ := apart
      have positive : 0 < policy.baseDelay := lt_of_le_of_ne valid.baseDelay (Ne.symm based)
      have multiplies : 1 < policy.multiplier := lt_of_le_of_ne valid.multiplier (Ne.symm grows)
      have longer := mul_lt_mul_of_pos_left (pow_lt_pow_right₀ multiplies clamped) positive
      rw [min_eq_left below.le] at same
      exact absurd same (not_le.mpr (lt_min longer below))
    · rintro (few | none_ | still | capped)
      · omega
      · rw [none_, zero_mul, zero_mul]
      · rw [still, one_pow, one_pow]
      · rw [min_eq_right capped]
        exact min_le_right _ _
  · rw [min_eq_left unclamped]
    exact ⟨fun _ => .inl (by omega), fun _ => le_rfl⟩

end

/-- The delay follows its documentation exactly if clamping the exponent has no effect on it, or if all of
it is jitter. -/
theorem RetryPolicy.backsOff_iff {policy : RetryPolicy} (valid : policy.Valid) {deliveryCount : UInt32}
    (first : 1 ≤ deliveryCount) :
    policy.BacksOff deliveryCount ↔ policy.Reaches deliveryCount ∨ policy.jitter = 1 := by
  rw [← valid.capped_le_iff first]
  constructor
  · intro ⟨bounds, _⟩
    -- The draw of zero gives the shortest delay.
    have shortest := (bounds .zero).1
    have zero : Draw.zero.val = 0 := rfl
    rw [valid.delayFor_eq, zero, zero_mul, add_zero, mul_comm] at shortest
    rcases eq_or_lt_of_le valid.jitter.2 with full | partly
    · exact .inr full
    · exact .inl (le_of_mul_le_mul_right shortest (sub_pos.mpr partly))
  · intro reaches
    refine ⟨fun draw => ⟨?_, (valid.delayFor_le _ draw).trans (valid.clamped_le _)⟩, fun still draw => ?_⟩
    · rcases reaches with same | full
      · have part := sub_nonneg.mpr valid.jitter.2
        exact (mul_le_mul_of_nonneg_left same part).trans (valid.le_delayFor _ draw)
      · rw [full, sub_self, zero_mul]
        exact policy.delayFor_nonneg _ _
    · -- Without jitter the delay is the clamped one.
      have exact_ (count : UInt32) (draw : Draw) : policy.delayFor count draw = policy.clampedDelay count := by
        rw [valid.delayFor_eq, still, mul_zero, sub_zero, add_zero, mul_one]
      have same : policy.cappedDelay deliveryCount ≤ policy.clampedDelay deliveryCount :=
        reaches.resolve_right fun full => by rw [still] at full; exact absurd full zero_ne_one
      rw [exact_]
      refine ⟨le_antisymm (valid.clamped_le _) same, fun later other order => ?_⟩
      rw [exact_]
      exact valid.delay_mono (min_le_min_right _ (Nat.sub_le_sub_right (UInt32.le_iff_toNat_le.mp order) 1))

/-- A delay that grows slowly towards a far cap. -/
def slowGrowth : RetryPolicy where
  baseDelay := 1
  maxDelay := 3600
  multiplier := 11 / 10
  jitter := 0
  maxAttempts := none

/-- The policy is within the documented ranges. -/
theorem slowGrowth_valid : slowGrowth.Valid := by
  constructor <;> decide +kernel

theorem RetryPolicy.stops_growing :
    ¬ ∀ (policy : RetryPolicy) (deliveryCount : UInt32), policy.Valid → 1 ≤ deliveryCount →
      policy.BacksOff deliveryCount := by
  intro always
  -- After 33 deliveries the exponent is at its limit, while the delay is still below the cap.
  have delay := ((always slowGrowth 34 slowGrowth_valid (by decide)).2 rfl .zero).1
  revert delay
  decide +kernel

theorem RetryPolicy.backsOff_iff_slowGrowth : slowGrowth.BacksOff 33 :=
  (RetryPolicy.backsOff_iff slowGrowth_valid (by decide)).mpr (.inl (.inl (by decide)))

end Qaas
