import Mathlib.Data.List.TakeWhile
import Qaas.Admission.Ceilings

/-! What a denied request is told about when to try again. -/

namespace Qaas

open SlidingWindow

/-- A request that is not admitted. -/
def AdmissionController.Denies (controller : AdmissionController) (now : Instant) (tokens : UInt64)
    (cost : ℚ) : Prop :=
  ∃ reason wait, (controller.tryAdmit now tokens cost).2 = .denied reason wait

/-- A request that asks for more than a whole budget is. -/
def AdmissionConfig.Outsized (config : AdmissionConfig) (tokens : UInt64) (cost : ℚ) : Prop :=
  (∃ limit ∈ config.tokensPerWindow, limit < tokens) ∨ ∃ ceiling ∈ config.costCeilingPerWindow, ceiling < cost

/-- What a controller tells a request that it denies: none exactly if the request would be denied for ever,
even if no other came; and otherwise a time after which an entry has left the window. -/
def AdmissionController.Honest (controller : AdmissionController) (now : Instant) (tokens : UInt64) (cost : ℚ)
    (wait : Option Duration) : Prop :=
  let left := (controller.tryAdmit now tokens cost).1
  (wait = none ↔ ∀ later, now ≤ later → left.Denies later tokens cost) ∧
    ∀ delay ∈ wait, (left.evicted (now + delay)).entries.length < left.entries.length

/-- The token ceiling turns away, for the time being, a request whose cost is above the whole budget. -/
def AdmissionController.Masks (controller : AdmissionController) (now : Instant) (tokens : UInt64) (cost : ℚ) :
    Prop :=
  (∃ limit ∈ controller.config.tokensPerWindow, tokens ≤ limit ∧
    limit < saturatingAdd (sumEntries (controller.evicted now).entries).1 tokens) ∧
  ∃ ceiling ∈ controller.config.costCeilingPerWindow, ceiling < cost

section

variable {controller : AdmissionController} {now : Instant} {tokens : UInt64} {cost : ℚ}

/-- A request is denied exactly when it does not fit. -/
theorem AdmissionController.denies_iff : controller.Denies now tokens cost ↔ ¬ controller.Fits now tokens cost := by
  rcases controller.tryAdmit_eq now tokens cost with
    ⟨reason, wait, refused, decided⟩ | ⟨tokensRemaining, costRemaining, fits, decided⟩
  · exact ⟨fun _ => refused, fun _ => ⟨reason, wait, by rw [decided]⟩⟩
  · -- An admission is no denial.
    refine ⟨fun denies => ?_, fun refused => absurd fits refused⟩
    obtain ⟨reason, wait, denied⟩ := denies
    rw [decided] at denied
    cases denied

/-- The ceiling that turns a request away decides what it is told, and looks at its own dimension only. -/
theorem AdmissionController.denied_eq {reason : String} {wait : Option Duration}
    (denied : (controller.tryAdmit now tokens cost).2 = .denied reason wait) :
    (controller.tryAdmit now tokens cost).1 = controller.evicted now ∧
    ((∃ limit ∈ controller.config.tokensPerWindow,
        limit < saturatingAdd (sumEntries (controller.evicted now).entries).1 tokens ∧
        wait = if tokens ≤ limit then
          some (retryAfter (controller.evicted now).entries controller.config.window now) else none) ∨
      (∀ limit ∈ controller.config.tokensPerWindow,
        saturatingAdd (sumEntries (controller.evicted now).entries).1 tokens ≤ limit) ∧
      ∃ ceiling ∈ controller.config.costCeilingPerWindow,
        ceiling < (sumEntries (controller.evicted now).entries).2 + cost ∧
        wait = if cost ≤ ceiling then
          some (retryAfter (controller.evicted now).entries controller.config.window now) else none) := by
  unfold tryAdmit at denied ⊢
  simp only [evicted_config] at denied ⊢
  -- The two ceilings are tested one after the other.
  cases overTokens : controller.config.tokensPerWindow.filter fun limit =>
      limit < saturatingAdd (sumEntries (controller.evicted now).entries).1 tokens with
  | some limit =>
    simp only [overTokens] at denied ⊢
    obtain ⟨set, exceeded⟩ := Option.filter_eq_some_iff.mp overTokens
    exact ⟨trivial, .inl ⟨limit, set, of_decide_eq_true exceeded, (AdmissionDecision.denied.inj denied).2.symm⟩⟩
  | none =>
    simp only [overTokens] at denied ⊢
    have tokensFit := Option.filter_eq_none_iff.mp overTokens
    have within (limit : UInt64) (set : limit ∈ controller.config.tokensPerWindow) :
        saturatingAdd (sumEntries (controller.evicted now).entries).1 tokens ≤ limit :=
      UInt64.not_lt.mp fun exceeded => tokensFit limit set (decide_eq_true exceeded)
    cases overCost : controller.config.costCeilingPerWindow.filter fun ceiling =>
        ceiling < (sumEntries (controller.evicted now).entries).2 + cost with
    | some ceiling =>
      simp only [overCost] at denied ⊢
      obtain ⟨set, exceeded⟩ := Option.filter_eq_some_iff.mp overCost
      exact ⟨trivial, .inr ⟨within, ceiling, set, of_decide_eq_true exceeded,
        (AdmissionDecision.denied.inj denied).2.symm⟩⟩
    | none =>
      simp only [overCost] at denied
      cases denied

/-- Nothing is left of the window once it has passed. -/
theorem AdmissionController.evicted_after (past : ∀ entry ∈ controller.entries, entry.at_ ≤ now) :
    (controller.evicted (now + controller.config.window)).entries = [] := by
  -- Every entry is as old as the window by then.
  have aged (entry : UsageEntry) (member : entry ∈ controller.entries) :
      controller.config.window ≤ durationSince (now + controller.config.window) entry.at_ := by
    have before := past entry member
    exact le_max_of_le_left (by linarith)
  rw [evicted_entries, evictExpired]
  exact List.dropWhile_eq_nil_iff.mpr fun entry member => decide_eq_true (aged entry member)

/-- The saturating sum is at least what is added. -/
theorem le_saturatingAdd (a b : UInt64) : b ≤ saturatingAdd a b := by
  have small := b.toNat_lt
  rw [UInt64.le_iff_toNat_le, saturatingAdd_toNat]
  omega

/-- Nothing added to what is asked for is what is asked for. -/
theorem saturatingAdd_zero (b : UInt64) : saturatingAdd 0 b = b := by
  have small := b.toNat_lt
  refine UInt64.toNat_inj.mp ?_
  rw [saturatingAdd_toNat]
  show min (0 + b.toNat) (2 ^ 64 - 1) = b.toNat
  omega

/-- With nothing in the window every request fits that is not outsized. -/
theorem AdmissionController.fits_of_empty (empty : (controller.evicted now).entries = [])
    (small : ¬ controller.config.Outsized tokens cost) : controller.Fits now tokens cost := by
  simp only [AdmissionConfig.Outsized, not_or, not_exists, not_and, UInt64.not_lt, not_lt] at small
  refine ⟨fun limit set => ?_, fun ceiling set => ?_⟩ <;> rw [empty]
  · show saturatingAdd 0 tokens ≤ limit
    rw [saturatingAdd_zero]
    exact small.1 limit set
  · show 0 + cost ≤ ceiling
    rw [zero_add]
    exact small.2 ceiling set

/-- A request is denied for ever exactly if it asks for more than a whole budget is. -/
theorem AdmissionController.denies_always_iff (past : ∀ entry ∈ controller.entries, entry.at_ ≤ now)
    (light : ∀ entry ∈ controller.entries, 0 ≤ entry.cost) :
    (∀ later, now ≤ later → controller.Denies later tokens cost) ↔
      controller.config.Outsized tokens cost := by
  simp only [denies_iff]
  constructor
  · -- Once the window has passed, only the request itself counts.
    intro always
    by_contra small
    exact always _ (le_add_of_nonneg_right controller.config.window_nonneg)
      (fits_of_empty (evicted_after past) small)
  · intro outsized later _ fits
    rcases outsized with ⟨limit, set, exceeded⟩ | ⟨ceiling, set, exceeded⟩
    · have whole := fits.1 limit set
      exact absurd (UInt64.le_trans (le_saturatingAdd _ tokens) whole) (UInt64.not_le.mpr exceeded)
    · -- What the window holds has cost nothing or more.
      have spent : 0 ≤ (sumEntries (controller.evicted later).entries).2 := by
        rw [sumEntries_cost]
        refine List.sum_nonneg fun weighed member => ?_
        obtain ⟨entry, kept, rfl⟩ := List.mem_map.mp member
        exact light entry ((List.dropWhile_sublist _).subset kept)
      have below := fits.2 ceiling set
      linarith

/-- A request that is given a time to wait for is denied because of what the window holds. -/
theorem AdmissionController.occupied_of_hint {reason : String} {delay : Duration}
    (denied : (controller.tryAdmit now tokens cost).2 = .denied reason (some delay)) :
    (controller.evicted now).entries ≠ [] ∧
      delay = retryAfter (controller.evicted now).entries controller.config.window now := by
  rcases (denied_eq denied).2 with ⟨limit, set, exceeded, told⟩ | ⟨_, ceiling, set, exceeded, told⟩
  · split at told
    · rename_i small
      refine ⟨fun empty => ?_, Option.some.inj told⟩
      rw [empty] at exceeded
      -- A request that fits alone exceeds the limit only together with what the window holds.
      have alone : limit < saturatingAdd 0 tokens := exceeded
      rw [saturatingAdd_zero] at alone
      exact absurd small (UInt64.not_le.mpr alone)
    · cases told
  · split at told
    · rename_i small
      refine ⟨fun empty => ?_, Option.some.inj told⟩
      rw [empty] at exceeded
      have alone : ceiling < 0 + cost := exceeded
      rw [zero_add] at alone
      exact absurd small (not_le.mpr alone)
    · cases told

/-- After the time that is given as the hint the first entry has left the window. -/
theorem AdmissionController.evicted_hint (past : ∀ entry ∈ controller.entries, entry.at_ ≤ now)
    (occupied : controller.entries ≠ []) :
    (controller.evicted (now + retryAfter controller.entries controller.config.window now)).entries.length <
      controller.entries.length := by
  -- The hint is the time that the oldest entry has left in the window.
  cases shape : controller.entries with
  | nil => exact absurd shape occupied
  | cons oldest rest =>
    have before := past oldest (by rw [shape]; exact List.mem_cons_self)
    have age : durationSince now oldest.at_ = now - oldest.at_ := max_eq_left (sub_nonneg.mpr before)
    have waited : controller.config.window - durationSince now oldest.at_ ≤
        retryAfter (oldest :: rest) controller.config.window now := le_max_left _ _
    have gone : controller.config.window ≤
        durationSince (now + retryAfter (oldest :: rest) controller.config.window now) oldest.at_ := by
      rw [age] at waited
      exact le_max_of_le_left (by linarith)
    rw [evicted_entries, evictExpired, shape, List.dropWhile_cons, if_pos (decide_eq_true gone)]
    exact Nat.lt_succ_of_le (List.dropWhile_sublist _).length_le

/-- Where the tokens decide, the cost is not looked at: what is told is wrong exactly if it alone is too much. -/
theorem AdmissionController.tokens_decide {limit : UInt64} (set : limit ∈ controller.config.tokensPerWindow)
    (exceeded : limit < saturatingAdd (sumEntries (controller.evicted now).entries).1 tokens) :
    (limit < tokens ↔ controller.config.Outsized tokens cost) ↔ ¬ controller.Masks now tokens cost := by
  have only (other : UInt64) (same : other ∈ controller.config.tokensPerWindow) : other = limit :=
    Option.some.inj (same.symm.trans set)
  constructor
  · rintro outsized ⟨⟨other, same, fitting, _⟩, above⟩
    obtain rfl := only other same
    exact absurd fitting (UInt64.not_le.mpr (outsized.mpr (.inr above)))
  · intro unmasked
    refine ⟨fun alone => .inl ⟨limit, set, alone⟩, fun outsized => ?_⟩
    rcases outsized with ⟨other, same, alone⟩ | above
    · obtain rfl := only other same
      exact alone
    · by_contra fitting
      exact unmasked ⟨⟨limit, set, UInt64.not_lt.mp fitting, exceeded⟩, above⟩

/-- Where the tokens fit, the cost decides, and what is told is right. -/
theorem AdmissionController.cost_decides {ceiling : ℚ}
    (within : ∀ limit ∈ controller.config.tokensPerWindow,
      saturatingAdd (sumEntries (controller.evicted now).entries).1 tokens ≤ limit)
    (set : ceiling ∈ controller.config.costCeilingPerWindow) :
    (ceiling < cost ↔ controller.config.Outsized tokens cost) ↔ ¬ controller.Masks now tokens cost := by
  have only (other : ℚ) (same : other ∈ controller.config.costCeilingPerWindow) : other = ceiling :=
    Option.some.inj (same.symm.trans set)
  constructor
  · rintro _ ⟨⟨limit, same, _, above⟩, _⟩
    exact absurd (within limit same) (UInt64.not_le.mpr above)
  · intro _
    refine ⟨fun alone => .inr ⟨ceiling, set, alone⟩, fun outsized => ?_⟩
    rcases outsized with ⟨limit, same, alone⟩ | ⟨other, same, alone⟩
    · -- What is asked for is no more than with what the window holds, and that fits.
      have whole := UInt64.le_trans (le_saturatingAdd _ tokens) (within limit same)
      exact absurd whole (UInt64.not_le.mpr alone)
    · obtain rfl := only other same
      exact alone

end

/-- What a denied request is told is honest exactly if the token ceiling does not turn it away for the time
being although its cost is above the whole budget. -/
theorem Budget.honest_iff {config : AdmissionConfig} {calls : List (Instant × AdmissionCall)}
    (ordered : InOrder calls) (nonneg : ∀ now tokens cost, (now, .tryAdmit tokens cost) ∈ calls → 0 ≤ cost)
    {now : Instant} (latest : ∀ timed ∈ calls, timed.1 ≤ now) {tokens : UInt64} {cost : ℚ} {reason : String}
    {wait : Option Duration}
    (denied : ((Budget.run config calls).controller.tryAdmit now tokens cost).2 = .denied reason wait) :
    (Budget.run config calls).controller.Honest now tokens cost wait ↔
      ¬ (Budget.run config calls).controller.Masks now tokens cost := by
  generalize shape : (Budget.run config calls).controller = controller at denied ⊢
  -- What the controller still has was admitted by the calls.
  have recorded (entry : UsageEntry) (member : entry ∈ (controller.evicted now).entries) :
      entry ∈ (Budget.run config calls).history := by
    have kept := (List.dropWhile_sublist _).subset member
    rw [← shape, (sound_of_run ordered latest).kept] at kept
    obtain ⟨admission, among, rfl⟩ := List.mem_map.mp kept
    exact List.mem_map_of_mem (List.mem_of_mem_filter among)
  have past (entry : UsageEntry) (member : entry ∈ (controller.evicted now).entries) : entry.at_ ≤ now :=
    (sound_of_run ordered latest).past entry (recorded entry member)
  have light (entry : UsageEntry) (member : entry ∈ (controller.evicted now).entries) : 0 ≤ entry.cost :=
    nonneg _ _ _ (request_of_mem (recorded entry member))
  -- A hint always lets an entry leave, so that only the missing hint is in question.
  obtain ⟨left, decided⟩ := AdmissionController.denied_eq denied
  have hint : ∀ delay ∈ wait, ((controller.evicted now).evicted (now + delay)).entries.length <
      (controller.evicted now).entries.length := by
    intro delay told
    obtain rfl := Option.mem_def.mp told
    obtain ⟨occupied, rfl⟩ := AdmissionController.occupied_of_hint denied
    exact AdmissionController.evicted_hint past occupied
  unfold AdmissionController.Honest
  simp only [left, AdmissionController.denies_always_iff past light]
  rw [and_iff_left hint, AdmissionController.evicted_config]
  rcases decided with ⟨limit, set, exceeded, told⟩ | ⟨within, ceiling, set, exceeded, told⟩
  · have small : wait = none ↔ limit < tokens := by
      rw [told, ← UInt64.not_le]
      split <;> simp [*]
    rw [small]
    exact AdmissionController.tokens_decide set exceeded
  · have small : wait = none ↔ ceiling < cost := by
      rw [told, ← not_le]
      split <;> simp [*]
    rw [small]
    exact AdmissionController.cost_decides within set

/-- A hundred tokens and a dollar a minute. -/
def hundredAndADollar : AdmissionConfig where
  tokensPerWindow := some 100
  costCeilingPerWindow := some 1
  window := 60
  window_nonneg := minute_nonneg

/-- A request that leaves some room. -/
def sixtyTokens : List (Instant × AdmissionCall) :=
  [(0, .tryAdmit 60 0)]

/-- The request costs nothing. -/
theorem sixtyTokens_nonneg (now : Instant) (tokens : UInt64) (cost : ℚ)
    (member : (now, .tryAdmit tokens cost) ∈ sixtyTokens) : 0 ≤ cost := by
  have request : cost = 0 := by
    simp only [sixtyTokens, List.mem_singleton, Prod.mk.injEq, AdmissionCall.tryAdmit.injEq] at member
    exact member.2.2
  exact request.ge

theorem Budget.false_hope :
    ¬ ∀ (config : AdmissionConfig) (calls : List (Instant × AdmissionCall)),
      0 < config.window → Unchanged calls → InOrder calls →
      (∀ now tokens cost, (now, .tryAdmit tokens cost) ∈ calls → 0 ≤ cost) →
      ∀ now, (∀ timed ∈ calls, timed.1 ≤ now) → ∀ tokens cost reason wait, 0 ≤ cost →
        ((Budget.run config calls).controller.tryAdmit now tokens cost).2 = .denied reason wait →
        (Budget.run config calls).controller.Honest now tokens cost wait := by
  intro always
  have denied : ((Budget.run hundredAndADollar sixtyTokens).controller.tryAdmit 10 60 2).2 =
      .denied "would use 120 tokens this window, exceeding the 100-token budget" (some 50) := by
    decide +kernel
  have honest := always hundredAndADollar sixtyTokens (by decide +kernel) (by decide) (by decide +kernel)
    sixtyTokens_nonneg 10 (by decide +kernel) 60 2 _ _ (by decide +kernel) denied
  -- The cost of two dollars never fits, yet the request is told to wait.
  have never : ∀ later, 10 ≤ later →
      ((Budget.run hundredAndADollar sixtyTokens).controller.tryAdmit 10 60 2).1.Denies later 60 2 :=
    (AdmissionController.denies_always_iff (by decide +kernel) (by decide +kernel)).mpr
      (.inr ⟨1, by decide +kernel, by decide +kernel⟩)
  cases honest.1.mpr never

theorem Budget.honest_iff_sixtyTokens :
    (Budget.run hundredAndADollar sixtyTokens).controller.Honest 10 60 (1 / 2) (some 50) := by
  have denied : ((Budget.run hundredAndADollar sixtyTokens).controller.tryAdmit 10 60 (1 / 2)).2 =
      .denied "would use 120 tokens this window, exceeding the 100-token budget" (some 50) := by
    decide +kernel
  refine (Budget.honest_iff (by decide +kernel) sixtyTokens_nonneg (by decide +kernel) denied).mpr ?_
  -- Half a dollar is within the budget.
  rintro ⟨_, ceiling, set, above⟩
  rw [config_of_run (by decide)] at set
  obtain rfl := Option.some.inj set
  revert above
  decide +kernel

end Qaas
