import Qaas.Admission.Ceilings

/-! What is left of the recorded usage when the window changes. -/

namespace Qaas

open SlidingWindow

/-- Whether an entry is younger than a window. -/
def UsageEntry.young (window : Duration) (now : Instant) (entry : UsageEntry) : Bool :=
  durationSince now entry.at_ < window

/-- The entries younger than a window split into those that have lapsed and those still counted. -/
theorem Budget.total_young (budget : Budget) (window : Duration) (now : Instant) :
    total UsageEntry.tokenCount (budget.history.filter (UsageEntry.young window now)) =
      total (UsageEntry.tokenCount ∘ Admission.entry)
        (budget.ledger.filter fun a => a.lapsed && a.entry.young window now) +
      total (UsageEntry.tokenCount ∘ Admission.entry)
        (budget.ledger.filter fun a => !a.lapsed && a.entry.young window now) := by
  unfold history total
  induction budget.ledger with
  | nil => rfl
  | cons a rest ih =>
    rw [List.map_cons]
    cases old : a.entry.young window now with
    | false => simpa [List.filter_cons, old] using ih
    | true =>
      -- The entry counts on one side or the other.
      cases lapsed : a.lapsed with
      | false =>
        simp only [List.filter_cons, old, lapsed, ↓reduceIte, Bool.and_true, Bool.false_eq_true,
          Bool.not_false, List.map_cons, List.sum_cons, Function.comp_apply] at ih ⊢
        omega
      | true =>
        simp only [List.filter_cons, old, lapsed, ↓reduceIte, Bool.and_true, Bool.false_eq_true,
          Bool.not_true, List.map_cons, List.sum_cons, Function.comp_apply] at ih ⊢
        omega

/-- The usage that a controller reports is that of the young entries no call has found too old. -/
theorem Budget.Sound.tokensUsed {budget : Budget} {before : Instant} (sound : budget.Sound before)
    (now : Instant) :
    (budget.controller.usage now).2.tokensUsed.toNat =
      min (total (UsageEntry.tokenCount ∘ Admission.entry)
        (budget.ledger.filter fun a =>
          !a.lapsed && a.entry.young budget.controller.config.window now)) (2 ^ 64 - 1) := by
  show (sumEntries (budget.controller.evicted now).entries).1.toNat = _
  rw [sumEntries_tokens, sound.evicted now, total, List.map_map, total]
  congr 4
  refine funext fun a => ?_
  simp [Admission.seen, UsageEntry.young, ← not_lt]

/-- The tokens of a list of numbers add up to nothing only when each is nothing. -/
theorem total_eq_zero_iff {admissions : List Admission} :
    total (UsageEntry.tokenCount ∘ Admission.entry) admissions = 0 ↔
      ∀ a ∈ admissions, a.entry.tokens = 0 := by
  unfold total
  rw [List.sum_eq_zero_iff]
  simp [UsageEntry.tokenCount, ← UInt64.toNat_inj]

/-- The reported usage is always that of the new window exactly when whatever an earlier window let
lapse, and the new one covers again, carries no tokens, or the rest saturates without it. -/
theorem Budget.usage_iff {config : AdmissionConfig} {calls : List (Instant × AdmissionCall)}
    (ordered : InOrder calls) :
    (∀ before now after, calls = before ++ (now, .usage) :: after →
      ((Budget.run config before).controller.usage now).2.tokensUsed.toNat =
        min (total UsageEntry.tokenCount ((Budget.run config before).history.filter
          (UsageEntry.young (Budget.run config before).controller.config.window now))) (2 ^ 64 - 1)) ↔
    ∀ before now after, calls = before ++ (now, .usage) :: after →
      (∀ a ∈ (Budget.run config before).ledger, a.lapsed = true →
        a.entry.young (Budget.run config before).controller.config.window now = true →
        a.entry.tokens = 0) ∨
      2 ^ 64 - 1 ≤ total (UsageEntry.tokenCount ∘ Admission.entry)
        ((Budget.run config before).ledger.filter fun a =>
          !a.lapsed && a.entry.young (Budget.run config before).controller.config.window now) := by
  refine forall_congr' fun before => forall_congr' fun now => forall_congr' fun after => ?_
  refine imp_congr_right fun shape => ?_
  subst shape
  obtain ⟨first, latest⟩ := InOrder.split ordered
  have sound : (Budget.run config before).Sound now := sound_of_run first latest
  rw [sound.tokensUsed now, total_young]
  -- Two saturated sums agree when what one has more is nothing, or does not matter.
  have lapsedZero : total (UsageEntry.tokenCount ∘ Admission.entry)
      ((Budget.run config before).ledger.filter fun a =>
        a.lapsed && a.entry.young (Budget.run config before).controller.config.window now) = 0 ↔
      ∀ a ∈ (Budget.run config before).ledger, a.lapsed = true →
        a.entry.young (Budget.run config before).controller.config.window now = true →
        a.entry.tokens = 0 := by
    rw [total_eq_zero_iff]
    simp only [List.mem_filter, Bool.and_eq_true, and_imp]
  rw [← lapsedZero]
  omega

/-- Ten seconds, and no ceilings. -/
def tenSeconds : AdmissionConfig :=
  { AdmissionConfig.unlimited with window := 10, window_nonneg := by decide +kernel }

/-- The window is widened to an hour after a look at the usage. -/
def widenedWindow : List (Instant × AdmissionCall) :=
  [(0, .tryAdmit 50 0), (20, .usage), (20, .setConfig .unlimited), (21, .usage)]

/-- The usage after the window was widened is not that of the new window. -/
theorem Budget.usage_forgotten :
    ¬ ∀ (config : AdmissionConfig) (calls : List (Instant × AdmissionCall)), InOrder calls →
      ∀ before now after, calls = before ++ (now, .usage) :: after →
        ((Budget.run config before).controller.usage now).2.tokensUsed.toNat =
          min (total UsageEntry.tokenCount ((Budget.run config before).history.filter
            (UsageEntry.young (Budget.run config before).controller.config.window now)))
            (2 ^ 64 - 1) := by
  intro always
  have promised := always tenSeconds widenedWindow (by decide +kernel)
    [(0, .tryAdmit 50 0), (20, .usage), (20, .setConfig .unlimited)] 21 [] rfl
  revert promised
  decide +kernel

theorem Budget.usage_iff_widened :
    ¬ ∀ before now after, widenedWindow = before ++ (now, .usage) :: after →
      (∀ a ∈ (Budget.run tenSeconds before).ledger, a.lapsed = true →
        a.entry.young (Budget.run tenSeconds before).controller.config.window now = true →
        a.entry.tokens = 0) ∨
      2 ^ 64 - 1 ≤ total (UsageEntry.tokenCount ∘ Admission.entry)
        ((Budget.run tenSeconds before).ledger.filter fun a =>
          !a.lapsed && a.entry.young (Budget.run tenSeconds before).controller.config.window now) := by
  intro unharmed
  have promised := (Budget.usage_iff (by decide +kernel)).mpr unharmed
    [(0, .tryAdmit 50 0), (20, .usage), (20, .setConfig .unlimited)] 21 [] rfl
  revert promised
  decide +kernel

end Qaas
