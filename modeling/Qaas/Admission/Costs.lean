import Qaas.Admission.Ceilings

/-! What negative costs do to the cost ceiling. -/

namespace Qaas

open SlidingWindow

/-- What an entry takes from the budget. -/
def UsageEntry.charge (entry : UsageEntry) : ℚ :=
  max entry.cost 0

/-- What an entry of negative cost gives back. -/
def UsageEntry.credit (entry : UsageEntry) : ℚ :=
  max (-entry.cost) 0

/-- The costs are the charges less the credits. -/
theorem total_charge (entries : List UsageEntry) :
    total UsageEntry.charge entries = total UsageEntry.cost entries + total UsageEntry.credit entries := by
  induction entries using List.reverseRecOn with
  | nil => simp
  | append_singleton entries entry ih =>
    have own : entry.charge = entry.cost + entry.credit := by
      unfold UsageEntry.charge UsageEntry.credit
      rcases le_total entry.cost 0 with negative | positive
      · rw [max_eq_right negative, max_eq_left (by linarith)]
        ring
      · rw [max_eq_left positive, max_eq_right (by linarith)]
        ring
    simp only [total_append, total_singleton, ih, own]
    ring

/-- The history of a run continues that of its beginning. -/
theorem Budget.history_append (config : AdmissionConfig) (first second : List (Instant × AdmissionCall)) :
    ∃ more, (Budget.run config (first ++ second)).history = (Budget.run config first).history ++ more := by
  induction second using List.reverseRecOn with
  | nil => exact ⟨[], by simp⟩
  | append_singleton second timed ih =>
    obtain ⟨more, shape⟩ := ih
    refine ⟨more ++ ((Budget.run config (first ++ second)).controller.admits timed.1 timed.2).toList, ?_⟩
    rw [← List.append_assoc, run_concat, step_history, shape, List.append_assoc]

/-- The window that ends with an admitted request holds it, and all that was in it before. -/
theorem Budget.charge_into_window {config : AdmissionConfig} {before : List (Instant × AdmissionCall)}
    {now : Instant} {tokens : UInt64} {cost : ℚ} (wide : 0 < config.window)
    (fits : (Budget.run config before).controller.Fits now tokens cost)
    (after : List (Instant × AdmissionCall)) :
    total UsageEntry.charge (trailing UsageEntry.at_ config.window now (Budget.run config before).history) +
        cost ≤
      total UsageEntry.charge (trailing UsageEntry.at_ config.window now
        (Budget.run config (before ++ (now, .tryAdmit tokens cost) :: after)).history) := by
  obtain ⟨more, shape⟩ := history_append config (before ++ [(now, .tryAdmit tokens cost)]) after
  have admitted : (Budget.run config (before ++ [(now, .tryAdmit tokens cost)])).history =
      (Budget.run config before).history ++ [⟨now, tokens, cost⟩] := by
    rw [run_concat, step_history, AdmissionController.admits_tryAdmit, if_pos fits]
    rfl
  have whole : before ++ (now, AdmissionCall.tryAdmit tokens cost) :: after =
      (before ++ [(now, .tryAdmit tokens cost)]) ++ after := by simp
  have own : trailing UsageEntry.at_ config.window now [⟨now, tokens, cost⟩] = [⟨now, tokens, cost⟩] := by
    simp [trailing, wide]
  -- Whatever is admitted later only adds to the charges.
  have later : 0 ≤ total UsageEntry.charge (trailing UsageEntry.at_ config.window now more) :=
    List.sum_nonneg fun _ weighed => by
      obtain ⟨entry, _, rfl⟩ := List.mem_map.mp weighed
      exact le_max_right _ _
  have charge : cost ≤ UsageEntry.charge ⟨now, tokens, cost⟩ := le_max_left _ _
  rw [whole, shape, admitted, trailing_append, trailing_append, total_append, total_append, own,
    total_singleton]
  linarith

/-- The charges stay below the ceiling exactly when no charge is admitted into room that only credits made. -/
theorem Budget.charges_iff {config : AdmissionConfig} {calls : List (Instant × AdmissionCall)}
    (unchanged : Unchanged calls) (ordered : InOrder calls) {ceiling : ℚ}
    (set : config.costCeilingPerWindow = some ceiling) (room : 0 ≤ ceiling) :
    (∀ now, total UsageEntry.charge
      (trailing UsageEntry.at_ config.window now (Budget.run config calls).history) ≤ ceiling) ↔
    ∀ before now tokens cost after, calls = before ++ (now, .tryAdmit tokens cost) :: after →
      0 < cost → (Budget.run config before).controller.Fits now tokens cost →
      total UsageEntry.credit
        (trailing UsageEntry.at_ config.window now (Budget.run config before).history) ≤
      ceiling - (total UsageEntry.cost
        (trailing UsageEntry.at_ config.window now (Budget.run config before).history) + cost) := by
  constructor
  · rintro bounded before now tokens cost after rfl positive fits
    obtain ⟨first, latest⟩ := ordered.split
    -- A window of no width holds nothing, and there the request fits on its own.
    rcases config.window_nonneg.eq_or_lt with empty | wide
    · have nothing (entries : List UsageEntry) : trailing UsageEntry.at_ config.window now entries = [] := by
        rw [trailing, List.filter_eq_nil_iff]
        intro entry _
        rw [← empty]
        simp
      have spent := ((fits_iff unchanged.split first latest).mp fits).2 ceiling set
      rw [nothing] at spent ⊢
      simpa [total] using spent
    · -- What the window of the request holds is charged, and the request with it.
      have whole := (charge_into_window wide fits after).trans (bounded now)
      rw [total_charge] at whole
      linarith
  · intro lent now
    have nonneg : ∀ entry ∈ (Budget.run config calls).history, 0 ≤ entry.charge :=
      fun _ _ => le_max_right _ _
    refine total_trailing_le room nonneg (sorted_of_run ordered) ?_ now
    intro before entry after shape charged
    have positive : 0 < entry.cost := by
      by_contra negative
      exact charged (max_eq_right (not_lt.mp negative))
    have charge : entry.charge = entry.cost := max_eq_left positive.le
    -- The entry stems from a request that fitted, and the credits then left it its room.
    obtain ⟨earlier, call, later, rfl, rfl, admitted⟩ := admitted_at shape
    cases call with
    | tryAdmit tokens cost =>
      rw [AdmissionController.admits_tryAdmit] at admitted
      split at admitted
      · rename_i fits
        obtain rfl : cost = entry.cost := congrArg UsageEntry.cost (Option.some.inj admitted)
        have covered := lent earlier entry.at_ tokens entry.cost later rfl positive fits
        rw [total_charge, charge]
        linarith
      · cases admitted
    | usage => cases admitted
    | hasHeadroom => cases admitted
    | setConfig config => cases admitted

/-- At most one dollar a minute. -/
def oneDollar : AdmissionConfig where
  tokensPerWindow := none
  costCeilingPerWindow := some 1
  window := 60
  window_nonneg := minute_nonneg

/-- A refund makes room for six dollars. -/
def refundFirst : List (Instant × AdmissionCall) :=
  [(0, .tryAdmit 0 (-5)), (0, .tryAdmit 0 6)]

theorem Budget.ceiling_widened :
    ¬ ∀ (config : AdmissionConfig) (calls : List (Instant × AdmissionCall)) (ceiling : ℚ),
      Unchanged calls → InOrder calls → config.costCeilingPerWindow = some ceiling → 0 ≤ ceiling →
      ∀ now, total UsageEntry.charge
        (trailing UsageEntry.at_ config.window now (Budget.run config calls).history) ≤ ceiling := by
  intro always
  have promised := always oneDollar refundFirst 1 (by decide) (by decide +kernel) rfl
    (by decide +kernel) 0
  revert promised
  decide +kernel

theorem Budget.charges_iff_oneDollar :
    ¬ ∀ before now tokens cost after, refundFirst = before ++ (now, .tryAdmit tokens cost) :: after →
      0 < cost → (Budget.run oneDollar before).controller.Fits now tokens cost →
      total UsageEntry.credit
        (trailing UsageEntry.at_ oneDollar.window now (Budget.run oneDollar before).history) ≤
      1 - (total UsageEntry.cost
        (trailing UsageEntry.at_ oneDollar.window now (Budget.run oneDollar before).history) + cost) := by
  intro lent
  have bounded := (Budget.charges_iff (by decide) (by decide +kernel) rfl (by decide +kernel)).mpr lent 0
  revert bounded
  decide +kernel

end Qaas
