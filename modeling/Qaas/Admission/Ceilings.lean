import Qaas.Admission.History

/-! What the ceilings of an unchanged configuration bound, and what a caller reads of them. -/

namespace Qaas

open SlidingWindow

/-- The tokens of an entry, as a number. -/
def UsageEntry.tokenCount (entry : UsageEntry) : Nat :=
  entry.tokens.toNat

/-- The tokens add up until they saturate. -/
theorem sumEntries_tokens (entries : List UsageEntry) :
    (sumEntries entries).1.toNat = min (total UsageEntry.tokenCount entries) (2 ^ 64 - 1) := by
  -- Entry by entry, and a sum that has saturated stays where it is.
  induction entries using List.reverseRecOn with
  | nil => rfl
  | append_singleton entries entry ih =>
    have grown : (sumEntries (entries ++ [entry])).1 =
        saturatingAdd (sumEntries entries).1 entry.tokens := by simp [sumEntries]
    rw [grown, saturatingAdd_toNat, ih, total_append, total_singleton, UsageEntry.tokenCount]
    omega

/-- The costs add up. -/
theorem sumEntries_cost (entries : List UsageEntry) :
    (sumEntries entries).2 = total UsageEntry.cost entries := by
  induction entries using List.reverseRecOn with
  | nil => rfl
  | append_singleton entries entry ih =>
    have grown : (sumEntries (entries ++ [entry])).2 = (sumEntries entries).2 + entry.cost := by
      simp [sumEntries]
    rw [grown, ih, total_append, total_singleton]

/-- No call changes the configuration. -/
def Unchanged (calls : List (Instant × AdmissionCall)) : Prop :=
  ∀ timed ∈ calls, timed.2.reconfigures = false

instance Unchanged.decidable (calls : List (Instant × AdmissionCall)) : Decidable (Unchanged calls) :=
  inferInstanceAs (Decidable (∀ timed ∈ calls, timed.2.reconfigures = false))

/-- A configuration that no call changes stays. -/
theorem Budget.config_of_run {config : AdmissionConfig} {calls : List (Instant × AdmissionCall)}
    (unchanged : Unchanged calls) : (Budget.run config calls).controller.config = config := by
  -- Call by call, as none of them is the one that changes it.
  induction calls using List.reverseRecOn with
  | nil => rfl
  | append_singleton calls timed ih =>
    have before := ih fun other member => unchanged other (List.mem_append_left _ member)
    rw [run_concat]
    show ((Budget.run config calls).controller.call timed.1 timed.2).1.config = config
    rw [AdmissionController.call_eq (unchanged timed (by simp))]
    exact before

/-- What has lapsed was as old as the window at some call. -/
theorem Budget.lapsed_of_run {config : AdmissionConfig} {calls : List (Instant × AdmissionCall)}
    (unchanged : Unchanged calls) {a : Admission} (member : a ∈ (Budget.run config calls).ledger)
    (lapsed : a.lapsed = true) : ∃ timed ∈ calls, config.window ≤ durationSince timed.1 a.entry.at_ := by
  induction calls using List.reverseRecOn generalizing a with
  | nil => cases member
  | append_singleton calls timed ih =>
    obtain ⟨now, call⟩ := timed
    have fixed : Unchanged calls := fun other earlier => unchanged other (List.mem_append_left _ earlier)
    rw [run_concat, step_ledger _ (unchanged (now, call) (by simp))] at member
    rcases List.mem_append.mp member with before | last
    · -- It lapsed before, or the last call has found it too old.
      obtain ⟨old, earlier, rfl⟩ := List.mem_map.mp before
      rw [config_of_run fixed] at lapsed
      rcases (Bool.or_eq_true _ _).mp lapsed with already | expired
      · obtain ⟨other, placed, aged⟩ := ih fixed earlier already
        exact ⟨other, List.mem_append_left _ placed, aged⟩
      · exact ⟨(now, call), by simp, of_decide_eq_true expired⟩
    · obtain ⟨_, _, rfl⟩ := List.mem_map.mp last
      cases lapsed

/-- Under an unchanged configuration the controller counts what the trailing window holds. -/
theorem Budget.evicted_of_run {config : AdmissionConfig} {calls : List (Instant × AdmissionCall)}
    (unchanged : Unchanged calls) (ordered : InOrder calls) {now : Instant}
    (latest : ∀ timed ∈ calls, timed.1 ≤ now) :
    ((Budget.run config calls).controller.evicted now).entries =
      trailing UsageEntry.at_ config.window now (Budget.run config calls).history := by
  have sound : (Budget.run config calls).Sound now := sound_of_run ordered latest
  rw [sound.evicted now, trailing, history, List.filter_map]
  congr 1
  refine List.filter_congr fun a member => ?_
  have past := sound.past a.entry (List.mem_map_of_mem member)
  have age : durationSince now a.entry.at_ = now - a.entry.at_ := max_eq_left (sub_nonneg.mpr past)
  have young : now - config.window < a.entry.at_ ↔ ¬ config.window ≤ durationSince now a.entry.at_ := by
    rw [age, not_le, sub_lt_comm]
  simp only [Admission.seen, config_of_run unchanged, Function.comp_apply, past, and_true, young]
  -- What has lapsed is older still by now.
  cases lapsed : a.lapsed with
  | false => simp [← not_lt]
  | true =>
    obtain ⟨timed, placed, aged⟩ := lapsed_of_run unchanged member lapsed
    have older : durationSince timed.1 a.entry.at_ ≤ durationSince now a.entry.at_ :=
      max_le_max_right 0 (sub_le_sub_right (latest timed placed) _)
    simp [aged.trans older]

/-- A run up to one of its calls, whose time no earlier call exceeds. -/
theorem InOrder.split {before after : List (Instant × AdmissionCall)} {timed : Instant × AdmissionCall}
    (ordered : InOrder (before ++ timed :: after)) :
    InOrder before ∧ ∀ earlier ∈ before, earlier.1 ≤ timed.1 := by
  obtain ⟨first, _, last⟩ := List.pairwise_append.mp ordered
  exact ⟨first, fun earlier member => last earlier member timed (by simp)⟩

/-- The calls before one of them leave the configuration as well. -/
theorem Unchanged.split {before after : List (Instant × AdmissionCall)}
    {timed : Instant × AdmissionCall} (unchanged : Unchanged (before ++ timed :: after)) :
    Unchanged before :=
  fun earlier member => unchanged earlier (List.mem_append_left _ member)

/-- A request fits when the trailing window has room for it under both ceilings. -/
theorem Budget.fits_iff {config : AdmissionConfig} {calls : List (Instant × AdmissionCall)}
    (unchanged : Unchanged calls) (ordered : InOrder calls) {now : Instant}
    (latest : ∀ timed ∈ calls, timed.1 ≤ now) {tokens : UInt64} {cost : ℚ} :
    (Budget.run config calls).controller.Fits now tokens cost ↔
      (∀ limit ∈ config.tokensPerWindow,
        min (total UsageEntry.tokenCount
          (trailing UsageEntry.at_ config.window now (Budget.run config calls).history) + tokens.toNat)
          (2 ^ 64 - 1) ≤ limit.toNat) ∧
      ∀ ceiling ∈ config.costCeilingPerWindow,
        total UsageEntry.cost
          (trailing UsageEntry.at_ config.window now (Budget.run config calls).history) + cost ≤ ceiling := by
  -- What is left after an eviction is what the trailing window holds of the history.
  unfold AdmissionController.Fits
  simp only [config_of_run unchanged, evicted_of_run unchanged ordered latest]
  rw [sumEntries_cost]
  refine and_congr (forall_congr' fun limit => imp_congr_right fun _ => ?_) Iff.rfl
  rw [UInt64.le_iff_toNat_le, saturatingAdd_toNat, sumEntries_tokens]
  omega

/-- What was admitted fitted the window that ended with it. -/
theorem Budget.fitted_of_run {config : AdmissionConfig} {calls : List (Instant × AdmissionCall)}
    (unchanged : Unchanged calls) (ordered : InOrder calls) {before after : List UsageEntry}
    {entry : UsageEntry} (shape : (Budget.run config calls).history = before ++ entry :: after) :
    (∀ limit ∈ config.tokensPerWindow,
      min (total UsageEntry.tokenCount (trailing UsageEntry.at_ config.window entry.at_ before) +
        entry.tokenCount) (2 ^ 64 - 1) ≤ limit.toNat) ∧
    ∀ ceiling ∈ config.costCeilingPerWindow,
      total UsageEntry.cost (trailing UsageEntry.at_ config.window entry.at_ before) + entry.cost ≤
        ceiling := by
  obtain ⟨earlier, call, later, rfl, rfl, admitted⟩ := admitted_at shape
  obtain ⟨first, latest⟩ := ordered.split
  -- Only a call of `try_admit` records anything, and only a request that fits.
  cases call with
  | tryAdmit tokens cost =>
    rw [AdmissionController.admits_tryAdmit] at admitted
    split at admitted
    · rename_i fits
      have same := Option.some.inj admitted
      obtain rfl : tokens = entry.tokens := congrArg UsageEntry.tokens same
      obtain rfl : cost = entry.cost := congrArg UsageEntry.cost same
      exact (fits_iff unchanged.split first latest).mp fits
    · cases admitted
  | usage => cases admitted
  | hasHeadroom => cases admitted
  | setConfig config => cases admitted

/-- The history is in the order of the calls' times. -/
theorem Budget.sorted_of_run {config : AdmissionConfig} {calls : List (Instant × AdmissionCall)}
    (ordered : InOrder calls) :
    (Budget.run config calls).history.Pairwise fun earlier later => earlier.at_ ≤ later.at_ := by
  -- There is a time by which all calls have been made, and up to it the invariant holds.
  obtain ⟨now, latest⟩ : ∃ now, ∀ timed ∈ calls, timed.1 ≤ now := by
    induction calls with
    | nil => exact ⟨0, fun _ member => (List.not_mem_nil member).elim⟩
    | cons first rest ih =>
      obtain ⟨now, latest⟩ := ih (List.pairwise_cons.mp ordered).2
      refine ⟨max first.1 now, fun timed member => ?_⟩
      rcases List.mem_cons.mp member with rfl | later
      · exact le_max_left _ _
      · exact (latest timed later).trans (le_max_right _ _)
  exact (sound_of_run ordered latest).sorted

/-- Every entry of the history is what some request asked for. -/
theorem Budget.request_of_mem {config : AdmissionConfig} {calls : List (Instant × AdmissionCall)}
    {entry : UsageEntry} (member : entry ∈ (Budget.run config calls).history) :
    (entry.at_, .tryAdmit entry.tokens entry.cost) ∈ calls := by
  -- The entry was recorded by some call, and only an admission records one.
  obtain ⟨before, after, shape⟩ := List.append_of_mem member
  obtain ⟨earlier, call, later, rfl, _, admitted⟩ := admitted_at shape
  cases call with
  | tryAdmit tokens cost =>
    rw [AdmissionController.admits_tryAdmit] at admitted
    split at admitted
    · have same := Option.some.inj admitted
      obtain rfl : tokens = entry.tokens := congrArg UsageEntry.tokens same
      obtain rfl : cost = entry.cost := congrArg UsageEntry.cost same
      simp
    · cases admitted
  | usage => cases admitted
  | hasHeadroom => cases admitted
  | setConfig config => cases admitted

/-- Below the largest number a saturating sum is below a limit exactly when the sum is. -/
theorem min_le_iff_of_small {sum limit : Nat} (small : limit < 2 ^ 64 - 1) :
    min sum (2 ^ 64 - 1) ≤ limit ↔ sum ≤ limit := by
  omega

/-- No trailing window ever holds more tokens than the ceiling allows. -/
theorem Budget.tokens_le {config : AdmissionConfig} {calls : List (Instant × AdmissionCall)}
    (unchanged : Unchanged calls) (ordered : InOrder calls) {limit : UInt64}
    (set : config.tokensPerWindow = some limit) (now : Instant) :
    min (total UsageEntry.tokenCount
      (trailing UsageEntry.at_ config.window now (Budget.run config calls).history)) (2 ^ 64 - 1) ≤
      limit.toNat := by
  by_cases small : limit.toNat < 2 ^ 64 - 1
  · rw [min_le_iff_of_small small]
    -- Every admission fitted the window that ended with it.
    refine total_trailing_le (Nat.zero_le _) (fun _ _ => Nat.zero_le _) ?_ ?_ now
    · exact sorted_of_run ordered
    · intro before entry after shape _
      exact (min_le_iff_of_small small).mp ((fitted_of_run unchanged ordered shape).1 limit set)
  · -- The largest number bounds every saturated sum.
    omega

/-- A request is admitted exactly when its tokens fit below the ceiling together with all the
admissions of the trailing window, so no trailing window ever exceeds the ceiling. -/
theorem Budget.token_ceiling {config : AdmissionConfig} {calls : List (Instant × AdmissionCall)}
    (unchanged : Unchanged calls) (ordered : InOrder calls) {limit : UInt64}
    (set : config.tokensPerWindow = some limit) (small : limit.toNat < 2 ^ 64 - 1)
    (unset : config.costCeilingPerWindow = none) :
    (∀ before now tokens cost after, calls = before ++ (now, .tryAdmit tokens cost) :: after →
      ((∃ tokensRemaining costRemaining,
        ((Budget.run config before).controller.tryAdmit now tokens cost).2 =
          .admitted tokensRemaining costRemaining) ↔
        tokens.toNat + total UsageEntry.tokenCount
          (trailing UsageEntry.at_ config.window now (Budget.run config before).history) ≤
          limit.toNat)) ∧
    ∀ now, total UsageEntry.tokenCount
      (trailing UsageEntry.at_ config.window now (Budget.run config calls).history) ≤ limit.toNat := by
  constructor
  · rintro before now tokens cost after rfl
    obtain ⟨first, latest⟩ := ordered.split
    rw [AdmissionController.admitted_iff, fits_iff unchanged.split first latest, add_comm]
    -- Without a cost ceiling the tokens alone decide.
    simp only [set, unset, Option.mem_def, Option.some.injEq, forall_eq', reduceCtorEq,
      false_implies, implies_true, and_true]
    exact min_le_iff_of_small small
  · intro now
    exact (min_le_iff_of_small small).mp (tokens_le unchanged ordered set now)

/-- At most a hundred tokens a minute. -/
def hundredTokens : AdmissionConfig where
  tokensPerWindow := some 100
  costCeilingPerWindow := none
  window := 60
  window_nonneg := minute_nonneg

/-- A second request that has to wait until the first one leaves the window. -/
def twoLargeRequests : List (Instant × AdmissionCall) :=
  [(0, .tryAdmit 60 0), (30, .hasHeadroom), (59, .tryAdmit 60 0), (60, .tryAdmit 60 0)]

theorem Budget.token_ceiling_hundred :
    total UsageEntry.tokenCount (trailing UsageEntry.at_ hundredTokens.window 60
      (Budget.run hundredTokens twoLargeRequests).history) ≤ (100 : UInt64).toNat :=
  (Budget.token_ceiling (by decide) (by decide +kernel) rfl (by decide) rfl).2 60

/-- What a caller that asks for headroom is told. -/
theorem Budget.hasHeadroom_iff {config : AdmissionConfig} {calls : List (Instant × AdmissionCall)}
    (unchanged : Unchanged calls) (ordered : InOrder calls) {now : Instant}
    (latest : ∀ timed ∈ calls, timed.1 ≤ now) :
    ((Budget.run config calls).controller.hasHeadroom now).2 = true ↔
      (∀ limit ∈ config.tokensPerWindow,
        min (total UsageEntry.tokenCount
          (trailing UsageEntry.at_ config.window now (Budget.run config calls).history))
          (2 ^ 64 - 1) < limit.toNat) ∧
      ∀ ceiling ∈ config.costCeilingPerWindow,
        total UsageEntry.cost
          (trailing UsageEntry.at_ config.window now (Budget.run config calls).history) < ceiling := by
  simp only [AdmissionController.hasHeadroom, AdmissionController.evicted_config,
    config_of_run unchanged, evicted_of_run unchanged ordered latest, Bool.and_eq_true,
    Option.all_eq_true, decide_eq_true_eq, sumEntries_cost, UInt64.lt_iff_toNat_lt, sumEntries_tokens]
  rfl

/-- There is headroom at every call exactly when none finds the window filled up to a ceiling. -/
theorem Budget.headroom_iff {config : AdmissionConfig} {calls : List (Instant × AdmissionCall)}
    (unchanged : Unchanged calls) (ordered : InOrder calls)
    (nonneg : ∀ now tokens cost, (now, .tryAdmit tokens cost) ∈ calls → 0 ≤ cost) :
    (∀ before now after, calls = before ++ (now, .hasHeadroom) :: after →
      ((Budget.run config before).controller.hasHeadroom now).2 = true) ↔
    ∀ before now after, calls = before ++ (now, .hasHeadroom) :: after →
      (∀ limit ∈ config.tokensPerWindow,
        min (total UsageEntry.tokenCount
          (trailing UsageEntry.at_ config.window now (Budget.run config before).history))
          (2 ^ 64 - 1) ≠ limit.toNat) ∧
      ∀ ceiling ∈ config.costCeilingPerWindow, 0 ≤ ceiling ∧
        total UsageEntry.cost
          (trailing UsageEntry.at_ config.window now (Budget.run config before).history) ≠ ceiling := by
  refine forall_congr' fun before => forall_congr' fun now => forall_congr' fun after => ?_
  refine imp_congr_right fun shape => ?_
  subst shape
  obtain ⟨first, latest⟩ := ordered.split
  have fixed := unchanged.split
  -- Nothing in the window has a negative cost.
  have light : ∀ entry ∈ trailing UsageEntry.at_ config.window now (Budget.run config before).history,
      0 ≤ entry.cost := by
    intro entry member
    have asked := request_of_mem (List.mem_of_mem_filter member)
    exact nonneg _ _ _ (List.mem_append_left _ asked)
  rw [hasHeadroom_iff fixed first latest]
  constructor
  · intro ⟨tokensBelow, costBelow⟩
    refine ⟨fun limit set => (tokensBelow limit set).ne, fun ceiling set => ?_⟩
    have below := costBelow ceiling set
    have spent : 0 ≤ total UsageEntry.cost
        (trailing UsageEntry.at_ config.window now (Budget.run config before).history) :=
      List.sum_nonneg fun _ weighed => by
        obtain ⟨entry, member, rfl⟩ := List.mem_map.mp weighed
        exact light entry member
    exact ⟨spent.trans below.le, below.ne⟩
  · intro ⟨tokensApart, costApart⟩
    refine ⟨fun limit set => ?_, fun ceiling set => ?_⟩
    · -- No window exceeds the ceiling, so one that does not reach it stays below.
      exact lt_of_le_of_ne (tokens_le fixed first set now) (tokensApart limit set)
    · obtain ⟨room, apart⟩ := costApart ceiling set
      refine lt_of_le_of_ne ?_ apart
      refine total_trailing_le room ?_ (sorted_of_run first) ?_ now
      · intro entry member
        exact nonneg _ _ _ (List.mem_append_left _ (request_of_mem member))
      · intro earlier entry later split _
        exact (fitted_of_run fixed first split).2 ceiling set

/-- One request that takes the whole budget, and then a look at the headroom. -/
def filledToTheBrim : List (Instant × AdmissionCall) :=
  [(0, .tryAdmit 100 0), (0, .hasHeadroom)]

/-- No request of the schedule has a negative cost. -/
theorem filledToTheBrim_nonneg (now : Instant) (tokens : UInt64) (cost : ℚ)
    (member : (now, .tryAdmit tokens cost) ∈ filledToTheBrim) : 0 ≤ cost := by
  have request : cost = 0 := by
    simp only [filledToTheBrim, List.mem_cons, Prod.mk.injEq, AdmissionCall.tryAdmit.injEq,
      reduceCtorEq, and_false, List.not_mem_nil, or_false] at member
    exact member.2.2
  exact request.ge

theorem Budget.no_headroom_at_ceiling :
    ¬ ∀ (config : AdmissionConfig) (calls : List (Instant × AdmissionCall)),
      Unchanged calls → InOrder calls →
      (∀ now tokens cost, (now, .tryAdmit tokens cost) ∈ calls → 0 ≤ cost) →
      ∀ before now after, calls = before ++ (now, .hasHeadroom) :: after →
        ((Budget.run config before).controller.hasHeadroom now).2 = true := by
  intro always
  have promised := always hundredTokens filledToTheBrim (by decide) (by decide +kernel)
    filledToTheBrim_nonneg [(0, .tryAdmit 100 0)] 0 [] rfl
  revert promised
  decide +kernel

theorem Budget.headroom_iff_brim :
    ¬ ∀ before now after, filledToTheBrim = before ++ (now, .hasHeadroom) :: after →
      (∀ limit ∈ hundredTokens.tokensPerWindow,
        min (total UsageEntry.tokenCount
          (trailing UsageEntry.at_ hundredTokens.window now (Budget.run hundredTokens before).history))
          (2 ^ 64 - 1) ≠ limit.toNat) ∧
      ∀ ceiling ∈ hundredTokens.costCeilingPerWindow, 0 ≤ ceiling ∧
        total UsageEntry.cost
          (trailing UsageEntry.at_ hundredTokens.window now (Budget.run hundredTokens before).history) ≠
          ceiling := by
  intro apart
  have promised := (Budget.headroom_iff (by decide) (by decide +kernel) filledToTheBrim_nonneg).mpr apart
    [(0, .tryAdmit 100 0)] 0 [] rfl
  revert promised
  decide +kernel

end Qaas
