import Mathlib.Data.List.Forall2
import Mathlib.Data.List.Infix
import Qaas.Admission.Ceilings
import Qaas.Admission.Requests

/-! The quota of a tenant is the budget of a queue that counts ones. -/

namespace Qaas

open SlidingWindow

/-- A token for each request, the same window, and no cost ceiling. -/
def QuotaConfig.asBudget (config : QuotaConfig) : AdmissionConfig where
  tokensPerWindow := config.requestsPerWindow
  costCeilingPerWindow := none
  window := config.window
  window_nonneg := config.window_nonneg

/-- The call of a budget that does for one token what a call of a quota does for a request. -/
def QuotaCall.asBudget : QuotaCall → AdmissionCall
  | .tryAcquire => .tryAdmit 1 0
  | .requestsInWindow => .usage
  | .setConfig config => .setConfig config.asBudget

/-- The budget that remembers one token for each request of a quota. -/
def TenantQuota.twin (quota : TenantQuota) : AdmissionController where
  config := quota.config.asBudget
  entries := quota.requests.map fun at_ => ⟨at_, 1, 0⟩

/-- The same decision, with the same remainder or the same wait, or the same usage. The texts of the
refusals differ. -/
def QuotaReply.Matches : QuotaReply → AdmissionReply → Prop
  | .decided (.allowed left), .decided (.admitted tokens cost) => tokens = left ∧ cost = none
  | .decided (.denied _ wait), .decided (.denied _ other) => other = wait
  | .counted requests, .used snapshot => snapshot.tokensUsed = requests
  | .configured, .configured => True
  | _, _ => False

/-- A call that leaves a quota with a ceiling. -/
def QuotaCall.SetsCeiling : QuotaCall → Prop
  | .setConfig config => config.requestsPerWindow.isSome = true
  | _ => True

instance QuotaCall.SetsCeiling.decidable : (call : QuotaCall) → Decidable call.SetsCeiling
  | .setConfig config => inferInstanceAs (Decidable (config.requestsPerWindow.isSome = true))
  | .tryAcquire | .requestsInWindow => inferInstanceAs (Decidable True)

/-- What the calls return, one after the other. -/
def TenantQuota.replies (quota : TenantQuota) : List (Instant × QuotaCall) → List QuotaReply
  | [] => []
  | (now, call) :: calls => (quota.call now call).2 :: (quota.call now call).1.replies calls

/-- What the calls leave of a quota. -/
def TenantQuota.after (quota : TenantQuota) (calls : List (Instant × QuotaCall)) : TenantQuota :=
  calls.foldl (fun quota timed => (quota.call timed.1 timed.2).1) quota

/-- What the calls return, one after the other. -/
def AdmissionController.replies (controller : AdmissionController) :
    List (Instant × AdmissionCall) → List AdmissionReply
  | [] => []
  | (now, call) :: calls => (controller.call now call).2 :: (controller.call now call).1.replies calls

/-- No deque holds more elements, a push to a larger one panics. -/
def maxDequeLength : Nat :=
  2 ^ 63 - 1

/-- A quota and its twin evict the same requests. -/
theorem TenantQuota.twin_evicted (quota : TenantQuota) (now : Instant) :
    quota.twin.evicted now = (quota.evicted now).twin := by
  unfold AdmissionController.evicted evictExpired twin evicted
  simp only [List.dropWhile_map]
  rfl

/-- The twin has used a token for each request. -/
theorem TenantQuota.twin_used (quota : TenantQuota) :
    (sumEntries quota.twin.entries).1 = lengthAsU64 quota.requests.length := by
  have ones : total UsageEntry.tokenCount quota.twin.entries = quota.requests.length := by
    simp [total, twin, UsageEntry.tokenCount, Function.comp_def]
  rw [← UInt64.toNat_inj, sumEntries_tokens, ones, lengthAsU64]
  -- The sum of the ones saturates where the length does.
  split
  · rw [UInt64.toNat_ofNat', Nat.mod_eq_of_lt (by omega)]
    omega
  · rw [UInt64.toNat_ofNat']
    omega

/-- The oldest request leaves both windows at the same time. -/
theorem TenantQuota.twin_retryAfter (quota : TenantQuota) (now : Instant) :
    Qaas.retryAfter quota.twin.entries quota.config.window now = quota.retryAfter now := by
  unfold Qaas.retryAfter retryAfter twin
  cases quota.requests <;> rfl

/-- A request and a token are decided alike, as long as the requests can be counted. -/
theorem TenantQuota.twin_tryAcquire {quota : TenantQuota} {now : Instant} {limit : UInt64}
    (set : quota.config.requestsPerWindow = some limit) (counted : quota.requests.length < 2 ^ 64 - 1) :
    (quota.twin.tryAdmit now 1 0).1 = (quota.tryAcquire now).1.twin ∧
      (QuotaReply.decided (quota.tryAcquire now).2).Matches (.decided (quota.twin.tryAdmit now 1 0).2) := by
  have fewer : (quota.evicted now).requests.length < 2 ^ 64 - 1 :=
    ((List.dropWhile_sublist _).length_le).trans_lt counted
  obtain ⟨current, count⟩ : ∃ current, lengthAsU64 (quota.evicted now).requests.length = current :=
    ⟨_, rfl⟩
  have small : current.toNat < 2 ^ 64 - 1 := by
    rw [← count, lengthAsU64_toNat (by omega)]
    exact fewer
  -- Below the largest count the token is added without saturating.
  have projected : saturatingAdd current 1 = current + 1 := by
    rw [← UInt64.toNat_inj, saturatingAdd_toNat, UInt64.toNat_add]
    have one : (1 : UInt64).toNat = 1 := rfl
    omega
  -- The budget compares after adding the token, the quota before adding the request.
  have exceeds : limit < current + 1 ↔ limit ≤ current := by
    rw [UInt64.lt_iff_toNat_lt, UInt64.le_iff_toNat_le, UInt64.toNat_add]
    have one : (1 : UInt64).toNat = 1 := rfl
    omega
  have positive : (1 : UInt64) ≤ limit ↔ 0 < limit := by
    rw [UInt64.lt_iff_toNat_lt, UInt64.le_iff_toNat_le]
    exact Iff.rfl
  have own : (quota.evicted now).config.requestsPerWindow = some limit := set
  have ceiling : (quota.evicted now).twin.config.tokensPerWindow = some limit := set
  have free : (quota.evicted now).twin.config.costCeilingPerWindow = none := rfl
  have wait := (quota.evicted now).twin_retryAfter now
  have width : (quota.evicted now).twin.config.window = (quota.evicted now).config.window := rfl
  unfold AdmissionController.tryAdmit tryAcquire
  simp only [twin_evicted, twin_used, own, ceiling, free, count, projected,
    Option.filter_none, width, wait]
  by_cases full : limit ≤ current
  · have exceeded : (some limit).filter (fun limit => decide (limit < current + 1)) = some limit :=
      Option.filter_some_pos (decide_eq_true (exceeds.mpr full))
    -- Both refuse, and only a ceiling of zero leaves nothing to wait for.
    rw [exceeded, if_pos full]
    refine ⟨rfl, ?_⟩
    show (if 1 ≤ limit then _ else _) = if 0 < limit then _ else _
    simp only [positive]
  · have fits : (some limit).filter (fun limit => decide (limit < current + 1)) = none :=
      Option.filter_some_neg (decide_eq_false fun less => full (exceeds.mp less))
    -- Both allow, and the token is that of the request.
    rw [fits, if_neg full]
    refine ⟨?_, rfl, rfl⟩
    simp [twin]

/-- A call and the same call on the twin are answered alike, and leave a quota and its twin. -/
theorem TenantQuota.twin_call {quota : TenantQuota} (now : Instant) (call : QuotaCall)
    (capped : quota.config.requestsPerWindow.isSome = true)
    (counted : quota.requests.length < 2 ^ 64 - 1) :
    (quota.twin.call now call.asBudget).1 = (quota.call now call).1.twin ∧
      (quota.call now call).2.Matches (quota.twin.call now call.asBudget).2 := by
  cases call with
  | tryAcquire =>
    obtain ⟨limit, set⟩ := Option.isSome_iff_exists.mp capped
    exact twin_tryAcquire set counted
  | requestsInWindow =>
    refine ⟨twin_evicted quota now, ?_⟩
    show (sumEntries (quota.twin.evicted now).entries).1 =
      lengthAsU64 (quota.evicted now).requests.length
    rw [twin_evicted, twin_used]
  | setConfig config => exact ⟨rfl, trivial⟩

/-- A call that sets no configuration without a ceiling leaves the ceiling set. -/
theorem TenantQuota.call_capped {quota : TenantQuota} {now : Instant} {call : QuotaCall}
    (capped : quota.config.requestsPerWindow.isSome = true) (sets : call.SetsCeiling) :
    (quota.call now call).1.config.requestsPerWindow.isSome = true := by
  cases call with
  | tryAcquire =>
    show (quota.tryAcquire now).1.config.requestsPerWindow.isSome = true
    rw [tryAcquire_config]
    exact capped
  | requestsInWindow => exact capped
  | setConfig config => exact sets

/-- A quota and its twin answer every run alike, while the requests can be counted. -/
theorem TenantQuota.twin_replies {quota : TenantQuota} {calls : List (Instant × QuotaCall)}
    (capped : quota.config.requestsPerWindow.isSome = true) (sets : ∀ timed ∈ calls, timed.2.SetsCeiling)
    (counted : ∀ before ∈ calls.inits, (quota.after before).requests.length < 2 ^ 64 - 1) :
    List.Forall₂ QuotaReply.Matches (quota.replies calls)
      (quota.twin.replies (calls.map fun timed => (timed.1, timed.2.asBudget))) := by
  induction calls generalizing quota with
  | nil => exact .nil
  | cons timed calls ih =>
    obtain ⟨now, call⟩ := timed
    obtain ⟨same, matching⟩ := twin_call now call capped (counted [] (by simp))
    refine .cons matching ?_
    show List.Forall₂ _ _ ((quota.twin.call now call.asBudget).1.replies _)
    rw [same]
    -- What is left after the first call is a quota with a ceiling and its twin again.
    refine ih (call_capped capped (sets (now, call) List.mem_cons_self))
      (fun timed member => sets timed (by simp [member])) ?_
    intro before prefixed
    exact counted ((now, call) :: before) (by simpa using prefixed)

/-- A quota that has always had a ceiling answers every run as the budget does that counts ones. -/
theorem TenantQuota.counts_ones {config : QuotaConfig} (capped : config.requestsPerWindow.isSome = true)
    {calls : List (Instant × QuotaCall)} (sets : ∀ timed ∈ calls, timed.2.SetsCeiling)
    (held : ∀ before ∈ calls.inits, ((TenantQuota.new config).after before).requests.length ≤ maxDequeLength) :
    List.Forall₂ QuotaReply.Matches ((TenantQuota.new config).replies calls)
      ((AdmissionController.new config.asBudget).replies
        (calls.map fun timed => (timed.1, timed.2.asBudget))) := by
  refine twin_replies capped sets fun before prefixed => (held before prefixed).trans_lt ?_
  unfold maxDequeLength
  omega

/-- Two requests, a look at the count, a ceiling of nothing, and a request that it refuses. -/
def cappedThroughout : List (Instant × QuotaCall) :=
  [(0, .tryAcquire), (1, .tryAcquire), (2, .requestsInWindow),
    (3, .setConfig { tenAMinute with requestsPerWindow := some 0 }), (70, .tryAcquire)]

theorem TenantQuota.counts_ones_throughout :
    List.Forall₂ QuotaReply.Matches
      ((TenantQuota.new { tenAMinute with requestsPerWindow := some 1 }).replies cappedThroughout)
      ((AdmissionController.new (QuotaConfig.asBudget { tenAMinute with requestsPerWindow := some 1 })).replies
        (cappedThroughout.map fun timed => (timed.1, timed.2.asBudget))) :=
  TenantQuota.counts_ones rfl (by decide +kernel) (by decide +kernel)

end Qaas
