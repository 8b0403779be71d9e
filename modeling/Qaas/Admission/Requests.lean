import Qaas.Admission.Quota
import Qaas.Admission.Window

/-! Which allowed requests the count of a quota misses. -/

namespace Qaas

open SlidingWindow

/-- A call of one of the quota's methods, which reads the clock under its lock. -/
inductive QuotaCall where
  | tryAcquire
  | requestsInWindow
  | setConfig (config : QuotaConfig)

/-- What a call returns. -/
inductive QuotaReply where
  | decided (decision : QuotaDecision)
  | counted (requests : UInt64)
  | configured
  deriving DecidableEq

/-- One call on a quota. -/
def TenantQuota.call (quota : TenantQuota) (now : Instant) : QuotaCall → TenantQuota × QuotaReply
  | .tryAcquire =>
    let (quota, decision) := quota.tryAcquire now
    (quota, .decided decision)
  | .requestsInWindow =>
    let (quota, requests) := quota.requestsInWindow now
    (quota, .counted requests)
  | .setConfig config => (quota.setConfig config, .configured)

/-- An allowed request: when it was made, whether a ceiling was set then, and whether some call since
has found it as old as the window then was. -/
structure AllowedRequest where
  at_ : Instant
  capped : Bool
  lapsed : Bool

/-- A call finds an allowed request at its age. -/
def AllowedRequest.seen (window : Duration) (now : Instant) (request : AllowedRequest) :
    AllowedRequest :=
  { request with lapsed := request.lapsed || window ≤ durationSince now request.at_ }

/-- Whether an allowed request is younger than a window. -/
def AllowedRequest.young (window : Duration) (now : Instant) (request : AllowedRequest) : Bool :=
  durationSince now request.at_ < window

/-- Whether an allowed request is one that the quota remembers. -/
def AllowedRequest.kept (request : AllowedRequest) : Bool :=
  request.capped && !request.lapsed

/-- The request that a call allows. -/
def TenantQuota.allows (quota : TenantQuota) (now : Instant) : QuotaCall → Option AllowedRequest
  | .tryAcquire =>
    match (quota.tryAcquire now).2 with
    | .allowed _ => some ⟨now, quota.config.requestsPerWindow.isSome, false⟩
    | .denied _ _ => none
  | _ => none

/-- A quota and every request it has ever allowed. -/
structure RequestLog where
  quota : TenantQuota
  ledger : List AllowedRequest

/-- One call on the quota at a time. -/
def RequestLog.step (log : RequestLog) (timed : Instant × QuotaCall) : RequestLog where
  quota := (log.quota.call timed.1 timed.2).1
  ledger :=
    match timed.2 with
    | .setConfig _ => log.ledger
    | call => log.ledger.map (.seen log.quota.config.window timed.1) ++ (log.quota.allows timed.1 call).toList

/-- Calls on a new quota, one after the other. -/
def RequestLog.run (config : QuotaConfig) (calls : List (Instant × QuotaCall)) : RequestLog :=
  calls.foldl RequestLog.step ⟨.new config, []⟩

/-- The calls of a run end with the last one. -/
theorem RequestLog.run_concat (config : QuotaConfig) (calls : List (Instant × QuotaCall))
    (timed : Instant × QuotaCall) :
    RequestLog.run config (calls ++ [timed]) = (RequestLog.run config calls).step timed := by
  simp [run]

/-- The quota remembers what it has recorded and no call has found too old, and counts it in 64 bits. -/
structure RequestLog.Sound (now : Instant) (log : RequestLog) : Prop where
  sorted : log.ledger.Pairwise fun earlier later => earlier.at_ ≤ later.at_
  past : ∀ request ∈ log.ledger, request.at_ ≤ now
  kept : log.quota.requests = (log.ledger.filter AllowedRequest.kept).map AllowedRequest.at_
  counted : log.quota.requests.length < 2 ^ 64

/-- An earlier instant is at least as long ago. -/
theorem durationSince_anti {now earlier later : Instant} (order : earlier ≤ later) :
    durationSince now later ≤ durationSince now earlier :=
  max_le_max_right 0 (sub_le_sub_left order now)

@[simp] theorem lengthAsU64_toNat {length : Nat} (small : length < 2 ^ 64) :
    (lengthAsU64 length).toNat = length := by
  rw [lengthAsU64, if_pos small, UInt64.toNat_ofNat', Nat.mod_eq_of_lt small]

/-- What the quota remembers after an eviction. -/
theorem RequestLog.Sound.evicted {log : RequestLog} {before : Instant} (sound : log.Sound before)
    (now : Instant) :
    (log.quota.evicted now).requests =
      ((log.ledger.map (AllowedRequest.seen log.quota.config.window now)).filter
        AllowedRequest.kept).map AllowedRequest.at_ := by
  -- What is remembered is in the order of time, so an eviction from the front leaves out what is too old.
  have sorted : log.quota.requests.Pairwise (· ≤ ·) := by
    rw [sound.kept]
    exact (sound.sorted.sublist List.filter_sublist).map _ fun _ _ order => order
  have filtered : (log.quota.evicted now).requests =
      log.quota.requests.filter fun front => !decide (log.quota.config.window ≤ durationSince now front) := by
    refine dropWhile_eq_filter (sorted.imp fun order expired => ?_)
    -- An earlier request is at least as old.
    exact decide_eq_true ((of_decide_eq_true expired).trans (durationSince_anti order))
  have same : AllowedRequest.at_ ∘ AllowedRequest.seen log.quota.config.window now =
      AllowedRequest.at_ := rfl
  rw [filtered, sound.kept, List.filter_map, List.filter_map, List.map_map, same, List.filter_filter]
  congr 1
  refine List.filter_congr fun request _ => ?_
  simp only [Function.comp_apply, AllowedRequest.kept, AllowedRequest.seen, Bool.not_or]
  cases request.capped <;> cases request.lapsed <;> simp

/-- A quota allows a request without a ceiling, or with room under it, and then remembers it if
there is one. -/
theorem TenantQuota.tryAcquire_eq (quota : TenantQuota) (now : Instant) :
    (quota.config.requestsPerWindow = none ∧
      quota.tryAcquire now = (quota.evicted now, .allowed none)) ∨
    ∃ limit, quota.config.requestsPerWindow = some limit ∧
      ((limit ≤ lengthAsU64 (quota.evicted now).requests.length ∧
        ∃ reason wait, quota.tryAcquire now = (quota.evicted now, .denied reason wait)) ∨
      (lengthAsU64 (quota.evicted now).requests.length < limit ∧
        ∃ left, quota.tryAcquire now =
          ({ quota.evicted now with requests := (quota.evicted now).requests ++ [now] },
            .allowed left))) := by
  have config : (quota.evicted now).config = quota.config := rfl
  unfold tryAcquire
  simp only [config]
  cases set : quota.config.requestsPerWindow with
  | none => exact .inl ⟨rfl, rfl⟩
  | some limit =>
    refine .inr ⟨limit, rfl, ?_⟩
    by_cases full : limit ≤ lengthAsU64 (quota.evicted now).requests.length
    · exact .inl ⟨full, _, _, if_pos full⟩
    · exact .inr ⟨UInt64.not_le.mp full, _, if_neg full⟩

/-- A quota stays sound as time goes on. -/
theorem RequestLog.Sound.mono {log : RequestLog} {before now : Instant} (sound : log.Sound before)
    (later : before ≤ now) : log.Sound now :=
  { sound with past := fun request member => (sound.past request member).trans later }

/-- A call on a quota evicts, and remembers the request that it allows if a ceiling is set. -/
theorem TenantQuota.call_requests {quota : TenantQuota} {now : Instant} {call : QuotaCall}
    (keeps : ∀ config, call ≠ .setConfig config) :
    (quota.call now call).1.requests = (quota.evicted now).requests ++
      ((quota.allows now call).toList.filter AllowedRequest.kept).map AllowedRequest.at_ := by
  cases call with
  | setConfig config => exact absurd rfl (keeps config)
  | requestsInWindow => exact (List.append_nil _).symm
  | tryAcquire =>
    show (quota.tryAcquire now).1.requests = _
    unfold allows
    rcases quota.tryAcquire_eq now with
      ⟨unset, decided⟩ | ⟨limit, set, ⟨_, reason, wait, decided⟩ | ⟨_, left, decided⟩⟩
    · -- Without a ceiling the request is allowed, and not remembered.
      simp [decided, unset, AllowedRequest.kept]
    · simp [decided]
    · -- Under a ceiling it is remembered, and no call has come since.
      simp [decided, set, AllowedRequest.kept]

/-- What a quota remembers stays countable. -/
theorem TenantQuota.call_counted {quota : TenantQuota} (now : Instant) (call : QuotaCall)
    (counted : quota.requests.length < 2 ^ 64) :
    (quota.call now call).1.requests.length < 2 ^ 64 := by
  have fewer : (quota.evicted now).requests.length < 2 ^ 64 :=
    ((List.dropWhile_sublist _).length_le).trans_lt counted
  cases call with
  | setConfig config => exact counted
  | requestsInWindow => exact fewer
  | tryAcquire =>
    show (quota.tryAcquire now).1.requests.length < 2 ^ 64
    rcases quota.tryAcquire_eq now with
      ⟨unset, decided⟩ | ⟨limit, set, ⟨_, reason, wait, decided⟩ | ⟨room, left, decided⟩⟩
    · rw [decided]
      exact fewer
    · rw [decided]
      exact fewer
    · -- The count was below a ceiling of 64 bits.
      rw [decided, List.length_append, List.length_singleton]
      have below := UInt64.lt_iff_toNat_lt.mp room
      rw [lengthAsU64_toNat fewer] at below
      have := limit.toNat_lt
      omega

/-- What a call allows, it allows now. -/
theorem TenantQuota.allows_at {quota : TenantQuota} {now : Instant} {call : QuotaCall}
    {request : AllowedRequest} (allowed : quota.allows now call = some request) :
    request.at_ = now := by
  cases call with
  | tryAcquire =>
    unfold allows at allowed
    cases decided : (quota.tryAcquire now).2 with
    | allowed left =>
      simp only [decided, Option.some.injEq] at allowed
      rw [← allowed]
    | denied reason wait => simp [decided] at allowed
  | requestsInWindow => cases allowed
  | setConfig config => cases allowed

/-- Every call keeps the log sound. -/
theorem RequestLog.Sound.step {log : RequestLog} {now : Instant} (sound : log.Sound now)
    (call : QuotaCall) :
    (log.step (now, call)).Sound now := by
  have counted := TenantQuota.call_counted now call sound.counted
  by_cases keeps : ∀ config, call ≠ .setConfig config
  · have ledger : (log.step (now, call)).ledger =
        log.ledger.map (.seen log.quota.config.window now) ++ (log.quota.allows now call).toList := by
      cases call with
      | setConfig config => exact absurd rfl (keeps config)
      | _ => rfl
    have latest : ∀ request ∈ (log.quota.allows now call).toList, request.at_ = now := by
      intro request member
      exact TenantQuota.allows_at (Option.mem_toList.mp member)
    refine ⟨?_, ?_, ?_, counted⟩
    · rw [ledger, List.pairwise_append]
      refine ⟨List.pairwise_map.mpr sound.sorted, ?_, ?_⟩
      · cases log.quota.allows now call <;> simp
      · -- What is allowed now is not earlier than anything before.
        intro earlier member later last
        obtain ⟨request, before, rfl⟩ := List.mem_map.mp member
        exact (sound.past request before).trans_eq (latest later last).symm
    · -- All requests before were made by now, and the last one just now.
      intro request member
      rw [ledger] at member
      rcases List.mem_append.mp member with before | last
      · obtain ⟨own, there, rfl⟩ := List.mem_map.mp before
        exact sound.past own there
      · exact (latest request last).le
    · -- The eviction marks what it forgets, and the last request is remembered if it should be.
      show (log.quota.call now call).1.requests = _
      rw [ledger, TenantQuota.call_requests keeps, sound.evicted now, List.filter_append,
        List.map_append]
  · -- A new configuration leaves what is remembered as it is.
    obtain ⟨config, rfl⟩ : ∃ config, call = .setConfig config := by simpa using keeps
    exact ⟨sound.sorted, sound.past, sound.kept, sound.counted⟩

/-- A run whose calls are in order keeps the log sound. -/
theorem RequestLog.sound_of_run {config : QuotaConfig} {calls : List (Instant × QuotaCall)}
    (ordered : calls.Pairwise fun earlier later => earlier.1 ≤ later.1) {now : Instant}
    (latest : ∀ timed ∈ calls, timed.1 ≤ now) : (RequestLog.run config calls).Sound now := by
  induction calls using List.reverseRecOn generalizing now with
  | nil =>
    refine ⟨.nil, fun _ member => (List.not_mem_nil member).elim, rfl, ?_⟩
    simp [run, TenantQuota.new]
  | append_singleton calls timed ih =>
    obtain ⟨earlier, _, last⟩ := List.pairwise_append.mp ordered
    -- The last call comes at a time that none before it exceeds.
    have before := ih earlier fun first member => last first member timed (by simp)
    rw [run_concat]
    exact (before.step timed.2).mono (latest timed (by simp))

/-- The count that a quota reports is that of the young requests it remembers. -/
theorem RequestLog.Sound.reported {log : RequestLog} {before : Instant} (sound : log.Sound before)
    (now : Instant) :
    (log.quota.requestsInWindow now).2.toNat =
      (log.ledger.filter (AllowedRequest.young log.quota.config.window now)).countP AllowedRequest.kept := by
  have fewer : (log.quota.evicted now).requests.length < 2 ^ 64 :=
    ((List.dropWhile_sublist _).length_le).trans_lt sound.counted
  show (lengthAsU64 (log.quota.evicted now).requests.length).toNat = _
  rw [lengthAsU64_toNat fewer, sound.evicted now, List.length_map, List.filter_map, List.length_map,
    List.countP_filter, ← List.countP_eq_length_filter]
  refine List.countP_congr fun request _ => ?_
  simp [AllowedRequest.kept, AllowedRequest.seen, AllowedRequest.young, and_assoc]

/-- The reported count is always that of all young allowed requests exactly when each of them was made
under a ceiling, and no call since has found it as old as the window then was. -/
theorem RequestLog.count_iff {config : QuotaConfig} {calls : List (Instant × QuotaCall)}
    (ordered : calls.Pairwise fun earlier later => earlier.1 ≤ later.1) :
    (∀ before now after, calls = before ++ (now, .requestsInWindow) :: after →
      ((RequestLog.run config before).quota.requestsInWindow now).2.toNat =
        ((RequestLog.run config before).ledger.filter
          (AllowedRequest.young (RequestLog.run config before).quota.config.window now)).length) ↔
    ∀ before now after, calls = before ++ (now, .requestsInWindow) :: after →
      ∀ request ∈ (RequestLog.run config before).ledger,
        request.young (RequestLog.run config before).quota.config.window now = true →
        request.capped = true ∧ request.lapsed = false := by
  refine forall_congr' fun before => forall_congr' fun now => forall_congr' fun after => ?_
  refine imp_congr_right fun shape => ?_
  subst shape
  obtain ⟨first, _, last⟩ := List.pairwise_append.mp ordered
  have sound : (RequestLog.run config before).Sound now :=
    sound_of_run first fun earlier member => last earlier member (now, .requestsInWindow) (by simp)
  -- All young requests are counted when each of them is remembered.
  rw [sound.reported now, List.countP_eq_length]
  simp only [List.mem_filter, and_imp, AllowedRequest.kept, Bool.and_eq_true, Bool.not_eq_true']

/-- Ten requests a minute. -/
def tenAMinute : QuotaConfig :=
  { QuotaConfig.unlimited with requestsPerWindow := some 10 }

/-- A request, and then a ceiling. -/
def cappedLate : List (Instant × QuotaCall) :=
  [(0, .tryAcquire), (1, .setConfig tenAMinute), (2, .requestsInWindow)]

/-- A request allowed before there was a ceiling is not counted once there is one. -/
theorem RequestLog.count_missed :
    ¬ ∀ (config : QuotaConfig) (calls : List (Instant × QuotaCall)),
      (calls.Pairwise fun earlier later => earlier.1 ≤ later.1) →
      ∀ before now after, calls = before ++ (now, .requestsInWindow) :: after →
        ((RequestLog.run config before).quota.requestsInWindow now).2.toNat =
          ((RequestLog.run config before).ledger.filter
            (AllowedRequest.young (RequestLog.run config before).quota.config.window now)).length := by
  intro always
  have promised := always .unlimited cappedLate (by decide +kernel)
    [(0, .tryAcquire), (1, .setConfig tenAMinute)] 2 [] rfl
  revert promised
  decide +kernel

theorem RequestLog.count_iff_cappedLate :
    ¬ ∀ before now after, cappedLate = before ++ (now, .requestsInWindow) :: after →
      ∀ request ∈ (RequestLog.run .unlimited before).ledger,
        request.young (RequestLog.run .unlimited before).quota.config.window now = true →
        request.capped = true ∧ request.lapsed = false := by
  intro unharmed
  have promised := (RequestLog.count_iff (by decide +kernel)).mpr unharmed
    [(0, .tryAcquire), (1, .setConfig tenAMinute)] 2 [] rfl
  revert promised
  decide +kernel

end Qaas
