import Qaas.Admission.Controller

/-! The quota of one tenant: two ceilings that the server enforces, and a sliding window of requests. -/

namespace Qaas

/-- The ceilings of a tenant, each of them optional. -/
structure QuotaConfig where
  maxQueues : Option Nat
  maxPendingMessages : Option UInt64
  requestsPerWindow : Option UInt64
  window : Duration
  window_nonneg : 0 ≤ window

/-- No ceilings, and a window of one minute. -/
def QuotaConfig.unlimited : QuotaConfig where
  maxQueues := none
  maxPendingMessages := none
  requestsPerWindow := none
  window := 60
  window_nonneg := minute_nonneg

/-- How a request was decided. -/
inductive QuotaDecision where
  | allowed (requestsRemaining : Option UInt64)
  | denied (reason : String) (retryAfter : Option Duration)
  deriving DecidableEq

/-- A quota and the requests that it still remembers, oldest first. -/
structure TenantQuota where
  config : QuotaConfig
  requests : List Instant

/-- A quota with no requests recorded yet. -/
def TenantQuota.new (config : QuotaConfig) : TenantQuota :=
  ⟨config, []⟩

/-- Replace the configuration, keeping what is recorded. -/
def TenantQuota.setConfig (quota : TenantQuota) (config : QuotaConfig) : TenantQuota :=
  { quota with config := config }

/-- The quota once the requests that have left the window are dropped. -/
def TenantQuota.evicted (quota : TenantQuota) (now : Instant) : TenantQuota :=
  { quota with
    requests := quota.requests.dropWhile fun front => quota.config.window ≤ durationSince now front }

/-- How long until the oldest request leaves the window. -/
def TenantQuota.retryAfter (quota : TenantQuota) (now : Instant) : Duration :=
  match quota.requests.head? with
  | none => 0
  | some oldest => max (quota.config.window - durationSince now oldest) 0

/-- A length as a 64-bit number, the largest one if it does not fit. -/
def lengthAsU64 (length : Nat) : UInt64 :=
  if length < 2 ^ 64 then UInt64.ofNat length else UInt64.ofNat (2 ^ 64 - 1)

/-- The requests within the window. -/
def TenantQuota.requestsInWindow (quota : TenantQuota) (now : Instant) : TenantQuota × UInt64 :=
  let quota := quota.evicted now
  (quota, lengthAsU64 quota.requests.length)

/-- Allow and record a request that fits under the ceiling; without one nothing is recorded. -/
def TenantQuota.tryAcquire (quota : TenantQuota) (now : Instant) : TenantQuota × QuotaDecision :=
  let quota := quota.evicted now
  match quota.config.requestsPerWindow with
  -- Without a ceiling the request is allowed before anything is recorded.
  | none => (quota, .allowed none)
  | some limit =>
    let current := lengthAsU64 quota.requests.length
    if limit ≤ current then
      (quota, .denied
        s!"would make {current.toNat + 1} requests this window, exceeding the {limit}-request budget"
        -- Under a ceiling of zero no wait helps.
        (if 0 < limit then some (quota.retryAfter now) else none))
    else
      ({ quota with requests := quota.requests ++ [now] }, .allowed (some (limit - (current + 1))))

/-- A request leaves the ceilings as they are. -/
theorem TenantQuota.tryAcquire_config (quota : TenantQuota) (now : Instant) :
    (quota.tryAcquire now).1.config = quota.config := by
  simp only [tryAcquire]
  split
  · rfl
  · split <;> rfl

end Qaas
