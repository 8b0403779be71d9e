import Mathlib.Data.Rat.Floor
import Qaas.Retry

/-! The sliding-window budget of one queue, in tokens and dollars, over exact rationals. -/

namespace Qaas

/-- The ceilings of a budget, and how far back its window looks. -/
structure AdmissionConfig where
  tokensPerWindow : Option UInt64
  costCeilingPerWindow : Option ℚ
  window : Duration
  window_nonneg : 0 ≤ window

/-- No ceilings, and a window of one hour. -/
def AdmissionConfig.unlimited : AdmissionConfig where
  tokensPerWindow := none
  costCeilingPerWindow := none
  window := 3600
  window_nonneg := by decide +kernel

/-- A window of one minute is one. -/
theorem minute_nonneg : (0 : Duration) ≤ 60 := by decide +kernel

/-- What one admitted request adds to the window. -/
structure UsageEntry where
  at_ : Instant
  tokens : UInt64
  cost : ℚ
  deriving DecidableEq

/-- The usage inside the window. -/
structure UsageSnapshot where
  tokensUsed : UInt64
  costUsed : ℚ
  deriving DecidableEq

/-- How a request was decided. -/
inductive AdmissionDecision where
  | admitted (tokensRemaining : Option UInt64) (costRemaining : Option ℚ)
  | denied (reason : String) (retryAfter : Option Duration)
  deriving DecidableEq

/-- A budget and the admitted requests that it still remembers, oldest first. -/
structure AdmissionController where
  config : AdmissionConfig
  entries : List UsageEntry

/-- A budget with no usage recorded yet. -/
def AdmissionController.new (config : AdmissionConfig) : AdmissionController :=
  ⟨config, []⟩

/-- Replace the configuration, keeping what is recorded. -/
def AdmissionController.setConfig (controller : AdmissionController) (config : AdmissionConfig) :
    AdmissionController :=
  { controller with config := config }

/-- Addition that stops at the largest 64-bit value. -/
def saturatingAdd (a b : UInt64) : UInt64 :=
  UInt64.ofNat (min (a.toNat + b.toNat) (2 ^ 64 - 1))

/-- Drop entries from the front while they are as old as the window is long. -/
def evictExpired (entries : List UsageEntry) (window : Duration) (now : Instant) : List UsageEntry :=
  entries.dropWhile fun front => window ≤ durationSince now front.at_

/-- What the entries add up to. -/
def sumEntries (entries : List UsageEntry) : UInt64 × ℚ :=
  entries.foldl (fun (tokens, cost) entry => (saturatingAdd tokens entry.tokens, cost + entry.cost)) (0, 0)

/-- How long until the oldest entry leaves the window. -/
def retryAfter (entries : List UsageEntry) (window : Duration) (now : Instant) : Duration :=
  match entries.head? with
  -- With nothing in the window there is nothing to wait for.
  | none => 0
  | some oldest => max (window - durationSince now oldest.at_) 0

/-- A number with four decimals, rounded to the nearest and from halfway to the even one. -/
def fixed4 (value : ℚ) : String :=
  let scaled := |value| * 10000
  let whole := ⌊scaled⌋.toNat
  let rest := scaled - whole
  let units := if rest < 1 / 2 ∨ (rest = 1 / 2 ∧ whole % 2 = 0) then whole else whole + 1
  let decimals := units % 10000
  let digits := [decimals / 1000, decimals / 100 % 10, decimals / 10 % 10, decimals % 10].map Nat.digitChar
  (if value < 0 then "-" else "") ++ toString (units / 10000) ++ "." ++ String.ofList digits

/-- The controller once the entries that have left the window are dropped. -/
def AdmissionController.evicted (controller : AdmissionController) (now : Instant) : AdmissionController :=
  { controller with entries := evictExpired controller.entries controller.config.window now }

/-- The usage within the window. -/
def AdmissionController.usage (controller : AdmissionController) (now : Instant) :
    AdmissionController × UsageSnapshot :=
  let controller := controller.evicted now
  let (tokensUsed, costUsed) := sumEntries controller.entries
  (controller, ⟨tokensUsed, costUsed⟩)

/-- Whether the usage is below both ceilings. -/
def AdmissionController.hasHeadroom (controller : AdmissionController) (now : Instant) :
    AdmissionController × Bool :=
  let controller := controller.evicted now
  let (tokensUsed, costUsed) := sumEntries controller.entries
  -- A ceiling that is reached leaves no headroom.
  let tokensOk := controller.config.tokensPerWindow.all fun limit => tokensUsed < limit
  let costOk := controller.config.costCeilingPerWindow.all fun ceiling => costUsed < ceiling
  (controller, tokensOk && costOk)

/-- Admit and record a request that fits under both ceilings. -/
def AdmissionController.tryAdmit (controller : AdmissionController) (now : Instant) (tokens : UInt64)
    (cost : ℚ) : AdmissionController × AdmissionDecision :=
  let controller := controller.evicted now
  let (tokensUsed, costUsed) := sumEntries controller.entries
  let wait := retryAfter controller.entries controller.config.window now
  let projectedTokens := saturatingAdd tokensUsed tokens
  let projectedCost := costUsed + cost
  -- The token ceiling is checked first.
  match controller.config.tokensPerWindow.filter fun limit => limit < projectedTokens with
  | some limit =>
    (controller, .denied
      s!"would use {projectedTokens} tokens this window, exceeding the {limit}-token budget"
      -- A request above the whole budget has nothing to wait for.
      (if tokens ≤ limit then some wait else none))
  | none =>
    match controller.config.costCeilingPerWindow.filter fun ceiling => ceiling < projectedCost with
    | some ceiling =>
      (controller, .denied
        s!"would spend ${fixed4 projectedCost} this window, exceeding the ${fixed4 ceiling} cost ceiling"
        (if cost ≤ ceiling then some wait else none))
    | none =>
      ({ controller with entries := controller.entries ++ [⟨now, tokens, cost⟩] }, .admitted
        (controller.config.tokensPerWindow.map fun limit => limit - projectedTokens)
        (controller.config.costCeilingPerWindow.map fun ceiling => ceiling - projectedCost))

/-- A call of one of the controller's methods, which reads the clock under its lock. -/
inductive AdmissionCall where
  | tryAdmit (tokens : UInt64) (cost : ℚ)
  | usage
  | hasHeadroom
  | setConfig (config : AdmissionConfig)

/-- What a call returns. -/
inductive AdmissionReply where
  | decided (decision : AdmissionDecision)
  | used (snapshot : UsageSnapshot)
  | headroom (left : Bool)
  | configured
  deriving DecidableEq

/-- One call on a controller. -/
def AdmissionController.call (controller : AdmissionController) (now : Instant) :
    AdmissionCall → AdmissionController × AdmissionReply
  | .tryAdmit tokens cost =>
    let (controller, decision) := controller.tryAdmit now tokens cost
    (controller, .decided decision)
  | .usage =>
    let (controller, snapshot) := controller.usage now
    (controller, .used snapshot)
  | .hasHeadroom =>
    let (controller, left) := controller.hasHeadroom now
    (controller, .headroom left)
  | .setConfig config => (controller.setConfig config, .configured)

@[simp] theorem AdmissionController.evicted_config (controller : AdmissionController) (now : Instant) :
    (controller.evicted now).config = controller.config := rfl

@[simp] theorem AdmissionController.evicted_entries (controller : AdmissionController) (now : Instant) :
    (controller.evicted now).entries = evictExpired controller.entries controller.config.window now := rfl

@[simp] theorem saturatingAdd_toNat (a b : UInt64) :
    (saturatingAdd a b).toNat = min (a.toNat + b.toNat) (2 ^ 64 - 1) := by
  unfold saturatingAdd
  rw [UInt64.toNat_ofNat', Nat.mod_eq_of_lt (by omega)]

end Qaas
