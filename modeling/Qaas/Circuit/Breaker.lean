import Mathlib.Logic.Function.Basic
import Qaas.Concurrency.Pool
import Qaas.Concurrency.Run
import Qaas.Retry

/-! A breaker of three states around a fallible operation, and a cache to fall back on. -/

namespace Qaas

open Concurrency

/-- The state that a breaker is in. -/
inductive CircuitState where
  | closed
  | open_
  | halfOpen
  deriving DecidableEq

/-- When a breaker opens, for how long, and how many trials close it. -/
structure CircuitBreakerConfig where
  failureThreshold : UInt32
  openDuration : Duration
  halfOpenSuccessThreshold : UInt32

/-- A breaker, and what it keeps behind its lock. -/
structure CircuitBreaker where
  config : CircuitBreakerConfig
  state : CircuitState
  consecutiveFailures : UInt32
  consecutiveSuccesses : UInt32
  openedAt : Option Instant

/-- A breaker starts closed. -/
def CircuitBreaker.new (config : CircuitBreakerConfig) : CircuitBreaker :=
  ⟨config, .closed, 0, 0, none⟩

/-- An open breaker turns half-open once it has been open for long enough. -/
def CircuitBreaker.resolveOpenTimeout (breaker : CircuitBreaker) (now : Instant) : CircuitBreaker :=
  if breaker.state = .open_ then
    if breaker.openedAt.any fun at_ => breaker.config.openDuration ≤ durationSince now at_ then
      { breaker with state := .halfOpen, consecutiveFailures := 0, consecutiveSuccesses := 0 }
    else breaker
  else breaker

/-- Open the circuit, and note when. -/
def CircuitBreaker.trip (breaker : CircuitBreaker) (now : Instant) : CircuitBreaker :=
  { breaker with
    state := .open_, openedAt := some now, consecutiveFailures := 0, consecutiveSuccesses := 0 }

/-- A success ends a streak of failures, or counts as a trial. -/
def CircuitBreaker.recordSuccess (breaker : CircuitBreaker) : CircuitBreaker :=
  match breaker.state with
  -- Only failures in a row open the circuit.
  | .closed => { breaker with consecutiveFailures := 0 }
  | .halfOpen =>
    let successes := breaker.consecutiveSuccesses + 1
    if breaker.config.halfOpenSuccessThreshold ≤ successes then
      { breaker with state := .closed, consecutiveFailures := 0, consecutiveSuccesses := 0 }
    else { breaker with consecutiveSuccesses := successes }
  -- The call passed its check before the circuit opened.
  | .open_ => breaker

/-- A failure counts towards opening the circuit, and in a trial period opens it at once. -/
def CircuitBreaker.recordFailure (breaker : CircuitBreaker) (now : Instant) : CircuitBreaker :=
  match breaker.state with
  | .closed =>
    let failures := breaker.consecutiveFailures + 1
    if breaker.config.failureThreshold ≤ failures then breaker.trip now
    else { breaker with consecutiveFailures := failures }
  -- One failed trial is enough.
  | .halfOpen => breaker.trip now
  | .open_ => breaker

/-- A cached value, and when it was written. -/
structure CacheEntry (V : Type) where
  value : V
  insertedAt : Instant

/-- The last value seen for each key, good for a while. -/
structure FallbackCache (K V : Type) where
  ttl : Duration
  entries : K → Option (CacheEntry V)

/-- Why a guarded call returns no value. -/
inductive CircuitBreakerError (E : Type) where
  | open_
  | failed (error : E)

/-- What a call returns that may fall back on the cache. -/
inductive HybridOutcome (V E : Type) where
  | fresh (value : V)
  | cached (value : V)
  | unavailable (error : Option E)

/-- A breaker and a cache, the clock, and how many half-open periods have begun. -/
structure HybridGuard (K V : Type) where
  breaker : CircuitBreaker
  cache : FallbackCache K V
  now : Instant
  periods : Nat

/-- Where a call stands: before the look at the state, before the operation and within it, before its
outcome is recorded, before the cache is written or read, and at its result. -/
inductive GuardStage (K V E : Type) where
  | check
  | start
  | operate
  | succeeded (value : V)
  | failed (error : E)
  | cacheSet (key : K) (value : V)
  | fallBack (key : K) (error : Option E)
  | returned (result : Except (CircuitBreakerError E) V)
  | served (outcome : HybridOutcome V E)

/-- The half-open periods that were in force when the operation of a call was started, when it came to a
success, and when the success was recorded. -/
structure Trial where
  begun : Option Nat
  ended : Option Nat
  counted : Option Nat
  deriving DecidableEq

/-- A call of the breaker, or of the guard under some key. -/
structure GuardTask (K V E : Type) where
  key : Option K
  stage : GuardStage K V E
  trial : Trial

variable {K V E : Type}

/-- A call that begins. -/
def GuardTask.call (key : Option K) : GuardTask K V E :=
  ⟨key, .check, ⟨none, none, none⟩⟩

/-- A guard with an empty cache. -/
def HybridGuard.new (config : CircuitBreakerConfig) (ttl : Duration) (now : Instant) : HybridGuard K V :=
  ⟨.new config, ⟨ttl, fun _ => none⟩, now, 0⟩

/-- The half-open period in force, counted from one. -/
def HybridGuard.inForce (guard : HybridGuard K V) : Option Nat :=
  if guard.breaker.state = .halfOpen then some guard.periods else none

/-- A look at the state, which may begin a half-open period. -/
def HybridGuard.state (guard : HybridGuard K V) : HybridGuard K V :=
  let breaker := guard.breaker.resolveOpenTimeout guard.now
  { guard with
    breaker := breaker
    periods := if guard.breaker.state ≠ .halfOpen ∧ breaker.state = .halfOpen then guard.periods + 1
      else guard.periods }

variable [DecidableEq K]

/-- The value of a key within its time to live; an expired one is forgotten. -/
def FallbackCache.get (cache : FallbackCache K V) (now : Instant) (key : K) :
    FallbackCache K V × Option V :=
  match cache.entries key with
  | some entry =>
    if durationSince now entry.insertedAt < cache.ttl then (cache, some entry.value)
    else ({ cache with entries := Function.update cache.entries key none }, none)
  | none => (cache, none)

/-- Store a value, and start its time to live anew. -/
def FallbackCache.set (cache : FallbackCache K V) (now : Instant) (key : K) (value : V) :
    FallbackCache K V :=
  { cache with entries := Function.update cache.entries key (some ⟨value, now⟩) }

/-- The next step of a call; the operation comes to the result that it is given. -/
def HybridGuard.move (guard : HybridGuard K V) (result : Except E V) (task : GuardTask K V E) :
    Option (HybridGuard K V × GuardTask K V E) :=
  match task.stage with
  | .check =>
    -- The lock is released again before the operation starts.
    let guard := guard.state
    if guard.breaker.state = .open_ then
      match task.key with
      | none => some (guard, { task with stage := .returned (.error .open_) })
      | some key => some (guard, { task with stage := .fallBack key none })
    else some (guard, { task with stage := .start })
  | .start =>
    some (guard, { task with stage := .operate, trial := { task.trial with begun := guard.inForce } })
  | .operate =>
    match result with
    | .ok value =>
      some (guard, { task with stage := .succeeded value, trial := { task.trial with ended := guard.inForce } })
    | .error error => some (guard, { task with stage := .failed error })
  | .succeeded value =>
    -- The success counts for whatever period is in force now.
    let recorded := { guard with breaker := guard.breaker.recordSuccess }
    let trial := { task.trial with counted := guard.inForce }
    match task.key with
    | none => some (recorded, { task with stage := .returned (.ok value), trial := trial })
    | some key => some (recorded, { task with stage := .cacheSet key value, trial := trial })
  | .failed error =>
    let recorded := { guard with breaker := guard.breaker.recordFailure guard.now }
    match task.key with
    | none => some (recorded, { task with stage := .returned (.error (.failed error)) })
    | some key => some (recorded, { task with stage := .fallBack key (some error) })
  | .cacheSet key value =>
    some ({ guard with cache := guard.cache.set guard.now key value },
      { task with stage := .served (.fresh value) })
  -- The circuit was open, or the operation has failed.
  | .fallBack key error =>
    let (cache, value) := guard.cache.get guard.now key
    some ({ guard with cache := cache }, { task with stage := .served <|
      match value with
      | some value => .cached value
      | none => .unavailable error })
  | .returned _ | .served _ => none

/-- A guard and all its calls. -/
abbrev GuardPool (K V E : Type) := Pool (HybridGuard K V) (GuardTask K V E)

/-- A call begins or takes its next step, somebody looks at the state, or time passes. -/
inductive GuardAction (K V E : Type) where
  | call (key : Option K)
  | step (task : Nat) (result : Except E V)
  | state
  | tick (elapsed : { elapsed : Duration // 0 ≤ elapsed })

/-- One step of the guard or of its calls. -/
def GuardPool.step (pool : GuardPool K V E) : GuardAction K V E → Option (GuardPool K V E)
  | .call key => some (pool.spawn (.call key))
  | .step i result => pool.advance i fun guard task => guard.move result task
  | .state => some { pool with shared := pool.shared.state }
  | .tick elapsed => some { pool with shared := { pool.shared with now := pool.shared.now + elapsed } }

end Qaas
