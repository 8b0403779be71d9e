import Qaas.Circuit.Breaker

/-! How many real trials stand behind the closing of a circuit. -/

namespace Qaas

open Concurrency

variable {K V E : Type}

/-- How many calls have a trial with some property. -/
def GuardPool.count (pool : GuardPool K V E) (p : Trial → Prop) [DecidablePred p] : Nat :=
  tally (fun task => if p task.trial then 1 else 0) pool.tasks

/-- The operations started in a half-open period that have succeeded in it. -/
def GuardPool.trials (pool : GuardPool K V E) (period : Nat) : Nat :=
  pool.count fun trial => trial.begun = some period ∧ trial.ended = some period

/-- Those of them whose success is not yet recorded in it. -/
def GuardPool.waiting (pool : GuardPool K V E) (period : Nat) : Nat :=
  pool.count fun trial =>
    trial.begun = some period ∧ trial.ended = some period ∧ trial.counted ≠ some period

/-- The successes recorded in a half-open period of operations that were not started in it. -/
def GuardPool.stale (pool : GuardPool K V E) (period : Nat) : Nat :=
  pool.count fun trial => trial.counted = some period ∧ trial.begun ≠ some period

/-- The circuit goes from half-open to closed. -/
def GuardPool.Closes (e : Transition (GuardPool K V E) (GuardAction K V E)) : Prop :=
  e.pre.shared.breaker.state = .halfOpen ∧ e.post.shared.breaker.state = .closed

instance GuardPool.Closes.decidable (e : Transition (GuardPool K V E) (GuardAction K V E)) :
    Decidable (GuardPool.Closes e) :=
  inferInstanceAs (Decidable (e.pre.shared.breaker.state = .halfOpen ∧ e.post.shared.breaker.state = .closed))

/-- A new guard without calls. -/
def GuardPool.start (config : CircuitBreakerConfig) (ttl : Duration) (now : Instant) : GuardPool K V E :=
  ⟨.new config ttl now, []⟩

/-- A success that is recorded in a half-open period is that of an operation started in it. -/
def GuardPool.Fresh (pool : GuardPool K V E) : GuardAction K V E → Prop
  | .step i _ => ∀ task ∈ pool.tasks[i]?, ∀ value, task.stage = .succeeded value →
    ∀ p, pool.shared.inForce = some p → task.trial.begun = some p
  | _ => True

/-- Whether the outcome of the operation has been recorded, if it was started at all. -/
def GuardStage.settled : GuardStage K V E → Bool
  | .cacheSet _ _ | .fallBack _ _ | .returned _ | .served _ => true
  | _ => false

/-- What a call does to a guard, and to what is known of its trial. -/
inductive HybridGuard.Moved (guard : HybridGuard K V) (task : GuardTask K V E) :
    HybridGuard K V → GuardTask K V E → Prop
  | checks {stage : GuardStage K V E} : task.stage = .check → (stage = .start ∨ stage.settled = true) →
      Moved guard task guard.state { task with stage := stage }
  | starts : task.stage = .start →
      Moved guard task guard
        { task with stage := .operate, trial := { task.trial with begun := guard.inForce } }
  | succeeds (value : V) : task.stage = .operate →
      Moved guard task guard
        { task with stage := .succeeded value, trial := { task.trial with ended := guard.inForce } }
  | fails (error : E) : task.stage = .operate →
      Moved guard task guard { task with stage := .failed error }
  | records {value : V} {stage : GuardStage K V E} : task.stage = .succeeded value →
    stage.settled = true →
      Moved guard task { guard with breaker := guard.breaker.recordSuccess }
        { task with stage := stage, trial := { task.trial with counted := guard.inForce } }
  | trips {error : E} {stage : GuardStage K V E} : task.stage = .failed error → stage.settled = true →
      Moved guard task { guard with breaker := guard.breaker.recordFailure guard.now }
        { task with stage := stage }
  | caches {stage : GuardStage K V E} (cache : FallbackCache K V) :
      task.stage.settled = true → stage.settled = true →
      Moved guard task { guard with cache := cache } { task with stage := stage }

/-- Every step of a call is one of these. -/
theorem HybridGuard.move_moved [DecidableEq K] {guard next : HybridGuard K V} {result : Except E V}
    {task after : GuardTask K V E} (taken : guard.move result task = some (next, after)) :
    guard.Moved task next after := by
  -- Each stage has one move, of which the breaker's state or the outcome decides the kind.
  unfold move at taken
  cases stage : task.stage with
  | check =>
    simp only [stage] at taken
    split at taken
    · split at taken <;> obtain ⟨rfl, rfl⟩ := Prod.mk.inj (Option.some.inj taken)
      · exact .checks stage (.inr rfl)
      · exact .checks stage (.inr rfl)
    · obtain ⟨rfl, rfl⟩ := Prod.mk.inj (Option.some.inj taken)
      exact .checks stage (.inl rfl)
  | start =>
    simp only [stage] at taken
    obtain ⟨rfl, rfl⟩ := Prod.mk.inj (Option.some.inj taken)
    exact .starts stage
  | operate =>
    simp only [stage] at taken
    split at taken <;> obtain ⟨rfl, rfl⟩ := Prod.mk.inj (Option.some.inj taken)
    · exact .succeeds _ stage
    · exact .fails _ stage
  | succeeded value =>
    simp only [stage] at taken
    split at taken <;> obtain ⟨rfl, rfl⟩ := Prod.mk.inj (Option.some.inj taken)
    · exact .records stage rfl
    · exact .records stage rfl
  | failed error =>
    simp only [stage] at taken
    split at taken <;> obtain ⟨rfl, rfl⟩ := Prod.mk.inj (Option.some.inj taken)
    · exact .trips stage rfl
    · exact .trips stage rfl
  | cacheSet key value =>
    simp only [stage] at taken
    obtain ⟨rfl, rfl⟩ := Prod.mk.inj (Option.some.inj taken)
    exact .caches _ (by rw [stage]; rfl) rfl
  | fallBack key error =>
    simp only [stage] at taken
    obtain ⟨rfl, rfl⟩ := Prod.mk.inj (Option.some.inj taken)
    exact .caches _ (by rw [stage]; rfl) rfl
  | returned result => simp [stage] at taken
  | served outcome => simp [stage] at taken

/-- No period that has begun comes into force again. -/
structure HybridGuard.Onward (guard next : HybridGuard K V) : Prop where
  periods : guard.periods ≤ next.periods
  inForce : ∀ p, next.inForce = some p → guard.inForce = some p ∨ guard.periods < p ∧ p ≤ next.periods

theorem HybridGuard.inForce_eq_some {guard : HybridGuard K V} {p : Nat} :
    guard.inForce = some p ↔ guard.breaker.state = .halfOpen ∧ guard.periods = p := by
  unfold inForce
  split
  · rename_i trying
    simp [trying]
  · rename_i other
    simp [other]

/-- What a look at the state does: nothing, or it begins a period. -/
theorem HybridGuard.state_cases (guard : HybridGuard K V) :
    guard.state = guard ∨
    guard.breaker.state = .open_ ∧ guard.state.breaker.state = .halfOpen ∧
      guard.state.breaker.consecutiveSuccesses = 0 ∧
      guard.state.breaker.config = guard.breaker.config ∧ guard.state.periods = guard.periods + 1 := by
  by_cases opened : guard.breaker.state = .open_
  · -- An open circuit begins a period when its time is over.
    by_cases elapsed : guard.breaker.openedAt.any fun at_ =>
        guard.breaker.config.openDuration ≤ durationSince guard.now at_
    · refine .inr ⟨opened, ?_⟩
      simp [state, CircuitBreaker.resolveOpenTimeout, opened, elapsed]
    · refine .inl ?_
      simp [state, CircuitBreaker.resolveOpenTimeout, opened, elapsed]
  · refine .inl ?_
    simp [state, CircuitBreaker.resolveOpenTimeout, opened]

/-- A look at the state brings no period back. -/
theorem HybridGuard.state_onward (guard : HybridGuard K V) : guard.Onward guard.state := by
  rcases guard.state_cases with same | ⟨_, _, _, _, counted⟩
  · rw [same]
    exact ⟨le_refl _, fun _ current => .inl current⟩
  · refine ⟨by omega, fun p current => .inr ?_⟩
    -- The period in force is the one that the look began.
    have := (inForce_eq_some.mp current).2
    omega

/-- A circuit that is half-open after a recorded success was so before. -/
theorem CircuitBreaker.recordSuccess_halfOpen {breaker : CircuitBreaker}
    (trying : breaker.recordSuccess.state = .halfOpen) : breaker.state = .halfOpen := by
  cases state : breaker.state with
  | closed => simp [recordSuccess, state] at trying
  | open_ => simp [recordSuccess, state] at trying
  | halfOpen => rfl

/-- A recorded failure leaves no circuit half-open. -/
theorem CircuitBreaker.recordFailure_halfOpen (breaker : CircuitBreaker) (now : Instant) :
    (breaker.recordFailure now).state ≠ .halfOpen := by
  -- A closed circuit may trip; a half-open one always does.
  unfold recordFailure
  cases state : breaker.state with
  | closed =>
    simp only []
    split
    · simp [trip]
    · simp
  | open_ => simp [state]
  | halfOpen => simp [trip]

/-- No step of a call brings a period back. -/
theorem HybridGuard.Moved.onward {guard next : HybridGuard K V} {task after : GuardTask K V E}
    (moved : guard.Moved task next after) : guard.Onward next := by
  cases moved with
  | checks _ _ => exact state_onward guard
  | starts _ => exact ⟨le_refl _, fun _ current => .inl current⟩
  | succeeds _ _ => exact ⟨le_refl _, fun _ current => .inl current⟩
  | fails _ _ => exact ⟨le_refl _, fun _ current => .inl current⟩
  | records _ _ =>
    refine ⟨le_refl _, fun p current => .inl ?_⟩
    -- A recorded success may end the period, and begins none.
    obtain ⟨trying, same⟩ := inForce_eq_some.mp current
    exact inForce_eq_some.mpr ⟨CircuitBreaker.recordSuccess_halfOpen trying, same⟩
  | trips _ _ =>
    refine ⟨le_refl _, fun p current => ?_⟩
    -- A recorded failure leaves no period in force.
    exact absurd (inForce_eq_some.mp current).1 (CircuitBreaker.recordFailure_halfOpen _ _)
  | caches _ _ _ => exact ⟨le_refl _, fun _ current => .inl current⟩

/-- What is known of a trial fits the periods that there have been. -/
structure GuardTask.Timed (guard : HybridGuard K V) (task : GuardTask K V E) : Prop where
  begun : ∀ p, task.trial.begun = some p → p ≤ guard.periods
  counted : ∀ p, task.trial.counted = some p → p ≤ guard.periods
  uncounted : task.stage.settled = false → task.trial.counted = none
  timely : ∀ value, task.stage = .succeeded value → ∀ p, task.trial.begun = some p →
    guard.inForce = some p → task.trial.ended = some p
  own : ∀ p, task.trial.counted = some p → task.trial.begun = some p → task.trial.ended = some p

/-- What is known of a trial stays true while other calls go on. -/
theorem GuardTask.Timed.onward {guard next : HybridGuard K V} {task : GuardTask K V E}
    (timed : task.Timed guard) (onward : guard.Onward next) : task.Timed next where
  begun p known := (timed.begun p known).trans onward.periods
  counted p known := (timed.counted p known).trans onward.periods
  uncounted := timed.uncounted
  timely value stage p known current := by
    rcases onward.inForce p current with before | ⟨later, _⟩
    · exact timed.timely value stage p known before
    · -- A period that began later is not the one the operation was started in.
      have := timed.begun p known
      omega
  own := timed.own

theorem HybridGuard.inForce_le {guard : HybridGuard K V} {p : Nat} (current : guard.inForce = some p) :
    p ≤ guard.periods :=
  (inForce_eq_some.mp current).2.ge

/-- A call keeps what is known of its trial true. -/
theorem GuardTask.Timed.moved {guard next : HybridGuard K V} {task after : GuardTask K V E}
    (timed : task.Timed guard) (moved : guard.Moved task next after) : after.Timed next := by
  have onward := moved.onward
  cases moved with
  | @checks stage at_ goes =>
    have kept := timed.onward onward
    refine ⟨kept.begun, kept.counted, fun _ => timed.uncounted (by rw [at_]; rfl), ?_, kept.own⟩
    -- The call is at its operation, or has its answer.
    intro value same
    obtain rfl : stage = .succeeded value := same
    rcases goes with other | other <;> cases other
  | starts at_ =>
    -- The operation begins in the period in force, if there is one.
    have uncounted := timed.uncounted (by rw [at_]; rfl)
    refine ⟨fun p known => HybridGuard.inForce_le known, timed.counted, fun _ => uncounted, ?_, ?_⟩
    · intro value same
      cases same
    · intro p known
      rw [show task.trial.counted = some p from known] at uncounted
      cases uncounted
  | succeeds value at_ =>
    -- It succeeds in the period in force now, and nothing is recorded yet.
    have uncounted := timed.uncounted (by rw [at_]; rfl)
    refine ⟨timed.begun, timed.counted, fun _ => uncounted, fun _ _ p _ current => current, ?_⟩
    intro p known
    rw [show task.trial.counted = some p from known] at uncounted
    cases uncounted
  | fails error at_ =>
    refine ⟨timed.begun, timed.counted, fun _ => timed.uncounted (by rw [at_]; rfl), ?_, timed.own⟩
    intro value same
    cases same
  | @records value stage at_ settled =>
    have kept := timed.onward onward
    have current : ∀ p, guard.inForce = some p → p ≤ guard.periods := fun _ => HybridGuard.inForce_le
    refine ⟨kept.begun, current, ?_, ?_, ?_⟩
    · intro unsettled
      rw [show stage.settled = false from unsettled] at settled
      cases settled
    · intro other same
      obtain rfl : stage = .succeeded other := same
      cases settled
    · -- A success recorded in the period that the operation was started in came about in it.
      intro p current known
      exact timed.timely value at_ p known current
  | @trips error stage at_ settled =>
    have kept := timed.onward onward
    refine ⟨kept.begun, kept.counted, fun _ => timed.uncounted (by rw [at_]; rfl), ?_, kept.own⟩
    intro other same
    obtain rfl : stage = .succeeded other := same
    cases settled
  | @caches stage cache at_ settled =>
    refine ⟨timed.begun, timed.counted, ?_, ?_, timed.own⟩
    · intro unsettled
      rw [show stage.settled = false from unsettled] at settled
      cases settled
    · intro other same
      obtain rfl : stage = .succeeded other := same
      cases settled

/-- A half-open breaker has counted the successes recorded in its period, and not enough of them to
close. -/
structure GuardPool.Sound (config : CircuitBreakerConfig) (pool : GuardPool K V E) : Prop where
  configured : pool.shared.breaker.config = config
  timed : ∀ task ∈ pool.tasks, task.Timed pool.shared
  counted : ∀ p, pool.shared.inForce = some p →
    pool.shared.breaker.consecutiveSuccesses.toNat = pool.count fun trial => trial.counted = some p
  few : pool.shared.breaker.state = .halfOpen →
    pool.shared.breaker.consecutiveSuccesses.toNat < max config.halfOpenSuccessThreshold.toNat 1

/-- A call that moves changes a count by its own share. -/
theorem GuardPool.count_set {tasks : List (GuardTask K V E)} {i : Nat} {task : GuardTask K V E}
    (shared next : HybridGuard K V) (after : GuardTask K V E) (p : Trial → Prop) [DecidablePred p]
    (found : tasks[i]? = some task) :
    GuardPool.count ⟨next, tasks.set i after⟩ p + (if p task.trial then 1 else 0) =
      GuardPool.count ⟨shared, tasks⟩ p + if p after.trial then 1 else 0 :=
  tally_set (fun task : GuardTask K V E => if p task.trial then 1 else 0) after found

/-- No success has been recorded in a period that has not begun. -/
theorem GuardPool.Sound.none_counted {config : CircuitBreakerConfig} {pool : GuardPool K V E}
    (sound : pool.Sound config) {p : Nat} (later : pool.shared.periods < p) :
    (pool.count fun trial => trial.counted = some p) = 0 := by
  refine tally_eq_zero.mpr fun task member => if_neg fun known => ?_
  have := (sound.timed task member).counted p known
  omega

/-- A look at the state keeps the count right. -/
theorem GuardPool.Sound.looked {config : CircuitBreakerConfig} {pool : GuardPool K V E}
    (sound : pool.Sound config) : GuardPool.Sound config ⟨pool.shared.state, pool.tasks⟩ := by
  have onward := pool.shared.state_onward
  have timed : ∀ task ∈ pool.tasks, task.Timed pool.shared.state := fun task member =>
    (sound.timed task member).onward onward
  rcases pool.shared.state_cases with same | ⟨_, trying, zero, kept, began⟩
  · rw [same]
    exact sound
  · refine ⟨kept.trans sound.configured, timed, fun p current => ?_, fun _ => ?_⟩
    · -- The period has only just begun.
      have same : pool.shared.state.periods = p := (HybridGuard.inForce_eq_some.mp current).2
      have fresh : (pool.count fun trial => trial.counted = some p) = 0 := sound.none_counted (by omega)
      rw [zero]
      exact fresh.symm
    · rw [zero, UInt32.toNat_zero]
      omega

/-- A call that moves without recording a success leaves the count as it is. -/
theorem GuardPool.Sound.replaced {config : CircuitBreakerConfig} {shared : HybridGuard K V}
    {tasks : List (GuardTask K V E)} {i : Nat} {task after : GuardTask K V E}
    (sound : GuardPool.Sound config ⟨shared, tasks⟩) (found : tasks[i]? = some task)
    (same : after.trial.counted = task.trial.counted) (timed : after.Timed shared) :
    GuardPool.Sound config ⟨shared, tasks.set i after⟩ := by
  refine ⟨sound.configured, ?_, fun p current => ?_, sound.few⟩
  · intro other member
    rcases List.mem_or_eq_of_mem_set member with before | rfl
    · exact sound.timed other before
    · exact timed
  · -- The share of the call that moved is the same as before.
    have traded := GuardPool.count_set shared shared after (fun trial => trial.counted = some p) found
    simp only [same, Nat.add_right_cancel_iff] at traded
    exact (sound.counted p current).trans traded.symm

/-- A recorded success counts, unless it closes the circuit. -/
theorem CircuitBreaker.recordSuccess_counts {breaker : CircuitBreaker}
    (few : breaker.consecutiveSuccesses.toNat < max breaker.config.halfOpenSuccessThreshold.toNat 1)
    (trying : breaker.recordSuccess.state = .halfOpen) :
    breaker.recordSuccess.consecutiveSuccesses.toNat = breaker.consecutiveSuccesses.toNat + 1 ∧
      breaker.consecutiveSuccesses.toNat + 1 < breaker.config.halfOpenSuccessThreshold.toNat := by
  have state := recordSuccess_halfOpen trying
  have bound := breaker.config.halfOpenSuccessThreshold.toNat_lt
  -- Below the threshold the counter does not overflow.
  have grown : (breaker.consecutiveSuccesses + 1).toNat = breaker.consecutiveSuccesses.toNat + 1 := by
    rw [UInt32.toNat_add, show (1 : UInt32).toNat = 1 from rfl]
    omega
  unfold recordSuccess at trying ⊢
  simp only [state] at trying ⊢
  split at trying
  · cases trying
  · rename_i short
    rw [if_neg short]
    rw [UInt32.le_iff_toNat_le, grown] at short
    exact ⟨grown, by omega⟩

/-- The configuration stays. -/
theorem CircuitBreaker.recordSuccess_config (breaker : CircuitBreaker) :
    breaker.recordSuccess.config = breaker.config := by
  unfold recordSuccess
  cases breaker.state with
  | closed => rfl
  | open_ => rfl
  | halfOpen =>
    simp only []
    split <;> rfl

/-- The configuration stays. -/
theorem CircuitBreaker.recordFailure_config (breaker : CircuitBreaker) (now : Instant) :
    (breaker.recordFailure now).config = breaker.config := by
  unfold recordFailure
  cases breaker.state with
  | closed =>
    simp only []
    split <;> rfl
  | open_ => rfl
  | halfOpen => rfl

/-- A call that moves keeps the count right. -/
theorem GuardPool.Sound.moved {config : CircuitBreakerConfig} {pool : GuardPool K V E}
    {next : HybridGuard K V} {i : Nat} {task after : GuardTask K V E} (sound : pool.Sound config)
    (found : pool.tasks[i]? = some task) (moved : pool.shared.Moved task next after) :
    GuardPool.Sound config ⟨next, pool.tasks.set i after⟩ := by
  have own := sound.timed task (List.mem_of_getElem? found)
  have onward := moved.onward
  have timed : ∀ other ∈ pool.tasks.set i after, other.Timed next := by
    intro other member
    rcases List.mem_or_eq_of_mem_set member with before | rfl
    · exact (sound.timed other before).onward onward
    · exact own.moved moved
  have after := own.moved moved
  cases moved with
  | checks _ _ => exact sound.looked.replaced found rfl after
  | starts _ => exact sound.replaced found rfl after
  | succeeds _ _ => exact sound.replaced found rfl after
  | fails _ _ => exact sound.replaced found rfl after
  | @records value stage at_ settled =>
    have kept := pool.shared.breaker.recordSuccess_config.trans sound.configured
    refine ⟨kept, timed, fun p current => ?_, fun trying => ?_⟩
    · obtain ⟨trying, rfl⟩ := HybridGuard.inForce_eq_some.mp current
      have before := CircuitBreaker.recordSuccess_halfOpen trying
      have inForce := HybridGuard.inForce_eq_some.mpr ⟨before, rfl⟩
      have few := sound.few before
      rw [← sound.configured] at few
      obtain ⟨grown, _⟩ := CircuitBreaker.recordSuccess_counts few trying
      -- The call's own success is the one that is new.
      have traded := count_set pool.shared
        { pool.shared with breaker := pool.shared.breaker.recordSuccess }
        { task with stage := stage, trial := { task.trial with counted := pool.shared.inForce } }
        (fun trial => trial.counted = some pool.shared.periods) found
      have uncounted := own.uncounted (by rw [at_]; rfl)
      rw [if_neg (by rw [uncounted]; simp), if_pos inForce] at traded
      show pool.shared.breaker.recordSuccess.consecutiveSuccesses.toNat = _
      rw [grown, sound.counted _ inForce]
      exact traded.symm
    · have few := sound.few (CircuitBreaker.recordSuccess_halfOpen trying)
      rw [← sound.configured] at few
      obtain ⟨grown, short⟩ := CircuitBreaker.recordSuccess_counts few trying
      show pool.shared.breaker.recordSuccess.consecutiveSuccesses.toNat < _
      rw [grown, ← sound.configured]
      omega
  | @trips error stage at_ settled =>
    -- After a recorded failure no period is in force, so there is nothing to count.
    have never := pool.shared.breaker.recordFailure_halfOpen pool.shared.now
    have kept := (pool.shared.breaker.recordFailure_config pool.shared.now).trans sound.configured
    refine ⟨kept, timed, fun p current => ?_, fun trying => absurd trying never⟩
    exact absurd (HybridGuard.inForce_eq_some.mp current).1 never
  | @caches stage cache _ _ =>
    have cached : GuardPool.Sound config ⟨{ pool.shared with cache := cache }, pool.tasks⟩ :=
      ⟨sound.configured, fun other member => (sound.timed other member).onward onward,
        sound.counted, sound.few⟩
    exact cached.replaced found rfl after

/-- The successes recorded in a period and the trials that wait are the trials and the stale
successes. -/
theorem GuardPool.Sound.balance {config : CircuitBreakerConfig} {pool : GuardPool K V E}
    (sound : pool.Sound config) (p : Nat) :
    (pool.count fun trial => trial.counted = some p) + pool.waiting p = pool.trials p + pool.stale p := by
  unfold waiting trials stale count
  rw [← tally_add, ← tally_add]
  refine congrArg List.sum (List.map_congr_left fun task member => ?_)
  have own := (sound.timed task member).own p
  -- Call by call: a counted success is a trial's own or a stale one, and the other trials wait.
  by_cases counted : task.trial.counted = some p
  · by_cases begun : task.trial.begun = some p
    · simp [counted, begun, own counted begun]
    · simp [counted, begun]
  · simp [counted]

/-- A call that closes a half-open circuit records the last success that it takes. -/
theorem HybridGuard.Moved.closes {guard next : HybridGuard K V} {task after : GuardTask K V E}
    (moved : guard.Moved task next after) (trying : guard.breaker.state = .halfOpen)
    (closed : next.breaker.state = .closed) :
    (∃ value, task.stage = .succeeded value) ∧
      guard.breaker.config.halfOpenSuccessThreshold ≤ guard.breaker.consecutiveSuccesses + 1 := by
  cases moved with
  | checks _ _ =>
    -- A look at the state closes nothing.
    rcases guard.state_cases with same | ⟨opened, _⟩
    · rw [same, trying] at closed
      cases closed
    · rw [trying] at opened
      cases opened
  | records at_ _ =>
    refine ⟨⟨_, at_⟩, ?_⟩
    -- Below the threshold the success is counted, and the circuit stays half-open.
    by_contra short
    simp only [CircuitBreaker.recordSuccess, trying, if_neg short] at closed
    cases closed
  | trips _ _ =>
    simp only [CircuitBreaker.recordFailure, trying, CircuitBreaker.trip] at closed
    cases closed
  | _ =>
    rw [trying] at closed
    cases closed

/-- When a half-open circuit is closed, one success was missing to the threshold. -/
theorem GuardPool.Sound.missing {config : CircuitBreakerConfig} {pool : GuardPool K V E}
    (sound : pool.Sound config) (positive : 0 < config.halfOpenSuccessThreshold)
    (trying : pool.shared.breaker.state = .halfOpen)
    (reached : pool.shared.breaker.config.halfOpenSuccessThreshold ≤
      pool.shared.breaker.consecutiveSuccesses + 1) :
    config.halfOpenSuccessThreshold.toNat = pool.shared.breaker.consecutiveSuccesses.toNat + 1 := by
  -- While the circuit is half-open the count stays below the threshold, so the sum does not wrap.
  have few := sound.few trying
  have bound := config.halfOpenSuccessThreshold.toNat_lt
  have nonzero : 0 < config.halfOpenSuccessThreshold.toNat := positive
  rw [sound.configured, UInt32.le_iff_toNat_le, UInt32.toNat_add,
    show (1 : UInt32).toNat = 1 from rfl] at reached
  omega

/-- No stale success has been counted. -/
def GuardPool.Unmixed (pool : GuardPool K V E) : Prop :=
  ∀ task ∈ pool.tasks, ∀ p, task.trial.counted = some p → task.trial.begun = some p

/-- A call that moves records no stale success, if its own is not stale. -/
theorem HybridGuard.Moved.fresh {guard next : HybridGuard K V} {task after : GuardTask K V E}
    (moved : guard.Moved task next after) (own : task.Timed guard)
    (known : ∀ p, task.trial.counted = some p → task.trial.begun = some p)
    (fresh : ∀ value, task.stage = .succeeded value → ∀ p,
      guard.inForce = some p → task.trial.begun = some p)
    (p : Nat) (counted : after.trial.counted = some p) : after.trial.begun = some p := by
  cases moved with
  | checks _ _ => exact known p counted
  | starts at_ =>
    have uncounted := own.uncounted (by rw [at_]; rfl)
    rw [show task.trial.counted = some p from counted] at uncounted
    cases uncounted
  | succeeds _ _ => exact known p counted
  | fails _ _ => exact known p counted
  -- Only here a success is recorded.
  | records at_ _ => exact fresh _ at_ p counted
  | trips _ _ => exact known p counted
  | caches _ _ _ => exact known p counted

variable [DecidableEq K]

/-- Every step keeps the count right. -/
theorem GuardPool.Sound.step {config : CircuitBreakerConfig} {pool next : GuardPool K V E}
    {act : GuardAction K V E} (sound : pool.Sound config) (taken : pool.step act = some next) :
    next.Sound config := by
  cases act with
  | call key =>
    obtain rfl := Option.some.inj taken
    refine ⟨sound.configured, ?_, fun p current => ?_, sound.few⟩
    · -- A call that begins has no trial yet.
      intro task member
      rcases List.mem_append.mp member with before | last
      · exact sound.timed task before
      · obtain rfl := List.mem_singleton.mp last
        refine ⟨?_, ?_, fun _ => rfl, ?_, ?_⟩ <;> intro p known <;> cases known
    · refine (sound.counted p current).trans ?_
      simp [count, Pool.spawn, GuardTask.call]
  | step i result =>
    have advanced : pool.advance i (fun guard task => guard.move result task) = some next := taken
    obtain ⟨task, shared, after, found, moved, rfl⟩ := Pool.advance_eq_some.mp advanced
    exact sound.moved found (HybridGuard.move_moved moved)
  | state =>
    obtain rfl := Option.some.inj taken
    exact sound.looked
  | tick elapsed =>
    obtain rfl := Option.some.inj taken
    have onward : pool.shared.Onward { pool.shared with now := pool.shared.now + elapsed } :=
      ⟨le_refl _, fun _ current => .inl current⟩
    exact ⟨sound.configured, fun task member => (sound.timed task member).onward onward, sound.counted,
      sound.few⟩

/-- Every run keeps the count right. -/
theorem GuardPool.sound_of_run {config : CircuitBreakerConfig} {ttl : Duration} {now : Instant}
    {trace : List (Transition (GuardPool K V E) (GuardAction K V E))} {pool : GuardPool K V E}
    {ok : GuardPool K V E → GuardAction K V E → Prop}
    (run : Run GuardPool.step ok (.start config ttl now) trace pool) : pool.Sound config := by
  have initial : (GuardPool.start config ttl now : GuardPool K V E).Sound config :=
    ⟨rfl, fun _ member => (List.not_mem_nil member).elim, fun _ current => (by cases current),
      fun trying => (by cases trying)⟩
  exact run.invariant initial fun _ _ _ _ sound taken => sound.step taken

/-- A circuit is closed by a call that records a success. -/
theorem GuardPool.closed_by {pool next : GuardPool K V E} {act : GuardAction K V E}
    (taken : pool.step act = some next) (trying : pool.shared.breaker.state = .halfOpen)
    (closed : next.shared.breaker.state = .closed) :
    pool.shared.breaker.config.halfOpenSuccessThreshold ≤ pool.shared.breaker.consecutiveSuccesses + 1 ∧
      ∃ i result task value, act = .step i result ∧ pool.tasks[i]? = some task ∧
        task.stage = .succeeded value := by
  cases act with
  | call key =>
    obtain rfl := Option.some.inj taken
    exact absurd (trying.symm.trans closed) (by simp)
  | step i result =>
    have advanced : pool.advance i (fun guard task => guard.move result task) = some next := taken
    obtain ⟨task, shared, after, found, moved, rfl⟩ := Pool.advance_eq_some.mp advanced
    obtain ⟨⟨value, at_⟩, reached⟩ := (HybridGuard.move_moved moved).closes trying closed
    exact ⟨reached, i, result, task, value, rfl, found, at_⟩
  | state =>
    obtain rfl := Option.some.inj taken
    -- A look at the state leaves a half-open circuit half-open.
    rcases pool.shared.state_cases with same | ⟨opened, _⟩
    · rw [show pool.shared.state.breaker.state = pool.shared.breaker.state by rw [same]] at closed
      exact absurd (trying.symm.trans closed) (by simp)
    · exact absurd (trying.symm.trans opened) (by simp)
  | tick elapsed =>
    obtain rfl := Option.some.inj taken
    exact absurd (trying.symm.trans closed) (by simp)

/-- Every closing has enough real trials behind it exactly when at every closing fewer stale successes
have been counted in the period than trials have succeeded that are not counted yet. -/
theorem GuardPool.trials_iff {config : CircuitBreakerConfig} {ttl : Duration} {now : Instant}
    {trace : List (Transition (GuardPool K V E) (GuardAction K V E))} {pool : GuardPool K V E}
    (positive : 0 < config.halfOpenSuccessThreshold)
    (run : Run GuardPool.step (fun _ _ => True) (.start config ttl now) trace pool) :
    (∀ e ∈ trace, GuardPool.Closes e →
      config.halfOpenSuccessThreshold.toNat ≤ e.pre.trials e.pre.shared.periods) ↔
    ∀ e ∈ trace, GuardPool.Closes e →
      e.pre.stale e.pre.shared.periods < e.pre.waiting e.pre.shared.periods := by
  refine forall_congr' fun e => imp_congr_right fun member => imp_congr_right fun closes => ?_
  obtain ⟨⟨_, reached⟩, _, taken⟩ := run.of_mem member
  -- One success was missing, and what was counted and what waits are the trials and the stale ones.
  have sound := sound_of_run reached
  have last := sound.missing positive closes.1 (closed_by taken closes.1 closes.2).1
  have counted := sound.counted _ (HybridGuard.inForce_eq_some.mpr ⟨closes.1, rfl⟩)
  have balance := sound.balance e.pre.shared.periods
  omega

/-- No stale success is ever counted where none is recorded. -/
theorem GuardPool.fresh_of_run {config : CircuitBreakerConfig} {ttl : Duration} {now : Instant}
    {trace : List (Transition (GuardPool K V E) (GuardAction K V E))} {pool : GuardPool K V E}
    (run : Run GuardPool.step GuardPool.Fresh (.start config ttl now) trace pool) : pool.Unmixed := by
  have initial : (GuardPool.start config ttl now : GuardPool K V E).Unmixed :=
    fun _ member => (List.not_mem_nil member).elim
  refine run.invariant_of initial (fun earlier => sound_of_run earlier)
    fun pool act next allowed sound _ known taken => ?_
  -- A new call has counted nothing, and a success that counts is that of an operation of the same period.
  cases act with
  | call key =>
    obtain rfl := Option.some.inj taken
    intro task member p counted
    rcases List.mem_append.mp member with before | last
    · exact known task before p counted
    · obtain rfl := List.mem_singleton.mp last
      cases counted
  | step i result =>
    have advanced : pool.advance i (fun guard task => guard.move result task) = some next := taken
    obtain ⟨task, shared, after, found, moved, rfl⟩ := Pool.advance_eq_some.mp advanced
    have there := List.mem_of_getElem? found
    intro other member
    rcases List.mem_or_eq_of_mem_set member with before | rfl
    · exact known other before
    · exact (HybridGuard.move_moved moved).fresh (sound.timed task there) (known task there)
        (allowed task found)
  | state =>
    obtain rfl := Option.some.inj taken
    exact known
  | tick elapsed =>
    obtain rfl := Option.some.inj taken
    exact known

/-- Where no stale success is recorded, every closing has enough real trials behind it. -/
theorem GuardPool.trials_of_fresh {config : CircuitBreakerConfig} {ttl : Duration} {now : Instant}
    {trace : List (Transition (GuardPool K V E) (GuardAction K V E))} {pool : GuardPool K V E}
    (positive : 0 < config.halfOpenSuccessThreshold)
    (run : Run GuardPool.step GuardPool.Fresh (.start config ttl now) trace pool)
    {e : Transition (GuardPool K V E) (GuardAction K V E)} (member : e ∈ trace)
    (closes : GuardPool.Closes e) :
    config.halfOpenSuccessThreshold.toNat ≤ e.pre.trials e.pre.shared.periods := by
  obtain ⟨⟨_, reached⟩, allowed, taken⟩ := run.of_mem member
  have sound := sound_of_run reached
  have known := fresh_of_run reached
  have inForce := HybridGuard.inForce_eq_some.mpr ⟨closes.1, rfl⟩
  obtain ⟨last, i, result, task, value, act, found, at_⟩ := closed_by taken closes.1 closes.2
  have there := List.mem_of_getElem? found
  have own := sound.timed task there
  have none_stale : e.pre.stale e.pre.shared.periods = 0 :=
    tally_eq_zero.mpr fun other among => if_neg fun both => both.2 (known other among _ both.1)
  -- The call that closes the circuit is itself one of the trials.
  have begun : task.trial.begun = some e.pre.shared.periods := by
    rw [act] at allowed
    exact allowed task found value at_ _ inForce
  have ended := own.timely value at_ _ begun inForce
  have uncounted := own.uncounted (by rw [at_]; rfl)
  have waits : 1 ≤ e.pre.waiting e.pre.shared.periods := by
    refine le_trans ?_ (le_tally _ there)
    simp [begun, ended, uncounted]
  have missing := sound.missing positive closes.1 last
  have counted := sound.counted _ inForce
  have balance := sound.balance e.pre.shared.periods
  omega

/-- One failure opens the circuit for half a minute, and one trial closes it. -/
def oneStrike : CircuitBreakerConfig :=
  ⟨1, 30, 1⟩

/-- A slow call begins while the circuit is closed and succeeds half a minute after another has
failed, when a third has just looked at the state. -/
def slowSuccess : List (GuardAction Unit Unit Unit) :=
  [.call none, .step 0 (.ok ()), .step 0 (.ok ()),
    .call none, .step 1 (.ok ()), .step 1 (.ok ()), .step 1 (.error ()), .step 1 (.ok ()),
    .tick ⟨30, by decide +kernel⟩, .call none, .step 2 (.ok ()), .step 0 (.ok ()), .step 0 (.ok ())]

/-- The slow success closes the circuit, although no operation was started in the half-open period. -/
theorem GuardPool.closed_without_trial :
    ¬ ∀ (config : CircuitBreakerConfig) (ttl : Duration) (now : Instant)
      (trace : List (Transition (GuardPool Unit Unit Unit) (GuardAction Unit Unit Unit)))
      (pool : GuardPool Unit Unit Unit), 0 < config.halfOpenSuccessThreshold →
      Run GuardPool.step (fun _ _ => True) (.start config ttl now) trace pool →
      ∀ e ∈ trace, GuardPool.Closes e →
        config.halfOpenSuccessThreshold.toNat ≤ e.pre.trials e.pre.shared.periods := by
  -- In the run that is computed the closing step has no trial before it.
  intro always
  have recorded : ∃ ran ∈ record GuardPool.step (.start oneStrike 60 0) slowSuccess,
      ∃ e ∈ (ran.1)[12]?, GuardPool.Closes e ∧ e.pre.trials e.pre.shared.periods = 0 := by
    decide +kernel
  obtain ⟨⟨trace, pool⟩, ran, e, there, closes, none⟩ := recorded
  have promised := always oneStrike 60 0 trace pool (by decide) (run_of_record .nil ran) e
    (List.mem_of_getElem? there) closes
  rw [none] at promised
  exact absurd promised (by decide)

/-- After the half minute a call succeeds that was started then. -/
def realTrial : List (GuardAction Unit Unit Unit) :=
  [.call none, .step 0 (.ok ()), .step 0 (.ok ()), .step 0 (.error ()), .step 0 (.ok ()),
    .tick ⟨30, by decide +kernel⟩, .call none, .step 1 (.ok ()), .step 1 (.ok ()), .step 1 (.ok ()),
    .step 1 (.ok ())]

theorem GuardPool.trials_iff_realTrial :
    ∃ ran ∈ record GuardPool.step (.start oneStrike 60 0) realTrial,
      (∃ e ∈ ran.1, GuardPool.Closes e) ∧ ∀ e ∈ ran.1, GuardPool.Closes e →
        oneStrike.halfOpenSuccessThreshold.toNat ≤ e.pre.trials e.pre.shared.periods := by
  -- In the run that is computed no success is stale.
  have recorded : ∃ ran ∈ record GuardPool.step (.start oneStrike 60 0) realTrial,
      (∃ e ∈ ran.1, GuardPool.Closes e) ∧ ∀ e ∈ ran.1, GuardPool.Closes e →
        e.pre.stale e.pre.shared.periods < e.pre.waiting e.pre.shared.periods := by
    decide +kernel
  obtain ⟨⟨trace, pool⟩, ran, closing, fewer⟩ := recorded
  exact ⟨(trace, pool), ran, closing, (GuardPool.trials_iff (by decide) (run_of_record .nil ran)).mpr fewer⟩

end Qaas
