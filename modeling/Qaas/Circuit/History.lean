import Mathlib.Data.List.DropRight
import Qaas.Circuit.Breaker

/-! What a history of calls, one after the other, tells about the next one. -/

namespace Qaas

open Concurrency

variable {K V E : Type}

/-- A call from its start to its end, and what its operation comes to if it is run. -/
structure Execution (V E : Type) where
  started : Instant
  ended : Instant
  result : Except E V

/-- A call that no other comes between. -/
def CircuitBreaker.call (breaker : CircuitBreaker) (execution : Execution V E) :
    CircuitBreaker × Except (CircuitBreakerError E) V :=
  let breaker := breaker.resolveOpenTimeout execution.started
  if breaker.state = .open_ then (breaker, .error .open_)
  else
    match execution.result with
    | .ok value => (breaker.recordSuccess, .ok value)
    | .error error => (breaker.recordFailure execution.ended, .error (.failed error))

/-- The steps of a call without a key, with time passing only while its operation runs. -/
def HybridGuard.moveAlone [DecidableEq K] (guard : HybridGuard K V) (execution : Execution V E) :
    Option (HybridGuard K V × GuardTask K V E) :=
  ({ guard with now := execution.started }.move execution.result (.call none)).bind fun checked =>
    match checked.2.stage with
    | .start =>
      (checked.1.move execution.result checked.2).bind fun begun =>
        (begun.1.move execution.result begun.2).bind fun operated =>
          { operated.1 with now := execution.ended }.move execution.result operated.2
    | _ => some checked

/-- A breaker, and the end of its latest call. -/
structure ClockedBreaker where
  breaker : CircuitBreaker
  now : Instant

/-- The next call, which starts when the one before it has ended. -/
def ClockedBreaker.step (clocked : ClockedBreaker) (execution : Execution V E) : Option ClockedBreaker :=
  if clocked.now ≤ execution.started ∧ execution.started ≤ execution.ended then
    some ⟨(clocked.breaker.call execution).1, execution.ended⟩
  else none

/-- A call of a history, with the breaker before and after it. -/
abbrev Called (V E : Type) := Transition ClockedBreaker (Execution V E)

/-- What a call has returned. -/
def Called.returned (e : Called V E) : Except (CircuitBreakerError E) V :=
  (e.pre.breaker.call e.act).2

/-- The operation was run. -/
def Called.ran (e : Called V E) : Bool :=
  match e.returned with
  | .error .open_ => false
  | _ => true

/-- The operation was run, and has failed. -/
def Called.failed (e : Called V E) : Bool :=
  match e.returned with
  | .error (.failed _) => true
  | _ => false

/-- The operation was run, and has succeeded. -/
def Called.succeeded (e : Called V E) : Bool :=
  match e.returned with
  | .ok _ => true
  | _ => false

/-- The call has opened the circuit. -/
def Called.opens (e : Called V E) : Bool :=
  (e.pre.breaker.resolveOpenTimeout e.act.started).state ≠ .open_ && e.post.breaker.state = .open_

/-- The call has closed the circuit. -/
def Called.closes (e : Called V E) : Bool :=
  (e.pre.breaker.resolveOpenTimeout e.act.started).state ≠ .closed && e.post.breaker.state = .closed

/-- The call has opened or closed the circuit. -/
def Called.turns (e : Called V E) : Bool :=
  e.opens || e.closes

/-- The last call that has opened the circuit. -/
def lastOpening (history : List (Called V E)) : Option (Called V E) :=
  (history.filter Called.opens).getLast?

/-- The circuit was opened, and has not been closed since: a call that is run is a trial. -/
def inTrial (history : List (Called V E)) : Bool :=
  (history.filter Called.turns).getLast?.any Called.opens

/-- The calls since the circuit was last opened or closed. -/
def sinceTurn (history : List (Called V E)) : List (Called V E) :=
  history.rtakeWhile fun e => !e.turns

/-- How many of the latest calls have failed in a row, since the circuit was last opened or closed. -/
def failureStreak (history : List (Called V E)) : ℕ :=
  ((sinceTurn history).rtakeWhile Called.failed).length

/-- How many calls have succeeded since the circuit was last opened or closed. -/
def successCount (history : List (Called V E)) : ℕ :=
  (sinceTurn history).countP Called.succeeded

/-- A call does what the history before it says: its operation is run unless the circuit was opened too short
a time ago, its failure opens the circuit if it is a trial or the last of a streak that is long enough, and
its success closes the circuit if it is the last trial that is asked for. -/
structure FollowsHistory (config : CircuitBreakerConfig) (before : List (Called V E)) (e : Called V E) : Prop where
  run : e.ran = true ↔
    ¬ ∃ o ∈ lastOpening before, durationSince e.act.started o.act.ended < config.openDuration
  opening : e.opens = true ↔ e.failed = true ∧
    (inTrial before = true ∨ failureStreak before + 1 = config.failureThreshold.toNat)
  closing : e.closes = true ↔ e.succeeded = true ∧ inTrial before = true ∧
    successCount before + 1 = config.halfOpenSuccessThreshold.toNat

section

variable {history : List (Called V E)} {e : Called V E}

theorem lastOpening_concat :
    lastOpening (history ++ [e]) = if e.opens then some e else lastOpening history := by
  -- Only the last call of the list is looked at anew, by whether it opens the circuit.
  unfold lastOpening
  rw [List.filter_append]
  cases opening : e.opens <;> simp [opening]

theorem inTrial_concat : inTrial (history ++ [e]) = if e.turns then e.opens else inTrial history := by
  unfold inTrial
  rw [List.filter_append]
  cases turning : e.turns <;> simp [turning]

theorem sinceTurn_concat : sinceTurn (history ++ [e]) = if e.turns then [] else sinceTurn history ++ [e] := by
  unfold sinceTurn
  rw [List.rtakeWhile_concat]
  cases e.turns <;> rfl

/-- A call that turns the circuit ends the streak, and one that does not carries it on if it fails. -/
theorem failureStreak_concat : failureStreak (history ++ [e]) =
    if e.turns then 0 else if e.failed then failureStreak history + 1 else 0 := by
  unfold failureStreak
  rw [sinceTurn_concat]
  cases e.turns
  · rw [if_neg Bool.false_ne_true, if_neg Bool.false_ne_true, List.rtakeWhile_concat]
    -- The streak of the calls before it is carried on, or cut off by a call that has not failed.
    split <;> simp
  · rfl

/-- A call that turns the circuit has the successes counted anew. -/
theorem successCount_concat : successCount (history ++ [e]) =
    if e.turns then 0 else successCount history + if e.succeeded then 1 else 0 := by
  unfold successCount
  rw [sinceTurn_concat]
  cases e.turns
  · rw [if_neg Bool.false_ne_true, if_neg Bool.false_ne_true, List.countP_append, List.countP_singleton]
  · rfl

end

/-- The breaker is as the history says. -/
structure CircuitBreaker.Recounts (config : CircuitBreakerConfig) (history : List (Called V E))
    (clocked : ClockedBreaker) : Prop where
  same : clocked.breaker.config = config
  opened : clocked.breaker.openedAt = (lastOpening history).map fun o => o.act.ended
  cooled : clocked.breaker.state ≠ .open_ → ∀ o ∈ lastOpening history,
    config.openDuration ≤ durationSince clocked.now o.act.ended
  trial : inTrial history = true ↔ clocked.breaker.state ≠ .closed
  closed : clocked.breaker.state = .closed →
    failureStreak history = clocked.breaker.consecutiveFailures.toNat ∧
      clocked.breaker.consecutiveFailures < config.failureThreshold
  open_ : clocked.breaker.state = .open_ → successCount history = 0
  halfOpen : clocked.breaker.state = .halfOpen →
    successCount history = clocked.breaker.consecutiveSuccesses.toNat ∧
      clocked.breaker.consecutiveSuccesses < config.halfOpenSuccessThreshold

section

variable {config : CircuitBreakerConfig} {history : List (Called V E)} {clocked : ClockedBreaker}
  {execution : Execution V E}

/-- Time since an instant does not decrease. -/
theorem durationSince_mono {now later : Instant} (order : now ≤ later) (at_ : Instant) :
    durationSince now at_ ≤ durationSince later at_ :=
  max_le_max_right 0 (sub_le_sub_right order at_)

/-- A look at the state leaves the breaker as it was, or ends the time that it is open. -/
theorem CircuitBreaker.resolveOpenTimeout_cases (breaker : CircuitBreaker) (now : Instant) :
    (breaker.resolveOpenTimeout now = breaker ∧ (breaker.state = .open_ →
      ∀ at_ ∈ breaker.openedAt, durationSince now at_ < breaker.config.openDuration)) ∨
    breaker.state = .open_ ∧ (∃ at_ ∈ breaker.openedAt, breaker.config.openDuration ≤ durationSince now at_) ∧
      breaker.resolveOpenTimeout now =
        { breaker with state := .halfOpen, consecutiveFailures := 0, consecutiveSuccesses := 0 } := by
  -- Only an open breaker looks at the time, and compares it with the instant at which it was opened.
  unfold resolveOpenTimeout
  split
  · rename_i opened
    split
    · rename_i elapsed
      obtain ⟨at_, there, long⟩ := (Option.any_eq_true _ _).mp elapsed
      exact .inr ⟨opened, ⟨at_, there, of_decide_eq_true long⟩, rfl⟩
    · rename_i waiting
      have short := (Option.any_eq_false _ _).mp (Bool.eq_false_iff.mpr waiting)
      exact .inl ⟨rfl, fun _ at_ there => not_le.mp (of_decide_eq_false (short at_ there))⟩
  · rename_i other
    exact .inl ⟨rfl, fun opened => absurd opened other⟩

/-- In a trial period the circuit was opened at some time. -/
theorem opened_of_inTrial (trial : inTrial history = true) : ∃ o, o ∈ lastOpening history := by
  -- The last call that turned the circuit is one that opened it.
  obtain ⟨o, last, opened⟩ := (Option.any_eq_true _ _).mp trial
  have among := List.mem_of_getLast? last
  have member : o ∈ history.filter Called.opens :=
    List.mem_filter.mpr ⟨List.mem_of_mem_filter among, opened⟩
  exact Option.isSome_iff_exists.mp (List.getLast?_isSome.mpr (List.ne_nil_of_mem member))

/-- After the look at the state the breaker is still as the history says, and is open only if it was opened too
short a time ago. -/
theorem CircuitBreaker.Recounts.resolved (positive : 1 ≤ config.halfOpenSuccessThreshold)
    (recounts : Recounts config history clocked) {now : Instant} (later : clocked.now ≤ now) :
    Recounts config history ⟨clocked.breaker.resolveOpenTimeout now, now⟩ ∧
      ((clocked.breaker.resolveOpenTimeout now).state = .open_ ↔
        ∃ o ∈ lastOpening history, durationSince now o.act.ended < config.openDuration) := by
  -- Unless the circuit is open, the time that has passed is long enough already, and it only grows.
  obtain ⟨rfl, opened, cooled, trial, closed, open_, halfOpen⟩ := recounts
  have cold (notOpen : clocked.breaker.state ≠ .open_) (o : Called V E) (last : o ∈ lastOpening history) :
      clocked.breaker.config.openDuration ≤ durationSince now o.act.ended :=
    (cooled notOpen o last).trans (durationSince_mono later _)
  rcases clocked.breaker.resolveOpenTimeout_cases now with ⟨same, waits⟩ | ⟨was, ⟨at_, there, long⟩, turned⟩
  · rw [same]
    refine ⟨⟨rfl, opened, cold, trial, closed, open_, halfOpen⟩, fun is => ?_, fun ⟨o, last, short⟩ => ?_⟩
    · -- An open circuit was opened by some call, whose time is still running.
      obtain ⟨o, last⟩ := opened_of_inTrial (trial.mpr (by rw [is]; decide))
      refine ⟨o, last, waits is _ ?_⟩
      rw [opened, Option.mem_def.mp last]
      rfl
    -- If it is not open, then the last time that it was opened is long ago.
    · by_contra notOpen
      exact absurd (cold notOpen o last) (not_le.mpr short)
  · rw [turned]
    have elapsed (o : Called V E) (last : o ∈ lastOpening history) :
        clocked.breaker.config.openDuration ≤ durationSince now o.act.ended := by
      rw [opened, Option.mem_def.mp last] at there
      obtain rfl := Option.some.inj there
      exact long
    refine ⟨⟨rfl, opened, fun _ => elapsed, ?_, nofun, nofun, fun _ => ⟨open_ was, ?_⟩⟩, nofun,
      fun ⟨o, last, short⟩ => absurd (elapsed o last) (not_le.mpr short)⟩
    · exact ⟨fun _ => nofun, fun _ => trial.mpr (by rw [was]; decide)⟩
    · -- No trial has been counted, and at least one is asked for.
      exact UInt32.lt_of_lt_of_le (by decide : (0 : UInt32) < 1) positive

/-- A counter below a threshold can be counted up. -/
theorem counter_succ {count threshold : UInt32} (below : count < threshold) :
    (count + 1).toNat = count.toNat + 1 := by
  -- The threshold is itself a counter, so that one below it can be counted up without wrapping around.
  have bound := UInt32.lt_iff_toNat_lt.mp below
  have small := threshold.toNat_lt
  rw [UInt32.toNat_add]
  show (count.toNat + 1) % 2 ^ 32 = count.toNat + 1
  omega

/-- A counter that goes on stays below its threshold, and one that does not reaches it. -/
theorem counter_reaches {count threshold : UInt32} (below : count < threshold) :
    threshold ≤ count + 1 ↔ count.toNat + 1 = threshold.toNat := by
  have bound := UInt32.lt_iff_toNat_lt.mp below
  rw [UInt32.le_iff_toNat_le, counter_succ below]
  omega

end

/-- A call of a history, as it stands after its look at the state. -/
structure Called.Looked (config : CircuitBreakerConfig) (history : List (Called V E)) (e : Called V E)
    (looked : CircuitBreaker) : Prop where
  resolved : e.pre.breaker.resolveOpenTimeout e.act.started = looked
  post : e.post = ⟨(e.pre.breaker.call e.act).1, e.act.ended⟩
  ordered : e.act.started ≤ e.act.ended
  recounts : CircuitBreaker.Recounts config history ⟨looked, e.act.started⟩
  rejects : looked.state = .open_ ↔
    ∃ o ∈ lastOpening history, durationSince e.act.started o.act.ended < config.openDuration

section

variable {config : CircuitBreakerConfig} {history : List (Called V E)} {e : Called V E}
  {looked : CircuitBreaker}

/-- What a call returns and leaves behind, seen from its look at the state. -/
theorem Called.Looked.call_eq (look : e.Looked config history looked) :
    e.pre.breaker.call e.act =
      if looked.state = .open_ then (looked, .error .open_)
      else
        match e.act.result with
        | .ok value => (looked.recordSuccess, .ok value)
        | .error error => (looked.recordFailure e.act.ended, .error (.failed error)) := by
  rw [← look.resolved]
  rfl

theorem Called.Looked.same (look : e.Looked config history looked) : looked.config = config :=
  look.recounts.same

/-- A call that does not find the circuit open is run. -/
theorem Called.Looked.run (look : e.Looked config history looked) (notOpen : looked.state ≠ .open_) :
    e.ran = true ↔
      ¬ ∃ o ∈ lastOpening history, durationSince e.act.started o.act.ended < config.openDuration := by
  rw [← look.rejects]
  refine ⟨fun _ => notOpen, fun _ => ?_⟩
  -- It returns what its operation has come to.
  unfold Called.ran Called.returned
  rw [look.call_eq, if_neg notOpen]
  cases e.act.result <;> rfl

/-- A call that leaves the state as it was has not turned the circuit. -/
theorem Called.Looked.still (look : e.Looked config history looked)
    (left : (e.pre.breaker.call e.act).1.state = looked.state) :
    e.opens = false ∧ e.closes = false ∧ e.turns = false := by
  have opens : e.opens = false := by simp [Called.opens, look.resolved, look.post, left]
  have closes : e.closes = false := by simp [Called.closes, look.resolved, look.post, left]
  exact ⟨opens, closes, by rw [Called.turns, opens, closes]; rfl⟩

/-- After a call that has not turned the circuit the breaker is as the history says, if its counters are. -/
theorem Called.Looked.stays (look : e.Looked config history looked) {after : CircuitBreaker}
    (called : (e.pre.breaker.call e.act).1 = after) (same : after.config = looked.config)
    (at_ : after.openedAt = looked.openedAt) (state : after.state = looked.state)
    (closed : looked.state = .closed → failureStreak (history ++ [e]) = after.consecutiveFailures.toNat ∧
      after.consecutiveFailures < config.failureThreshold)
    (open_ : looked.state = .open_ → successCount (history ++ [e]) = 0)
    (halfOpen : looked.state = .halfOpen → successCount (history ++ [e]) = after.consecutiveSuccesses.toNat ∧
      after.consecutiveSuccesses < config.halfOpenSuccessThreshold) :
    CircuitBreaker.Recounts config (history ++ [e]) e.post := by
  -- The history has the same last opening and the same last turn as before the call.
  obtain ⟨opens, _, turns⟩ := look.still (by rw [called, state])
  rw [look.post, called]
  refine ⟨same.trans look.same, ?_, ?_, ?_, ?_, ?_, ?_⟩
  · rw [lastOpening_concat, opens]
    exact at_.trans look.recounts.opened
  · intro notOpen o last
    rw [lastOpening_concat, opens] at last
    have before : looked.state ≠ .open_ := fun is => notOpen (state.trans is)
    exact (look.recounts.cooled before o last).trans (durationSince_mono look.ordered _)
  · rw [inTrial_concat, turns]
    show _ ↔ after.state ≠ .closed
    rw [state]
    exact look.recounts.trial
  · exact fun is => closed (state.symm.trans is)
  · exact fun is => open_ (state.symm.trans is)
  · exact fun is => halfOpen (state.symm.trans is)

/-- A call that finds the circuit open is not run, and changes nothing. -/
theorem Called.Looked.rejected (look : e.Looked config history looked) (is : looked.state = .open_) :
    FollowsHistory config history e ∧ CircuitBreaker.Recounts config (history ++ [e]) e.post := by
  have called : e.pre.breaker.call e.act = (looked, .error .open_) := by
    rw [look.call_eq, if_pos is]
  have answer : e.returned = .error .open_ := congrArg Prod.snd called
  obtain ⟨opens, closes, turns⟩ := look.still (by rw [called])
  -- It has neither failed nor succeeded, as its operation was not run.
  refine ⟨⟨?_, ?_, ?_⟩, ?_⟩
  · rw [← look.rejects]
    simp [Called.ran, answer, is]
  · simp [opens, Called.failed, answer]
  · simp [closes, Called.succeeded, answer]
  · refine look.stays (by rw [called]) rfl rfl rfl ?_ (fun _ => ?_) ?_
    · exact fun other => absurd (is.symm.trans other) (by decide)
    · rw [successCount_concat, turns, Called.succeeded, answer]
      exact look.recounts.open_ is
    · exact fun other => absurd (is.symm.trans other) (by decide)

/-- A success while the circuit is closed ends the streak of failures. -/
theorem Called.Looked.closed_succeeds (look : e.Looked config history looked) (is : looked.state = .closed)
    (positive : 1 ≤ config.failureThreshold) {value : V} (outcome : e.act.result = .ok value) :
    FollowsHistory config history e ∧ CircuitBreaker.Recounts config (history ++ [e]) e.post := by
  have notOpen : looked.state ≠ .open_ := by rw [is]; decide
  have called : e.pre.breaker.call e.act = ({ looked with consecutiveFailures := 0 }, .ok value) := by
    rw [look.call_eq, if_neg notOpen, outcome]
    simp only [CircuitBreaker.recordSuccess, is]
  have answer : e.returned = .ok value := congrArg Prod.snd called
  obtain ⟨opens, closes, turns⟩ := look.still (by rw [called])
  have trial : inTrial history = false := Bool.eq_false_iff.mpr fun yes => look.recounts.trial.mp yes is
  refine ⟨⟨look.run notOpen, ?_, ?_⟩, ?_⟩
  · simp [opens, Called.failed, answer]
  · simp [closes, trial]
  · refine look.stays (congrArg Prod.fst called) rfl rfl rfl (fun _ => ⟨?_, ?_⟩) ?_ ?_
    · rw [failureStreak_concat, turns, Called.failed, answer]
      rfl
    · exact UInt32.lt_of_lt_of_le (by decide : (0 : UInt32) < 1) positive
    · exact fun other => absurd (is.symm.trans other) (by decide)
    · exact fun other => absurd (is.symm.trans other) (by decide)

/-- A failure that opens the circuit, where it is a trial or the last of a streak. -/
theorem Called.Looked.trips (look : e.Looked config history looked) (notOpen : looked.state ≠ .open_)
    {error : E} (called : e.pre.breaker.call e.act = (looked.trip e.act.ended, .error (.failed error)))
    (enough : inTrial history = true ∨ failureStreak history + 1 = config.failureThreshold.toNat) :
    FollowsHistory config history e ∧ CircuitBreaker.Recounts config (history ++ [e]) e.post := by
  have answer : e.returned = .error (.failed error) := congrArg Prod.snd called
  have opens : e.opens = true := by simp [Called.opens, look.resolved, notOpen, look.post, called, CircuitBreaker.trip]
  have closes : e.closes = false := by simp [Called.closes, look.post, called, CircuitBreaker.trip]
  have turns : e.turns = true := by rw [Called.turns, opens]; rfl
  refine ⟨⟨look.run notOpen, ?_, ?_⟩, ?_⟩
  · simp [opens, Called.failed, answer, enough]
  · simp [closes, Called.succeeded, answer]
  · rw [look.post, called]
    -- The call is now the last one that has opened the circuit, and nothing has succeeded since.
    refine ⟨look.same, ?_, fun other => absurd rfl other, ?_, nofun, fun _ => ?_, nofun⟩
    · rw [lastOpening_concat, opens]
      rfl
    · rw [inTrial_concat, turns, opens]
      exact ⟨fun _ => nofun, fun _ => rfl⟩
    · rw [successCount_concat, turns]
      rfl

/-- A failure while the circuit is closed opens it if it is the last of a streak that is long enough. -/
theorem Called.Looked.closed_fails (look : e.Looked config history looked) (is : looked.state = .closed)
    {error : E} (outcome : e.act.result = .error error) :
    FollowsHistory config history e ∧ CircuitBreaker.Recounts config (history ++ [e]) e.post := by
  have notOpen : looked.state ≠ .open_ := by rw [is]; decide
  obtain ⟨counted, below⟩ := look.recounts.closed is
  have called : e.pre.breaker.call e.act = (looked.recordFailure e.act.ended, .error (.failed error)) := by
    rw [look.call_eq, if_neg notOpen, outcome]
  have reaches := counter_reaches below
  rw [← counted] at reaches
  -- The counter of the breaker is the streak, so that both reach the threshold together.
  by_cases enough : config.failureThreshold ≤ looked.consecutiveFailures + 1
  · have recorded : looked.recordFailure e.act.ended = looked.trip e.act.ended := by
      simp only [CircuitBreaker.recordFailure, is, look.same, enough, if_true]
    rw [recorded] at called
    exact look.trips notOpen called (.inr (reaches.mp enough))
  · have recorded : looked.recordFailure e.act.ended =
        { looked with consecutiveFailures := looked.consecutiveFailures + 1 } := by
      simp only [CircuitBreaker.recordFailure, is, look.same, enough, if_false]
    rw [recorded] at called
    have answer : e.returned = .error (.failed error) := congrArg Prod.snd called
    obtain ⟨opens, closes, turns⟩ := look.still (by rw [called])
    have trial : inTrial history = false := Bool.eq_false_iff.mpr fun yes => look.recounts.trial.mp yes is
    have short : failureStreak history + 1 ≠ config.failureThreshold.toNat := fun same => enough (reaches.mpr same)
    refine ⟨⟨look.run notOpen, ?_, ?_⟩, ?_⟩
    · simp [opens, trial, short]
    · simp [closes, trial]
    · refine look.stays (congrArg Prod.fst called) rfl rfl rfl (fun _ => ⟨?_, ?_⟩) ?_ ?_
      · rw [failureStreak_concat, turns, Called.failed, answer, counted]
        exact (counter_succ below).symm
      · exact UInt32.not_le.mp enough
      · exact fun other => absurd (is.symm.trans other) (by decide)
      · exact fun other => absurd (is.symm.trans other) (by decide)

/-- A failed trial opens the circuit at once. -/
theorem Called.Looked.trial_fails (look : e.Looked config history looked) (is : looked.state = .halfOpen)
    {error : E} (outcome : e.act.result = .error error) :
    FollowsHistory config history e ∧ CircuitBreaker.Recounts config (history ++ [e]) e.post := by
  have notOpen : looked.state ≠ .open_ := by rw [is]; decide
  have called : e.pre.breaker.call e.act = (looked.trip e.act.ended, .error (.failed error)) := by
    rw [look.call_eq, if_neg notOpen, outcome]
    simp only [CircuitBreaker.recordFailure, is]
  exact look.trips notOpen called (.inl (look.recounts.trial.mpr (by rw [is]; decide)))

/-- A trial that succeeds counts, and the last one that is asked for closes the circuit. -/
theorem Called.Looked.trial_succeeds (look : e.Looked config history looked) (is : looked.state = .halfOpen)
    (positive : 1 ≤ config.failureThreshold) {value : V} (outcome : e.act.result = .ok value) :
    FollowsHistory config history e ∧ CircuitBreaker.Recounts config (history ++ [e]) e.post := by
  have notOpen : looked.state ≠ .open_ := by rw [is]; decide
  obtain ⟨counted, below⟩ := look.recounts.halfOpen is
  have called : e.pre.breaker.call e.act = (looked.recordSuccess, .ok value) := by
    rw [look.call_eq, if_neg notOpen, outcome]
  have answer : e.returned = .ok value := congrArg Prod.snd called
  have reaches := counter_reaches below
  rw [← counted] at reaches
  have trial : inTrial history = true := look.recounts.trial.mpr (by rw [is]; decide)
  -- The counter of the breaker is the number of trials that have succeeded so far.
  by_cases enough : config.halfOpenSuccessThreshold ≤ looked.consecutiveSuccesses + 1
  · have recorded : looked.recordSuccess =
        { looked with state := .closed, consecutiveFailures := 0, consecutiveSuccesses := 0 } := by
      simp only [CircuitBreaker.recordSuccess, is, look.same, enough, if_true]
    rw [recorded] at called
    -- With enough trials the circuit closes.
    have opens : e.opens = false := by simp [Called.opens, look.post, called]
    have closes : e.closes = true := by simp [Called.closes, look.resolved, look.post, called, is]
    have turns : e.turns = true := by rw [Called.turns, closes, Bool.or_true]
    refine ⟨⟨look.run notOpen, ?_, ?_⟩, ?_⟩
    · simp [opens, Called.failed, answer]
    · simp [closes, Called.succeeded, answer, trial, reaches.mp enough]
    · rw [look.post, called]
      refine ⟨look.same, ?_, fun _ o last => ?_, ?_, fun _ => ⟨?_, ?_⟩, nofun, nofun⟩
      · rw [lastOpening_concat, opens]
        exact look.recounts.opened
      · rw [lastOpening_concat, opens] at last
        exact (look.recounts.cooled notOpen o last).trans (durationSince_mono look.ordered _)
      · rw [inTrial_concat, turns, opens]
        exact ⟨nofun, fun other => absurd rfl other⟩
      · rw [failureStreak_concat, turns]
        rfl
      · exact UInt32.lt_of_lt_of_le (by decide : (0 : UInt32) < 1) positive
  · have recorded : looked.recordSuccess =
        { looked with consecutiveSuccesses := looked.consecutiveSuccesses + 1 } := by
      simp only [CircuitBreaker.recordSuccess, is, look.same, enough, if_false]
    rw [recorded] at called
    -- With fewer it stays half-open, and has one success more.
    obtain ⟨opens, closes, turns⟩ := look.still (by rw [called])
    have short : successCount history + 1 ≠ config.halfOpenSuccessThreshold.toNat :=
      fun same => enough (reaches.mpr same)
    refine ⟨⟨look.run notOpen, ?_, ?_⟩, ?_⟩
    · simp [opens, Called.failed, answer]
    · simp [closes, short]
    · refine look.stays (congrArg Prod.fst called) rfl rfl rfl ?_ ?_ (fun _ => ⟨?_, ?_⟩)
      · exact fun other => absurd (is.symm.trans other) (by decide)
      · exact fun other => absurd (is.symm.trans other) (by decide)
      · rw [successCount_concat, turns, Called.succeeded, answer, counted]
        exact (counter_succ below).symm
      · exact UInt32.not_le.mp enough

end

/-- A call that no other comes between is the steps of a call of the guard, taken in a row. -/
theorem HybridGuard.moveAlone_call [DecidableEq K] (guard : HybridGuard K V) (execution : Execution V E) :
    ∃ after task, guard.moveAlone execution = some (after, task) ∧
      after.breaker = (guard.breaker.call execution).1 ∧
      task.stage = .returned (guard.breaker.call execution).2 := by
  -- The first step looks at the state, and the others run the operation and record what it has come to.
  unfold moveAlone CircuitBreaker.call
  by_cases is : (guard.breaker.resolveOpenTimeout execution.started).state = .open_
  · simp [move, state, GuardTask.call, is]
  · cases outcome : execution.result <;> simp [move, state, GuardTask.call, is]

/-- A call from a breaker that is as the history says follows the history, and leaves the breaker so. -/
theorem CircuitBreaker.Recounts.step {config : CircuitBreakerConfig}
    (failures : 1 ≤ config.failureThreshold) (successes : 1 ≤ config.halfOpenSuccessThreshold)
    {history : List (Called V E)} {e : Called V E} (recounts : Recounts config history e.pre)
    (taken : e.pre.step e.act = some e.post) :
    FollowsHistory config history e ∧ Recounts config (history ++ [e]) e.post := by
  unfold ClockedBreaker.step at taken
  obtain ⟨⟨later, ordered⟩, same⟩ := Option.ite_none_right_eq_some.mp taken
  obtain ⟨seen, rejects⟩ := recounts.resolved successes later
  have look : e.Looked config history (e.pre.breaker.resolveOpenTimeout e.act.started) :=
    ⟨rfl, (Option.some.inj same).symm, ordered, seen, rejects⟩
  -- The state that the call finds and the outcome of its operation decide what it does.
  cases is : (e.pre.breaker.resolveOpenTimeout e.act.started).state with
  | open_ => exact look.rejected is
  | closed =>
    cases outcome : e.act.result with
    | ok value => exact look.closed_succeeds is failures outcome
    | error error => exact look.closed_fails is outcome
  | halfOpen =>
    cases outcome : e.act.result with
    | ok value => exact look.trial_succeeds is failures outcome
    | error error => exact look.trial_fails is outcome

/-- After any history the breaker is as the history says. -/
theorem CircuitBreaker.recounts {config : CircuitBreakerConfig}
    (failures : 1 ≤ config.failureThreshold) (successes : 1 ≤ config.halfOpenSuccessThreshold)
    {start : Instant} {trace : List (Called V E)} {final : ClockedBreaker}
    (run : Run ClockedBreaker.step (fun _ _ => True) ⟨.new config, start⟩ trace final) :
    Recounts config trace final := by
  -- Induction on the history: each call leaves the breaker as the longer history says.
  induction run with
  | nil =>
    refine ⟨rfl, rfl, fun _ _ => nofun, ⟨nofun, fun other => absurd rfl other⟩, fun _ => ⟨rfl, ?_⟩, nofun, nofun⟩
    exact UInt32.lt_of_lt_of_le (by decide : (0 : UInt32) < 1) failures
  | snoc _ _ taken ih => exact (ih.step failures successes (e := ⟨_, _, _⟩) taken).2

/-- Every call of a history does what the calls before it say. -/
theorem CircuitBreaker.history_law {config : CircuitBreakerConfig}
    (failures : 1 ≤ config.failureThreshold) (successes : 1 ≤ config.halfOpenSuccessThreshold)
    {start : Instant} {trace : List (Called V E)} {final : ClockedBreaker}
    (run : Run ClockedBreaker.step (fun _ _ => True) ⟨.new config, start⟩ trace final)
    {before after : List (Called V E)} {e : Called V E} (shape : trace = before ++ e :: after) :
    FollowsHistory config before e := by
  -- The calls before this one have left the breaker as they say, and this one starts from there.
  obtain ⟨reached, _, taken, _⟩ := run.split shape
  exact ((CircuitBreaker.recounts failures successes reached).step failures successes taken).1

/-- Two failures in a row open the circuit for ten seconds, and one trial closes it. -/
def twoStrikes : CircuitBreakerConfig :=
  ⟨2, 10, 1⟩

/-- Two calls fail, one comes too soon, and one long after. -/
def fourCalls : List (Execution Unit Unit) :=
  [⟨0, 1, .error ()⟩, ⟨2, 3, .error ()⟩, ⟨5, 6, .ok ()⟩, ⟨20, 21, .ok ()⟩]

theorem CircuitBreaker.history_law_fourCalls :
    ∃ ran ∈ record ClockedBreaker.step ⟨.new twoStrikes, 0⟩ fourCalls,
      (ran.1.map Called.ran = [true, true, false, true] ∧ ran.1.map Called.opens = [false, true, false, false] ∧
        ran.1.map Called.closes = [false, false, false, true]) ∧
      ∀ before e after, ran.1 = before ++ e :: after → FollowsHistory twoStrikes before e := by
  have recorded : ∃ ran ∈ record ClockedBreaker.step ⟨.new twoStrikes, 0⟩ fourCalls,
      ran.1.map Called.ran = [true, true, false, true] ∧ ran.1.map Called.opens = [false, true, false, false] ∧
        ran.1.map Called.closes = [false, false, false, true] := by
    decide +kernel
  obtain ⟨⟨trace, final⟩, ran, shown⟩ := recorded
  exact ⟨(trace, final), ran, shown, fun _ _ _ shape =>
    CircuitBreaker.history_law (by decide) (by decide) (run_of_record .nil ran) shape⟩

end Qaas
