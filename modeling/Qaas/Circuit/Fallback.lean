import Qaas.Circuit.History
import Qaas.Circuit.Trials

/-! What a guarded call answers with, while other calls run their operations and store their values. -/

namespace Qaas

open Concurrency

variable {K V E : Type}

/-- The call with some index as it stood before its own step, and what its operation would come to. -/
def GuardPool.moves (i : Nat) (e : Transition (GuardPool K V E) (GuardAction K V E)) :
    Option (GuardTask K V E × Except E V) :=
  match e.act with
  | .step j result => if j = i then (e.pre.tasks[i]?).map fun task => (task, result) else none
  | _ => none

/-- What the operation comes to that a call runs in its next step, if it runs one. -/
def GuardStage.runs (result : Except E V) : GuardStage K V E → Option (Except E V)
  | .operate => some result
  | _ => none

/-- What the operation of a call comes to in a step. -/
def GuardPool.operated (i : Nat) (e : Transition (GuardPool K V E) (GuardAction K V E)) :
    Option (Except E V) :=
  (GuardPool.moves i e).bind fun moved => moved.1.stage.runs moved.2

/-- A call looks at the state and finds the circuit open. -/
def GuardPool.Refuses (i : Nat) (e : Transition (GuardPool K V E) (GuardAction K V E)) : Prop :=
  e.post.shared.breaker.state = .open_ ∧
    ∃ task result, GuardPool.moves i e = some (task, result) ∧ task.stage = .check

/-- Everything that the operation of a call has come to in a run. -/
def GuardPool.operations (i : Nat) (trace : List (Transition (GuardPool K V E) (GuardAction K V E))) :
    List (Except E V) :=
  trace.filterMap (GuardPool.operated i)

section
variable [DecidableEq K]

/-- The value that some call stores under a key in a step, and when. -/
def GuardPool.stores (key : K) (e : Transition (GuardPool K V E) (GuardAction K V E)) :
    Option (CacheEntry V) :=
  match e.act with
  | .step i _ => (e.pre.tasks[i]?).bind fun task =>
    match task.stage with
    | .cacheSet stored value => if stored = key then some ⟨value, e.pre.shared.now⟩ else none
    | _ => none
  | _ => none

/-- The last value that a run has stored under a key, and when. -/
def GuardPool.lastStored (key : K) (trace : List (Transition (GuardPool K V E) (GuardAction K V E))) :
    Option (CacheEntry V) :=
  (trace.filterMap (GuardPool.stores key)).getLast?

/-- What there is to fall back on: the last value stored under the key, if it was stored less than the time to
live ago. -/
def GuardPool.fallback (ttl : Duration) (now : Instant)
    (trace : List (Transition (GuardPool K V E) (GuardAction K V E))) (key : K) : Option V :=
  ((GuardPool.lastStored key trace).filter fun entry => durationSince now entry.insertedAt < ttl).map
    CacheEntry.value

end

/-- The answer of a call whose operation has come to something, or was not run: a call under a key falls back
on a value unless its operation has succeeded. -/
def GuardStage.answer (key : Option K) (operated : Option (Except E V)) (fallback : K → Option V) :
    GuardStage K V E :=
  match key, operated with
  | none, none => .returned (.error .open_)
  | none, some (.error error) => .returned (.error (.failed error))
  | none, some (.ok value) => .returned (.ok value)
  | some _, some (.ok value) => .served (.fresh value)
  | some key, none => .served <|
    match fallback key with
    | some value => .cached value
    | none => .unavailable none
  | some key, some (.error error) => .served <|
    match fallback key with
    | some value => .cached value
    | none => .unavailable (some error)

/-- Whether a call has its answer. -/
def GuardStage.answered : GuardStage K V E → Bool
  | .returned _ | .served _ => true
  | _ => false

section
variable {trace : List (Transition (GuardPool K V E) (GuardAction K V E))}
  {e : Transition (GuardPool K V E) (GuardAction K V E)} {i : Nat}

theorem GuardPool.operations_concat :
    GuardPool.operations i (trace ++ [e]) = GuardPool.operations i trace ++ (GuardPool.operated i e).toList := by
  unfold operations
  rw [List.filterMap_append]
  cases last : operated i e <;> simp [last]

theorem GuardPool.lastStored_concat [DecidableEq K] {key : K} :
    GuardPool.lastStored key (trace ++ [e]) = (GuardPool.stores key e).or (GuardPool.lastStored key trace) := by
  unfold lastStored
  rw [List.filterMap_append]
  cases last : stores key e <;> simp [last]

/-- A step of another call, or of none, runs no operation of a call and refuses it nothing. -/
theorem GuardPool.quiet_of_moves (other : GuardPool.moves i e = none) :
    GuardPool.operated i e = none ∧ ¬ GuardPool.Refuses i e := by
  constructor
  · simp [operated, other]
  · rintro ⟨_, task, result, moved, _⟩
    rw [other] at moved
    cases moved

/-- A step of one call is no step of another. -/
theorem GuardPool.moves_of_ne {pool next : GuardPool K V E} {j : Nat} {result : Except E V} (other : i ≠ j) :
    GuardPool.moves j ⟨pool, .step i result, next⟩ = none :=
  if_neg other

end

/-- What the operation of a call has come to, which is still to be recorded or answered with. -/
def GuardStage.operated : GuardStage K V E → Option (Except E V)
  | .succeeded value | .cacheSet _ value => some (.ok value)
  | .failed error | .fallBack _ (some error) => some (.error error)
  | _ => none

/-- Whether a call has found the circuit open, and has still to read the cache. -/
def GuardStage.refused : GuardStage K V E → Bool
  | .fallBack _ none => true
  | _ => false

/-- The key under which a call is about to read or to write the cache. -/
def GuardStage.under : GuardStage K V E → Option K
  | .cacheSet key _ | .fallBack key _ => some key
  | _ => none

section
variable [DecidableEq K]

/-- The cache holds what the run has stored last under each key, except for what has expired. -/
structure GuardPool.Caches (ttl : Duration)
    (trace : List (Transition (GuardPool K V E) (GuardAction K V E))) (guard : HybridGuard K V) : Prop where
  lifetime : guard.cache.ttl = ttl
  held : ∀ key entry, guard.cache.entries key = some entry → GuardPool.lastStored key trace = some entry
  kept : ∀ key entry, GuardPool.lastStored key trace = some entry →
    guard.cache.entries key = some entry ∨ ttl ≤ durationSince guard.now entry.insertedAt

/-- A cached value came from a call under the same key, whose operation has succeeded with it. -/
def GuardPool.Sourced (trace : List (Transition (GuardPool K V E) (GuardAction K V E)))
    (tasks : List (GuardTask K V E)) : Prop :=
  ∀ key entry, GuardPool.lastStored key trace = some entry → ∃ j task, tasks[j]? = some task ∧
    task.key = some key ∧ .ok entry.value ∈ GuardPool.operations j trace

/-- A call has the answer that the run up to its last step gives it. -/
def GuardPool.Explained (ttl : Duration) (trace : List (Transition (GuardPool K V E) (GuardAction K V E)))
    (i : Nat) (task : GuardTask K V E) : Prop :=
  ∃ before e after operated, trace = before ++ e :: after ∧ (GuardPool.moves i e).isSome = true ∧
    e.post.tasks[i]? = some task ∧
    GuardPool.operations i trace = operated.toList ∧
    (operated = none ↔ ∃ refusal ∈ trace, GuardPool.Refuses i refusal) ∧
    task.stage = .answer task.key operated (GuardPool.fallback ttl e.pre.shared.now before) ∧
    GuardPool.Sourced before e.pre.tasks

/-- The stage of a call tells what its operation has come to, and whether the circuit was open. -/
structure GuardPool.Tells (ttl : Duration) (trace : List (Transition (GuardPool K V E) (GuardAction K V E)))
    (i : Nat) (task : GuardTask K V E) : Prop where
  operated : task.stage.answered = false → GuardPool.operations i trace = task.stage.operated.toList
  refused : task.stage.answered = false →
    (task.stage.refused = true ↔ ∃ refusal ∈ trace, GuardPool.Refuses i refusal)
  under : ∀ key, task.stage.under = some key → task.key = some key
  explained : task.stage.answered = true → GuardPool.Explained ttl trace i task

/-- What a call's next step makes of what its stage tells. -/
structure HybridGuard.Answers (guard next : HybridGuard K V) (result : Except E V)
    (task after : GuardTask K V E) : Prop where
  unanswered : task.stage.answered = false
  key : after.key = task.key
  under : ∀ key, after.stage.under = some key → after.key = some key
  operated : after.stage.answered = false →
    after.stage.operated.toList = task.stage.operated.toList ++ (task.stage.runs result).toList
  refused : after.stage.answered = false → (after.stage.refused = true ↔
    task.stage.refused = true ∨ task.stage = .check ∧ next.breaker.state = .open_)
  answered : after.stage.answered = true →
    task.stage.runs result = none ∧
    after.stage = .answer task.key task.stage.operated (fun key => (guard.cache.get guard.now key).2) ∧
    (task.stage.operated = none ↔
      task.stage.refused = true ∨ task.stage = .check ∧ next.breaker.state = .open_)

/-- Every step of a call goes on with what its stage tells, or answers with it. -/
theorem HybridGuard.move_answers {guard next : HybridGuard K V} {result : Except E V}
    {task after : GuardTask K V E} (known : ∀ key, task.stage.under = some key → task.key = some key)
    (taken : guard.move result task = some (next, after)) : guard.Answers next result task after := by
  -- Each stage leads to one or two others, and of each pair the five questions have an answer.
  obtain ⟨key?, stage, trial⟩ := task
  dsimp only at known
  unfold move at taken
  cases stage with
  | check =>
    dsimp only at taken
    split at taken
    · rename_i opened
      split at taken <;> obtain ⟨rfl, rfl⟩ := Prod.mk.inj (Option.some.inj taken)
      · -- A call without a key answers that the circuit is open.
        refine ⟨rfl, rfl, ?_, ?_, ?_, ?_⟩ <;>
          simp_all [GuardStage.under, GuardStage.answered, GuardStage.answer, GuardStage.operated,
            GuardStage.runs]
      · refine ⟨rfl, rfl, ?_, ?_, ?_, ?_⟩ <;>
          simp_all [GuardStage.under, GuardStage.answered, GuardStage.operated, GuardStage.runs,
            GuardStage.refused]
    · rename_i shut
      obtain ⟨rfl, rfl⟩ := Prod.mk.inj (Option.some.inj taken)
      refine ⟨rfl, rfl, ?_, ?_, ?_, ?_⟩ <;>
        simp_all [GuardStage.under, GuardStage.answered, GuardStage.operated, GuardStage.runs,
          GuardStage.refused]
  | start =>
    obtain ⟨rfl, rfl⟩ := Prod.mk.inj (Option.some.inj taken)
    refine ⟨rfl, rfl, ?_, ?_, ?_, ?_⟩ <;>
      simp [GuardStage.under, GuardStage.answered, GuardStage.operated, GuardStage.runs, GuardStage.refused]
  | operate =>
    dsimp only at taken
    cases result <;> obtain ⟨rfl, rfl⟩ := Prod.mk.inj (Option.some.inj taken) <;>
      refine ⟨rfl, rfl, ?_, ?_, ?_, ?_⟩ <;>
      simp [GuardStage.under, GuardStage.answered, GuardStage.operated, GuardStage.runs, GuardStage.refused]
  | succeeded value =>
    dsimp only at taken
    cases key? <;> obtain ⟨rfl, rfl⟩ := Prod.mk.inj (Option.some.inj taken) <;>
      refine ⟨rfl, rfl, ?_, ?_, ?_, ?_⟩ <;>
      simp [GuardStage.under, GuardStage.answered, GuardStage.operated, GuardStage.runs, GuardStage.refused,
        GuardStage.answer]
  | failed error =>
    dsimp only at taken
    cases key? <;> obtain ⟨rfl, rfl⟩ := Prod.mk.inj (Option.some.inj taken) <;>
      refine ⟨rfl, rfl, ?_, ?_, ?_, ?_⟩ <;>
      simp [GuardStage.under, GuardStage.answered, GuardStage.operated, GuardStage.runs, GuardStage.refused,
        GuardStage.answer]
  -- From here on the key is the one that the call was made with.
  | cacheSet key value =>
    obtain rfl : key? = some key := known key rfl
    obtain ⟨rfl, rfl⟩ := Prod.mk.inj (Option.some.inj taken)
    refine ⟨rfl, rfl, ?_, ?_, ?_, ?_⟩ <;>
      simp [GuardStage.under, GuardStage.answered, GuardStage.operated, GuardStage.runs, GuardStage.refused,
        GuardStage.answer]
  | fallBack key error =>
    obtain rfl : key? = some key := known key rfl
    obtain ⟨rfl, rfl⟩ := Prod.mk.inj (Option.some.inj taken)
    refine ⟨rfl, rfl, ?_, ?_, ?_, fun _ => ⟨rfl, ?_, ?_⟩⟩
    · simp [GuardStage.under]
    · simp [GuardStage.answered]
    · simp [GuardStage.answered]
    · -- The answer is the cached value if there is one, whatever led to the cache.
      cases error <;> rfl
    · cases error <;> simp [GuardStage.operated, GuardStage.refused]
  | returned result => cases taken
  | served outcome => cases taken

/-- What a call's next step does to the cache: it reads or writes it at the stages that say so. -/
theorem HybridGuard.move_cache {guard next : HybridGuard K V} {result : Except E V}
    {task after : GuardTask K V E} (taken : guard.move result task = some (next, after)) :
    next.now = guard.now ∧
    ((∃ key value, task.stage = .cacheSet key value ∧ next.cache = guard.cache.set guard.now key value) ∨
      (∀ key value, task.stage ≠ .cacheSet key value) ∧
        (next.cache = guard.cache ∨ ∃ key, next.cache = (guard.cache.get guard.now key).1)) := by
  unfold move at taken
  cases stage : task.stage with
  | cacheSet key value =>
    simp only [stage] at taken
    obtain ⟨rfl, rfl⟩ := Prod.mk.inj (Option.some.inj taken)
    exact ⟨rfl, .inl ⟨key, value, rfl, rfl⟩⟩
  | fallBack key error =>
    simp only [stage] at taken
    obtain ⟨rfl, rfl⟩ := Prod.mk.inj (Option.some.inj taken)
    exact ⟨rfl, .inr ⟨fun _ _ same => (by cases same), .inr ⟨key, rfl⟩⟩⟩
  | returned result =>
    simp only [stage] at taken
    cases taken
  | served outcome =>
    simp only [stage] at taken
    cases taken
  | _ =>
    -- The others only look at the breaker, run the operation or record what it has come to.
    simp only [stage] at taken
    repeat' split at taken
    all_goals
      obtain ⟨rfl, rfl⟩ := Prod.mk.inj (Option.some.inj taken)
      exact ⟨rfl, .inr ⟨fun _ _ same => (by cases same), .inl rfl⟩⟩

section
variable {ttl : Duration} {trace : List (Transition (GuardPool K V E) (GuardAction K V E))}
  {guard next : HybridGuard K V}

/-- A look into the cache finds what there is to fall back on. -/
theorem GuardPool.Caches.get (caches : GuardPool.Caches ttl trace guard) (key : K) :
    (guard.cache.get guard.now key).2 = GuardPool.fallback ttl guard.now trace key := by
  unfold FallbackCache.get fallback
  cases there : guard.cache.entries key with
  | some entry =>
    -- What the cache holds is what was stored last.
    dsimp only
    rw [caches.held key _ there, caches.lifetime, Option.filter_some]
    by_cases young : durationSince guard.now entry.insertedAt < ttl <;> simp [young]
  | none =>
    dsimp only
    cases last : lastStored key trace with
    | none => rfl
    | some stored =>
      -- What was stored last and is not held any more has expired.
      rcases caches.kept key stored last with held | expired
      · rw [there] at held
        cases held
      · simp [expired]

/-- What is not held any more, but was stored last, is older than the time to live. -/
theorem GuardPool.Caches.forgets (caches : GuardPool.Caches ttl trace guard) {key : K} {entry : CacheEntry V}
    (there : guard.cache.entries key = some entry)
    (expired : ¬ durationSince guard.now entry.insertedAt < guard.cache.ttl) :
    GuardPool.Caches ttl trace
      { guard with cache := { guard.cache with entries := Function.update guard.cache.entries key none } } := by
  -- Only the one entry is gone, and for it the time to live has passed.
  refine ⟨caches.lifetime, fun other stored held => ?_, fun other stored last => ?_⟩
  · by_cases same : other = key
    · subst same
      simp at held
    · exact caches.held other stored (by simpa [Function.update_of_ne same] using held)
  · by_cases same : other = key
    · subst same
      have held := caches.held other entry there
      rw [last] at held
      obtain rfl := Option.some.inj held
      rw [caches.lifetime] at expired
      exact .inr (not_lt.mp expired)
    · simpa [Function.update_of_ne same] using caches.kept other stored last

/-- A look into the cache forgets only what has expired. -/
theorem GuardPool.Caches.looked (caches : GuardPool.Caches ttl trace guard) (key : K) :
    GuardPool.Caches ttl trace { guard with cache := (guard.cache.get guard.now key).1 } := by
  -- A look removes an entry just if that has expired.
  unfold FallbackCache.get
  cases there : guard.cache.entries key with
  | none => exact caches
  | some entry =>
    dsimp only
    split
    · exact caches
    · rename_i expired
      exact caches.forgets there expired

/-- What a step stores is what the cache holds from then on. -/
theorem GuardPool.Caches.stored {e : Transition (GuardPool K V E) (GuardAction K V E)}
    (caches : GuardPool.Caches ttl trace guard) (key : K) (value : V)
    (stores : ∀ other, GuardPool.stores other e = if key = other then some ⟨value, guard.now⟩ else none) :
    GuardPool.Caches ttl (trace ++ [e]) { guard with cache := guard.cache.set guard.now key value } := by
  -- Under the key it is the new entry, under the others what was there.
  unfold FallbackCache.set
  refine ⟨caches.lifetime, fun other stored held => ?_, fun other stored last => ?_⟩
  · rw [GuardPool.lastStored_concat, stores]
    by_cases same : other = key
    · subst same
      simpa using held
    · rw [if_neg fun eq => same eq.symm, Option.none_or]
      exact caches.held other stored (by simpa [Function.update_of_ne same] using held)
  · rw [GuardPool.lastStored_concat, stores] at last
    by_cases same : other = key
    · subst same
      exact .inl (by simpa using last)
    · rw [if_neg fun eq => same eq.symm, Option.none_or] at last
      simpa [Function.update_of_ne same] using caches.kept other stored last

/-- What changes neither the cache nor what has been stored leaves the one fitting the other. -/
theorem GuardPool.Caches.onward {later : List (Transition (GuardPool K V E) (GuardAction K V E))}
    (caches : GuardPool.Caches ttl trace guard) (cache : next.cache = guard.cache)
    (order : guard.now ≤ next.now)
    (same : ∀ key, GuardPool.lastStored key later = GuardPool.lastStored key trace) :
    GuardPool.Caches ttl later next := by
  refine ⟨by rw [cache]; exact caches.lifetime, fun key entry held => ?_, fun key entry last => ?_⟩
  · rw [same]
    rw [cache] at held
    exact caches.held key entry held
  · rw [same] at last
    rw [cache]
    rcases caches.kept key entry last with held | expired
    · exact .inl held
    · -- What has expired stays so.
      exact .inr (expired.trans (durationSince_mono order _))

end

section
variable {ttl : Duration} {trace : List (Transition (GuardPool K V E) (GuardAction K V E))}
  {e : Transition (GuardPool K V E) (GuardAction K V E)} {i : Nat} {task after : GuardTask K V E}
  {result : Except E V}

/-- A step of another call changes nothing that a call's stage tells. -/
theorem GuardPool.Tells.quiet (tells : GuardPool.Tells ttl trace i task) (other : GuardPool.moves i e = none) :
    GuardPool.Tells ttl (trace ++ [e]) i task := by
  obtain ⟨unoperated, unrefused⟩ := quiet_of_moves other
  have refusals : (∃ refusal ∈ trace ++ [e], Refuses i refusal) ↔ ∃ refusal ∈ trace, Refuses i refusal := by
    simp [or_and_right, exists_or, unrefused]
  refine ⟨fun waits => ?_, fun waits => ?_, tells.under, fun answered => ?_⟩
  · rw [operations_concat, unoperated, tells.operated waits]
    simp
  · rw [refusals]
    exact tells.refused waits
  · -- The answer was explained by an earlier step.
    obtain ⟨before, last, rest, operated, shape, mover, found, ran, unrun, answer⟩ := tells.explained answered
    refine ⟨before, last, rest ++ [e], operated, by rw [shape]; simp, mover, found, ?_, ?_, answer⟩
    · rw [operations_concat, unoperated, ran]
      simp
    · rw [refusals, unrun]

/-- A call's own step takes what its stage tells further, or makes its answer of it. -/
theorem GuardPool.Tells.moved (tells : GuardPool.Tells ttl trace i task)
    (caches : GuardPool.Caches ttl trace e.pre.shared) (sourced : GuardPool.Sourced trace e.pre.tasks)
    (mover : GuardPool.moves i e = some (task, result))
    (moved : HybridGuard.Answers e.pre.shared e.post.shared result task after)
    (found : e.post.tasks[i]? = some after) : GuardPool.Tells ttl (trace ++ [e]) i after := by
  have runs : GuardPool.operated i e = task.stage.runs result := by
    unfold GuardPool.operated
    rw [mover]
    rfl
  have refuses : Refuses i e ↔ task.stage = .check ∧ e.post.shared.breaker.state = .open_ := by
    constructor
    · rintro ⟨opened, other, _, same, at_⟩
      rw [mover] at same
      obtain ⟨rfl, _⟩ := Prod.mk.inj (Option.some.inj same)
      exact ⟨at_, opened⟩
    · rintro ⟨at_, opened⟩
      exact ⟨opened, task, result, mover, at_⟩
  have refusals : (∃ refusal ∈ trace ++ [e], Refuses i refusal) ↔
      task.stage.refused = true ∨ task.stage = .check ∧ e.post.shared.breaker.state = .open_ := by
    rw [tells.refused moved.unanswered, ← refuses]
    simp [or_and_right, exists_or]
  refine ⟨fun waits => ?_, fun waits => ?_, moved.under, fun answered => ?_⟩
  · rw [operations_concat, runs, tells.operated moved.unanswered, moved.operated waits]
  · rw [refusals]
    exact moved.refused waits
  · -- This is the last step of the call, and what there is to fall back on is what the cache holds now.
    obtain ⟨idle, answer, unrun⟩ := moved.answered answered
    refine ⟨trace, e, [], task.stage.operated, rfl, by rw [mover]; rfl, found, ?_,
      unrun.trans refusals.symm, ?_, sourced⟩
    · rw [operations_concat, runs, idle, tells.operated moved.unanswered]
      simp
    · rw [answer, moved.key]
      exact congrArg _ (funext caches.get)

/-- What a step stores is what a call has come to that is about to write the cache. -/
theorem GuardPool.stores_eq_some {key : K} {entry : CacheEntry V}
    (stored : GuardPool.stores key e = some entry) : ∃ i task result, GuardPool.moves i e = some (task, result) ∧
      task.stage = .cacheSet key entry.value := by
  -- Only the step that writes the cache counts as one that stores.
  unfold stores at stored
  split at stored
  · rename_i i result act
    obtain ⟨task, found, there⟩ := Option.bind_eq_some_iff.mp stored
    split at there
    · rename_i at_
      obtain ⟨same, value⟩ := Option.ite_none_right_eq_some.mp there
      subst same
      obtain rfl := Option.some.inj value
      exact ⟨i, task, result, by simp [moves, act, found], at_⟩
    · cases there
  · cases stored

end

/-- A run and what it has come to fit together. -/
structure GuardPool.Consistent (ttl : Duration)
    (trace : List (Transition (GuardPool K V E) (GuardAction K V E))) (pool : GuardPool K V E) : Prop where
  caches : GuardPool.Caches ttl trace pool.shared
  sourced : GuardPool.Sourced trace pool.tasks
  tells : ∀ i task, pool.tasks[i]? = some task → GuardPool.Tells ttl trace i task
  begun : ∀ e ∈ trace, ∀ i, (GuardPool.moves i e).isSome = true → i < pool.tasks.length

section
variable {ttl : Duration} {trace : List (Transition (GuardPool K V E) (GuardAction K V E))}
  {pool next : GuardPool K V E} {act : GuardAction K V E}

/-- A call that begins has done nothing yet. -/
theorem GuardPool.Consistent.begins (consistent : GuardPool.Consistent ttl trace pool) {j : Nat} (key : Option K)
    (beyond : pool.tasks.length ≤ j) : GuardPool.Tells ttl trace j (.call key) := by
  -- No step of the run is its own.
  have unmoved (e) (member : e ∈ trace) : GuardPool.moves j e = none := by
    by_contra moves
    have := consistent.begun e member j (Option.isSome_iff_ne_none.mpr moves)
    omega
  refine ⟨fun _ => ?_, fun _ => ⟨fun refused => (by cases refused), ?_⟩, fun _ same => (by cases same),
    fun answered => (by cases answered)⟩
  · exact List.filterMap_eq_nil_iff.mpr fun e member => (quiet_of_moves (unmoved e member)).1
  · rintro ⟨refusal, member, refuses⟩
    exact absurd refuses (quiet_of_moves (unmoved refusal member)).2

/-- A step that is no call's own keeps a run consistent, if the calls are those before and perhaps a new one. -/
theorem GuardPool.Consistent.watched (consistent : GuardPool.Consistent ttl trace pool)
    (unmoved : ∀ i, GuardPool.moves i ⟨pool, act, next⟩ = none)
    (unstored : ∀ key, GuardPool.stores key ⟨pool, act, next⟩ = none) (cache : next.shared.cache = pool.shared.cache)
    (order : pool.shared.now ≤ next.shared.now)
    (tasks : next.tasks = pool.tasks ∨ ∃ key, next.tasks = pool.tasks ++ [.call key]) :
    GuardPool.Consistent ttl (trace ++ [⟨pool, act, next⟩]) next := by
  -- Such a step stores nothing, and every call that was there keeps its place.
  have same (key : K) : lastStored key (trace ++ [⟨pool, act, next⟩]) = lastStored key trace := by
    rw [lastStored_concat, unstored, Option.none_or]
  have length : pool.tasks.length ≤ next.tasks.length := by
    rcases tasks with tasks | ⟨key, tasks⟩ <;> simp [tasks]
  have kept (j : Nat) (task : GuardTask K V E) (found : pool.tasks[j]? = some task) :
      next.tasks[j]? = some task := by
    rcases tasks with tasks | ⟨key, tasks⟩
    · rw [tasks, found]
    · rw [tasks, List.getElem?_append_left (List.getElem?_eq_some_iff.mp found).1, found]
  refine ⟨consistent.caches.onward cache order same, ?_, fun i task found => Tells.quiet ?_ (unmoved i), ?_⟩
  · intro key entry last
    rw [same] at last
    obtain ⟨j, task, found, under, came⟩ := consistent.sourced key entry last
    exact ⟨j, task, kept j task found, under, by rw [operations_concat]; simp [came]⟩
  · rcases tasks with tasks | ⟨key, tasks⟩ <;> rw [tasks] at found
    · exact consistent.tells i task found
    · rcases found_concat found with earlier | ⟨rfl, rfl⟩
      · exact consistent.tells i task earlier
      · exact consistent.begins key le_rfl
  · intro e member i moves
    rcases List.mem_append.mp member with earlier | last
    · exact (consistent.begun e earlier i moves).trans_le length
    · rw [List.mem_singleton.mp last, unmoved] at moves
      cases moves

/-- A call's own step keeps a run consistent. -/
theorem GuardPool.Consistent.moved {i : Nat} {result : Except E V}
    (consistent : GuardPool.Consistent ttl trace pool) (taken : pool.step (.step i result) = some next) :
    GuardPool.Consistent ttl (trace ++ [⟨pool, .step i result, next⟩]) next := by
  have advanced : pool.advance i (fun guard task => guard.move result task) = some next := taken
  obtain ⟨task, guard, after, found, moved, rfl⟩ := Pool.advance_eq_some.mp advanced
  have tells := consistent.tells i task found
  have answers := HybridGuard.move_answers tells.under moved
  have within := (List.getElem?_eq_some_iff.mp found).1
  -- The step's own call, as it stood before.
  have mover : GuardPool.moves i ⟨pool, .step i result, ⟨guard, pool.tasks.set i after⟩⟩ = some (task, result) := by
    simp [moves, found]
  refine ⟨?_, ?_, ?_, ?_⟩
  · have stores (key : K) : GuardPool.stores key ⟨pool, .step i result, ⟨guard, pool.tasks.set i after⟩⟩ =
        match task.stage with
        | .cacheSet stored value => if stored = key then some ⟨value, pool.shared.now⟩ else none
        | _ => none := by
      simp [GuardPool.stores, found]
    obtain ⟨now, ⟨key, value, at_, cache⟩ | ⟨other, cache⟩⟩ := HybridGuard.move_cache moved
    · -- The cache holds the value from now on.
      have stored := consistent.caches.stored key value fun asked => by rw [stores asked, at_]
      exact stored.onward (by rw [cache]) now.ge fun _ => rfl
    · have same (key : K) :
          lastStored key (trace ++ [⟨pool, .step i result, ⟨guard, pool.tasks.set i after⟩⟩]) =
            lastStored key trace := by
        rw [lastStored_concat, stores]
        cases at_ : task.stage with
        | cacheSet stored value => exact absurd at_ (other stored value)
        | _ => rfl
      rcases cache with cache | ⟨key, cache⟩
      · exact consistent.caches.onward cache now.ge same
      · exact (consistent.caches.looked key).onward cache now.ge same
  · -- Calls keep their keys.
    have kept (j : Nat) (other : GuardTask K V E) (there : pool.tasks[j]? = some other) :
        ∃ later, (pool.tasks.set i after)[j]? = some later ∧ later.key = other.key := by
      by_cases own : i = j
      · subst own
        rw [found] at there
        obtain rfl := Option.some.inj there
        exact ⟨after, List.getElem?_set_self within, answers.key⟩
      · exact ⟨other, by rw [List.getElem?_set_ne own, there], rfl⟩
    intro key entry last
    rw [lastStored_concat] at last
    rcases Option.or_eq_some_iff.mp last with stored | ⟨_, last⟩
    · -- The call itself stores the value that its operation has come to.
      obtain ⟨j, other, _, moves, at_⟩ := stores_eq_some stored
      obtain rfl : i = j := by
        by_contra own
        rw [moves_of_ne own] at moves
        cases moves
      rw [mover] at moves
      obtain ⟨rfl, _⟩ := Prod.mk.inj (Option.some.inj moves)
      obtain ⟨later, there, under⟩ := kept i task found
      refine ⟨i, later, there, under.trans (tells.under key ?_), ?_⟩
      · rw [at_]
        rfl
      · rw [operations_concat, tells.operated answers.unanswered, at_]
        simp [GuardStage.operated]
    · obtain ⟨j, other, there, under, came⟩ := consistent.sourced key entry last
      obtain ⟨later, there, same⟩ := kept j other there
      exact ⟨j, later, there, same.trans under, by rw [operations_concat]; simp [came]⟩
  · intro j other there
    rcases found_set found there with ⟨rfl, rfl⟩ | ⟨own, before⟩
    · exact tells.moved consistent.caches consistent.sourced mover answers there
    · exact (consistent.tells j other before).quiet (moves_of_ne fun same => own same.symm)
  · intro e member j moves
    rw [List.length_set]
    rcases List.mem_append.mp member with earlier | last
    · exact consistent.begun e earlier j moves
    · rw [List.mem_singleton.mp last] at moves
      by_cases own : i = j
      · exact own ▸ within
      · rw [moves_of_ne own] at moves
        cases moves

/-- Every step keeps a run consistent. -/
theorem GuardPool.Consistent.step (consistent : GuardPool.Consistent ttl trace pool)
    (taken : pool.step act = some next) : GuardPool.Consistent ttl (trace ++ [⟨pool, act, next⟩]) next := by
  -- Apart from the steps of calls only the clock and the number of calls can change.
  cases act with
  | step i result => exact consistent.moved taken
  | call key =>
    obtain rfl := Option.some.inj taken
    exact consistent.watched (fun _ => rfl) (fun _ => rfl) rfl le_rfl (.inr ⟨key, rfl⟩)
  | state =>
    obtain rfl := Option.some.inj taken
    exact consistent.watched (fun _ => rfl) (fun _ => rfl) rfl le_rfl (.inl rfl)
  | tick elapsed =>
    obtain rfl := Option.some.inj taken
    exact consistent.watched (fun _ => rfl) (fun _ => rfl) rfl (le_add_of_nonneg_right elapsed.2) (.inl rfl)

/-- Every run is consistent. -/
theorem GuardPool.consistent_of_run {config : CircuitBreakerConfig} {now : Instant}
    {ok : GuardPool K V E → GuardAction K V E → Prop}
    (run : Run GuardPool.step ok (.start config ttl now) trace pool) : GuardPool.Consistent ttl trace pool := by
  -- The run grows at its end, and a new guard has stored nothing.
  induction run with
  | nil =>
    refine ⟨⟨rfl, fun _ _ held => (by cases held), fun _ _ last => (by cases last)⟩,
      fun _ _ last => (by cases last), fun _ _ found => (by cases found), fun _ member => (by cases member)⟩
  | snoc _ _ taken consistent => exact consistent.step taken

end

/-- Every call that has its answer ran its operation at most once, and not at all exactly if it found the circuit
open; its answer is what the operation came to, or else the value stored last under its key, if that was less
than the time to live before it answered, and an operation of a call under the same key has come to it. -/
theorem GuardPool.explained {config : CircuitBreakerConfig} {ttl : Duration} {now : Instant}
    {trace : List (Transition (GuardPool K V E) (GuardAction K V E))} {pool : GuardPool K V E}
    (run : Run GuardPool.step (fun _ _ => True) (.start config ttl now) trace pool) {i : Nat}
    {task : GuardTask K V E} (found : pool.tasks[i]? = some task) (answered : task.stage.answered = true) :
    GuardPool.Explained ttl trace i task :=
  ((consistent_of_run run).tells i task found).explained answered

/-- Ten seconds are a time that can pass. -/
theorem tenSeconds_nonneg : (0 : Duration) ≤ 10 := by decide +kernel

/-- A call comes to five, the next one fails and opens the circuit, and one after it finds the circuit open. -/
def fallsBack : List (GuardAction Unit Nat Unit) :=
  [.call (some ()), .step 0 (.ok 5), .step 0 (.ok 5), .step 0 (.ok 5), .step 0 (.ok 5), .step 0 (.ok 5),
    .call (some ()), .call (some ()), .step 1 (.ok 6), .step 1 (.ok 6), .step 1 (.error ()), .step 1 (.ok 6),
    .tick ⟨10, tenSeconds_nonneg⟩, .step 2 (.ok 7), .step 2 (.ok 7)]

theorem GuardPool.explained_fallsBack :
    ∃ ran ∈ record GuardPool.step (.start oneStrike 60 0) fallsBack, ∃ task ∈ ran.2.tasks[2]?,
      (task.stage matches .served (.cached 5)) = true ∧ GuardPool.Explained 60 ran.1 2 task := by
  have recorded : ∃ ran ∈ record GuardPool.step (.start oneStrike 60 0) fallsBack, ∃ task ∈ ran.2.tasks[2]?,
      (task.stage matches .served (.cached 5)) = true ∧ task.stage.answered = true := by
    decide +kernel
  obtain ⟨ran, recorded, task, found, cached, answered⟩ := recorded
  exact ⟨ran, recorded, task, found, cached, explained (run_of_record .nil recorded) found answered⟩

end

end Qaas
