import Qaas.Group.Sound

/-! Which lease tokens the lock accepts, over every delivery of a message in a run. -/

namespace Qaas

open Concurrency

variable {T V : Type}

/-- The claim that a step hands a lease to. -/
def Transition.granted (e : Transition (World T V) (Action T V)) : Option (Claim T V) :=
  match e.act with
  | .step i _ =>
    e.post.tasks[i]?.bind fun task =>
      match task.pc with
      -- `claim` goes on to this step exactly when it has leased a message.
      | .notifyOne (.claimed claim) => some claim
      | _ => none
  | _ => none

/-- The delivery that one step of a run starts. -/
def delivery (trace : List (Transition (World T V) (Action T V))) (n : Nat) : Option (Claim T V) :=
  (trace)[n]?.bind Transition.granted

/-- How many leases have been granted since the group was last opened. -/
def grantsSinceOpen (trace : List (Transition (World T V) (Action T V))) : Nat :=
  trace.foldl (fun grants e =>
    match e.act with
    | .reopen _ => 0
    | _ => grants + if (Transition.granted e).isSome then 1 else 0) 0

/-- The lease token that an operation is about to compare under the lock. -/
def Pc.presents : Pc T V → Option (MessageId × LeaseToken)
  | .releaseAcked id token | .releaseNacked id token _ => some (id, token)
  | .checkLease id token _ | .storeCheckpoint id token _ => some (id, token)
  | .pushChunk id token _ _ => some (id, token)
  | _ => none

/-- Whether an operation has returned that its token names no active lease. -/
def Pc.refused : Pc T V → Bool
  | .done (.answered false) | .done (.published none) => true
  | _ => false

/-- An operation is refused exactly if its token is not the one of the message's lease. -/
theorem move_refused {self : Nat} {now : Instant} {wallClock : Timestamp} {env : StepEnv}
    {group group' : ConsumerGroup T V} {pc next : Pc T V} {id : MessageId} {token : LeaseToken}
    (presents : pc.presents = some (id, token))
    (moved : group.move self now wallClock env pc = some (group', next)) :
    next.refused ↔ group.state.activeLease id token = none := by
  -- Every operation on a delivery compares the token under the lock.
  cases pc with
  | releaseAcked other presented =>
    cases presents
    cases active : group.state.activeLease id token <;>
      simp [ConsumerGroup.move, ConsumerGroup.releaseAcked, active] at moved <;>
      simp [← moved.2, Pc.refused]
  | releaseNacked other presented reason =>
    cases presents
    cases active : group.state.activeLease id token <;>
      simp [ConsumerGroup.move, ConsumerGroup.releaseNacked, active] at moved <;>
      simp [← moved.2, Pc.refused]
  | checkLease other presented state =>
    cases presents
    cases active : group.state.activeLease id token <;>
      simp [ConsumerGroup.move, active] at moved <;>
      simp [← moved.2, Pc.refused]
  | storeCheckpoint other presented state =>
    cases presents
    cases active : group.state.activeLease id token <;>
      simp [ConsumerGroup.move, ConsumerGroup.storeCheckpoint, active] at moved <;>
      simp [← moved.2, Pc.refused]
  | pushChunk other presented data isFinal =>
    cases presents
    cases active : group.state.activeLease id token <;>
      simp [ConsumerGroup.move, ConsumerGroup.pushChunk, active] at moved <;>
      simp [← moved.2, Pc.refused]
  | _ => cases presents

/-- A step grants a lease exactly if it is a `claim` that leases the front message. -/
theorem granted_iff {world : World T V} {i : Nat} {env : StepEnv} {task : Task T V}
    {group : ConsumerGroup T V} {next : Pc T V} {claim : Claim T V} (found : world.tasks[i]? = some task) :
    Transition.granted ⟨world, .step i env,
        ⟨{ world.shared with group := group }, world.tasks.set i { task with pc := next }⟩⟩ = some claim ↔
      next = .notifyOne (.claimed claim) := by
  have bound := (List.getElem?_eq_some_iff.mp found).1
  simp only [Transition.granted, List.getElem?_set_self bound, Option.bind_some]
  -- The transition grants what its task is about to return.
  constructor
  · intro granted
    split at granted
    · cases granted
      rfl
    · cases granted
  · rintro rfl
    rfl

/-- No resolution of a failed delivery grants a lease. -/
theorem ResolveCaller.unclaimed (caller : ResolveCaller T V) (claim : Claim T V) :
    caller.next ≠ .notifyOne (.claimed claim) ∧ caller.failed ≠ .notifyOne (.claimed claim) := by
  match caller with
  | .nack | .reclaim [] | .reclaim (_ :: _) => simp [ResolveCaller.failed, ResolveCaller.next]

/-- The group after a claim has leased the front message. -/
def ConsumerGroup.grant (group : ConsumerGroup T V) (now : Instant) (entry : Pending T V)
    (rest : List (Pending T V)) : ConsumerGroup T V :=
  { group with
    state := { group.state.promoteReadyDelayed now with
      pending := rest
      leased := group.state.leased.insert entry.id
        (entry.lease ⟨group.nextLeaseToken⟩ (now + group.visibilityTimeout)) }
    nextLeaseToken := group.nextLeaseToken + 1 }

/-- A claim leases the front message under the next token; every other step leaves the counter alone. -/
theorem Moved.grants {now : Instant} {wallClock : Timestamp} {env : StepEnv}
    {group group' : ConsumerGroup T V} {pc next : Pc T V}
    (moved : Moved now wallClock env group pc group' next) :
    (∃ entry rest, pc = .claimNext ∧ (group.state.promoteReadyDelayed now).pending = entry :: rest ∧
        next = .notifyOne (.claimed (entry.claim ⟨group.nextLeaseToken⟩)) ∧
        group' = group.grant now entry rest) ∨
      (∀ claim, next ≠ .notifyOne (.claimed claim)) ∧ group'.nextLeaseToken = group.nextLeaseToken := by
  -- Only the step that pops the queue grants a claim and draws a token.
  cases moved with
  | claimed front => exact .inl ⟨_, _, rfl, front, rfl, rfl⟩
  | quiet changed quiet => exact .inr ⟨by cases quiet <;> simp, rfl⟩
  | @enqueueFailed message caller failed =>
    exact .inr ⟨by cases message.idempotencyKey <;> simp [releaseThenFail], rfl⟩
  | @pushPending message caller =>
    exact .inr ⟨by cases caller <;> simp [EnqueueCaller.result], rfl⟩
  | @retried failed caller attemptsLeft => exact .inr ⟨fun claim => (caller.unclaimed claim).1, rfl⟩
  | @exhaustedFailed failed caller exhausted unsynced =>
    exact .inr ⟨fun claim => (caller.unclaimed claim).2, rfl⟩
  | @deadLetteredWritten id caller synced =>
    exact .inr ⟨fun claim => (caller.unclaimed claim).1, rfl⟩
  | @deadLetteredFailed id caller failed =>
    exact .inr ⟨fun claim => (caller.unclaimed claim).2, rfl⟩
  | @removeWritten deadLetter caller synced =>
    refine .inr ⟨?_, rfl⟩
    cases caller with
    | reprocess => simp [TakeCaller.next]
    | purge => cases carried : deadLetter.idempotencyKey <;> simp [TakeCaller.next, carried]
  | _ => exact .inr ⟨by simp, rfl⟩

/-- A step that grants a lease takes the message that is at the front once the ready retries are promoted. -/
theorem Stepped.grants {world next : World T V} {act : Action T V} {claim : Claim T V}
    (stepped : Stepped world act next) (granted : Transition.granted ⟨world, act, next⟩ = some claim) :
    ∃ entry rest, (world.shared.group.state.promoteReadyDelayed world.shared.now).pending = entry :: rest ∧
      claim = entry.claim ⟨world.shared.group.nextLeaseToken⟩ ∧
      next.shared.group = world.shared.group.grant world.shared.now entry rest := by
  cases stepped with
  | step found alive moved =>
    have claimed := (granted_iff found).mp granted
    rcases moved.grants with ⟨entry, rest, _, front, same, shape⟩ | ⟨unclaimed, _⟩
    · rw [same] at claimed
      obtain rfl := Result.claimed.inj (Pc.notifyOne.inj claimed)
      exact ⟨entry, rest, front, rfl, shape⟩
    · exact absurd claimed (unclaimed claim)
  | _ => cases granted

/-- A step that goes on to no claim grants no lease. -/
theorem granted_none {world : World T V} {i : Nat} {env : StepEnv} {task : Task T V}
    {group : ConsumerGroup T V} {next : Pc T V} (found : world.tasks[i]? = some task)
    (unclaimed : ∀ claim, next ≠ .notifyOne (.claimed claim)) :
    Transition.granted ⟨world, .step i env,
      ⟨{ world.shared with group := group }, world.tasks.set i { task with pc := next }⟩⟩ = none := by
  rw [Option.eq_none_iff_forall_ne_some]
  intro claim granted
  exact unclaimed claim ((granted_iff found).mp granted)

/-- A claim enters the lease with the group's next token; every other step leaves the counter alone. -/
theorem Moved.token {now : Instant} {wallClock : Timestamp} {env : StepEnv}
    {group group' : ConsumerGroup T V} {pc next : Pc T V}
    (moved : Moved now wallClock env group pc group' next) :
    (∃ claim lease, next = .notifyOne (.claimed claim) ∧ claim.token = ⟨group.nextLeaseToken⟩ ∧
        group'.nextLeaseToken = group.nextLeaseToken + 1 ∧ lease.token = claim.token ∧
        group'.state.leased = group.state.leased.insert claim.id lease) ∨
      (∀ claim, next ≠ .notifyOne (.claimed claim)) ∧ group'.nextLeaseToken = group.nextLeaseToken := by
  rcases moved.grants with ⟨entry, rest, _, _, granted, rfl⟩ | unclaimed
  · exact .inl ⟨_, _, granted, rfl, rfl, rfl, rfl⟩
  · exact .inr unclaimed

/-- A lease has the token of the claim that this step grants it to, or the token it had before. -/
theorem Moved.lease {now : Instant} {wallClock : Timestamp} {env : StepEnv}
    {group group' : ConsumerGroup T V} {pc next : Pc T V} {id : MessageId} {lease : Leased T V}
    (moved : Moved now wallClock env group pc group' next)
    (leased : group'.state.leased.lookup id = some lease) :
    (∃ claim, next = .notifyOne (.claimed claim) ∧ claim.id = id ∧ claim.token = lease.token) ∨
      (∀ claim, next = .notifyOne (.claimed claim) → claim.id ≠ id) ∧
        ∃ old, group.state.leased.lookup id = some old ∧ old.token = lease.token := by
  rcases moved.token with ⟨claim, granted, rfl, _, _, token, inserted⟩ | ⟨unclaimed, _⟩
  · -- A claim leases one message, and leaves the other leases as they are.
    rw [inserted] at leased
    rcases lookup_of_insert leased with ⟨rfl, rfl⟩ | ⟨other, before⟩
    · exact .inl ⟨claim, rfl, rfl, token.symm⟩
    · refine .inr ⟨?_, lease, before, rfl⟩
      intro granted same
      obtain rfl := Result.claimed.inj (Pc.notifyOne.inj same)
      exact fun same => other same.symm
  · right
    refine ⟨fun claim same => absurd same (unclaimed claim), ?_⟩
    cases moved with
    | claimed front => exact absurd rfl (unclaimed _)
    | reclaim reclaims =>
      simp only [ConsumerGroup.withState, lookup_foldl_erase] at leased
      split at leased
      · cases leased
      · exact ⟨lease, leased, rfl⟩
    | acked active => exact ⟨lease, (lookup_of_erase leased).2, rfl⟩
    | nacked active => exact ⟨lease, (lookup_of_erase leased).2, rfl⟩
    | @checkpointStored other token state old active
    | @published other token data isFinal old sequence active =>
      -- The message's lease is stored again, with the token it had.
      rcases lookup_of_insert leased with ⟨rfl, rfl⟩ | ⟨_, before⟩
      · exact ⟨old, (Option.filter_eq_some_iff.mp active).1, rfl⟩
      · exact ⟨lease, before, rfl⟩
    | _ => exact ⟨lease, leased, rfl⟩

/-- A longer trace has as many grants since the last opening as its last step leaves. -/
theorem grantsSinceOpen_append (trace : List (Transition (World T V) (Action T V)))
    (e : Transition (World T V) (Action T V)) :
    grantsSinceOpen (trace ++ [e]) =
      match e.act with
      | .reopen _ => 0
      | _ => grantsSinceOpen trace + if (Transition.granted e).isSome then 1 else 0 := by
  simp [grantsSinceOpen]

/-- The group's next token is the number of leases it has granted since it was opened, modulo 2^64. -/
theorem nextLeaseToken_of_run {visibilityTimeout : Duration} {retryPolicy : RetryPolicy}
    {ok : World T V → Action T V → Prop} {trace : List (Transition (World T V) (Action T V))}
    {world : World T V}
    (run : Run World.step ok (World.start visibilityTimeout retryPolicy) trace world) :
    world.shared.group.nextLeaseToken = UInt64.ofNat (grantsSinceOpen trace) := by
  induction run with
  | nil => rfl
  | @snoc trace world next act _ _ taken ih =>
    rw [grantsSinceOpen_append]
    cases step_stepped taken with
    | call fresh => exact ih
    | @step i env task group after found alive moved =>
      rcases moved.token with ⟨claim, _, granted, _, counted, _⟩ | ⟨unclaimed, kept⟩
      · -- A claim moves the counter on by one, and is counted as one grant.
        have grants : Transition.granted ⟨world, .step i env,
            ⟨{ world.shared with group := group },
              world.tasks.set i { task with pc := after }⟩⟩ = some claim :=
          (granted_iff found).mpr granted
        simp only [grants, Option.isSome_some, if_true, counted, ih, UInt64.ofNat_add]
        rfl
      · simp only [granted_none found unclaimed, kept, ih]
        rfl
    | drop found alive dropped =>
      -- The write that a dropped operation waited for grants no lease.
      exact dropped.memory.2.2.trans ih
    | tick => exact ih
    | setWallClock => exact ih
    | reopen iterates => rfl

/-- A delivery's token is the number of leases granted before it since the group was opened. -/
theorem delivery_token {visibilityTimeout : Duration} {retryPolicy : RetryPolicy}
    {ok : World T V → Action T V → Prop} {trace : List (Transition (World T V) (Action T V))}
    {world : World T V} {n : Nat} {claim : Claim T V}
    (run : Run World.step ok (World.start visibilityTimeout retryPolicy) trace world)
    (delivered : delivery trace n = some claim) :
    claim.token = ⟨UInt64.ofNat (grantsSinceOpen (trace.take n))⟩ := by
  obtain ⟨e, there, granted⟩ := Option.bind_eq_some_iff.mp delivered
  obtain ⟨reached, taken⟩ := run.take there
  -- The counter of the group counts the grants since it was opened.
  rw [← nextLeaseToken_of_run reached]
  obtain ⟨entry, rest, _, rfl, _⟩ := Stepped.grants (step_stepped taken) granted
  rfl

/-- The last delivery of a message in a run. -/
structure Latest (trace : List (Transition (World T V) (Action T V))) (n : Nat) (claim : Claim T V) :
    Prop where
  delivered : delivery trace n = some claim
  last : ∀ e ∈ trace.drop (n + 1), ∀ other ∈ Transition.granted e, other.id ≠ claim.id

/-- A step that delivers other messages only leaves a message's last delivery its last. -/
theorem Latest.snoc {trace : List (Transition (World T V) (Action T V))} {n : Nat} {claim : Claim T V}
    (latest : Latest trace n claim) (e : Transition (World T V) (Action T V))
    (others : ∀ other ∈ Transition.granted e, other.id ≠ claim.id) : Latest (trace ++ [e]) n claim := by
  obtain ⟨delivered, last⟩ := latest
  obtain ⟨_, there, _⟩ := Option.bind_eq_some_iff.mp delivered
  have within := (List.getElem?_eq_some_iff.mp there).1
  refine ⟨?_, ?_⟩
  · rw [delivery, List.getElem?_append_left within]
    exact delivered
  · -- What comes after the delivery is now one transition longer.
    rw [List.drop_append_of_le_length within]
    intro later member
    rcases List.mem_append.mp member with before | new
    · exact last later before
    · obtain rfl := List.mem_singleton.mp new
      exact others

/-- A step that delivers a message is its last delivery so far. -/
theorem Latest.new (trace : List (Transition (World T V) (Action T V)))
    {e : Transition (World T V) (Action T V)} {claim : Claim T V}
    (granted : Transition.granted e = some claim) : Latest (trace ++ [e]) trace.length claim := by
  refine ⟨?_, ?_⟩
  · simpa [delivery] using granted
  · intro later member
    simp at member

/-- A message has one last delivery. -/
theorem Latest.unique {trace : List (Transition (World T V) (Action T V))} {n m : Nat}
    {claim other : Claim T V} (left : Latest trace n claim) (right : Latest trace m other)
    (same : claim.id = other.id) : claim = other := by
  -- Neither of the two deliveries can come before the other.
  have before : ∀ {n m : Nat} {claim other : Claim T V}, Latest trace n claim → Latest trace m other →
      claim.id = other.id → ¬ n < m := by
    intro n m claim other left right same earlier
    obtain ⟨e, there, granted⟩ := Option.bind_eq_some_iff.mp right.delivered
    refine left.last e ?_ other granted same.symm
    rw [List.mem_iff_getElem?]
    refine ⟨m - (n + 1), ?_⟩
    rw [List.getElem?_drop, Nat.add_sub_cancel' earlier]
    exact there
  have leftFirst := before left right same
  have rightFirst := before right left same.symm
  obtain rfl : n = m := by omega
  exact Option.some.inj (left.delivered.symm.trans right.delivered)

/-- A lease has the token of its message's last delivery, also after any number of restarts. -/
theorem leased_by_latest {visibilityTimeout : Duration} {retryPolicy : RetryPolicy}
    {ok : World T V → Action T V → Prop} {trace : List (Transition (World T V) (Action T V))}
    {world : World T V}
    (run : Run World.step ok (World.start visibilityTimeout retryPolicy) trace world) {id : MessageId}
    {lease : Leased T V} (leased : world.shared.group.state.leased.lookup id = some lease) :
    ∃ n claim, Latest trace n claim ∧ claim.id = id ∧ claim.token = lease.token := by
  induction run generalizing lease with
  | nil => cases leased
  | @snoc trace world next act _ _ taken ih =>
    -- A step that grants no lease keeps each message's last delivery.
    have kept : ∀ {old : Leased T V}, world.shared.group.state.leased.lookup id = some old →
        old.token = lease.token →
        (∀ other ∈ Transition.granted ⟨world, act, next⟩, other.id ≠ id) →
        ∃ n claim, Latest (trace ++ [⟨world, act, next⟩]) n claim ∧ claim.id = id ∧
          claim.token = lease.token := by
      intro old before token others
      obtain ⟨n, claim, latest, rfl, same⟩ := ih before
      exact ⟨n, claim, latest.snoc _ others, rfl, same.trans token⟩
    cases step_stepped taken with
    | call fresh => exact kept leased rfl (by simp [Transition.granted])
    | @step i env task group after found alive moved =>
      rcases moved.lease leased with ⟨claim, granted, rfl, token⟩ | ⟨others, old, before, token⟩
      · exact ⟨_, claim, .new trace ((granted_iff found).mpr granted), rfl, token⟩
      · apply kept before token
        intro other granted
        exact others other ((granted_iff found).mp granted)
    | drop found alive dropped =>
      rw [dropped.memory.1] at leased
      exact kept leased rfl (by simp [Transition.granted])
    | tick => exact kept leased rfl (by simp [Transition.granted])
    | setWallClock => exact kept leased rfl (by simp [Transition.granted])
    | reopen iterates => cases leased

/-- Two counters hand out the same token exactly if they agree modulo 2^64. -/
theorem token_eq_iff (grants other : Nat) :
    (⟨UInt64.ofNat grants⟩ : LeaseToken) = ⟨UInt64.ofNat other⟩ ↔ grants % 2 ^ 64 = other % 2 ^ 64 := by
  rw [LeaseToken.mk.injEq, UInt64.ofNat_eq_iff_mod_eq_toNat, UInt64.toNat_ofNat']

/-- A delivery's token names an active lease exactly if the last delivery got the same one. -/
theorem activeLease_of_delivery {visibilityTimeout : Duration} {retryPolicy : RetryPolicy}
    {ok : World T V → Action T V → Prop} {trace : List (Transition (World T V) (Action T V))}
    {world : World T V} {m n : Nat} {claim redelivered : Claim T V}
    (run : Run World.step ok (World.start visibilityTimeout retryPolicy) trace world)
    (delivered : delivery trace m = some claim) (latest : Latest trace n redelivered)
    (same : redelivered.id = claim.id) :
    world.shared.group.state.activeLease claim.id claim.token = none ↔
      world.shared.group.state.leased.lookup claim.id = none ∨
        grantsSinceOpen (trace.take m) % 2 ^ 64 ≠ grantsSinceOpen (trace.take n) % 2 ^ 64 := by
  rw [State.activeLease]
  cases leased : world.shared.group.state.leased.lookup claim.id with
  | none => simp
  | some lease =>
    -- The lease is the one that the last delivery was granted.
    obtain ⟨_, last, unique, about, token⟩ := leased_by_latest run leased
    obtain rfl := unique.unique latest (about.trans same.symm)
    rw [ne_eq, ← token_eq_iff, ← delivery_token run delivered, ← delivery_token run latest.delivered,
      token]
    simp [Option.filter_some, eq_comm]

/--
A token that a claim once returned is refused exactly if the message's last claim got another one.

The last claim got the same one where as many leases, modulo 2^64, were granted before both of them.
Each process counts from zero, so that a restart in between is enough.
-/
theorem stale_token_refused {visibilityTimeout : Duration} {retryPolicy : RetryPolicy}
    {ok : World T V → Action T V → Prop} {trace : List (Transition (World T V) (Action T V))}
    {world world' : World T V} {m n i : Nat} {claim redelivered : Claim T V} {task : Task T V}
    {env : StepEnv}
    (run : Run World.step ok (World.start visibilityTimeout retryPolicy) trace world)
    (delivered : delivery trace m = some claim) (latest : Latest trace n redelivered)
    (same : redelivered.id = claim.id) (found : world.tasks[i]? = some task)
    (presents : task.pc.presents = some (claim.id, claim.token))
    (taken : world.step (.step i env) = some world') :
    (∃ answered, world'.tasks[i]? = some answered ∧ answered.pc.refused) ↔
      world.shared.group.state.leased.lookup claim.id = none ∨
        grantsSinceOpen (trace.take m) % 2 ^ 64 ≠ grantsSinceOpen (trace.take n) % 2 ^ 64 := by
  -- The presented token is the lease's own exactly if the counter has come round.
  rw [← activeLease_of_delivery run delivered latest same]
  have bound := (List.getElem?_eq_some_iff.mp found).1
  obtain ⟨other, group, next, here, _, moved, rfl⟩ := step_move taken
  rw [found] at here
  obtain rfl := Option.some.inj here
  -- The comparison under the lock decides how the operation goes on.
  rw [← move_refused presents moved, List.getElem?_set_self bound]
  simp

/-- A message is claimed, given back, and claimed again when its backoff is over. -/
def redelivering : List (Action Nat Nat) :=
  Action.run 0 (.enqueue ⟨⟨0⟩, 10, none⟩) 3 ++ Action.run 1 .claim 3 ++
    Action.run 2 (.nack ⟨0⟩ ⟨0⟩ none) 3 ++ [.pass 60] ++ Action.run 3 .claim 3

set_option synthInstance.maxSize 256 in
/-- Within one process the first consumer's late acknowledgement is refused. -/
theorem stale_token_refused_redelivered : ∃ (trace : List (Transition (World Nat Nat) (Action Nat Nat)))
    (world world' : World Nat Nat) (claim redelivered : Claim Nat Nat),
    delivery trace 6 = some claim ∧ delivery trace 15 = some redelivered ∧
      redelivered.id = claim.id ∧ world.step (.step 4 {}) = some world' ∧
      (∃ task, world.tasks[4]? = some task ∧ task.call = .ack claim.id claim.token) ∧
      ∃ answered, world'.tasks[4]? = some answered ∧ answered.pc.refused := by
  have recorded : ∃ ran ∈ record World.step (World.start 30 .default)
      (redelivering ++ [.call (.ack ⟨0⟩ ⟨0⟩)]), ∃ claim ∈ delivery ran.1 6,
      ∃ redelivered ∈ delivery ran.1 15, claim.id = ⟨0⟩ ∧ claim.token = ⟨0⟩ ∧ redelivered.id = ⟨0⟩ ∧
        (∀ e ∈ ran.1.drop 16, ∀ other ∈ Transition.granted e, other.id ≠ ⟨0⟩) ∧
        (ran.2.step (.step 4 {})).isSome ∧
        (∃ task ∈ ran.2.tasks[4]?, task.call = .ack ⟨0⟩ ⟨0⟩ ∧ task.pc = .releaseAcked ⟨0⟩ ⟨0⟩) ∧
        grantsSinceOpen (ran.1.take 6) % 2 ^ 64 ≠ grantsSinceOpen (ran.1.take 15) % 2 ^ 64 := by
    decide +kernel
  obtain ⟨⟨trace, world⟩, ran, claim, delivered, redelivered, again, first, token, second, last, acts,
    ⟨task, found, called, standing⟩, differ⟩ := recorded
  obtain ⟨world', taken⟩ := Option.isSome_iff_exists.mp acts
  have same : redelivered.id = claim.id := second.trans first.symm
  -- The late acknowledgement still presents the first token.
  have presents : task.pc.presents = some (claim.id, claim.token) := by
    rw [standing, first, token]
    rfl
  refine ⟨trace, world, world', claim, redelivered, delivered, again, same, taken, ?_, ?_⟩
  · exact ⟨task, found, by rw [called, first, token]⟩
  · exact (stale_token_refused (run_of_record .nil ran) delivered ⟨again, second ▸ last⟩ same found
      presents taken).mpr (.inr differ)

/-- A message is claimed, the process restarts, and another consumer claims it from the new one. -/
def redeliveringAfterRestart : List (Action Nat Nat) :=
  Action.run 0 (.enqueue ⟨⟨0⟩, 10, none⟩) 3 ++ Action.run 1 .claim 3 ++ [.reopen []] ++
    Action.run 2 .claim 3

/-- After a restart the first consumer's late acknowledgement ends the other consumer's delivery. -/
theorem stale_token_accepted : ∃ (trace : List (Transition (World Nat Nat) (Action Nat Nat)))
    (world : World Nat Nat) (claim redelivered : Claim Nat Nat),
    Run World.step (fun _ _ => True) (World.start 30 .default) trace world ∧
      delivery trace 6 = some claim ∧ delivery trace 11 = some redelivered ∧
      redelivered.id = claim.id ∧
      ∃ task, world.tasks[3]? = some task ∧ task.call = .ack claim.id claim.token ∧
        task.pc = .done (.answered true) := by
  -- After the restart the counter starts over, and the old token fits again.
  have recorded : ∃ ran ∈ record World.step (World.start 30 .default)
      (redeliveringAfterRestart ++ Action.run 3 (.ack ⟨0⟩ ⟨0⟩) 2), ∃ claim ∈ delivery ran.1 6,
      ∃ redelivered ∈ delivery ran.1 11, claim.id = ⟨0⟩ ∧ claim.token = ⟨0⟩ ∧ redelivered.id = ⟨0⟩ ∧
        ∃ task ∈ ran.2.tasks[3]?, task.call = .ack ⟨0⟩ ⟨0⟩ ∧ task.pc = .done (.answered true) := by
    decide +kernel
  obtain ⟨⟨trace, world⟩, ran, claim, delivered, redelivered, again, first, token, second, task, found,
    called, answered⟩ := recorded
  refine ⟨trace, world, claim, redelivered, run_of_record .nil ran, delivered, again,
    second.trans first.symm, task, found, ?_, answered⟩
  rw [called, first, token]

end Qaas
