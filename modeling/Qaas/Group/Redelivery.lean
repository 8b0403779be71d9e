import Qaas.Group.Failures

/-! When a message is claimed again after a delivery of it has failed, and in which order messages are claimed
that have not failed. -/

namespace Qaas

open Concurrency

variable {T V : Type}

/-- The message that the next step of an operation puts behind the pending ones, other than a retry. -/
def Pc.pushes : Pc T V → List MessageId
  | .pushPending message _ => [message.id]
  | _ => []

/-- The message that a step puts behind the pending ones, other than a retry. -/
def Transition.pushed (e : Transition (World T V) (Action T V)) : List MessageId :=
  match e.act with
  | .step i _ => e.pre.tasks[i]?.elim [] fun task => task.pc.pushes
  | _ => []

/-- The backoff that a step starts, and the message that it is for. -/
def Transition.backoff (e : Transition (World T V) (Action T V)) : Option (MessageId × Duration) :=
  match e.act with
  | .step i env =>
    match e.pre.tasks[i]?.map Task.pc with
    | some (.resolve failed _) =>
      let policy := e.pre.shared.group.retryPolicy
      if policy.isExhausted failed.deliveryCount then none
      else some (failed.id, policy.delayFor failed.deliveryCount env.draw)
    | _ => none
  | _ => none

/-- A delivery fails in step `i` of a run, and step `r` starts its backoff. -/
structure Retries (trace : List (Transition (World T V) (Action T V))) (i r : Nat) (id : MessageId)
    (backoff : Duration) : Prop where
  order : i < r
  fails : ∃ e, (trace)[i]? = some e ∧ (Transition.failure e id).isSome
  starts : (trace)[r]?.bind Transition.backoff = some (id, backoff)
  -- No later delivery of the message fails before that.
  same : ∀ n, i < n → n < r → ∀ e, (trace)[n]? = some e → Transition.failure e id = none

/-- No claim comes to a message before the backoff after its last failure is over. -/
def NoneEarly (claimed : Transition (World T V) (Action T V) → Option (Claim T V))
    (trace : List (Transition (World T V) (Action T V))) (id : MessageId) : Prop :=
  ∀ i r backoff, Retries trace i r id backoff → ∀ j claim, i < j →
    (trace)[j]?.bind claimed = some claim → claim.id = id →
      ∃ e f, (trace)[i]? = some e ∧ (trace)[j]? = some f ∧ e.pre.shared.now + backoff ≤ f.pre.shared.now

/-- No delivery of a message fails in a run. -/
def neverFails (trace : List (Transition (World T V) (Action T V))) (id : MessageId) : Bool :=
  trace.all fun e => (Transition.failure e id).isNone

/-- The messages that wait when a process opens, and those that are pushed in its run, in their order. -/
def pushedIds (opened : World T V) (trace : List (Transition (World T V) (Action T V))) : List MessageId :=
  opened.shared.group.state.pending.map Pending.id ++ trace.flatMap Transition.pushed

/-- The messages that are claimed in a run, in their order. -/
def claimedIds (trace : List (Transition (World T V) (Action T V))) : List MessageId :=
  trace.filterMap fun e => (Transition.granted e).map Claim.id

/-- Messages that have not failed are claimed in the order in which they came to wait. -/
def ClaimsInOrder (opened : World T V) (trace : List (Transition (World T V) (Action T V))) : Prop :=
  List.IsPrefix ((claimedIds trace).filter (neverFails trace))
    ((pushedIds opened trace).filter (neverFails trace))

/-- A process that has just opened its group, on empty logs or on what earlier ones have left. -/
inductive Opens (visibilityTimeout : Duration) (retryPolicy : RetryPolicy) : World T V → Prop
  | start : Opens visibilityTimeout retryPolicy (World.start visibilityTimeout retryPolicy)
  | reopened {history : List (Transition (World T V) (Action T V))} {world opened : World T V}
      {order : List MessageId}
      (run : Run World.step (fun _ _ => True) (World.start visibilityTimeout retryPolicy) history world)
      (taken : world.step (.reopen order) = some opened) : Opens visibilityTimeout retryPolicy opened

/-- A promotion adds no message to those that have not failed. -/
theorem State.promoted_fresh {state : State T V} {unfailed : MessageId → Bool} (now : Instant)
    (retried : ∀ entry ∈ state.delayed, unfailed entry.id = false) :
    ((state.promoteReadyDelayed now).pending.map Pending.id).filter unfailed =
      (state.pending.map Pending.id).filter unfailed := by
  rw [promoteReadyDelayed, List.map_append, List.filter_append, List.append_right_eq_self]
  -- Whatever is promoted is the retry of a failed delivery.
  apply List.filter_eq_nil_iff.mpr
  intro id member
  obtain ⟨_, promoted, rfl⟩ := List.mem_map.mp member
  obtain ⟨entry, ready, rfl⟩ := List.mem_map.mp promoted
  have among : unfailed entry.pending.id = false := retried entry (List.mem_of_mem_filter ready)
  simp [among]

/-- A step claims the first message that waits, or lets the others wait behind it. -/
theorem Moved.queue {now : Instant} {wallClock : Timestamp} {env : StepEnv}
    {group group' : ConsumerGroup T V} {pc next : Pc T V} {unfailed : MessageId → Bool}
    (moved : Moved now wallClock env group pc group' next)
    (retried : ∀ entry ∈ group.state.delayed, unfailed entry.id = false) :
    (∃ claim, next = .notifyOne (.claimed claim) ∧ pc.pushes = [] ∧
        (group.state.pending.map Pending.id).filter unfailed =
          (claim.id :: group'.state.pending.map Pending.id).filter unfailed) ∨
      (∀ claim, next ≠ .notifyOne (.claimed claim)) ∧
        (group.state.pending.map Pending.id ++ pc.pushes).filter unfailed =
          (group'.state.pending.map Pending.id).filter unfailed := by
  rcases moved.grants with ⟨entry, rest, rfl, front, granted, rfl⟩ | ⟨unclaimed, _⟩
  · -- The front message is the first that waits, or a retry.
    refine .inl ⟨_, granted, rfl, ?_⟩
    rw [← State.promoted_fresh now retried, front]
    rfl
  · refine .inr ⟨unclaimed, ?_⟩
    -- Only a push lets one more message wait, and a promotion lets only retries wait.
    cases moved with
    | claimed => exact absurd rfl (unclaimed _)
    | promoted wakeAt none =>
      simp only [Pc.pushes, List.append_nil, ConsumerGroup.withState]
      exact (State.promoted_fresh now retried).symm
    | pushPending =>
      simp only [Pc.pushes, ConsumerGroup.withState, List.map_append]
      rfl
    | quiet changed quiet => cases quiet <;> simp [Pc.pushes]
    | _ => simp [Pc.pushes, ConsumerGroup.withState, ConsumerGroup.withWal, ConsumerGroup.withDlqWal,
        ConsumerGroup.withEntries]

/-- What is delayed after a step of one process was delayed before, or was still to be resolved. -/
theorem Stepped.delayed {world next : World T V} {act : Action T V} {entry : Delayed T V}
    (stepped : Stepped world act next) (within : InProcess world act)
    (waits : entry ∈ next.shared.group.state.delayed) :
    entry ∈ world.shared.group.state.delayed ∨ ∃ failed, world.Resolves failed ∧ failed.id = entry.id := by
  -- A retry comes from an operation that had its failed delivery to resolve.
  cases stepped with
  | @step i env task group after found alive moved =>
    rcases moved.delayed_from waits with old | ⟨failed, caller, availableAt, standing, _, rfl⟩
    · exact .inl old
    · refine .inr ⟨failed, ⟨task, List.mem_of_getElem? found, alive, ?_⟩, rfl⟩
      rw [standing]
      exact List.mem_cons_self
  | drop found alive dropped =>
    rw [dropped.memory.1] at waits
    exact .inl waits
  | reopen => exact absurd rfl (within _)
  | _ => exact .inl waits

/-- A longer run has pushed what its last step pushes as well. -/
theorem pushedIds_snoc (opened : World T V) (trace : List (Transition (World T V) (Action T V)))
    (e : Transition (World T V) (Action T V)) :
    pushedIds opened (trace ++ [e]) = pushedIds opened trace ++ Transition.pushed e := by
  simp [pushedIds]

/-- A longer run has claimed what its last step claims as well. -/
theorem claimedIds_snoc (trace : List (Transition (World T V) (Action T V)))
    (e : Transition (World T V) (Action T V)) :
    claimedIds (trace ++ [e]) = claimedIds trace ++ ((Transition.granted e).map Claim.id).toList := by
  cases granted : Transition.granted e <;> simp [claimedIds, granted]

/-- Of the messages that have not failed, a step of one process claims the first that waits. -/
theorem Stepped.queue {world next : World T V} {act : Action T V} {unfailed : MessageId → Bool}
    (stepped : Stepped world act next) (within : InProcess world act)
    (retried : ∀ entry ∈ world.shared.group.state.delayed, unfailed entry.id = false) :
    (world.shared.group.state.pending.map Pending.id ++
        Transition.pushed ⟨world, act, next⟩).filter unfailed =
      (((Transition.granted ⟨world, act, next⟩).map Claim.id).toList ++
        next.shared.group.state.pending.map Pending.id).filter unfailed := by
  cases stepped with
  | @step i env task group after found alive moved =>
    have pushed : Transition.pushed ⟨world, .step i env, ⟨{ world.shared with group := group },
        world.tasks.set i { task with pc := after }⟩⟩ = task.pc.pushes := by
      simp only [Transition.pushed, found, Option.elim_some]
    rw [pushed]
    rcases moved.queue retried with ⟨claim, rfl, pushless, popped⟩ | ⟨unclaimed, waits⟩
    · -- The claimed message was the first of those that wait.
      rw [pushless, List.append_nil, (granted_iff found).mpr rfl, popped]
      rfl
    · rw [granted_none found unclaimed, waits]
      rfl
  | drop found alive dropped =>
    simp only [Transition.pushed, Transition.granted, dropped.memory.1, List.append_nil]
    rfl
  | reopen => exact absurd rfl (within _)
  | call | tick | setWallClock =>
    simp only [Transition.pushed, Transition.granted, List.append_nil]
    rfl

/-- Where the messages are that came to wait, all through a run in which only some given ones fail. -/
structure KeepsOrder (unfailed : MessageId → Bool) (opened : World T V)
    (trace : List (Transition (World T V) (Action T V))) (world : World T V) : Prop where
  order : (pushedIds opened trace).filter unfailed =
    (claimedIds trace ++ world.shared.group.state.pending.map Pending.id).filter unfailed
  delayed : ∀ entry ∈ world.shared.group.state.delayed, unfailed entry.id = false
  resolves : ∀ failed, world.Resolves failed → unfailed failed.id = false

/-- When a process opens its group, no delivery of it has failed. -/
theorem Opens.unfailed {visibilityTimeout : Duration} {retryPolicy : RetryPolicy} {opened : World T V}
    (opens : Opens visibilityTimeout retryPolicy opened) :
    opened.shared.group.state.delayed = [] ∧ ∀ failed, ¬ opened.Resolves failed := by
  -- A new group has nothing to retry, and no operation of the process that died is running.
  cases opens with
  | start => exact ⟨rfl, fun failed ⟨task, member, _⟩ => nomatch member⟩
  | @reopened history world opened order run taken =>
    cases step_stepped taken with
    | reopen iterates =>
      refine ⟨rfl, fun failed ⟨task, member, running, holds⟩ => ?_⟩
      obtain ⟨before, _, rfl⟩ := List.mem_map.mp member
      rw [before.kill_failing running] at holds
      cases holds

/-- The next step of a process keeps the messages in order. -/
theorem KeepsOrder.snoc {unfailed : MessageId → Bool} {opened world next : World T V}
    {trace : List (Transition (World T V) (Action T V))} {act : Action T V}
    (inOrder : KeepsOrder unfailed opened trace world) (within : InProcess world act)
    (taken : world.step act = some next)
    (fails : ∀ id, (Transition.failure ⟨world, act, next⟩ id).isSome → unfailed id = false) :
    KeepsOrder unfailed opened (trace ++ [⟨world, act, next⟩]) next := by
  refine ⟨?_, ?_, ?_⟩
  · have moved := (step_stepped taken).queue within inOrder.delayed
    -- What has come to wait has been claimed, or still waits, each in its order.
    have before := inOrder.order
    rw [pushedIds_snoc, claimedIds_snoc]
    simp only [List.filter_append] at moved before ⊢
    rw [before, List.append_assoc, moved, List.append_assoc]
  · intro entry waits
    rcases (step_stepped taken).delayed within waits with old | ⟨failed, resolves, same⟩
    · exact inOrder.delayed entry old
    · rw [← same]
      exact inOrder.resolves failed resolves
  · intro failed resolves
    rcases resolves_of_step taken resolves with old | new
    · exact inOrder.resolves failed old
    · exact fails failed.id (Option.isSome_of_eq_some new)

/-- Messages that have not failed are claimed in the order in which they came to wait. -/
theorem claimsInOrder {visibilityTimeout : Duration} {retryPolicy : RetryPolicy}
    {opened world : World T V} {trace : List (Transition (World T V) (Action T V))}
    (opens : Opens visibilityTimeout retryPolicy opened)
    (run : Run World.step InProcess opened trace world) : ClaimsInOrder opened trace := by
  -- A process opens with retries all pending, and no failed delivery to resolve.
  obtain ⟨undelayed, unresolved⟩ := opens.unfailed
  -- The messages that fail in the whole run are left out, also where they have not failed yet.
  have keeps : ∀ unfailed : MessageId → Bool,
      (∀ e ∈ trace, ∀ id, (Transition.failure e id).isSome → unfailed id = false) →
        KeepsOrder unfailed opened trace world := by
    intro unfailed fails
    induction run with
    | nil =>
      refine ⟨by simp [pushedIds, claimedIds], ?_, fun failed resolves => absurd resolves (unresolved failed)⟩
      rw [undelayed]
      exact nofun
    | snoc _ within taken ih =>
      have earlier := ih fun e member => fails e (List.mem_append_left _ member)
      exact earlier.snoc within taken (fails _ (by simp))
  have order := (keeps (neverFails trace) fun e member id fails =>
    List.all_eq_false.mpr ⟨e, member, by rw [Option.isSome_iff_ne_none] at fails; simpa using fails⟩).order
  rw [List.filter_append] at order
  exact ⟨_, order.symm⟩

/-- The invariant holds when a process opens its group. -/
theorem Opens.sound {visibilityTimeout : Duration} {retryPolicy : RetryPolicy} {opened : World T V}
    (opens : Opens visibilityTimeout retryPolicy opened) : Sound opened := by
  cases opens with
  | start => exact Sound.start visibilityTimeout retryPolicy
  | reopened before taken => exact (sound_of_run before).step (step_stepped taken)

/-- When a process opens its group, nobody has a message in hand. -/
theorem Opens.unheld {visibilityTimeout : Duration} {retryPolicy : RetryPolicy} {opened : World T V}
    (opens : Opens visibilityTimeout retryPolicy opened) (id : MessageId) :
    opened.present id = opened.shared.group.copies id := by
  -- The operations that were running have died with what they had in hand.
  rw [World.present, Nat.add_eq_left]
  cases opens with
  | start => rfl
  | @reopened history world opened order before taken =>
    cases step_stepped taken with
    | reopen iterates =>
      apply tally_eq_zero.mpr
      intro task member
      obtain ⟨before, _, rfl⟩ := List.mem_map.mp member
      exact before.kill_inHands (fun pc idle => (Pc.idle_parts idle).2.2) id

/-- A process that opens with a message in one place keeps it so. -/
theorem Opens.present_le_one {visibilityTimeout : Duration} {retryPolicy : RetryPolicy}
    {opened world : World T V} {trace : List (Transition (World T V) (Action T V))} {id : MessageId}
    (opens : Opens visibilityTimeout retryPolicy opened) (single : opened.shared.group.copies id ≤ 1)
    (run : Run World.step InProcess opened trace world) : world.present id ≤ 1 :=
  (opens.sound.present_of_run ((opens.unheld id).trans_le single) run).2

/-- The clock of a process never runs backwards in a run. -/
theorem onward_of_run {start world : World T V} {ok : World T V → Action T V → Prop}
    {trace : List (Transition (World T V) (Action T V))} (run : Run World.step ok start trace world) :
    start.shared.now ≤ world.shared.now := by
  induction run with
  | nil => exact le_rfl
  | snoc _ _ taken ih => exact ih.trans (step_stepped taken).onward

/-- What is to be resolved after a run in which it does not fail was to be resolved before it. -/
theorem resolves_of_run {start world : World T V} {ok : World T V → Action T V → Prop}
    {trace : List (Transition (World T V) (Action T V))} {failed : FailedDelivery T V}
    (run : Run World.step ok start trace world)
    (unfailed : ∀ e ∈ trace, Transition.failure e failed.id = none) (resolves : world.Resolves failed) :
    start.Resolves failed := by
  -- Going back step by step: a delivery that is to be resolved was so before, or has just failed.
  induction run with
  | nil => exact resolves
  | snoc _ _ taken ih =>
    rcases resolves_of_step taken resolves with before | new
    · exact ih (fun e member => unfailed e (List.mem_append_left _ member)) before
    · rw [unfailed _ (by simp)] at new
      cases new

/-- The backoff of a message is over at some instant, or the message still waits it out. -/
def World.Waits (world : World T V) (id : MessageId) (due : Instant) : Prop :=
  due ≤ world.shared.now ∨
    ∃ entry ∈ world.shared.group.state.delayed, entry.id = id ∧ due ≤ entry.availableAt

/-- A delayed message stays delayed until its backoff is over. -/
theorem Moved.delays {now : Instant} {wallClock : Timestamp} {env : StepEnv}
    {group group' : ConsumerGroup T V} {pc next : Pc T V} {entry : Delayed T V}
    (moved : Moved now wallClock env group pc group' next) (waits : entry ∈ group.state.delayed) :
    entry ∈ group'.state.delayed ∨ entry.availableAt ≤ now := by
  cases moved with
  | claimed | promoted =>
    -- A promotion takes the entries that are ready.
    by_cases ready : entry.availableAt ≤ now
    · exact .inr ready
    · exact .inl (List.mem_filter.mpr ⟨waits, by simpa using ready⟩)
  | retried => exact .inl (List.mem_append_left _ waits)
  | _ => exact .inl waits

/-- A step of one process cuts no backoff short. -/
theorem World.Waits.step {world next : World T V} {act : Action T V} {id : MessageId} {due : Instant}
    (waits : world.Waits id due) (within : InProcess world act) (stepped : Stepped world act next) :
    next.Waits id due := by
  -- A delayed message leaves its place only when its time has come.
  rcases waits with passed | ⟨entry, member, same, later⟩
  · exact .inl (passed.trans stepped.onward)
  · cases stepped with
    | step found alive moved =>
      rcases moved.delays member with kept | ready
      · exact .inr ⟨entry, kept, same, later⟩
      · exact .inl (later.trans ready)
    | drop found alive dropped =>
      refine .inr ⟨entry, ?_, same, later⟩
      rw [dropped.memory.1]
      exact member
    | reopen => exact absurd rfl (within _)
    | _ => exact .inr ⟨entry, member, same, later⟩

/-- Nothing in the life of a process cuts a backoff short. -/
theorem waits_of_run {start world : World T V} {trace : List (Transition (World T V) (Action T V))}
    {id : MessageId} {due : Instant} (run : Run World.step InProcess start trace world)
    (waits : start.Waits id due) : world.Waits id due := by
  induction run with
  | nil => exact waits
  | snoc _ within taken ih => exact ih.step within (step_stepped taken)

/-- A message waits out the backoff that a step starts for it. -/
theorem waits_of_backoff {world next : World T V} {act : Action T V} {id : MessageId}
    {backoff : Duration} (stepped : Stepped world act next)
    (starts : Transition.backoff ⟨world, act, next⟩ = some (id, backoff)) :
    (∃ failed, world.Resolves failed ∧ failed.id = id) ∧
      next.Waits id (world.shared.now + backoff) := by
  cases stepped with
  | @step i env task group after found alive moved =>
    simp only [Transition.backoff, found, Option.map_some] at starts
    have member := List.mem_of_getElem? found
    cases standing : task.pc with
    | resolve failed caller =>
      rw [standing] at starts moved
      have holds : failed ∈ task.pc.failing := by rw [standing]; exact List.mem_cons_self
      cases moved with
      | quiet changed quiet => cases quiet
      | retried attemptsLeft =>
        simp only [attemptsLeft, Bool.false_eq_true, if_false, Option.some.injEq, Prod.mk.injEq] at starts
        obtain ⟨rfl, rfl⟩ := starts
        exact ⟨⟨failed, ⟨task, member, alive, holds⟩, rfl⟩, .inr ⟨_, List.mem_concat_self, rfl, le_rfl⟩⟩
      | exhaustedWritten exhausted | exhaustedFailed exhausted =>
        -- No backoff is started for the last attempt.
        simp [exhausted] at starts
    | _ => rw [standing] at starts; cases starts
  | _ => cases starts

/-- A claim takes a message only if no failed delivery of it is still to be resolved. -/
theorem unresolved_of_granted {world next : World T V} {act : Action T V} {claim : Claim T V}
    (stepped : Stepped world act next) (single : world.present claim.id ≤ 1)
    (granted : Transition.granted ⟨world, act, next⟩ = some claim) {failed : FailedDelivery T V}
    (same : failed.id = claim.id) : ¬ world.Resolves failed := by
  intro resolves
  -- The message would be at the front of the queue and in somebody's hands.
  obtain ⟨entry, rest, front, claimed, _⟩ := stepped.grants granted
  have about : claim.id = entry.id := by rw [claimed]; rfl
  have outside := resolves.present
  have inside := copies_of_claimed front
  rw [same] at outside
  rw [← about] at inside
  omega

/-- A claim takes a message only if it does not wait out a backoff. -/
theorem due_of_granted {world next : World T V} {act : Action T V} {claim : Claim T V} {due : Instant}
    (stepped : Stepped world act next) (single : world.present claim.id ≤ 1)
    (granted : Transition.granted ⟨world, act, next⟩ = some claim) (waits : world.Waits claim.id due) :
    due ≤ world.shared.now := by
  obtain ⟨entry, rest, front, claimed, _⟩ := stepped.grants granted
  have same : claim.id = entry.id := by rw [claimed]; rfl
  rcases waits with passed | ⟨waiting, member, about, later⟩
  · exact passed
  · by_contra early
    -- The message would still be delayed after the promotion that brings it to the front.
    have unready : ¬ waiting.availableAt ≤ world.shared.now := fun ready => early (later.trans ready)
    have still : waiting ∈ (world.shared.group.state.promoteReadyDelayed world.shared.now).delayed :=
      List.mem_filter.mpr ⟨member, by simpa using unready⟩
    have delayed : 0 < (world.shared.group.state.promoteReadyDelayed world.shared.now).delayedCount
        claim.id := List.count_pos_iff.mpr (List.mem_map.mpr ⟨waiting, still, about⟩)
    have inside := copies_of_claimed front
    rw [← same] at inside
    have whole : world.shared.group.copies claim.id ≤ 1 := (Nat.le_add_right _ _).trans single
    omega

/-- No claim takes a message before the backoff after its last failure is over. -/
theorem noneEarly {visibilityTimeout : Duration} {retryPolicy : RetryPolicy}
    {opened world : World T V} {trace : List (Transition (World T V) (Action T V))} {id : MessageId}
    (opens : Opens visibilityTimeout retryPolicy opened) (single : opened.shared.group.copies id ≤ 1)
    (run : Run World.step InProcess opened trace world) : NoneEarly Transition.granted trace id := by
  rintro i r backoff ⟨order, ⟨e, failing, _⟩, starts, unfailed⟩ j claim after grants rfl
  obtain ⟨f, granting, granted⟩ := Option.bind_eq_some_iff.mp grants
  obtain ⟨b, starting, begins⟩ := Option.bind_eq_some_iff.mp starts
  refine ⟨e, f, failing, granting, ?_⟩
  obtain ⟨_, failed⟩ := run.take failing
  obtain ⟨reached, started⟩ := run.take starting
  obtain ⟨before, claimed⟩ := run.take granting
  have alone := opens.present_le_one single before
  obtain ⟨⟨resolved, resolves, same⟩, waits⟩ := waits_of_backoff (step_stepped started) begins
  rcases Nat.lt_or_ge r j with later | sooner
  · -- Since the backoff has started, the message is delayed or the backoff is over.
    have waited : f.pre.Waits claim.id (b.pre.shared.now + backoff) :=
      waits_of_run (run.between starting granting later) waits
    have due := due_of_granted (step_stepped claimed) alone granted waited
    have onward : e.pre.shared.now ≤ b.pre.shared.now :=
      (step_stepped failed).onward.trans (onward_of_run (run.between failing starting order))
    exact (add_le_add onward le_rfl).trans due
  · -- Until then the failed delivery is in somebody's hands, so that no claim can take the message.
    refine absurd ?_ (unresolved_of_granted (step_stepped claimed) alone granted same)
    rcases Nat.eq_or_lt_of_le sooner with rfl | sooner
    · obtain rfl : b = f := Option.some.inj (starting.symm.trans granting)
      exact resolves
    · have still : f.post.Resolves resolved := by
        refine resolves_of_run (run.between granting starting sooner) ?_ resolves
        intro later member
        obtain ⟨n, above, below, there⟩ := exists_of_mem_between member
        rw [same]
        exact unfailed n (after.trans above) below later there
      rcases resolves_of_step claimed still with held | new
      · exact held
      · rw [same] at new
        have none : Transition.failure f claim.id = Option.none := unfailed j after sooner f granting
        exact absurd (new.symm.trans none) nofun

/--
A claim takes a message only when the backoff after its last failure is over.
The messages that have not failed are claimed in the order in which they came to wait.

A process may open on the logs of earlier ones, and these may leave a message in two places.
Such a message is still claimed in its turn, but one copy does not wait for the other's backoff.
-/
theorem redelivery_paced {visibilityTimeout : Duration} {retryPolicy : RetryPolicy}
    {opened world : World T V} {trace : List (Transition (World T V) (Action T V))}
    (opens : Opens visibilityTimeout retryPolicy opened)
    (run : Run World.step InProcess opened trace world) :
    (∀ id, opened.shared.group.copies id ≤ 1 → NoneEarly Transition.granted trace id) ∧
      ClaimsInOrder opened trace :=
  ⟨fun _ single => noneEarly opens single run, claimsInOrder opens run⟩

/-- A delivery that fails has its backoff started by the next step. -/
theorem Retries.at_once {trace : List (Transition (World T V) (Action T V))} {i : Nat} {id : MessageId}
    {backoff : Duration} (fails : ∃ e ∈ (trace)[i]?, (Transition.failure e id).isSome)
    (starts : (trace)[i + 1]?.bind Transition.backoff = some (id, backoff)) :
    Retries trace i (i + 1) id backoff := by
  refine ⟨Nat.lt_succ_self i, fails, starts, ?_⟩
  intro n above below
  omega

/-- A claim while a message waits out a backoff is an early one. -/
theorem not_noneEarly {claimed : Transition (World T V) (Action T V) → Option (Claim T V)}
    {trace : List (Transition (World T V) (Action T V))} {i r j : Nat} {id : MessageId}
    {backoff : Duration} (retries : Retries trace i r id backoff) (after : i < j)
    (early : ∃ e ∈ (trace)[i]?, ∃ f ∈ (trace)[j]?, f.pre.shared.now < e.pre.shared.now + backoff ∧
      ∃ claim ∈ claimed f, claim.id = id) : ¬ NoneEarly claimed trace id := by
  -- The two steps are those of the retry and of the claim, and the times contradict each other.
  intro none
  obtain ⟨e, failing, f, claiming, before, claim, claims, same⟩ := early
  have there : (trace)[j]?.bind claimed = some claim := by
    rw [claiming, Option.bind_some]
    exact claims
  obtain ⟨e', f', failing', claiming', later⟩ := none i r backoff retries j claim after there same
  obtain rfl : e = e' := Option.some.inj (failing.symm.trans failing')
  obtain rfl : f = f' := Option.some.inj (claiming.symm.trans claiming')
  exact absurd before (not_lt.mpr later)

/-- The first of two messages is claimed and given back, the second claimed, and then the first again. -/
def retryingBehind : List (Action Nat Nat) :=
  Action.run 0 (.enqueue ⟨⟨0⟩, 10, none⟩) 3 ++ Action.run 1 (.enqueue ⟨⟨1⟩, 11, none⟩) 3 ++
    Action.run 2 .claim 3 ++ Action.run 3 (.nack ⟨0⟩ ⟨0⟩ none) 3 ++ Action.run 4 .claim 3 ++
    [.pass 1] ++ Action.run 5 .claim 3

set_option synthInstance.maxSize 256 in
/-- The second delivery of the first message waits for its backoff, and the second message goes first. -/
theorem redelivery_paced_behind : ∃ (trace : List (Transition (World Nat Nat) (Action Nat Nat)))
    (claim : Claim Nat Nat), Retries trace 13 14 ⟨0⟩ (2 / 5) ∧ delivery trace 23 = some claim ∧
      claim.id = ⟨0⟩ ∧ claimedIds trace = [⟨0⟩, ⟨1⟩, ⟨0⟩] ∧
      (∃ e f, (trace)[13]? = some e ∧ (trace)[23]? = some f ∧
        e.pre.shared.now + 2 / 5 ≤ f.pre.shared.now) ∧
      ClaimsInOrder (World.start 30 .default) trace := by
  -- The run is computed: the retry starts at once, and the second claim of the message comes last.
  have recorded : ∃ ran ∈ record World.step (World.start 30 .default) retryingBehind,
      (∀ e ∈ ran.1, InProcess e.pre e.act) ∧ (∃ e ∈ (ran.1)[13]?, (Transition.failure e ⟨0⟩).isSome) ∧
      (ran.1)[14]?.bind Transition.backoff = some (⟨0⟩, 2 / 5) ∧
      (∃ claim ∈ delivery ran.1 23, claim.id = ⟨0⟩) ∧ claimedIds ran.1 = [⟨0⟩, ⟨1⟩, ⟨0⟩] := by
    decide +kernel
  obtain ⟨⟨trace, world⟩, ran, within, fails, starts, ⟨claim, delivered, same⟩, order⟩ := recorded
  have run := (run_of_record .nil ran).strengthen within
  have retries : Retries trace 13 14 ⟨0⟩ (2 / 5) := .at_once fails starts
  obtain ⟨unhurried, inOrder⟩ :=
    redelivery_paced .start (run.mono fun _ _ allowed => allowed.2)
  exact ⟨trace, claim, retries, delivered, same, order,
    unhurried ⟨0⟩ (Nat.zero_le 1) 13 14 (2 / 5) retries 23 claim (by decide) delivered same, inOrder⟩

/-- A message is dead-lettered without a mark in the main log, reprocessed, and opened again twice over. -/
def reopeningTwice : List (Action Nat Nat) :=
  Action.run 0 (.enqueue ⟨⟨0⟩, 10, none⟩) 3 ++ Action.run 1 .claim 3 ++
    Action.run 2 (.nack ⟨0⟩ ⟨0⟩ none) 3 ++ [.pass 1] ++ Action.run 3 .claim 3 ++
    Action.run 4 (.nack ⟨0⟩ ⟨1⟩ none) 3 ++ [.step 4 { outcome := .failedEmpty }] ++
    Action.run 5 (.reprocessDeadLetter ⟨0⟩) 5

/-- One of the two copies is claimed and given back, and the other one claimed at once. -/
def claimingTwice : List (Action Nat Nat) :=
  Action.run 6 .claim 3 ++ Action.run 7 (.nack ⟨0⟩ ⟨0⟩ none) 3 ++ Action.run 8 .claim 3

/-- A claim is held up before it returns, until its lease has timed out and the retry waits. -/
def returningEarly : List (Action Nat Nat) :=
  Action.run 0 (.enqueue ⟨⟨0⟩, 10, none⟩) 3 ++ Action.run 1 .claim 2 ++
    [.pass 30, .call .claim, .step 2 { order := [⟨0⟩] }, .step 2 {}, .step 1 {}]

set_option synthInstance.maxSize 256 in
/--
A second copy of a message is claimed while the first one waits out its backoff.
A claim that was granted a message before it failed returns it while it waits out its backoff.
-/
theorem redelivered_early :
    (∃ (opened : World Nat Nat) (trace : List (Transition (World Nat Nat) (Action Nat Nat)))
      (world : World Nat Nat), Opens 30 ⟨1, 60, 2, 0, some 2⟩ opened ∧
        Run World.step InProcess opened trace world ∧ ¬ NoneEarly Transition.granted trace ⟨0⟩) ∧
      ∃ (trace : List (Transition (World Nat Nat) (Action Nat Nat))) (world : World Nat Nat),
        Run World.step InProcess (World.start 30 .default) trace world ∧
          ¬ NoneEarly Transition.returned trace ⟨0⟩ := by
  constructor
  · -- The main log enqueues the message twice, since it was never marked as dead-lettered.
    have recorded : ∃ before ∈ record World.step (World.start 30 ⟨1, 60, 2, 0, some 2⟩) reopeningTwice,
        ∃ opened ∈ before.2.step (.reopen []), ∃ ran ∈ record World.step opened claimingTwice,
        (∀ e ∈ ran.1, InProcess e.pre e.act) ∧ (∃ e ∈ (ran.1)[5]?, (Transition.failure e ⟨0⟩).isSome) ∧
        (ran.1)[6]?.bind Transition.backoff = some (⟨0⟩, 1) ∧
        ∃ e ∈ (ran.1)[5]?, ∃ f ∈ (ran.1)[10]?, f.pre.shared.now < e.pre.shared.now + 1 ∧
          ∃ claim ∈ Transition.granted f, claim.id = ⟨0⟩ := by
      decide +kernel
    obtain ⟨⟨history, before⟩, lived, opened, taken, ⟨trace, world⟩, ran, within, fails, starts, early⟩ :=
      recorded
    have run := (run_of_record .nil ran).strengthen within
    exact ⟨opened, trace, world, .reopened (run_of_record .nil lived) taken,
      run.mono fun _ _ allowed => allowed.2,
      not_noneEarly (.at_once fails starts) (by decide) early⟩
  · -- The first claim was granted the message before its lease timed out.
    have recorded : ∃ ran ∈ record World.step (World.start 30 .default) returningEarly,
        (∀ e ∈ ran.1, InProcess e.pre e.act) ∧ (∃ e ∈ (ran.1)[9]?, (Transition.failure e ⟨0⟩).isSome) ∧
        (ran.1)[10]?.bind Transition.backoff = some (⟨0⟩, 2 / 5) ∧
        ∃ e ∈ (ran.1)[9]?, ∃ f ∈ (ran.1)[11]?, f.pre.shared.now < e.pre.shared.now + 2 / 5 ∧
          ∃ claim ∈ Transition.returned f, claim.id = ⟨0⟩ := by
      decide +kernel
    obtain ⟨⟨trace, world⟩, ran, within, fails, starts, early⟩ := recorded
    have run := (run_of_record .nil ran).strengthen within
    exact ⟨trace, world, run.mono fun _ _ allowed => allowed.2,
      not_noneEarly (.at_once fails starts) (by decide) early⟩

end Qaas
