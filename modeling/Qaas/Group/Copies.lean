import Qaas.Group.Balance
import Qaas.Group.KeyUse

/-! How many copies of a message a process has, and which of them a step takes away. -/

namespace Qaas

open Concurrency

variable {T V : Type}

/-- How often a message is pending, leased, delayed or dead-lettered. -/
def ConsumerGroup.copies (group : ConsumerGroup T V) (id : MessageId) : Nat :=
  group.state.live id + group.dlq.entries.count id

/-- The messages in an operation's hands, also the one whose key it has still to release. -/
def Pc.keeping : Pc T V → List MessageId
  | .releaseKey id _ _ => [id]
  | pc => pc.held

/-- The messages that an operation lets go with its next step. -/
def Pc.goes (group : ConsumerGroup T V) (outcome : AppendOutcome) : Pc T V → List MessageId
  | .releaseAcked id token => if (group.state.activeLease id token).isSome then [id] else []
  | .releaseKey id _ _ => [id]
  -- A failed write loses what it was writing.
  | .resolve failed _ =>
    if group.retryPolicy.isExhausted failed.deliveryCount ∧ outcome.acknowledged = false then [failed.id]
    else []
  | .appendEnqueue message _ =>
    if outcome.acknowledged = false ∧ message.idempotencyKey = none then [message.id] else []
  | .appendRemove deadLetter .reprocess =>
    if outcome.acknowledged = false then [deadLetter.id] else []
  | .appendRemove deadLetter .purge =>
    if outcome.acknowledged = false ∨ deadLetter.idempotencyKey = none then [deadLetter.id] else []
  | _ => []

/-- The caller of a resolution goes on with the messages it still holds, also after an error. -/
theorem ResolveCaller.keeping (caller : ResolveCaller T V) :
    caller.next.keeping = caller.ids ∧ caller.failed.keeping = caller.ids := by
  -- What is still to be resolved stays with the caller.
  match caller with
  | .nack => exact ⟨rfl, rfl⟩
  | .reclaim [] => exact ⟨rfl, rfl⟩
  | .reclaim (_ :: _) => exact ⟨rfl, rfl⟩

/-- A quiet step begins and ends with empty hands. -/
theorem Quiet.keeping {pc next : Pc T V} (quiet : Quiet pc next) :
    pc.keeping = [] ∧ next.keeping = [] := by
  cases quiet <;> exact ⟨rfl, rfl⟩

/-- A claim that leases a message keeps every message in the live queue, and brings in none. -/
theorem claimed_live_pos {state : State T V} {now : Instant} {entry : Pending T V}
    {rest : List (Pending T V)} (front : (state.promoteReadyDelayed now).pending = entry :: rest)
    (lease : Leased T V) (dedup : Dedup) (id : MessageId) :
    0 < State.live ⟨rest, state.leased.insert entry.id lease,
      (state.promoteReadyDelayed now).delayed, dedup⟩ id ↔ 0 < state.live id := by
  have counts := state.promoted_count now id
  have popped : (state.promoteReadyDelayed now).pendingCount id =
      (rest.map Pending.id).count id + if entry.id = id then 1 else 0 := by
    simp [State.pendingCount, front, List.count_cons]
  have leased := present_insert state.leased entry.id id lease
  simp only [State.live, State.pendingCount, State.leasedCount, State.delayedCount] at counts popped ⊢
  -- The claimed message is leased now, and another one is where it was.
  by_cases same : entry.id = id
  · rw [if_pos same] at popped leased
    omega
  · rw [if_neg same] at popped leased
    omega

/-- No copy of a message comes in with a step, and one is left if more were there than the step lets go. -/
def ConsumerGroup.Trades (outcome : AppendOutcome) (id : MessageId) (group : ConsumerGroup T V) (pc : Pc T V)
    (group' : ConsumerGroup T V) (next : Pc T V) : Prop :=
  group'.copies id + next.keeping.count id + (pc.goes group outcome).count id ≤
      group.copies id + pc.keeping.count id ∧
    ((pc.goes group outcome).count id < group.copies id + pc.keeping.count id →
      0 < group'.copies id + next.keeping.count id)

/-- What takes away exactly what goes leaves something if there was more than that. -/
theorem trades_of_whole {outcome : AppendOutcome} {id : MessageId} {group group' : ConsumerGroup T V}
    {pc next : Pc T V} (whole : group'.copies id + next.keeping.count id + (pc.goes group outcome).count id =
      group.copies id + pc.keeping.count id) : group.Trades outcome id pc group' next := by
  unfold ConsumerGroup.Trades
  omega

/-- A step that changes nothing else trades no copy either. -/
theorem Quiet.trades {pc next : Pc T V} (quiet : Quiet pc next) (outcome : AppendOutcome)
    (group : ConsumerGroup T V) (changed : Notify) (id : MessageId) :
    group.Trades outcome id pc { group with changed := changed } next := by
  apply trades_of_whole
  have stays : pc.goes group outcome = [] := by cases quiet <;> rfl
  rw [quiet.keeping.1, quiet.keeping.2, stays]
  rfl

/-- A step that resolves a failed delivery loses it only where its dead letter is not written. -/
theorem Moved.trades_resolving {now : Instant} {wallClock : Timestamp} {env : StepEnv}
    {group group' : ConsumerGroup T V} {pc next : Pc T V}
    (moved : Moved now wallClock env group pc group' next) (resolves : pc.resolves = true) (id : MessageId) :
    group.Trades env.outcome id pc group' next := by
  -- The rest of the batch stays with the caller.
  cases moved with
  | quiet changed quiet => exact quiet.trades _ _ _ id
  | @retried failed caller attemptsLeft =>
    have keeping : (Pc.resolve failed caller).keeping = failed.id :: caller.ids := rfl
    have stays : (Pc.resolve failed caller).goes group env.outcome = [] := by
      simp [Pc.goes, attemptsLeft]
    have delayed := group.state.live_delay
      (failed.delayed (now + group.retryPolicy.delayFor failed.deliveryCount env.draw)) id
    apply trades_of_whole
    rw [keeping, caller.keeping.1, stays]
    simp only [ConsumerGroup.copies, ConsumerGroup.withState, FailedDelivery.delayed, List.count_cons,
      List.count_nil] at delayed ⊢
    omega
  | @exhaustedWritten failed caller exhausted told =>
    have stays : (Pc.resolve failed caller).goes group env.outcome = [] := by
      simp [Pc.goes, told]
    apply trades_of_whole
    rw [stays]
    rfl
  | @exhaustedFailed failed caller exhausted refused =>
    have keeping : (Pc.resolve failed caller).keeping = failed.id :: caller.ids := rfl
    have gone : (Pc.resolve failed caller).goes group env.outcome = [failed.id] := by
      simp [Pc.goes, exhausted, refused]
    apply trades_of_whole
    rw [keeping, caller.keeping.2, gone]
    simp only [ConsumerGroup.copies, ConsumerGroup.withDlqWal, List.count_cons, List.count_nil]
    omega
  | @insertDeadLetter deadLetter caller =>
    have inserted := present_insert group.dlq.entries deadLetter.id id deadLetter
    have keeping : (Pc.insertDeadLetter deadLetter caller).keeping = deadLetter.id :: caller.ids := rfl
    have keeping' : (Pc.appendDeadLettered deadLetter.id caller).keeping = caller.ids := rfl
    have stays : (Pc.insertDeadLetter deadLetter caller).goes group env.outcome = [] := rfl
    unfold ConsumerGroup.Trades
    rw [keeping, keeping', stays, List.count_cons]
    simp only [ConsumerGroup.copies, ConsumerGroup.withEntries, DeadLetters.count, beq_iff_eq,
      List.count_nil] at inserted ⊢
    -- The entry may overwrite an older one of the same message.
    by_cases same : deadLetter.id = id
    · rw [if_pos same] at inserted ⊢
      omega
    · rw [if_neg same] at inserted ⊢
      omega
  | @deadLetteredWritten other caller told =>
    apply trades_of_whole
    rw [caller.keeping.1]
    rfl
  | @deadLetteredFailed other caller failed =>
    apply trades_of_whole
    rw [caller.keeping.2]
    rfl
  | _ => cases resolves

/-- A step that changes a lease lets its message go only where that is acknowledged. -/
theorem Moved.trades_leasing {now : Instant} {wallClock : Timestamp} {env : StepEnv}
    {group group' : ConsumerGroup T V} {pc next : Pc T V}
    (moved : Moved now wallClock env group pc group' next) (leases : pc.leases = true) (id : MessageId) :
    group.Trades env.outcome id pc group' next := by
  cases moved with
  | quiet changed quiet => exact quiet.trades _ _ _ id
  | @acked other token lease active =>
    have gone : (Pc.releaseAcked other token : Pc T V).goes group env.outcome = [other] := by
      simp [Pc.goes, active]
    have taken := State.live_erase active (group.state.dedup.release lease.idempotencyKey) id
    apply trades_of_whole
    rw [gone]
    simp only [ConsumerGroup.copies, ConsumerGroup.withState, Pc.keeping, Pc.held, Pc.messages, List.map_nil,
      List.count_nil] at taken ⊢
    omega
  | @ackStale other token stale =>
    have stays : (Pc.releaseAcked other token : Pc T V).goes group env.outcome = [] := by
      simp [Pc.goes, stale]
    apply trades_of_whole
    rw [stays]
    rfl
  | @nacked other token reason lease active =>
    -- The message goes from its lease into the operation's hands.
    have taken := State.live_erase active group.state.dedup id
    have keeping : (Pc.resolve (lease.failed other reason) .nack).keeping = [other] := rfl
    have stays : (Pc.releaseNacked other token reason : Pc T V).goes group env.outcome = [] := rfl
    apply trades_of_whole
    rw [keeping, stays]
    simp only [ConsumerGroup.copies, ConsumerGroup.withState, Pc.keeping, Pc.held, Pc.messages, List.map_nil,
      List.count_nil] at taken ⊢
    omega
  | checkpointStored active | published sequence active =>
    apply trades_of_whole
    simp only [ConsumerGroup.copies, ConsumerGroup.withState, State.live_store active]
    rfl
  | _ => cases leases

/-- A step that takes a dead letter out loses it only where its removal is not written, or for good. -/
theorem Moved.trades_taking {now : Instant} {wallClock : Timestamp} {env : StepEnv}
    {group group' : ConsumerGroup T V} {pc next : Pc T V} {issued : Message T → Prop}
    (moved : Moved now wallClock env group pc group' next) (unburies : pc.unburies = true)
    (housed : Housed issued group) (id : MessageId) : group.Trades env.outcome id pc group' next := by
  cases moved with
  | quiet changed quiet => exact quiet.trades _ _ _ id
  | @verdictStored other verdict found =>
    apply trades_of_whole
    simp only [ConsumerGroup.copies, ConsumerGroup.withEntries, DeadLetters.count_annotate]
    rfl
  | @taken other caller deadLetter found =>
    -- The entry leaves the queue for the operation's hands, under the id it is stored by.
    obtain ⟨rfl, _⟩ := housed.entries other deadLetter found
    have erased := DeadLetters.count_erase found id
    have keeping : (Pc.appendRemove deadLetter caller : Pc T V).keeping = [deadLetter.id] := rfl
    have stays : (Pc.takeEntry deadLetter.id caller : Pc T V).goes group env.outcome = [] := rfl
    apply trades_of_whole
    rw [keeping, stays]
    simp only [ConsumerGroup.copies, ConsumerGroup.withEntries, Pc.keeping, Pc.held, Pc.messages, List.map_nil,
      List.count_nil]
    omega
  | @removeWritten deadLetter caller told =>
    apply trades_of_whole
    cases caller with
    | reprocess =>
      simp [TakeCaller.next, Pc.keeping, Pc.held, Pc.messages, Pc.goes, told, ConsumerGroup.copies,
        ConsumerGroup.withDlqWal, DeadLetter.message]
    | purge =>
      cases keyed : deadLetter.idempotencyKey <;>
        simp [TakeCaller.next, Pc.keeping, Pc.held, Pc.messages, Pc.goes, told, keyed,
          ConsumerGroup.copies, ConsumerGroup.withDlqWal, DeadLetter.message]
  | @removeFailed deadLetter caller failed =>
    apply trades_of_whole
    cases caller <;>
      simp [Pc.keeping, Pc.held, Pc.messages, Pc.goes, failed, ConsumerGroup.copies,
        ConsumerGroup.withDlqWal, DeadLetter.message]
  | _ => cases unburies

/--
A step brings in no copy of a message, and leaves one if more were there than it lets go.

The copies are those in the group and those in the operation's hands.
Only a reservation, which brings a new message in, is not covered.
-/
theorem Moved.copies {now : Instant} {wallClock : Timestamp} {env : StepEnv}
    {group group' : ConsumerGroup T V} {pc next : Pc T V} {issued : Message T → Prop}
    (moved : Moved now wallClock env group pc group' next) (housed : Housed issued group)
    (unreserved : ∀ message key, pc ≠ .reserve message key) (id : MessageId) :
    group.Trades env.outcome id pc group' next := by
  have step := moved
  cases moved with
  | quiet changed quiet => exact quiet.trades _ _ _ id
  | reserveHit found => exact absurd rfl (unreserved _ _)
  | reserveFresh absent => exact absurd rfl (unreserved _ _)
  | @enqueueWritten message caller told =>
    have stays : (Pc.appendEnqueue message caller : Pc T V).goes group env.outcome = [] := by
      simp [Pc.goes, told]
    apply trades_of_whole
    rw [stays]
    rfl
  | @enqueueFailed message caller failed =>
    -- A keyed message stays in hand until its key is released.
    apply trades_of_whole
    cases keyed : message.idempotencyKey <;>
      simp [releaseThenFail, Pc.keeping, Pc.held, Pc.messages, Pc.goes, keyed, failed,
        ConsumerGroup.copies, ConsumerGroup.withWal]
  | @pushPending message caller =>
    have pushed := group.state.live_push (.fresh message.id message.item message.idempotencyKey) id
    apply trades_of_whole
    simp only [ConsumerGroup.copies, ConsumerGroup.withState, Pc.goes, Pc.keeping, Pc.held, Pc.messages,
      List.map_cons, List.map_nil, List.count_nil, Pending.fresh] at pushed ⊢
    omega
  | @reclaim order failed rest reclaims =>
    have taken := reclaims.live id
    have keeping : (Pc.resolve failed (.reclaim rest)).keeping = (failed :: rest).map FailedDelivery.id := by
      simp [Pc.keeping, Pc.held, Pc.messages, ResolveCaller.messages, FailedDelivery.message]
    apply trades_of_whole
    rw [keeping]
    simp only [ConsumerGroup.copies, ConsumerGroup.withState, Pc.goes, Pc.keeping, Pc.held, Pc.messages,
      List.map_nil, List.count_nil] at taken ⊢
    omega
  | @claimed entry rest front =>
    -- The message may have a lease already, which the new one overwrites.
    have live := claimed_live_pos front
      (entry.lease ⟨group.nextLeaseToken⟩ (now + group.visibilityTimeout))
      (group.state.promoteReadyDelayed now).dedup id
    have fewer := (claimed_live front (entry.lease ⟨group.nextLeaseToken⟩ (now + group.visibilityTimeout))
      (group.state.promoteReadyDelayed now).dedup id).1
    simp only [ConsumerGroup.Trades, ConsumerGroup.copies, Pc.goes, Pc.keeping, Pc.held, Pc.messages, List.map_nil,
      List.count_nil]
    omega
  | promoted wakeAt empty =>
    apply trades_of_whole
    simp only [ConsumerGroup.copies, ConsumerGroup.withState, promoted_live]
    rfl
  | retried | exhaustedWritten | exhaustedFailed | insertDeadLetter | deadLetteredWritten | deadLetteredFailed =>
    exact step.trades_resolving rfl id
  | acked | ackStale | nacked | checkpointStored | published => exact step.trades_leasing rfl id
  | verdictStored | taken | removeWritten | removeFailed => exact step.trades_taking rfl housed id
  | releaseKey | ackWritten | ackFailed | checkpointWritten | checkpointFailed | annotateWritten | annotateFailed =>
    exact trades_of_whole rfl

/-- The message an enqueue was called with. -/
def Call.message : Call T V → Option (Message T)
  | .enqueue message => some message
  | _ => none

/-- Only an enqueue is called with a message. -/
theorem Call.message_eq_some {call : Call T V} {message : Message T} :
    call.message = some message ↔ call = .enqueue message := by
  cases call <;> simp [Call.message]

/-- The messages that producers have called an enqueue with. -/
def World.submitted (world : World T V) : List (Message T) :=
  world.tasks.filterMap fun task => task.call.message

/-- How many copies of a message a process has, those in the hands of its operations included. -/
def World.copiesOf (world : World T V) (id : MessageId) : Nat :=
  world.shared.group.copies id + world.inHands Pc.keeping id

/-- The messages that an action takes out of the process. -/
def World.goes (world : World T V) : Action T V → List MessageId
  | .step i env =>
    world.tasks[i]?.elim [] fun task => task.pc.goes world.shared.group env.outcome
  -- What a dropped operation has in its hands is gone.
  | .drop i _ => world.tasks[i]?.elim [] fun task => task.pc.keeping
  | _ => []

/-- The key that the next step of an operation takes out of the dedup map. -/
def Pc.frees (group : ConsumerGroup T V) : Pc T V → Option IdempotencyKey
  | .releaseAcked id token => (group.state.activeLease id token).bind Leased.idempotencyKey
  | .releaseKey _ key _ => some key
  | _ => none

/-- The key that an action takes out of the dedup map. -/
def World.frees (world : World T V) : Action T V → Option IdempotencyKey
  | .step i _ => world.tasks[i]?.bind fun task => task.pc.frees world.shared.group
  | _ => none

/-- Whoever is about to release a key has handled a message that was submitted with it. -/
def Releasing (world : World T V) : Prop :=
  ∀ task ∈ world.tasks, ∀ id key result, task.pc = .releaseKey id key result →
    ∃ message ∈ world.submitted, message.id = id ∧ message.idempotencyKey = some key

/-- A message was submitted exactly if some enqueue was called with it. -/
theorem World.mem_submitted {world : World T V} {message : Message T} :
    message ∈ world.submitted ↔ ∃ task ∈ world.tasks, task.call = .enqueue message := by
  -- Only an enqueue submits a message.
  rw [World.submitted, List.mem_filterMap]
  constructor
  · rintro ⟨task, member, called⟩
    exact ⟨task, member, Call.message_eq_some.mp called⟩
  · rintro ⟨task, member, called⟩
    exact ⟨task, member, by rw [called]; rfl⟩

/-- An issued message was submitted. -/
theorem World.Issued.submitted {world : World T V} {message : Message T}
    (issued : world.Issued message) : message ∈ world.submitted := by
  obtain ⟨task, member, called, _⟩ := issued
  exact World.mem_submitted.mpr ⟨task, member, called⟩

/-- No two submitted messages share an id. -/
theorem Sound.submitted_unique {world : World T V} (sound : Sound world) {first second : Message T}
    (left : first ∈ world.submitted) (right : second ∈ world.submitted) (same : first.id = second.id) :
    first = second := by
  obtain ⟨task, member, called⟩ := World.mem_submitted.mp left
  obtain ⟨other, member', called'⟩ := World.mem_submitted.mp right
  have generated : task.call.newId = some first.id := by simp [called, Call.newId]
  have generated' : other.call.newId = some first.id := by simp [called', Call.newId, same]
  -- The two calls drew the same id, so they are one call.
  have unique := eq_of_nodup_filterMap sound.distinct member member' generated generated'
  rw [unique, called'] at called
  exact (Call.enqueue.inj called).symm

/-- A copy of a message in the group, or in a running operation's hands, is of a submitted message. -/
theorem Sound.submitted_of_copied {world : World T V} (sound : Sound world) (releasing : Releasing world)
    {id : MessageId} (copied : 0 < world.copiesOf id) : ∃ message ∈ world.submitted, message.id = id := by
  by_cases housed : 0 < world.shared.group.copies id
  · obtain ⟨message, issued, same⟩ := sound.sourced.issued_of_houses (houses_iff.mpr housed)
    exact ⟨message, issued.submitted, same⟩
  · have inHands : 0 < tally (Task.inHands Pc.keeping id) world.tasks := by
      simp only [World.copiesOf, World.inHands] at copied
      omega
    obtain ⟨task, member, among⟩ := exists_of_inHands inHands
    -- A task that gives a key back no longer holds the message itself.
    by_cases releases : ∃ key result, task.pc = .releaseKey id key result
    · obtain ⟨key, result, here⟩ := releases
      obtain ⟨message, submitted, same, _⟩ := releasing task member id key result here
      exact ⟨message, submitted, same⟩
    · have held : id ∈ task.pc.held := by
        cases here : task.pc with
        | releaseKey other key result =>
          rw [here] at among
          obtain rfl : id = other := List.mem_singleton.mp among
          exact absurd ⟨key, result, here⟩ releases
        | _ => rw [here] at among; exact among
      obtain ⟨message, inHand, rfl⟩ := List.mem_map.mp held
      exact ⟨message, (sound.held task member message inHand).submitted, rfl⟩

/-- A step leaves the registrations of the keys that it does not free. -/
theorem Moved.unfreed {now : Instant} {wallClock : Timestamp} {env : StepEnv}
    {group group' : ConsumerGroup T V} {pc next : Pc T V} {key : IdempotencyKey}
    (moved : Moved now wallClock env group pc group' next)
    (unreserved : ∀ message key, pc ≠ .reserve message key) (kept : pc.frees group ≠ some key) :
    group'.state.dedup.lookup key = group.state.dedup.lookup key := by
  -- Three steps write the dedup map; one registers and the other two free a key.
  cases moved with
  | reserveFresh absent => exact absurd rfl (unreserved _ _)
  | @releaseKey other freed result =>
    apply Finmap.lookup_erase_ne
    rintro rfl
    exact kept rfl
  | acked active =>
    apply Dedup.release_other
    simpa [Pc.frees, active] using kept
  | _ => rfl

/-- A step that leads to the release of a key has the message with that key in its hands. -/
theorem Moved.releasing {now : Instant} {wallClock : Timestamp} {env : StepEnv}
    {group group' : ConsumerGroup T V} {pc next : Pc T V} {id : MessageId} {key : IdempotencyKey}
    {result : Result T V} (moved : Moved now wallClock env group pc group' next)
    (releases : next = .releaseKey id key result) :
    ∃ message ∈ pc.messages, message.id = id ∧ message.idempotencyKey = some key := by
  -- A key is given back after a failed enqueue or at the end of a purge.
  cases moved with
  | quiet changed quiet => cases quiet <;> cases releases
  | @enqueueFailed message caller failed =>
    cases keyed : message.idempotencyKey <;> rw [keyed] at releases <;> cases releases
    exact ⟨message, List.mem_singleton_self _, rfl, keyed⟩
  | @retried failed caller attemptsLeft | @deadLetteredWritten other caller synced =>
    exact absurd releases (caller.keyless.2 id key result).1
  | @exhaustedFailed failed caller exhausted unsynced | @deadLetteredFailed other caller failed =>
    exact absurd releases (caller.keyless.2 id key result).2
  | @removeWritten deadLetter caller synced =>
    cases caller with
    | reprocess => cases releases
    | purge =>
      cases keyed : deadLetter.idempotencyKey <;> simp only [TakeCaller.next, keyed] at releases <;>
        cases releases
      exact ⟨deadLetter.message, List.mem_singleton_self _, rfl, keyed⟩
  | _ => cases releases

/-- After a step of an operation a copy of a message is left if more were there than the step lets go. -/
theorem Sound.copiesOf_move {world : World T V} {i : Nat} {env : StepEnv} {task : Task T V}
    {group : ConsumerGroup T V} {next : Pc T V} (sound : Sound world)
    (found : world.tasks[i]? = some task) (alive : task.cancelled = false)
    (unreserved : ∀ message key, task.pc ≠ .reserve message key)
    (moved : Moved world.shared.now world.shared.wallClock env world.shared.group task.pc group next)
    (id : MessageId) :
    0 < World.copiesOf ⟨{ world.shared with group := group }, world.tasks.set i { task with pc := next }⟩ id ↔
      (world.goes (.step i env)).count id < world.copiesOf id := by
  -- The step trades this operation's own copies, and the other operations keep theirs.
  obtain ⟨fewer, left⟩ := moved.copies sound.sourced.toHoused unreserved id
  have traded := inHands_set found alive next Pc.keeping id
  have own := le_tally (Task.inHands Pc.keeping id) (List.mem_of_getElem? found)
  simp only [Task.inHands, alive, Bool.false_eq_true, if_false] at own
  have goes : world.goes (.step i env) = task.pc.goes world.shared.group env.outcome := by
    simp [World.goes, found]
  rw [goes]
  simp only [World.copiesOf, World.inHands]
  omega

/-- After an operation is dropped a copy of a message is left if others than it had one. -/
theorem copiesOf_drop {world : World T V} {i : Nat} {wrote : AppendOutcome} {task : Task T V}
    {group : ConsumerGroup T V} {next : Pc T V}
    (found : world.tasks[i]? = some task) (alive : task.cancelled = false)
    (dropped : Dropped world.shared.now world.shared.wallClock wrote world.shared.group task.pc group next)
    (id : MessageId) :
    0 < World.copiesOf ⟨{ world.shared with group := group },
        world.tasks.set i { task with pc := next, cancelled := true }⟩ id ↔
      (world.goes (.drop i wrote)).count id < world.copiesOf id := by
  obtain ⟨state, entries, _⟩ := dropped.memory
  -- A cancelled task holds nothing, and dropping it changes neither state nor entries.
  have traded := tally_set (Task.inHands Pc.keeping id) { task with pc := next, cancelled := true } found
  simp only [Task.inHands, alive, Bool.false_eq_true, if_false, if_true] at traded
  have goes : world.goes (.drop i wrote) = task.pc.keeping := by
    simp [World.goes, found]
  have memory : group.copies id = world.shared.group.copies id := by
    rw [ConsumerGroup.copies, state, entries, ConsumerGroup.copies]
  rw [goes]
  simp only [World.copiesOf, World.inHands, memory] at traded ⊢
  omega

/-- A task that moves on within its call changes nothing in what was submitted. -/
theorem submitted_set {world : World T V} {shared : Runtime T V} {i : Nat} {task : Task T V}
    {next : Pc T V} {cancelled : Bool} (found : world.tasks[i]? = some task) :
    World.submitted ⟨shared, world.tasks.set i ⟨task.call, next, cancelled⟩⟩ = world.submitted :=
  filterMap_set found rfl

/-- The death of a process changes nothing in what was submitted. -/
theorem submitted_kill (world : World T V) (shared : Runtime T V) :
    World.submitted ⟨shared, world.tasks.map Task.kill⟩ = world.submitted := by
  simp [World.submitted, List.filterMap_map]

/-- A call submits at most its own message. -/
theorem submitted_spawn (world : World T V) (call : Call T V) :
    World.submitted (world.spawn ⟨call, call.entry, false⟩) = world.submitted ++ call.message.toList := by
  simp only [World.submitted, Pool.spawn, List.filterMap_append]
  cases called : call.message <;> simp [called]

/-- No operation starts with the release of a key. -/
theorem Call.entry_ne_releaseKey (call : Call T V) (id : MessageId) (key : IdempotencyKey)
    (result : Result T V) : call.entry ≠ .releaseKey id key result := by
  cases call with
  | enqueue message => cases keyed : message.idempotencyKey <;> simp [Call.entry, keyed]
  | _ => simp [Call.entry]

/-- Whoever is about to release a key has handled a message with it, in every run. -/
theorem releasing_of_run {visibilityTimeout : Duration} {retryPolicy : RetryPolicy}
    {ok : World T V → Action T V → Prop} {world : World T V}
    {trace : List (Transition (World T V) (Action T V))}
    (run : Run World.step ok (World.start visibilityTimeout retryPolicy) trace world) :
    Releasing world := by
  have initial : Releasing (World.start visibilityTimeout retryPolicy : World T V) :=
    fun _ member => (List.not_mem_nil member).elim
  apply run.invariant_of initial (fun earlier => sound_of_run earlier)
  intro world act next _ sound _ known taken
  -- A step that leads to a release has the message in its operation's hands.
  have handled : ∀ {env : StepEnv} {task : Task T V} {group : ConsumerGroup T V} {after : Pc T V}
      {id : MessageId} {key : IdempotencyKey} {result : Result T V}, task ∈ world.tasks →
      Moved world.shared.now world.shared.wallClock env world.shared.group task.pc group after →
      after = .releaseKey id key result →
      ∃ message ∈ world.submitted, message.id = id ∧ message.idempotencyKey = some key := by
    intro env task group after id key result among moved releases
    obtain ⟨message, inHand, about⟩ := moved.releasing releases
    exact ⟨message, (sound.held task among message inHand).submitted, about⟩
  cases step_stepped taken with
  | @call call fresh =>
    intro task member id key result releases
    rcases List.mem_append.mp member with before | new
    · obtain ⟨message, there, about⟩ := known task before id key result releases
      exact ⟨message, by rw [submitted_spawn]; exact List.mem_append_left _ there, about⟩
    · obtain rfl := List.mem_singleton.mp new
      exact absurd releases (call.entry_ne_releaseKey id key result)
  | step found alive moved =>
    intro other member id key result releases
    rw [submitted_set found]
    rcases List.mem_or_eq_of_mem_set member with before | rfl
    · exact known other before id key result releases
    · exact handled (List.mem_of_getElem? found) moved releases
  | drop found alive dropped =>
    intro other member id key result releases
    rw [submitted_set found]
    rcases List.mem_or_eq_of_mem_set member with before | rfl
    · exact known other before id key result releases
    · cases dropped with
      | stalled stalled => exact known _ (List.mem_of_getElem? found) id key result releases
      | written whole clean writes moved => exact handled (List.mem_of_getElem? found) moved releases
  | tick => exact known
  | setWallClock => exact known
  | reopen iterates =>
    intro task member id key result releases
    -- A restart kills the operations where they stand.
    obtain ⟨before, was, rfl⟩ := List.mem_map.mp member
    rw [Task.kill_pc] at releases
    rw [submitted_kill]
    exact known before was id key result releases

/-- A keyed message of which there is a copy after a call was there before it. -/
theorem Sound.copied_of_call {world : World T V} {call : Call T V} (sound : Sound world)
    (releasing : Releasing world) (fresh : world.Fresh call) {message : Message T}
    (submitted : message ∈ World.submitted (world.spawn ⟨call, call.entry, false⟩))
    {key : IdempotencyKey} (keyed : message.idempotencyKey = some key)
    (copied : 0 < World.copiesOf (world.spawn ⟨call, call.entry, false⟩) message.id) :
    message ∈ world.submitted ∧ 0 < world.copiesOf message.id := by
  -- The id that the call generates is nobody's yet.
  have unborn : ∀ started, call = .enqueue started → world.copiesOf started.id = 0 := by
    rintro started rfl
    by_contra there
    obtain ⟨other, earlier, same⟩ := sound.submitted_of_copied releasing (Nat.pos_of_ne_zero there)
    obtain ⟨task, among, called⟩ := World.mem_submitted.mp earlier
    exact fresh task among started.id rfl (by simp [called, Call.newId, same])
  have copies : World.copiesOf (world.spawn ⟨call, call.entry, false⟩) message.id =
      world.copiesOf message.id + (call.entry : Pc T V).keeping.count message.id := by
    simp [World.copiesOf, World.inHands, Pool.spawn, Task.inHands, Nat.add_assoc]
  rw [copies] at copied
  rw [submitted_spawn] at submitted
  rcases List.mem_append.mp submitted with earlier | new
  · refine ⟨earlier, ?_⟩
    cases call with
    | enqueue started =>
      -- Two calls would have generated the same id.
      have apart : started.id ≠ message.id := by
        intro same
        obtain ⟨task, among, called⟩ := World.mem_submitted.mp earlier
        exact fresh task among started.id rfl (by simp [called, Call.newId, same])
      have none : (Call.entry (.enqueue started : Call T V)).keeping.count message.id = 0 := by
        cases taken : started.idempotencyKey <;>
          simp [Call.entry, taken, Pc.keeping, Pc.held, Pc.messages, apart]
      omega
    | _ => simpa [Call.entry, Pc.keeping, Pc.held, Pc.messages] using copied
  · exfalso
    obtain rfl := Call.message_eq_some.mp (by simpa using new)
    have none := unborn message rfl
    simp [Call.entry, keyed, Pc.keeping, Pc.held, Pc.messages, none] at copied

/-- A call keeps every copy. -/
theorem copied_spawn {world : World T V} {call : Call T V} {id : MessageId}
    (copied : 0 < world.copiesOf id) :
    0 < World.copiesOf (world.spawn ⟨call, call.entry, false⟩) id := by
  simp only [World.copiesOf, World.inHands, Pool.spawn, tally_append] at copied ⊢
  omega

/-- A deduplicated enqueue changes nothing in the number of copies. -/
theorem copiesOf_deduplicated {world : World T V} {i : Nat} {task : Task T V} {message : Message T}
    {key : IdempotencyKey} (found : world.tasks[i]? = some task) (alive : task.cancelled = false)
    (reserving : task.pc = .reserve message key) (result : Result T V) (id : MessageId) :
    World.copiesOf ⟨{ world.shared with group := world.shared.group },
      world.tasks.set i { task with pc := .done result }⟩ id = world.copiesOf id := by
  have traded := inHands_set found alive (.done result) Pc.keeping id
  -- Neither before nor after does the task hold a message.
  rw [reserving] at traded
  simp only [Pc.keeping, Pc.held, Pc.messages, List.map_nil, List.count_nil, Nat.add_zero] at traded
  simp only [World.copiesOf, World.inHands, traded]

/-- A reservation brings one copy of its message in. -/
theorem copiesOf_reserved {world : World T V} {i : Nat} {task : Task T V} {message : Message T}
    {key : IdempotencyKey} (found : world.tasks[i]? = some task) (alive : task.cancelled = false)
    (reserving : task.pc = .reserve message key) (dedup : Dedup) (id : MessageId) :
    World.copiesOf ⟨{ world.shared with group :=
        (world.shared.group.withState { world.shared.group.state with dedup := dedup }) },
      world.tasks.set i { task with pc := .appendEnqueue message .producer }⟩ id =
      world.copiesOf id + [message.id].count id := by
  have traded := inHands_set found alive (.appendEnqueue message .producer) Pc.keeping id
  -- The message is born into the task's hands.
  rw [reserving] at traded
  simp only [Pc.keeping, Pc.held, Pc.messages, List.map_cons, List.map_nil, List.count_nil,
    Nat.add_zero] at traded
  simp only [World.copiesOf, World.inHands, traded, ConsumerGroup.copies, ConsumerGroup.withState,
    State.live, State.pendingCount, State.leasedCount, State.delayedCount]
  omega

end Qaas
