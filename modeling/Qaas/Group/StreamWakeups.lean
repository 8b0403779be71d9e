import Qaas.Group.Balance
import Qaas.Group.Wakeups

/-! Whether a stream watcher sleeps while it has something to learn. -/

namespace Qaas

open Concurrency

variable {T V : Type}

/-- Whether a watcher that has seen a stream up to a sequence number has something to learn. -/
def State.stale (state : State T V) (id : MessageId) (after : UInt64) : Bool :=
  match state.leased.lookup id with
  | none => true
  | some lease => lease.stream.any fun chunk => decide (after < chunk.sequence)

/-- What a registered watcher waits for: the message, and how far it has seen the stream. -/
def Pc.watched : Pc T V → Option (MessageId × UInt64)
  | .parkedStream id after => some (id, after)
  | _ => none

/-- What a watcher that is about to register has seen. -/
def Pc.joins : Pc T V → Option (MessageId × UInt64)
  | .awaitStream id after => some (id, after)
  | _ => none

/-- Whether an operation is on its way to send a wakeup. -/
def Pc.heralds : Pc T V → Bool
  | .pushPending _ _ | .notifyOne _ | .notifyReclaimed | .notifyPublished _ => true
  | .resolve _ _ | .insertDeadLetter _ _ | .appendDeadLettered _ _ => true
  | _ => false

/-- Whether a nack is about to fail, and will send no wakeup. -/
def Pc.resigns (group : ConsumerGroup T V) (env : StepEnv) : Pc T V → Bool
  | .resolve failed .nack =>
    group.retryPolicy.isExhausted failed.deliveryCount && !env.outcome.acknowledged
  | .appendDeadLettered _ .nack => !env.outcome.acknowledged
  | _ => false

/-- Whether a step gives a registered watcher something to learn, or ends an announcement of it, unheard. -/
def Pc.deserts (group : ConsumerGroup T V) (env : StepEnv) (pc : Pc T V) (watcher : Nat)
    (id : MessageId) (after : UInt64) : Bool :=
  match pc with
  -- An ack ends a lease, and sends no wakeup.
  | .releaseAcked acked token =>
    decide (acked = id) && (group.state.activeLease acked token).isSome
  -- Only the watcher that is first in line is woken.
  | .notifyOne _ => group.state.stale id after && decide (group.changed.waiters.head? ≠ some watcher)
  | pc => group.state.stale id after && pc.resigns group env

/-- Some other operation is on its way to send a wakeup. -/
def World.Heralded (world : World T V) (except : Nat) : Prop :=
  world.Has fun i task => i ≠ except ∧ task.cancelled = false ∧ task.pc.heralds

/--
No step leaves a watcher asleep with something to learn, unless some other wakeup is to come.

This concerns three kinds of steps. An ack ends a lease. A wakeup for one waiter is sent, or is not
sent because a nack fails. A watcher registers that has something to learn by now.
-/
def Attentive (world : World T V) (act : Action T V) : Prop :=
  Uninterrupted world act ∧
    match act with
    | .step i env => ∀ task ∈ world.tasks[i]?,
        (world.All fun j watcher => watcher.cancelled = false →
          world.shared.group.changed.ready j = false → ∀ watch ∈ watcher.pc.watched,
            task.pc.deserts world.shared.group env j watch.1 watch.2 → world.Heralded i) ∧
        ∀ watch ∈ task.pc.joins, world.shared.group.changed.permit = false →
          world.shared.group.state.stale watch.1 watch.2 → world.Heralded i
    | _ => True

/-- While a registered watcher has something to learn, an operation is on its way to send a wakeup. -/
def Announced (world : World T V) : Prop :=
  world.All fun j watcher => watcher.cancelled = false →
    world.shared.group.changed.ready j = false → ∀ watch ∈ watcher.pc.watched,
      world.shared.group.state.stale watch.1 watch.2 →
        world.Has fun _ task => task.cancelled = false ∧ task.pc.heralds

instance (world : World T V) (except : Nat) : Decidable (world.Heralded except) :=
  inferInstanceAs (Decidable (world.Has fun _ _ => _))

instance (world : World T V) (act : Action T V) : Decidable (Attentive world act) :=
  match act with
  | .step i env => inferInstanceAs (Decidable (_ ∧ ∀ task ∈ world.tasks[i]?,
      (world.All fun j watcher => watcher.cancelled = false →
        world.shared.group.changed.ready j = false → ∀ watch ∈ watcher.pc.watched,
          task.pc.deserts world.shared.group env j watch.1 watch.2 → world.Heralded i) ∧
      ∀ watch ∈ task.pc.joins, world.shared.group.changed.permit = false →
        world.shared.group.state.stale watch.1 watch.2 → world.Heralded i))
  | .call _ | .drop _ _ | .tick _ | .setWallClock _ | .reopen _ =>
    inferInstanceAs (Decidable (_ ∧ True))

/-- A delivery's resolution goes on towards a wakeup, unless a nack fails. -/
theorem ResolveCaller.heralds (caller : ResolveCaller T V) :
    caller.next.heralds ∧ (caller ≠ .nack → caller.failed.heralds) := by
  match caller with
  | .nack => exact ⟨rfl, fun other => absurd rfl other⟩
  | .reclaim [] | .reclaim (_ :: _) => exact ⟨rfl, fun _ => rfl⟩

/-- A watcher that is registered waits. -/
theorem Pc.waiting_of_watched {pc : Pc T V} {watch : MessageId × UInt64}
    (watched : watch ∈ pc.watched) : pc.waiting = true := by
  cases pc with
  | parkedStream => rfl
  | _ => cases watched

/-- Whoever is going to send a wakeup is neither done nor asleep. -/
theorem Pc.active_of_heralds {pc : Pc T V} (heralds : pc.heralds) :
    pc.finished = false ∧ pc.waiting = false := by
  cases pc with
  | parked | parkedStream | done => cases heralds
  | _ => exact ⟨rfl, rfl⟩

/-- A nack that fails leaves alone whoever has something to learn. -/
theorem Pc.deserts_of_resigns {group : ConsumerGroup T V} {env : StepEnv} {pc : Pc T V}
    {watcher : Nat} {id : MessageId} {after : UInt64} (stale : group.state.stale id after)
    (resigns : pc.resigns group env) : pc.deserts group env watcher id after := by
  cases pc with
  | resolve | appendDeadLettered => simp only [Pc.deserts, stale, resigns, Bool.and_self]
  | _ => cases resigns

/-- Whether an operation has just sent a wakeup, or given up sending one. -/
theorem Moved.heralds {now : Instant} {wallClock : Timestamp} {env : StepEnv}
    {group group' : ConsumerGroup T V} {pc next : Pc T V}
    (moved : Moved now wallClock env group pc group' next) (heralds : pc.heralds) :
    next.heralds ∨ (∃ result, pc = .notifyOne result) ∨ pc = .notifyReclaimed ∨
      (∃ sequence, pc = .notifyPublished sequence) ∨ pc.resigns group env := by
  cases moved with
  | quiet changed quiet =>
    cases quiet with
    | notifyOne result => exact .inr (.inl ⟨result, rfl⟩)
    | notifyReclaimed => exact .inr (.inr (.inl rfl))
    | notifyPublished sequence => exact .inr (.inr (.inr (.inl ⟨sequence, rfl⟩)))
    | _ => cases heralds
  | pushPending | insertDeadLetter | exhaustedWritten => exact .inl rfl
  | @retried failed caller attemptsLeft => exact .inl caller.heralds.1
  | @deadLetteredWritten id caller synced => exact .inl caller.heralds.1
  | @exhaustedFailed failed caller exhausted unsynced =>
    -- A reclaim logs the error and goes on; a nack returns it.
    cases caller with
    | nack => exact .inr (.inr (.inr (.inr (by simp [Pc.resigns, exhausted, unsynced]))))
    | reclaim rest => exact .inl ((ResolveCaller.reclaim rest).heralds.2 nofun)
  | @deadLetteredFailed id caller unsynced =>
    cases caller with
    | nack => exact .inr (.inr (.inr (.inr (by simp [Pc.resigns, unsynced]))))
    | reclaim rest => exact .inl ((ResolveCaller.reclaim rest).heralds.2 nofun)
  | _ => cases heralds

/-- Whatever gives a watcher something to learn is announced, except by an ack. -/
theorem Moved.stale {now : Instant} {wallClock : Timestamp} {env : StepEnv}
    {group group' : ConsumerGroup T V} {pc next : Pc T V}
    (moved : Moved now wallClock env group pc group' next) {id : MessageId} {after : UInt64}
    (stale : group'.state.stale id after) :
    group.state.stale id after ∨ next.heralds ∨
      ∃ token, pc = .releaseAcked id token ∧ (group.state.activeLease id token).isSome := by
  cases moved with
  | reclaim | nacked | published => exact .inr (.inl rfl)
  | @claimed entry rest front =>
    -- The new lease's stream is empty, and the other leases are as before.
    left
    by_cases same : id = entry.id
    · subst same
      simp [State.stale, Pending.lease] at stale
    · simpa [State.stale, Finmap.lookup_insert_of_ne _ same] using stale
  | @acked acked token lease active =>
    by_cases same : id = acked
    · subst same
      exact .inr (.inr ⟨token, rfl, by simp [active]⟩)
    · left
      simpa [State.stale, ConsumerGroup.withState, Finmap.lookup_erase_ne same] using stale
  | @checkpointStored stored token value lease active =>
    -- The stream stays in its lease.
    left
    by_cases same : id = stored
    · subst same
      have found := (Option.filter_eq_some_iff.mp active).1
      simpa [State.stale, ConsumerGroup.withState, found] using stale
    · simpa [State.stale, ConsumerGroup.withState, Finmap.lookup_insert_of_ne _ same] using stale
  | _ => exact .inl stale

/-- What another operation is on its way to announce is still to come after a step. -/
theorem World.Heralded.set {world : World T V} {shared : Runtime T V} {i : Nat} {task moved : Task T V}
    (heralded : world.Heralded i) (found : world.tasks[i]? = some task) :
    Pool.Has (⟨shared, world.tasks.set i moved⟩ : World T V)
      fun _ task => task.cancelled = false ∧ task.pc.heralds := by
  obtain ⟨j, other, there, apart, alive, heralds⟩ := heralded
  exact (Pool.has_set moved found).mpr (.inr ⟨j, other, apart, there, alive, heralds⟩)

/-- `notify_one` wakes the head of the line. -/
theorem ready_of_head {changed : Notify} {j : Nat} (first : changed.waiters.head? = some j) :
    changed.notifyOne.ready j = true := by
  obtain ⟨rest, shape⟩ := List.head?_eq_some_iff.mp first
  simp [Notify.ready, Notify.notifyOne, shape]

/-- Everybody in line is woken together. -/
theorem ready_of_line {changed : Notify} {j : Nat} (line : j ∈ changed.waiters) :
    changed.notifyWaiters.ready j = true := by
  simp [Notify.ready, Notify.notifyWaiters, line]

/-- A watcher registers only if no wakeup is stored, and changes nothing but the wakeups. -/
theorem joined_of_watched {self : Nat} {now : Instant} {wallClock : Timestamp} {env : StepEnv}
    {group group' : ConsumerGroup T V} {pc next : Pc T V} {watch : MessageId × UInt64}
    (moved : group.move self now wallClock env pc = some (group', next))
    (watched : watch ∈ next.watched) :
    watch ∈ pc.joins ∧ group.changed.permit = false ∧ group'.state = group.state := by
  have waiting := Pc.waiting_of_watched watched
  -- Only a step that asks for a wakeup leads to a seat.
  have asks : pc.asks = true := by
    by_contra silent
    rw [(move_moved moved).waiting (by simpa using silent)] at waiting
    cases waiting
  have went := move_asks asks moved
  cases pc with
  | awaitStream id after =>
    have same := congrArg (fun result => result.1.state) (Option.some.inj moved)
    cases permit : group.changed.permit with
    | true =>
      -- With the stored wakeup the watcher would look at the stream again.
      rw [permit, if_pos rfl] at went
      rw [went] at watched
      cases watched
    | false =>
      rw [permit, if_neg (by simp)] at went
      rw [went] at watched
      exact ⟨watched, rfl, same.symm⟩
  | awaitChanged wakeAt =>
    -- A claim that waits watches no stream.
    cases permit : group.changed.permit <;> simp [permit, Pc.roused, Pc.seated] at went <;>
      rw [went] at watched <;> cases watched
  | _ => cases asks

/-- One step of an operation leaves every watcher announced what it has to learn. -/
theorem Announced.move {world : World T V} {i : Nat} {env : StepEnv} {task : Task T V}
    {group : ConsumerGroup T V} {next : Pc T V} (announced : Announced world)
    (seats : world.shared.group.changed.Seats world.Parked) (found : world.tasks[i]? = some task)
    (alive : task.cancelled = false) (attentive : Attentive world (.step i env))
    (moved : world.shared.group.move i world.shared.now world.shared.wallClock env task.pc =
      some (group, next)) :
    Announced ⟨{ world.shared with group := group }, world.tasks.set i { task with pc := next }⟩ := by
  have way := move_moved moved
  have within := (List.getElem?_eq_some_iff.mp found).1
  have rung := move_rings moved
  obtain ⟨unforsaken, joining⟩ := attentive.2 task found
  intro j watcher there live unready watch watched stale
  show Pool.Has _ _
  change group.changed.ready j = false at unready
  change group.state.stale watch.1 watch.2 = true at stale
  by_cases own : j = i
  · -- The operation itself is a watcher that has just registered.
    subst own
    obtain rfl : { task with pc := next } = watcher := by
      simpa [List.getElem?_set_self within] using there
    obtain ⟨here, permit, same⟩ := joined_of_watched moved watched
    rw [same] at stale
    exact (joining watch here permit stale).set found
  · have there : world.tasks[j]? = some watcher := by
      rwa [List.getElem?_set_ne fun same => own same.symm] at there
    have waiting := Pc.waiting_of_watched watched
    -- Whoever is not woken now was not woken before, and stood in line.
    have asleep : world.shared.group.changed.ready j = false := by
      cases ready : world.shared.group.changed.ready j with
      | false => rfl
      | true =>
        rw [rung, rings_ready own task.pc ready] at unready
        cases unready
    have line : j ∈ world.shared.group.changed.waiters := by
      rcases seats.waiting_or_ready ⟨watcher, there, live, waiting⟩ with line | ready
      · exact line
      · rw [asleep] at ready
        cases ready
    -- The condition on the run answers for every step that lets a wakeup miss the watcher.
    by_cases deserts : task.pc.deserts world.shared.group env j watch.1 watch.2
    · exact (unforsaken j watcher there live asleep watch watched deserts).set found
    · by_cases heralds : next.heralds
      · exact (Pool.has_set _ found).mpr (.inl ⟨alive, heralds⟩)
      · -- The watcher had something to learn before, and some operation was going to send a wakeup.
        have before : world.shared.group.state.stale watch.1 watch.2 := by
          rcases way.stale stale with before | after | ⟨token, here, active⟩
          · exact before
          · exact absurd after heralds
          · rw [here] at deserts
            simp [Pc.deserts, active] at deserts
        obtain ⟨k, other, place, awake, heralding⟩ :=
          announced j watcher there live asleep watch watched before
        by_cases mover : k = i
        · -- It was this one, whose wakeup did not reach the watcher.
          subst mover
          obtain rfl := Option.some.inj (found.symm.trans place)
          exfalso
          rcases way.heralds heralding with after | ⟨result, here⟩ | here | ⟨sequence, here⟩ | resigns
          · exact heralds after
          · -- A `notify_one` that is not deserting would have reached it.
            rw [here] at deserts rung
            by_cases first : world.shared.group.changed.waiters.head? = some j
            · rw [rung, Pc.rings, ready_of_head first] at unready
              cases unready
            · simp [Pc.deserts, before, first] at deserts
          · -- A wakeup for everybody reaches whoever is in line.
            rw [rung, here, Pc.rings, ready_of_line line] at unready
            cases unready
          · rw [rung, here, Pc.rings, ready_of_line line] at unready
            cases unready
          · -- A `nack` that returns its error without notifying deserts it.
            exact deserts (Pc.deserts_of_resigns before resigns)
        · exact (Pool.has_set _ found).mpr (.inr ⟨k, other, mover, place, awake, heralding⟩)

/-- A call leaves every watcher announced what it has to learn. -/
theorem Announced.spawn {world : World T V} {call : Call T V} (announced : Announced world) :
    Announced (world.spawn ⟨call, call.entry, false⟩) := by
  intro j watcher there live unready watch watched stale
  rcases Nat.lt_or_ge j world.tasks.length with earlier | last
  · have before := (List.getElem?_append_left earlier).symm.trans there
    exact Pool.has_spawn.mpr (.inl (announced j watcher before live unready watch watched stale))
  · -- The new operation has not registered yet.
    have among := List.mem_of_getElem? ((List.getElem?_append_right last).symm.trans there)
    obtain rfl := List.mem_singleton.mp among
    have waiting := Pc.waiting_of_watched watched
    rw [call.entry_unwaiting] at waiting
    cases waiting

/-- Every watcher is announced what it has to learn, in every attentive run. -/
theorem announced_of_run {visibilityTimeout : Duration} {retryPolicy : RetryPolicy}
    {trace : List (Transition (World T V) (Action T V))} {world : World T V}
    (run : Run World.step Attentive (World.start visibilityTimeout retryPolicy) trace world) :
    Announced world := by
  -- Who waits in line is known on every attentive run.
  have known : ∀ {trace : List (Transition (World T V) (Action T V))} {world : World T V},
      Run World.step Attentive (World.start visibilityTimeout retryPolicy) trace world →
      world.shared.group.changed.Seats world.Parked :=
    fun run => seats_of_run (run.mono fun _ _ allowed => allowed.1)
  -- By induction on the run, with the line known before each step.
  refine run.invariant_of ?_ known ?_
  · intro j watcher there
    cases there
  · intro world act next attentive seats _ announced taken
    cases act with
    | call call =>
      cases step_stepped taken with
      | call fresh => exact announced.spawn
    | step i env =>
      obtain ⟨task, group, after, found, alive, moved, rfl⟩ := step_advanced taken
      exact announced.move seats found alive attentive moved
    | tick elapsed => cases taken; exact announced
    | setWallClock wallClock => cases taken; exact announced
    | drop i wrote => exact attentive.1.elim
    | reopen order => exact attentive.1.elim

/-- Once everything has come to rest, a watcher sleeps only on an active lease that it has seen the stream of. -/
theorem watchers_told {visibilityTimeout : Duration} {retryPolicy : RetryPolicy} {world : World T V}
    (reached : Reachable World.step Attentive (World.start visibilityTimeout retryPolicy) world)
    (settled : world.Settled) {i : Nat} {task : Task T V} (found : world.tasks[i]? = some task)
    (alive : task.cancelled = false) {id : MessageId} {after : UInt64}
    (sleeps : task.pc = .parkedStream id after) :
    ∃ lease, world.shared.group.state.leased.lookup id = some lease ∧
      ∀ chunk ∈ lease.stream, chunk.sequence ≤ after := by
  obtain ⟨trace, run⟩ := reached
  -- The sleeping watcher has not been woken.
  have unready : world.shared.group.changed.ready i = false := by
    rcases settled i task found with cancelled | finished | ⟨_, unready, _⟩
    · rw [alive] at cancelled
      cases cancelled
    · rw [sleeps] at finished
      cases finished
    · exact unready
  -- Were there something to learn, a wakeup would still be on its way.
  have fresh : world.shared.group.state.stale id after = false := by
    by_contra stale
    obtain ⟨j, other, there, live, heralds⟩ :=
      announced_of_run run i task found alive unready (id, after) (by rw [sleeps]; rfl)
        (by simpa using stale)
    -- Whoever is going to send a wakeup is neither done nor asleep.
    rcases settled j other there with cancelled | finished | ⟨waiting, _⟩
    · rw [live] at cancelled
      cases cancelled
    · rw [(Pc.active_of_heralds heralds).1] at finished
      cases finished
    · rw [(Pc.active_of_heralds heralds).2] at waiting
      cases waiting
  -- Nothing to learn means an active lease without later chunks.
  unfold State.stale at fresh
  split at fresh
  · cases fresh
  · rename_i lease active
    refine ⟨lease, active, fun chunk member => ?_⟩
    have unseen := List.any_eq_false.mp fresh chunk member
    simpa using unseen

/-- A watcher sleeps until the first chunk is published, and then watches on behind it. -/
def watchedChunk : List (Action Nat Nat) :=
  Action.run 0 (.enqueue ⟨⟨0⟩, 10, none⟩) 3 ++ Action.run 1 .claim 3 ++
    Action.run 2 (.partialResultsSince ⟨0⟩ 0) 4 ++
    Action.run 3 (.publishPartialResult ⟨0⟩ ⟨0⟩ 7 false) 2 ++ List.replicate 2 (.step 2 {}) ++
    Action.run 4 (.partialResultsSince ⟨0⟩ 1) 2

/-- The watcher of the second chunk sleeps on the lease of the first. -/
theorem watchers_told_first : ∃ world : World Nat Nat,
    ∃ lease, world.shared.group.state.leased.lookup ⟨0⟩ = some lease ∧
      ∀ chunk ∈ lease.stream, chunk.sequence ≤ 1 := by
  have reachable : ∃ world : World Nat Nat, Reachable World.step Attentive
      (World.start 30 .default) world ∧ world.Settled ∧
      ∃ task ∈ world.tasks[4]?, task.cancelled = false ∧ task.pc = .parkedStream ⟨0⟩ 1 :=
    reaches_of_exec watchedChunk _ (by decide +kernel)
  obtain ⟨world, reached, settled, task, found, alive, sleeps⟩ := reachable
  exact ⟨world, watchers_told reached settled found alive sleeps⟩

/-- A watcher sleeps, and the delivery that it watches is acknowledged. -/
def ackedUnheard : List (Action Nat Nat) :=
  Action.run 0 (.enqueue ⟨⟨0⟩, 10, none⟩) 3 ++ Action.run 1 .claim 3 ++
    Action.run 2 (.partialResultsSince ⟨0⟩ 0) 4 ++ Action.run 3 (.ack ⟨0⟩ ⟨0⟩) 2

/-- A watcher finds an empty stream, and registers only after the first chunk has been published. -/
def publishedUnheard : List (Action Nat Nat) :=
  Action.run 0 (.enqueue ⟨⟨0⟩, 10, none⟩) 3 ++ Action.run 1 .claim 3 ++
    Action.run 2 (.partialResultsSince ⟨0⟩ 0) 3 ++
    Action.run 3 (.publishPartialResult ⟨0⟩ ⟨0⟩ 7 false) 2 ++ [.step 2 {}]

/-- The watcher sleeps on without a lease in one case, and beside an unseen chunk in the other. -/
theorem watcher_sleeps :
    (∃ world : World Nat Nat,
      Reachable World.step (fun world act => Uninterrupted world act ∧ Calm world act)
        (World.start 30 .default) world ∧ world.Settled ∧
        (∃ task ∈ world.tasks[2]?, task.cancelled = false ∧ task.pc = .parkedStream ⟨0⟩ 0) ∧
        world.shared.group.state.leased.lookup ⟨0⟩ = none) ∧
    ∃ world : World Nat Nat,
      Reachable World.step (fun world act => Uninterrupted world act ∧ Calm world act)
        (World.start 30 .default) world ∧ world.Settled ∧
        (∃ task ∈ world.tasks[2]?, task.cancelled = false ∧ task.pc = .parkedStream ⟨0⟩ 0) ∧
        ∃ lease ∈ world.shared.group.state.leased.lookup ⟨0⟩,
          lease.stream = [⟨1, 7, false⟩] :=
  ⟨reaches_of_exec ackedUnheard _ (by decide +kernel),
    reaches_of_exec publishedUnheard _ (by decide +kernel)⟩

end Qaas
