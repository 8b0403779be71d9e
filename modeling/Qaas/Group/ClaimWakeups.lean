import Qaas.Group.Restart
import Qaas.Group.Wakeups

/-! Whether a claim sleeps while a message is pending, on wakeups that stream watchers share. -/

namespace Qaas

open Concurrency

variable {T V : Type}

/-- Whether an operation is sure to look at the pending messages again, or to send a wakeup for one. -/
def Pc.heeds : Pc T V → Bool
  | .reclaimExpired | .notifyReclaimed | .claimNext => true
  -- A claim goes on however the deliveries that it resolves end.
  | .resolve _ (.reclaim _) | .insertDeadLetter _ (.reclaim _) | .appendDeadLettered _ (.reclaim _) => true
  | .pushPending _ _ | .notifyOne _ => true
  | _ => false

/-- Whether a claim has looked at the pending messages and has no wakeup to look again. -/
def Pc.claimWaits (ready : Bool) : Pc T V → Bool
  | .awaitChanged _ => true
  | .parked _ => !ready
  | _ => false

/-- Whether a waiting claim has a wakeup to look at the pending messages again. -/
def Pc.claimWakes (ready : Bool) : Pc T V → Bool
  | .parked _ => ready
  | _ => false

/-- Whether a stream watcher takes a wakeup that was sent to one waiter. -/
def Pc.takes (changed : Notify) (self : Nat) : Pc T V → Bool
  | .awaitStream _ _ => changed.permit
  | .parkedStream _ _ => changed.woken.contains self
  | _ => false

/-- A claim waits. -/
def World.ClaimWaits (world : World T V) : Prop :=
  world.Has fun i task =>
    task.cancelled = false ∧ task.pc.claimWaits (world.shared.group.changed.ready i)

/-- With these wakeups something is on its way to the claims that wait. -/
def World.Stirring (world : World T V) (changed : Notify) : Prop :=
  changed.permit ∨ changed.woken ≠ [] ∨
    world.Has fun i task => task.cancelled = false ∧
      (task.pc.heeds ∨ task.pc.claimWakes (changed.ready i))

/-- While a message is pending and a claim waits, something is on its way to the claims. -/
def Heard (world : World T V) : Prop :=
  world.shared.group.state.pending ≠ [] → world.ClaimWaits →
    world.Stirring world.shared.group.changed

/--
No stream watcher takes the last wakeup that a waiting claim needs.

While a message is pending and a claim waits, a watcher takes a wakeup sent to one waiter only if
another one is left, or a claim or an enqueue is still going to act on the message.
-/
def Considerate (world : World T V) (act : Action T V) : Prop :=
  Uninterrupted world act ∧
    match act with
    | .step i _ => ∀ task ∈ world.tasks[i]?, task.pc.takes world.shared.group.changed i →
        world.shared.group.state.pending ≠ [] → world.ClaimWaits →
        world.Stirring (task.pc.rings i world.shared.group.changed)
    | _ => True

instance (world : World T V) : Decidable world.ClaimWaits :=
  inferInstanceAs (Decidable (world.Has fun _ _ => _))

instance (world : World T V) (changed : Notify) : Decidable (world.Stirring changed) :=
  inferInstanceAs (Decidable (_ ∨ _ ∨ world.Has fun _ _ => _))

instance (world : World T V) (act : Action T V) : Decidable (Considerate world act) :=
  match act with
  | .step i _ => inferInstanceAs (Decidable (_ ∧ ∀ task ∈ world.tasks[i]?,
      task.pc.takes world.shared.group.changed i → world.shared.group.state.pending ≠ [] →
        world.ClaimWaits → world.Stirring (task.pc.rings i world.shared.group.changed)))
  | .call _ | .drop _ _ | .tick _ | .setWallClock _ | .reopen _ =>
    inferInstanceAs (Decidable (_ ∧ True))

/-- A resolution of an expired lease always goes on with its claim. -/
theorem ResolveCaller.reclaim_heeds (rest : List (FailedDelivery T V)) :
    (ResolveCaller.reclaim rest).next.heeds ∧ (ResolveCaller.reclaim rest).failed.heeds := by
  cases rest <;> exact ⟨rfl, rfl⟩

/-- Whoever heeds the pending messages goes on heeding, until it has sent its wakeup or found none. -/
theorem Moved.heeds {now : Instant} {wallClock : Timestamp} {env : StepEnv}
    {group group' : ConsumerGroup T V} {pc next : Pc T V}
    (moved : Moved now wallClock env group pc group' next) (heeds : pc.heeds)
    (silent : ∀ result, pc ≠ .notifyOne result) : next.heeds ∨ group'.state.pending = [] := by
  -- A claim that is looking goes on looking until it finds a message or an empty queue.
  cases moved with
  | quiet changed quiet =>
    cases quiet with
    | notifyOne result => exact absurd rfl (silent result)
    | reclaimNone | notifyReclaimed => exact .inl rfl
    | _ => cases heeds
  | pushPending | reclaim | claimed => exact .inl rfl
  -- Only an empty queue sends a claim to wait.
  | promoted wakeAt empty => exact .inr empty
  | @retried failed caller attemptsLeft | @exhaustedFailed failed caller exhausted unsynced
  | @deadLetteredWritten other caller synced | @deadLetteredFailed other caller failed =>
    cases caller with
    | nack => cases heeds
    | reclaim rest => exact .inl (ResolveCaller.reclaim_heeds rest).1
  | @exhaustedWritten failed caller exhausted synced | @insertDeadLetter deadLetter caller =>
    cases caller with
    | nack => cases heeds
    | reclaim rest => exact .inl rfl
  | _ => cases heeds

/-- A step that changes the pending messages goes on to send a wakeup, or leaves none pending. -/
theorem Moved.pending {now : Instant} {wallClock : Timestamp} {env : StepEnv}
    {group group' : ConsumerGroup T V} {pc next : Pc T V}
    (moved : Moved now wallClock env group pc group' next) :
    group'.state.pending = group.state.pending ∨ next.heeds ∨ group'.state.pending = [] := by
  -- Whoever pushes goes on to notify, and whoever pops goes on to look or to notify.
  cases moved with
  | pushPending | claimed => exact .inr (.inl rfl)
  | promoted wakeAt empty => exact .inr (.inr empty)
  | _ => exact .inl rfl

/-- A claim that waits after its step has just asked for a wakeup, unless it found nothing pending. -/
theorem Moved.claimWaits {now : Instant} {wallClock : Timestamp} {env : StepEnv}
    {group group' : ConsumerGroup T V} {pc next : Pc T V}
    (moved : Moved now wallClock env group pc group' next) {ready : Bool} (waits : next.claimWaits ready) :
    (∃ wakeAt, pc = .awaitChanged wakeAt) ∨ group'.state.pending = [] := by
  -- A claim reaches its wait from the empty queue or by taking its seat.
  cases moved with
  | quiet changed quiet =>
    cases quiet with
    | park wakeAt => exact .inl ⟨wakeAt, rfl⟩
    | _ => cases waits
  | promoted wakeAt empty => exact .inr empty
  | @enqueueFailed message caller failed =>
    cases keyed : message.idempotencyKey <;> rw [keyed] at waits <;> cases waits
  | @retried failed caller attemptsLeft | @exhaustedFailed failed caller exhausted unsynced
  | @deadLetteredWritten other caller synced | @deadLetteredFailed other caller failed =>
    match caller with
    | .nack | .reclaim [] | .reclaim (_ :: _) => cases waits
  | @removeWritten deadLetter caller synced =>
    cases caller with
    | reprocess => cases waits
    | purge =>
      cases keyed : deadLetter.idempotencyKey <;> simp only [TakeCaller.next, keyed] at waits <;>
        cases waits
  | _ => cases waits

/-- What stirs without the help of one operation stirs after that operation's step. -/
theorem World.Stirring.set {world : World T V} {shared : Runtime T V} {i : Nat} {task moved : Task T V}
    {changed : Notify} (stirring : world.Stirring changed) (found : world.tasks[i]? = some task)
    (unheeding : ¬ task.pc.heeds) (unawoken : ¬ task.pc.claimWakes (changed.ready i)) :
    World.Stirring ⟨shared, world.tasks.set i moved⟩ changed := by
  refine stirring.imp_right (Or.imp_right ?_)
  -- Another task does the waking, and it is still where it was.
  rintro ⟨j, other, there, alive, acts⟩
  refine (Pool.has_set moved found).mpr (.inr ⟨j, other, ?_, there, alive, acts⟩)
  intro same
  subst same
  obtain rfl := Option.some.inj (found.symm.trans there)
  exact acts.elim unheeding unawoken

/-- A claim that has had to wait looks at the pending messages as soon as it moves on. -/
theorem heeds_of_parked {self : Nat} {now : Instant} {wallClock : Timestamp} {env : StepEnv}
    {group group' : ConsumerGroup T V} {wakeAt : Option Instant} {next : Pc T V}
    (moved : group.move self now wallClock env (.parked wakeAt) = some (group', next)) : next.heeds := by
  obtain rfl : next = .reclaimExpired := move_waiting rfl moved
  rfl

/-- A claim that finds a wakeup stored looks at the pending messages again. -/
theorem heeds_of_stored {self : Nat} {now : Instant} {wallClock : Timestamp} {env : StepEnv}
    {group group' : ConsumerGroup T V} {wakeAt : Option Instant} {next : Pc T V}
    (moved : group.move self now wallClock env (.awaitChanged wakeAt) = some (group', next))
    (stored : group.changed.permit = true) : next.heeds := by
  obtain rfl : next = .reclaimExpired := by
    -- The stored permit is consumed without waiting.
    have asked := move_asks rfl moved
    rwa [stored, if_pos rfl] at asked
  rfl

/-- An operation that takes no wakeup meant for one waiter leaves what stirs. -/
theorem stirring_rings {world : World T V} {i : Nat} {env : StepEnv} {task : Task T V}
    {group : ConsumerGroup T V} {next : Pc T V}
    (stirring : world.Stirring world.shared.group.changed) (found : world.tasks[i]? = some task)
    (moved : world.shared.group.move i world.shared.now world.shared.wallClock env task.pc =
      some (group, next))
    (unheeding : ¬ task.pc.heeds) (idle : ¬ next.heeds)
    (spares : ¬ task.pc.takes world.shared.group.changed i) :
    world.Stirring (task.pc.rings i world.shared.group.changed) := by
  rcases stirring with stored | picked | ⟨j, other, there, alive, acts⟩
  · -- Only those who ask for a wakeup take the stored one.
    refine .inl ?_
    cases here : task.pc with
    | awaitChanged wakeAt => rw [here] at moved; exact absurd (heeds_of_stored moved stored) idle
    | awaitStream id after => exact absurd stored (by simpa [here, Pc.takes] using spares)
    | notifyOne => rw [here] at unheeding; exact absurd rfl unheeding
    | _ => exact stored
  · refine .inr (.inl ?_)
    cases here : task.pc with
    | awaitChanged wakeAt | awaitStream id after =>
      simp only [Pc.rings, Notify.notified]
      split <;> exact picked
    | parked wakeAt => rw [here] at moved; exact absurd (heeds_of_parked moved) idle
    | parkedStream id after =>
      -- This one was not among those that were picked out.
      have unpicked : i ∉ world.shared.group.changed.woken := by
        simpa [here, Pc.takes] using spares
      simp only [Pc.rings, Notify.withdraw, List.erase_of_not_mem unpicked]
      exact picked
    | notifyOne => rw [here] at unheeding; exact absurd rfl unheeding
    | _ => exact picked
  · -- Whoever acts on the messages is another operation, and keeps its wakeup.
    refine .inr (.inr ⟨j, other, there, alive, acts.imp_right fun awoken => ?_⟩)
    cases here : other.pc with
    | parked wakeAt =>
      rw [here] at awoken
      by_cases own : j = i
      · subst own
        obtain rfl := Option.some.inj (found.symm.trans there)
        rw [here] at moved
        exact absurd (heeds_of_parked moved) idle
      · exact rings_ready own task.pc awoken
    | _ => rw [here] at awoken; cases awoken

/-- One step of an operation leaves no waiting claim unheard. -/
theorem Heard.move {world : World T V} {i : Nat} {env : StepEnv} {task : Task T V}
    {group : ConsumerGroup T V} {next : Pc T V} (heard : Heard world)
    (found : world.tasks[i]? = some task) (alive : task.cancelled = false)
    (considerate : Considerate world (.step i env))
    (moved : world.shared.group.move i world.shared.now world.shared.wallClock env task.pc =
      some (group, next)) :
    Heard ⟨{ world.shared with group := group }, world.tasks.set i { task with pc := next }⟩ := by
  have way := move_moved moved
  intro pending waits
  show World.Stirring _ group.changed
  rw [move_rings moved]
  by_cases notifies : ∃ result, task.pc = .notifyOne result
  · -- The wakeup is stored, or some waiter has it now.
    obtain ⟨result, here⟩ := notifies
    rw [here]
    exact (Notify.notifyOne_sent _).imp_right Or.inl
  · by_cases heeds : next.heeds
    · exact .inr (.inr ((Pool.has_set _ found).mpr (.inl ⟨alive, .inl heeds⟩)))
    · -- The operation has nothing to do with the pending messages.
      have unheeding : ¬ task.pc.heeds := by
        intro before
        rcases way.heeds before fun result here => notifies ⟨result, here⟩ with after | empty
        · exact heeds after
        · exact pending empty
      have same : group.state.pending = world.shared.group.state.pending := by
        rcases way.pending with same | after | empty
        · exact same
        · exact absurd after heeds
        · exact absurd empty pending
      -- The claim that waits now was waiting before, or the queue is empty.
      have waited : world.ClaimWaits := by
        rcases (Pool.has_set _ found).mp waits with ⟨_, own⟩ | ⟨j, other, apart, there, live, waiting⟩
        · rcases way.claimWaits own with ⟨wakeAt, here⟩ | empty
          · exact ⟨i, task, found, alive, by rw [here]; rfl⟩
          · exact absurd empty pending
        · refine ⟨j, other, there, live, ?_⟩
          cases here : other.pc with
          | parked wakeAt =>
            -- A claim without a wakeup now had none before.
            rw [here] at waiting
            cases ready : world.shared.group.changed.ready j with
            | false => rfl
            | true =>
              have still := rings_ready apart task.pc ready
              rw [← move_rings moved] at still
              simp only [Pc.claimWaits, still] at waiting
              cases waiting
          | awaitChanged wakeAt => rfl
          | _ => rw [here] at waiting; cases waiting
      rw [same] at pending
      have stirring : world.Stirring (task.pc.rings i world.shared.group.changed) := by
        by_cases takes : task.pc.takes world.shared.group.changed i
        · exact considerate.2 task found takes pending waited
        · exact stirring_rings (heard pending waited) found moved unheeding heeds takes
      apply stirring.set found unheeding
      intro awoken
      cases here : task.pc with
      | parked wakeAt => rw [here] at moved; exact heeds (heeds_of_parked moved)
      | _ => rw [here] at awoken; cases awoken

/-- A call leaves no waiting claim unheard. -/
theorem Heard.spawn {world : World T V} {call : Call T V} (heard : Heard world) :
    Heard (world.spawn ⟨call, call.entry, false⟩) := by
  intro pending waits
  -- A call that only starts waits for nothing.
  have unwaiting : ∀ ready, (call.entry : Pc T V).claimWaits ready = false := by
    intro ready
    cases call with
    | enqueue message => cases keyed : message.idempotencyKey <;> simp [Call.entry, keyed, Pc.claimWaits]
    | _ => rfl
  rcases Pool.has_spawn.mp waits with before | ⟨_, new⟩
  · exact (heard pending before).imp_right (Or.imp_right fun acts => Pool.has_spawn.mpr (.inl acts))
  · rw [unwaiting] at new
    cases new

/-- No waiting claim is ever unheard in a considerate run. -/
theorem heard_of_run {visibilityTimeout : Duration} {retryPolicy : RetryPolicy}
    {trace : List (Transition (World T V) (Action T V))} {world : World T V}
    (run : Run World.step Considerate (World.start visibilityTimeout retryPolicy) trace world) :
    Heard world := by
  -- The queue starts empty.
  have initial : Heard (World.start visibilityTimeout retryPolicy : World T V) :=
    fun pending => absurd rfl pending
  -- By induction on the run, one action at a time.
  apply run.invariant initial
  intro world act next considerate heard taken
  cases act with
  | call call =>
    cases step_stepped taken with
    | call fresh => exact heard.spawn
  | step i env =>
    obtain ⟨task, group, after, found, alive, moved, rfl⟩ := step_advanced taken
    exact heard.move found alive considerate moved
  | tick elapsed => cases taken; exact heard
  | setWallClock wallClock => cases taken; exact heard
  | drop i wrote => exact considerate.1.elim
  | reopen order => exact considerate.1.elim

/-- An operation at rest is not about to look at the pending messages. -/
theorem Pc.unheeding_of_rest {pc : Pc T V} (rests : pc.finished ∨ pc.waiting) : ¬ pc.heeds := by
  intro heeds
  cases pc with
  | done | parked | parkedStream => cases heeds
  | _ => rcases rests with finished | waiting <;> contradiction

/-- A claim without a wakeup does not wake. -/
theorem Pc.unwoken (pc : Pc T V) : ¬ pc.claimWakes false := by
  intro wakes
  cases pc <;> cases wakes

/-- Once everything has come to rest, nobody has a wakeup that it has not taken. -/
theorem World.Settled.unready {world : World T V} (settled : world.Settled)
    (seats : world.shared.group.changed.Seats world.Parked) (j : Nat) :
    world.shared.group.changed.ready j = false := by
  by_contra ready
  obtain ⟨other, there, live, waiting⟩ := seats.parked_of_ready (by simpa using ready)
  rcases settled j other there with cancelled | finished | ⟨_, asleep, _⟩
  · rw [live] at cancelled
    cases cancelled
  · rw [Pc.unwaiting_of_finished finished] at waiting
    cases waiting
  · exact ready asleep

/-- Once everything has come to rest, a claim sleeps only if no message is pending. -/
theorem claims_awake {visibilityTimeout : Duration} {retryPolicy : RetryPolicy} {world : World T V}
    (reached : Reachable World.step Considerate (World.start visibilityTimeout retryPolicy) world)
    (settled : world.Settled) {i : Nat} {task : Task T V} (found : world.tasks[i]? = some task)
    (alive : task.cancelled = false) {wakeAt : Option Instant} (sleeps : task.pc = .parked wakeAt) :
    world.shared.group.state.pending = [] := by
  obtain ⟨trace, run⟩ := reached
  have seats := seats_of_run (run.mono fun _ _ allowed => allowed.1)
  have unready := settled.unready seats
  by_contra pending
  -- The sleeping claim itself waits unheard.
  have waits : world.ClaimWaits := ⟨i, task, found, alive, by simp [sleeps, Pc.claimWaits, unready i]⟩
  rcases heard_of_run run pending waits with stored | picked | ⟨j, other, there, live, acts⟩
  · -- A stored wakeup would have been sent to the claim in line.
    have parked : world.Parked i := ⟨task, found, alive, by rw [sleeps]; rfl⟩
    rw [seats.unstored_of_unready unready parked] at stored
    cases stored
  · -- Nobody has been picked out by `notify_one` either.
    exact picked (Notify.woken_of_unready unready)
  · rw [unready j] at acts
    rcases settled j other there with cancelled | rests
    · rw [live] at cancelled; cases cancelled
    · exact acts.elim (Pc.unheeding_of_rest (rests.imp_right And.left)) other.pc.unwoken

/-- A claim and then a stream watcher wait; an enqueue wakes the claim, which wakes the watcher. -/
def claimFirst : List (Action Nat Nat) :=
  Action.run 0 (.enqueue ⟨⟨0⟩, 10, none⟩) 3 ++ Action.run 1 .claim 3 ++ Action.run 2 .claim 6 ++
    Action.run 3 (.partialResultsSince ⟨0⟩ 0) 2 ++ Action.run 4 (.enqueue ⟨⟨1⟩, 11, none⟩) 3 ++
    List.replicate 4 (.step 2 {}) ++ List.replicate 3 (.step 3 {}) ++ Action.run 5 .claim 3

/-- The next claim sleeps with nothing pending. -/
theorem claims_awake_first : ∃ world : World Nat Nat,
    (∃ task ∈ world.tasks[5]?, task.pc = .parked (some 30)) ∧
      world.shared.group.state.pending = [] := by
  -- Both messages are out on leases by the time the last claim looks.
  have reachable : ∃ world : World Nat Nat, Reachable World.step Considerate
      (World.start 30 .default) world ∧ world.Settled ∧
      ∃ task ∈ world.tasks[5]?, task.cancelled = false ∧ task.pc = .parked (some 30) :=
    reaches_of_exec claimFirst _ (by decide +kernel)
  obtain ⟨world, reached, settled, task, found, alive, sleeps⟩ := reachable
  exact ⟨world, ⟨task, found, sleeps⟩, claims_awake reached settled found alive sleeps⟩

/-- A stream watcher and then a claim wait; an enqueue wakes the watcher, which goes back to sleep. -/
def watcherFirst : List (Action Nat Nat) :=
  Action.run 0 (.enqueue ⟨⟨0⟩, 10, none⟩) 3 ++ Action.run 1 .claim 3 ++
    Action.run 2 (.partialResultsSince ⟨0⟩ 0) 4 ++ Action.run 3 .claim 3 ++
    Action.run 4 (.enqueue ⟨⟨1⟩, 11, none⟩) 3 ++ List.replicate 3 (.step 2 {})

/-- Nobody wakes the claim for the message that is pending now. -/
theorem claim_sleeps : ∃ world : World Nat Nat,
    Reachable World.step (fun world act => Uninterrupted world act ∧ Calm world act)
      (World.start 30 .default) world ∧ world.Settled ∧
      (∃ task ∈ world.tasks[3]?, task.cancelled = false ∧ task.pc = .parked (some 30)) ∧
      world.shared.group.state.pending.map Pending.id = [⟨1⟩] :=
  reaches_of_exec watcherFirst _ (by decide +kernel)

end Qaas
