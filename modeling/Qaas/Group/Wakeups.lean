import Qaas.Group.Sound

/-! Who waits for a wakeup of the group, and what each step does to the wakeups. -/

namespace Qaas

open Concurrency

variable {T V : Type}

/-- What the next step of an operation does to the wakeups. -/
def Pc.rings (self : Nat) (changed : Notify) : Pc T V → Notify
  | .notifyOne _ => changed.notifyOne
  | .notifyReclaimed | .notifyPublished _ => changed.notifyWaiters
  | .awaitChanged _ | .awaitStream _ _ => (changed.notified self).1
  | .parked _ | .parkedStream _ _ => changed.withdraw self
  | _ => changed

/-- Whether an operation is about to ask for a wakeup. -/
def Pc.asks : Pc T V → Bool
  | .awaitChanged _ | .awaitStream _ _ => true
  | _ => false

/-- An operation that is still running, and waits for a wakeup. -/
def World.Parked (world : World T V) (i : Nat) : Prop :=
  ∃ task, world.tasks[i]? = some task ∧ task.cancelled = false ∧ task.pc.waiting

/-- No continuation after a delivery has been resolved waits for a wakeup. -/
theorem ResolveCaller.unwaiting (caller : ResolveCaller T V) :
    caller.next.waiting = false ∧ caller.failed.waiting = false := by
  match caller with
  | .nack | .reclaim [] | .reclaim (_ :: _) => exact ⟨rfl, rfl⟩

/-- Only an operation that asks for a wakeup, and finds none stored, waits after its step. -/
theorem Moved.waiting {now : Instant} {wallClock : Timestamp} {env : StepEnv}
    {group group' : ConsumerGroup T V} {pc next : Pc T V}
    (moved : Moved now wallClock env group pc group' next) (silent : pc.asks = false) :
    next.waiting = false := by
  -- Only the two steps that register a listener can leave a task waiting.
  cases moved with
  | quiet changed quiet => cases quiet <;> first | rfl | cases silent
  | @enqueueFailed message caller failed =>
    cases keyed : message.idempotencyKey <;> rfl
  | @retried failed caller attemptsLeft => exact caller.unwaiting.1
  | @exhaustedFailed failed caller exhausted unsynced => exact caller.unwaiting.2
  | @deadLetteredWritten id caller synced => exact caller.unwaiting.1
  | @deadLetteredFailed id caller failed => exact caller.unwaiting.2
  | @removeWritten deadLetter caller synced =>
    cases caller with
    | reprocess => rfl
    | purge => cases keyed : deadLetter.idempotencyKey <;> simp [TakeCaller.next, keyed, Pc.waiting]
  | _ => rfl

/-- Whether the deadline of an operation's wait has passed. -/
def Pc.due (now : Instant) : Pc T V → Bool
  | .parked wakeAt => elapsed wakeAt now
  | _ => false

/-- Every call has returned, was cancelled, or waits without a wakeup, and no deadline has passed. -/
def World.Settled (world : World T V) : Prop :=
  world.All fun i task => task.cancelled ∨ task.pc.finished ∨
    task.pc.waiting ∧ world.shared.group.changed.ready i = false ∧
      task.pc.due world.shared.now = false

instance (world : World T V) : Decidable world.Settled :=
  inferInstanceAs (Decidable (world.All fun _ _ => _))

/-- A step changes the wakeups as its place says. -/
theorem move_rings {self : Nat} {now : Instant} {wallClock : Timestamp} {env : StepEnv}
    {group group' : ConsumerGroup T V} {pc next : Pc T V}
    (moved : group.move self now wallClock env pc = some (group', next)) :
    group'.changed = pc.rings self group.changed := by
  -- Most steps read and write the state alone; seven touch the shared `Notify`.
  cases pc with
  | reserve message key =>
    simp only [ConsumerGroup.move, ConsumerGroup.reserve] at moved
    split at moved <;> cases moved <;> rfl
  | reclaimExpired =>
    -- Whatever was expired, the sweep itself notifies nobody.
    simp only [ConsumerGroup.move, ConsumerGroup.reclaimExpired] at moved
    split at moved
    · split at moved <;> cases moved <;> rfl
    · cases moved
  | claimNext =>
    simp only [ConsumerGroup.move, ConsumerGroup.claimNext] at moved
    split at moved <;> cases moved <;> rfl
  | parked wakeAt =>
    simp only [ConsumerGroup.move] at moved
    split at moved
    · cases moved; rfl
    · rename_i unready
      split at moved <;> cases moved
      -- Nobody has picked this operation out, so its wait ends without passing a wakeup on.
      have unpicked : group.changed.woken.contains self = false := by
        simp only [Notify.ready, Bool.or_eq_true, not_or, Bool.not_eq_true] at unready
        exact unready.1
      simp only [Notify.cancel, unpicked, Bool.false_eq_true, if_false, Pc.rings]
  | parkedStream id after =>
    simp only [ConsumerGroup.move] at moved
    split at moved <;> cases moved
    rfl
  | resolve failed caller =>
    simp only [ConsumerGroup.move, ConsumerGroup.resolve] at moved
    split at moved <;> cases moved <;> rfl
  | releaseAcked id token =>
    simp only [ConsumerGroup.move, ConsumerGroup.releaseAcked] at moved
    split at moved <;> cases moved <;> rfl
  | releaseNacked id token reason =>
    simp only [ConsumerGroup.move, ConsumerGroup.releaseNacked] at moved
    split at moved <;> cases moved <;> rfl
  | storeCheckpoint id token state =>
    simp only [ConsumerGroup.move, ConsumerGroup.storeCheckpoint] at moved
    split at moved <;> cases moved <;> rfl
  | pushChunk id token data isFinal =>
    simp only [ConsumerGroup.move, ConsumerGroup.pushChunk] at moved
    split at moved <;> cases moved <;> rfl
  | takeEntry id caller =>
    simp only [ConsumerGroup.move, ConsumerGroup.takeEntry] at moved
    split at moved <;> cases moved <;> rfl
  | done result => cases moved
  | _ => cases moved; rfl

/-- A step of one operation takes no wakeup from another. -/
theorem rings_ready {i j : Nat} (apart : j ≠ i) {changed : Notify} (pc : Pc T V)
    (ready : changed.ready j = true) : (pc.rings i changed).ready j = true := by
  -- A wakeup that one task holds is never taken from it by another.
  cases pc with
  | notifyOne => exact Notify.ready_notifyOne ready
  | notifyReclaimed | notifyPublished => exact Notify.ready_notifyWaiters ready
  | awaitChanged | awaitStream => exact (Notify.ready_notified i j).trans ready
  | parked | parkedStream => exact (Notify.ready_withdraw apart).trans ready
  | _ => exact ready

/-- Asking for a wakeup goes on at once exactly if one is stored. -/
theorem listen_next (group : ConsumerGroup T V) (self : Nat) (ready waiting : Pc T V) :
    (group.listen self ready waiting).2 = if group.changed.permit then ready else waiting := by
  simp only [ConsumerGroup.listen, Notify.notified_taken]

/-- Where an operation goes on once it has its wakeup. -/
def Pc.roused : Pc T V → Pc T V
  | .awaitChanged _ | .parked _ => .reclaimExpired
  | .awaitStream id after | .parkedStream id after => .pollStream id after
  | pc => pc

/-- Where an operation waits that has asked for a wakeup. -/
def Pc.seated : Pc T V → Pc T V
  | .awaitChanged wakeAt => .parked wakeAt
  | .awaitStream id after => .parkedStream id after
  | pc => pc

/-- An operation that asks for a wakeup waits nowhere else, and not once it has the wakeup. -/
theorem Pc.asks_parts {pc : Pc T V} (asks : pc.asks) :
    pc.waiting = false ∧ pc.roused.waiting = false ∧ pc.seated.waiting = true := by
  cases pc with
  | awaitChanged | awaitStream => exact ⟨rfl, rfl, rfl⟩
  | _ => cases asks

/-- Asking for a wakeup takes the stored one or joins the line. -/
theorem Pc.rings_of_asks {pc : Pc T V} (asks : pc.asks) (self : Nat) (changed : Notify) :
    pc.rings self changed = (changed.notified self).1 := by
  cases pc with
  | awaitChanged | awaitStream => rfl
  | _ => cases asks

/-- An operation that stops waiting gives up its seat. -/
theorem Pc.rings_of_waiting {pc : Pc T V} (waiting : pc.waiting) (self : Nat) (changed : Notify) :
    pc.rings self changed = changed.withdraw self := by
  cases pc with
  | parked | parkedStream => rfl
  | _ => cases waiting

/-- An operation that has returned does not wait. -/
theorem Pc.unwaiting_of_finished {pc : Pc T V} (finished : pc.finished) : pc.waiting = false := by
  cases pc with
  | done => rfl
  | _ => cases finished

/-- An operation that has waited no longer waits. -/
theorem Pc.roused_of_waiting {pc : Pc T V} (waiting : pc.waiting) : pc.roused.waiting = false := by
  cases pc with
  | parked | parkedStream => rfl
  | _ => cases waiting

/-- An operation that asks for a wakeup waits for it exactly if none is stored. -/
theorem move_asks {self : Nat} {now : Instant} {wallClock : Timestamp} {env : StepEnv}
    {group group' : ConsumerGroup T V} {pc next : Pc T V} (asks : pc.asks)
    (moved : group.move self now wallClock env pc = some (group', next)) :
    next = if group.changed.permit then pc.roused else pc.seated := by
  -- A stored permit is taken at once; without one the task joins the line.
  cases pc with
  | awaitChanged wakeAt =>
    have listened := listen_next group self (.reclaimExpired : Pc T V) (.parked wakeAt)
    rw [Option.some.inj moved] at listened
    exact listened
  | awaitStream id after =>
    have listened := listen_next group self (.pollStream id after : Pc T V) (.parkedStream id after)
    rw [Option.some.inj moved] at listened
    exact listened
  | _ => cases asks

/-- An operation that waits moves on only with its wakeup, or when its deadline has passed. -/
theorem move_waiting {self : Nat} {now : Instant} {wallClock : Timestamp} {env : StepEnv}
    {group group' : ConsumerGroup T V} {pc next : Pc T V} (waiting : pc.waiting)
    (moved : group.move self now wallClock env pc = some (group', next)) : next = pc.roused := by
  cases pc with
  | parked wakeAt =>
    simp only [ConsumerGroup.move] at moved
    split at moved
    · -- Notified or timed out, a waiting claim goes back to reclaiming expired leases.
      cases moved; rfl
    · split at moved <;> cases moved
      rfl
  | parkedStream id after =>
    simp only [ConsumerGroup.move] at moved
    split at moved <;> cases moved
    rfl
  | _ => cases waiting

/-- One step of an operation, with the lock's own account of it. -/
theorem step_advanced {world world' : World T V} {i : Nat} {env : StepEnv}
    (taken : world.step (.step i env) = some world') :
    ∃ task group next, world.tasks[i]? = some task ∧ task.cancelled = false ∧
      world.shared.group.move i world.shared.now world.shared.wallClock env task.pc = some (group, next) ∧
      world' = ⟨{ world.shared with group := group }, world.tasks.set i { task with pc := next }⟩ := by
  obtain ⟨task, shared, moved, found, advanced, rfl⟩ := Pool.advance_eq_some.mp taken
  -- A cancelled task takes no further step.
  unfold Runtime.advance at advanced
  split at advanced
  · cases advanced
  · rename_i alive
    obtain ⟨⟨group, next⟩, stepped, same⟩ := Option.map_eq_some_iff.mp advanced
    cases same
    exact ⟨task, group, next, found, by simpa using alive, stepped, rfl⟩

/-- A live task's move changes only its own standing. -/
theorem parked_set {world : World T V} {shared : Runtime T V} {i : Nat} {task moved : Task T V}
    (found : world.tasks[i]? = some task) (j : Nat) :
    World.Parked ⟨shared, world.tasks.set i moved⟩ j ↔
      (j ≠ i ∧ world.Parked j) ∨ (j = i ∧ moved.cancelled = false ∧ moved.pc.waiting) :=
  Pool.at_set (p := fun task : Task T V => task.cancelled = false ∧ task.pc.waiting) moved found j

/-- An operation that was not waiting is parked after its step exactly if it waits then. -/
theorem seats_of_away {notify : Notify} {world : World T V} {shared : Runtime T V} {i : Nat}
    {task moved : Task T V} (seats : notify.Seats world.Parked) (found : world.tasks[i]? = some task)
    (away : ¬ world.Parked i) (unwaiting : moved.pc.waiting = false) :
    notify.Seats (World.Parked ⟨shared, world.tasks.set i moved⟩) := by
  apply seats.congr
  intro j
  -- The stepping task was not in line before and is not in line after.
  rw [parked_set found]
  simp only [unwaiting, Bool.false_eq_true, and_false, or_false]
  constructor
  · exact fun there => ⟨fun same => away (same ▸ there), there⟩
  · exact fun there => there.2

/-- A step of an operation keeps the seats in order. -/
theorem seats_of_move {world : World T V} {i : Nat} {env : StepEnv} {task : Task T V}
    {group : ConsumerGroup T V} {next : Pc T V}
    (seats : world.shared.group.changed.Seats world.Parked) (found : world.tasks[i]? = some task)
    (alive : task.cancelled = false)
    (moved : world.shared.group.move i world.shared.now world.shared.wallClock env task.pc =
      some (group, next)) :
    group.changed.Seats
      (World.Parked ⟨{ world.shared with group := group }, world.tasks.set i { task with pc := next }⟩) := by
  have parked : world.Parked i ↔ task.pc.waiting := by
    simp [World.Parked, found, alive]
  rw [move_rings moved]
  by_cases asks : task.pc.asks
  · -- The stored wakeup is taken, or the operation joins the line.
    obtain ⟨unwaiting, roused, seated⟩ := Pc.asks_parts asks
    rw [Pc.rings_of_asks asks]
    apply (seats.notified (by simp [parked, unwaiting])).congr
    intro j
    rw [parked_set found, move_asks asks moved]
    by_cases own : j = i
    · subst own
      cases world.shared.group.changed.permit <;> simp [parked, unwaiting, alive, roused, seated]
    · simp [own]
  · by_cases waiting : task.pc.waiting
    · -- The operation leaves its seat.
      rw [Pc.rings_of_waiting waiting]
      apply (seats.withdraw i).congr
      intro j
      rw [parked_set found, move_waiting waiting moved]
      simp [Pc.roused_of_waiting waiting, and_comm]
    · have away : ¬ world.Parked i := by rwa [parked]
      have unwaiting := (move_moved moved).waiting (by simpa using asks)
      -- Nobody gains or loses a seat, whoever is woken.
      cases here : task.pc with
      | notifyOne => exact seats_of_away seats.notifyOne found away unwaiting
      | notifyReclaimed | notifyPublished =>
        exact seats_of_away seats.notifyWaiters found away unwaiting
      | awaitChanged | awaitStream => rw [here] at asks; exact absurd rfl asks
      | parked | parkedStream => rw [here] at waiting; exact absurd rfl waiting
      | _ => exact seats_of_away seats found away unwaiting

/-- No operation starts out waiting. -/
theorem Call.entry_unwaiting (call : Call T V) : call.entry.waiting = false := by
  cases call with
  | enqueue message => cases keyed : message.idempotencyKey <;> simp [Call.entry, keyed, Pc.waiting]
  | _ => rfl

/-- A call parks nobody. -/
theorem parked_spawn {world : World T V} {call : Call T V} (i : Nat) :
    World.Parked (world.spawn ⟨call, call.entry, false⟩) i ↔ world.Parked i :=
  -- The new operation stands at its first step, which is never one of waiting.
  Pool.at_spawn (p := fun task : Task T V => task.cancelled = false ∧ task.pc.waiting)
    (by simp [call.entry_unwaiting]) i

/-- No call is cancelled, and the process goes on. -/
def Uninterrupted (_ : World T V) : Action T V → Prop
  | .drop _ _ | .reopen _ => False
  | .call _ | .step _ _ | .tick _ | .setWallClock _ => True

instance (world : World T V) (act : Action T V) : Decidable (Uninterrupted world act) :=
  match act with
  | .drop _ _ | .reopen _ => .isFalse id
  | .call _ | .step _ _ | .tick _ | .setWallClock _ => .isTrue trivial

/-- The seats are in order in every run of one process in which no call is cancelled. -/
theorem seats_of_run {visibilityTimeout : Duration} {retryPolicy : RetryPolicy}
    {trace : List (Transition (World T V) (Action T V))} {world : World T V}
    (run : Run World.step Uninterrupted (World.start visibilityTimeout retryPolicy) trace world) :
    world.shared.group.changed.Seats world.Parked := by
  -- Along the run: the listeners in line are the tasks that wait.
  induction run with
  | nil =>
    exact ⟨List.nodup_nil, fun i => by simp [World.start, World.Parked, ConsumerGroup.opened, Notify.seats],
      nofun⟩
  | @snoc trace world next act _ uninterrupted taken seats =>
    cases act with
    | call call =>
      cases step_stepped taken with
      | call fresh =>
        exact seats.congr fun i => (parked_spawn i).symm
    | step i env =>
      obtain ⟨task, group, after, found, alive, moved, rfl⟩ := step_advanced taken
      exact seats_of_move seats found alive moved
    | tick elapsed => cases taken; exact seats
    | setWallClock wallClock => cases taken; exact seats
    | drop i wrote => exact uninterrupted.elim
    | reopen order => exact uninterrupted.elim

end Qaas
