import Qaas.Concurrency.Renaming
import Qaas.Group.Wakeups

/-! A group whose operations go by other names elsewhere: only its waiters know them. -/

namespace Qaas

open Concurrency

variable {T V : Type}

/-- The same group, with its waiters under the names that they have elsewhere. -/
def ConsumerGroup.rename (g : Nat → Nat) (group : ConsumerGroup T V) : ConsumerGroup T V :=
  { group with changed := group.changed.rename g }

/-- The group after a step, with its waiters under their other names, and the step that comes next. -/
def renamed (g : Nat → Nat) (moved : ConsumerGroup T V × Pc T V) : ConsumerGroup T V × Pc T V :=
  (moved.1.rename g, moved.2)

section

variable {g : Nat → Nat} {group : ConsumerGroup T V} {self : Nat} {now : Instant} {wallClock : Timestamp}

/-- Two renamings that agree on the waiters do the same. -/
theorem ConsumerGroup.rename_congr {other : Nat → Nat}
    (agree : ∀ task ∈ group.changed.seats, g task = other task) : group.rename g = group.rename other := by
  unfold rename
  rw [Notify.rename_congr agree]

/-- An operation asks for a wakeup under its other name, and goes on as under its own. -/
theorem ConsumerGroup.listen_rename (ready waiting : Pc T V) :
    (group.rename g).listen (g self) ready waiting = renamed g (group.listen self ready waiting) := by
  unfold listen rename
  dsimp only
  rw [Notify.notified_rename]
  rfl

/-- An operation takes the same step under its other name. -/
theorem ConsumerGroup.move_rename (env : StepEnv) (pc : Pc T V) (lone : Lone g group.changed.seats self) :
    (group.rename g).move (g self) now wallClock env pc =
      (group.move self now wallClock env pc).map (renamed g) := by
  cases pc with
  -- These steps wake others, whose places in the line are the same.
  | notifyOne | notifyReclaimed | notifyPublished => simp [move, rename, renamed]
  -- These ask for a wakeup, and may come to stand in line.
  | awaitChanged wakeAt | awaitStream id after => exact congrArg some (listen_rename _ _)
  -- These look whether they have been woken.
  | parked wakeAt =>
    simp only [move, rename, Notify.ready_rename lone, Notify.withdraw_rename lone, Notify.cancel_rename lone]
    split
    · rfl
    · split <;> rfl
  | parkedStream id after =>
    simp only [move, rename, Notify.ready_rename lone, Notify.withdraw_rename lone]
    split <;> rfl
  -- The others do not look at the waiters.
  | reserve message key =>
    unfold move reserve
    dsimp only [rename]
    split <;> rfl
  | reclaimExpired =>
    unfold move reclaimExpired
    dsimp only [rename]
    by_cases iterates : env.order.Nodup ∧ env.order.toFinset = group.state.expiredIds now
    · rw [if_pos iterates]
      refine (if_pos iterates).trans ?_
      split <;> rfl
    · rw [if_neg iterates]
      exact if_neg iterates
  | claimNext =>
    unfold move claimNext
    dsimp only [rename]
    split <;> rfl
  | resolve failed caller =>
    unfold move resolve
    dsimp only
    by_cases exhausted : group.retryPolicy.isExhausted failed.deliveryCount
    · rw [if_pos exhausted]
      exact congrArg some (if_pos exhausted)
    · rw [if_neg exhausted]
      exact congrArg some (if_neg exhausted)
  | releaseAcked id token =>
    unfold move releaseAcked
    dsimp only [rename]
    split <;> rfl
  | releaseNacked id token reason =>
    unfold move releaseNacked
    dsimp only [rename]
    split <;> rfl
  | storeCheckpoint id token state =>
    unfold move storeCheckpoint
    dsimp only [rename]
    split <;> rfl
  | pushChunk id token data isFinal =>
    unfold move pushChunk
    dsimp only [rename]
    split <;> rfl
  | takeEntry id caller =>
    unfold move takeEntry
    dsimp only [rename]
    split <;> rfl
  | _ => rfl

/-- An operation that is dropped leaves the same behind under its other name. -/
theorem ConsumerGroup.abandon_rename (wrote : AppendOutcome) (pc : Pc T V)
    (lone : Lone g group.changed.seats self) :
    (group.rename g).abandon (g self) now wallClock wrote pc =
      (group.abandon self now wallClock wrote pc).map (renamed g) := by
  have policy : (group.rename g).retryPolicy = group.retryPolicy := rfl
  unfold abandon
  rw [policy]
  split
  · cases wrote with
    | ok | lostEmpty | lostTorn => rfl
    | failedEmpty =>
      dsimp only
      split
      · -- A wakeup that it had goes on to the next in line.
        have passed : (group.changed.rename g).cancel (g self) = (group.changed.cancel self).rename g :=
          Notify.cancel_rename lone
        simp only [rename, passed, Option.map_some, renamed]
      · rfl
    | failedTorn =>
      dsimp only
      rw [move_rename _ _ lone]
      split
      · cases group.move self now wallClock { outcome := .failedTorn } pc <;> rfl
      · rfl
    | failedWhole =>
      dsimp only
      rw [move_rename _ _ lone]
      split <;> rfl
  · rfl

end

/-- A step that waits for a write wakes nobody, and takes nobody's seat. -/
theorem Pc.rings_of_writes {retryPolicy : RetryPolicy} {pc : Pc T V} (writes : pc.writes retryPolicy) (self : Nat)
    (changed : Notify) : pc.rings self changed = changed := by
  cases pc with
  | notifyOne | notifyReclaimed | notifyPublished | awaitChanged | awaitStream | parked | parkedStream =>
    cases writes
  | _ => rfl

theorem Pc.waiting_of_writes {retryPolicy : RetryPolicy} {pc : Pc T V} (writes : pc.writes retryPolicy) :
    pc.waiting = false := by
  cases pc with
  | parked | parkedStream => cases writes
  | _ => rfl

/-- An operation that is dropped gives up its seat if it has one, and changes nothing else in the line. -/
theorem abandon_changed {self : Nat} {now : Instant} {wallClock : Timestamp} {wrote : AppendOutcome}
    {group group' : ConsumerGroup T V} {pc pc' : Pc T V}
    (dropped : group.abandon self now wallClock wrote pc = some (group', pc')) :
    (pc.waiting = true ∧ group'.changed = group.changed.cancel self) ∨
      (pc.waiting = false ∧ group'.changed = group.changed) := by
  unfold ConsumerGroup.abandon at dropped
  split at dropped
  case isFalse => cases dropped
  cases wrote with
  | ok | lostEmpty | lostTorn => cases dropped
  | failedEmpty =>
    dsimp only at dropped
    split at dropped
    · rename_i waiting
      obtain ⟨rfl, _⟩ := Prod.mk.inj (Option.some.inj dropped)
      exact .inl ⟨waiting, rfl⟩
    · rename_i unwaiting
      obtain ⟨rfl, _⟩ := Prod.mk.inj (Option.some.inj dropped)
      exact .inr ⟨by simpa using unwaiting, rfl⟩
  | failedTorn =>
    obtain ⟨writes, dropped⟩ := Option.ite_none_right_eq_some.mp dropped
    obtain ⟨⟨_, _⟩, moved, same⟩ := Option.map_eq_some_iff.mp dropped
    obtain ⟨rfl, _⟩ := Prod.mk.inj same
    exact .inr ⟨Pc.waiting_of_writes writes, (move_rings moved).trans (Pc.rings_of_writes writes _ _)⟩
  | failedWhole =>
    obtain ⟨writes, moved⟩ := Option.ite_none_right_eq_some.mp dropped
    exact .inr ⟨Pc.waiting_of_writes writes, (move_rings moved).trans (Pc.rings_of_writes writes _ _)⟩

/-- Dropping an operation keeps the seats in order. -/
theorem seats_of_abandon {world : World T V} {i : Nat} {wrote : AppendOutcome} {task : Task T V}
    {group : ConsumerGroup T V} {next : Pc T V}
    (seats : world.shared.group.changed.Seats world.Parked) (found : world.tasks[i]? = some task)
    (alive : task.cancelled = false)
    (dropped : world.shared.group.abandon i world.shared.now world.shared.wallClock wrote task.pc =
      some (group, next)) :
    group.changed.Seats (World.Parked
      ⟨{ world.shared with group := group }, world.tasks.set i { task with pc := next, cancelled := true }⟩) := by
  rcases abandon_changed dropped with ⟨waiting, changed⟩ | ⟨unwaiting, changed⟩
  · -- The seat that it gives up was its own.
    rw [changed]
    apply (seats.cancel i).congr
    intro j
    rw [parked_set found]
    simp [and_comm]
  · -- It had no seat, and is not given one.
    rw [changed]
    apply seats.congr
    intro j
    have away : ¬ world.Parked i := by simp [World.Parked, found, alive, unwaiting]
    rw [parked_set found]
    simp only [Bool.true_eq_false, false_and, and_false, or_false]
    exact ⟨fun there => ⟨fun same => away (same ▸ there), there⟩, fun there => there.2⟩

end Qaas
