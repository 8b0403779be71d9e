import Qaas.Queue.Persistent

/-! Which enqueued items a persistent queue still holds after a crash. -/

namespace Qaas

open Concurrency

variable {X T Q : Type}

/-- The item of a call that has been told its enqueue succeeded. -/
def QueueTask.acknowledged (discipline : Discipline X T Q) : QueueTask X T → Option T
  | .enqueued payload => some (discipline.item payload)
  | _ => none

/-- The item a dequeue call has returned. -/
def QueueTask.delivered : QueueTask X T → Option T
  | .dequeued item => some item
  | _ => none

/-- Every acknowledged item was delivered, or is in the queue. -/
def NothingLost (discipline : Discipline X T Q) (world : QueueWorld X T Q) : Prop :=
  (world.tasks.filterMap (QueueTask.acknowledged discipline) : Multiset T) ≤
    (world.tasks.filterMap QueueTask.delivered : Multiset T) + discipline.contents world.shared.queue

/-- Whenever the process has died, the queue that was opened again has lost nothing. -/
def NothingLostAtReopening (discipline : Discipline X T Q)
    (trace : List (Transition (QueueWorld X T Q) (QueueAction X))) : Prop :=
  ∀ e ∈ trace, e.act = .reopen → NothingLost discipline e.post

/-- The item whose departure a step logs. -/
def QueueWorld.departing (world : QueueWorld X T Q) : QueueAction X → Option T
  | .step task _ =>
    world.tasks[task]?.bind fun
      | .appendDequeue item => some item
      | _ => none
  | _ => none

/-- A dequeue is logged only when the item it popped is the one a replay of the log would pop. -/
def PopsAgree (discipline : Discipline X T Q) (world : QueueWorld X T Q) (act : QueueAction X) :
    Prop :=
  ∀ item ∈ world.departing act,
    (discipline.tryDequeue (discipline.replay world.shared.wal.records)).map Prod.fst = some item

/-- The item of a dequeue whose record is in the log and that has not returned it. -/
def QueueTask.withheld : QueueTask X T → Option T
  | .returning item => some item
  | _ => none

/-- The process does not die while a dequeue that has logged its record is yet to return the item. -/
def NoneWithheld (world : QueueWorld X T Q) : QueueAction X → Prop
  | .reopen => ∀ task ∈ world.tasks, task.withheld = none
  | _ => True

/-- No write error. -/
def QueueAction.clean : QueueAction X → Bool
  | .step _ outcome => outcome = .ok
  | _ => true

instance [DecidableEq T] (discipline : Discipline X T Q) (world : QueueWorld X T Q) :
    Decidable (NothingLost discipline world) :=
  inferInstanceAs (Decidable (_ ≤ _))

instance [DecidableEq T] (discipline : Discipline X T Q) (world : QueueWorld X T Q)
    (act : QueueAction X) : Decidable (PopsAgree discipline world act) :=
  inferInstanceAs (Decidable (∀ _ ∈ _, _))

instance (world : QueueWorld X T Q) (act : QueueAction X) : Decidable (NoneWithheld world act) :=
  match act with
  | .reopen => inferInstanceAs (Decidable (∀ _ ∈ _, _))
  | .callEnqueue _ | .callDequeue | .step _ _ => .isTrue trivial

instance [DecidableEq X] [DecidableEq T] (discipline : Discipline X T Q)
    (trace : List (Transition (QueueWorld X T Q) (QueueAction X))) :
    Decidable (NothingLostAtReopening discipline trace) :=
  inferInstanceAs (Decidable (∀ _ ∈ _, _ → _))

/-- The item of an enqueue whose record is in the log, acknowledged or about to be. -/
def QueueTask.logged (discipline : Discipline X T Q) : QueueTask X T → Option T
  | .push payload | .notifyNotEmpty payload | .enqueued payload => some (discipline.item payload)
  | _ => none

/-- The item of a dequeue whose record is in the log, returned or about to be. -/
def QueueTask.left : QueueTask X T → Option T
  | .returning item | .dequeued item => some item
  | _ => none

/-- Every item logged by a call that may still be acknowledged is accounted for. -/
def Accounted (discipline : Discipline X T Q) (world : QueueWorld X T Q) : Prop :=
  world.shared.wal.torn = false ∧
    (world.tasks.filterMap (QueueTask.logged discipline) : Multiset T) ≤
      (world.tasks.filterMap QueueTask.left : Multiset T) +
        discipline.contents (discipline.replay world.shared.wal.records)

/-- The same account, one item at a time. -/
theorem accounted_iff_tally [DecidableEq T] {discipline : Discipline X T Q} {world : QueueWorld X T Q} :
    Accounted discipline world ↔ world.shared.wal.torn = false ∧ ∀ item,
      tally (share (QueueTask.logged discipline) item) world.tasks ≤
        tally (share QueueTask.left item) world.tasks +
          (discipline.contents (discipline.replay world.shared.wal.records)).count item := by
  simp only [Accounted, Multiset.le_iff_count, Multiset.count_add, count_filterMap]

/-- Replaying one more record works on the queue replayed so far. -/
theorem Discipline.replay_append (discipline : Discipline X T Q) (records : List (QueueRecord X))
    (record : QueueRecord X) :
    discipline.replay (records ++ [record]) =
      discipline.replayRecord (discipline.replay records) record := by
  simp [replay]

/-- Logging an enqueue adds its item to the queue a replay rebuilds. -/
theorem Discipline.contents_replay_enqueue (discipline : Discipline X T Q)
    (records : List (QueueRecord X)) (payload : X) :
    discipline.contents (discipline.replay (records ++ [.enqueue payload])) =
      discipline.item payload ::ₘ discipline.contents (discipline.replay records) := by
  rw [replay_append]
  exact discipline.contents_push _ _

/-- Logging a dequeue takes out the item a replay would pop. -/
theorem Discipline.contents_replay_dequeue (discipline : Discipline X T Q)
    {records : List (QueueRecord X)} {item : T}
    (front : (discipline.tryDequeue (discipline.replay records)).map Prod.fst = some item) :
    discipline.contents (discipline.replay records) =
      item ::ₘ discipline.contents (discipline.replay (records ++ [.dequeue])) := by
  obtain ⟨⟨first, rest⟩, popped, same⟩ := Option.map_eq_some_iff.mp front
  subst same
  -- Replaying a dequeue drops whatever is in front by then.
  rw [replay_append, replayRecord, popped]
  exact discipline.contents_tryDequeue _ _ _ popped

/-- Without write errors a move writes nothing to the log, or logs an enqueue, or logs a dequeue. -/
theorem move_cases {discipline : Discipline X T Q} {i : Nat} {state shared : PersistentQueue X Q}
    {task moved : QueueTask X T} (intact : state.wal.torn = false)
    (stepped : PersistentQueue.move discipline i .ok state task = some (shared, moved)) :
    (shared.wal = state.wal ∧ moved.logged discipline = task.logged discipline ∧
        moved.left = task.left) ∨
      (∃ payload, task = .appendEnqueue payload ∧ moved = .push payload ∧
        shared.wal = { state.wal with records := state.wal.records ++ [.enqueue payload] }) ∨
      (∃ item, task = .appendDequeue item ∧ moved = .returning item ∧
        shared.wal = { state.wal with records := state.wal.records ++ [.dequeue] }) := by
  cases task with
  | appendEnqueue payload =>
    simp only [PersistentQueue.move, Log.append_ok intact, if_true, Option.some.injEq,
      Prod.mk.injEq] at stepped
    obtain ⟨rfl, rfl⟩ := stepped
    exact .inr (.inl ⟨payload, rfl, rfl, rfl⟩)
  | appendDequeue item =>
    simp only [PersistentQueue.move, Log.append_ok intact, if_true, Option.some.injEq,
      Prod.mk.injEq] at stepped
    obtain ⟨rfl, rfl⟩ := stepped
    exact .inr (.inr ⟨item, rfl, rfl, rfl⟩)
  | push payload => cases stepped; exact .inl ⟨rfl, rfl, rfl⟩
  | notifyNotEmpty payload => cases stepped; exact .inl ⟨rfl, rfl, rfl⟩
  | notifyNotFull item => cases stepped; exact .inl ⟨rfl, rfl, rfl⟩
  | pop =>
    simp only [PersistentQueue.move] at stepped
    split at stepped <;> cases stepped <;> exact .inl ⟨rfl, rfl, rfl⟩
  | awaitNotEmpty =>
    simp only [PersistentQueue.move, Option.some.injEq, Prod.mk.injEq] at stepped
    obtain ⟨rfl, rfl⟩ := stepped
    -- Whether or not a permit was stored, the call is still waiting for an item.
    split <;> exact .inl ⟨rfl, rfl, rfl⟩
  | parked =>
    simp only [PersistentQueue.move] at stepped
    split at stepped <;> cases stepped
    exact .inl ⟨rfl, rfl, rfl⟩
  | enqueued payload => cases stepped
  | returning item => cases stepped; exact .inl ⟨rfl, rfl, rfl⟩
  | dequeued item => cases stepped
  | failed => cases stepped
  | killed => cases stepped

/-- One step of a call keeps the account, provided a logged dequeue agrees with the replay. -/
theorem accounted_move {discipline : Discipline X T Q} {world : QueueWorld X T Q} {i : Nat}
    {task moved : QueueTask X T} {shared : PersistentQueue X Q}
    (accounted : Accounted discipline world) (found : world.tasks[i]? = some task)
    (agree : PopsAgree discipline world (.step i .ok))
    (stepped : PersistentQueue.move discipline i .ok world.shared task = some (shared, moved)) :
    Accounted discipline ⟨shared, world.tasks.set i moved⟩ := by
  classical
  rw [accounted_iff_tally] at accounted ⊢
  obtain ⟨intact, balance⟩ := accounted
  -- Only the shares of the task that moves change in the two sums.
  have loggedSet := fun item =>
    tally_set (share (QueueTask.logged discipline) item) moved found
  have leftSet := fun item =>
    tally_set (share (QueueTask.left (X := X)) item) moved found
  rcases move_cases intact stepped with quiet | enqueues | dequeues
  · obtain ⟨sameLog, sameLogged, sameLeft⟩ := quiet
    rw [sameLog]
    refine ⟨intact, fun item => ?_⟩
    have before := balance item
    have logged := loggedSet item
    have left := leftSet item
    simp only [share, sameLogged, sameLeft] at logged left
    show tally _ (world.tasks.set i moved) ≤ tally _ (world.tasks.set i moved) + _
    omega
  · -- A logged enqueue is one more item on both sides of the account.
    obtain ⟨payload, rfl, rfl, newLog⟩ := enqueues
    rw [newLog]
    refine ⟨intact, fun item => ?_⟩
    have before := balance item
    have logged := loggedSet item
    have left := leftSet item
    rw [discipline.contents_replay_enqueue, Multiset.count_cons]
    simp only [share, QueueTask.logged, QueueTask.left, reduceCtorEq, if_false,
      Option.some.injEq] at logged left
    simp only [eq_comm] at before logged left ⊢
    omega
  · -- A logged dequeue moves its item from the rebuilt queue to those that have left it.
    obtain ⟨front, rfl, rfl, newLog⟩ := dequeues
    have agreed := agree front (by simp [QueueWorld.departing, found])
    have removed := discipline.contents_replay_dequeue agreed
    rw [newLog]
    refine ⟨intact, fun item => ?_⟩
    have before := balance item
    have logged := loggedSet item
    have left := leftSet item
    rw [removed, Multiset.count_cons] at before
    simp only [share, QueueTask.logged, QueueTask.left, reduceCtorEq, if_false,
      Option.some.injEq] at logged left
    simp only [eq_comm] at before logged left ⊢
    omega

/-- A call that has not done anything yet does not matter to the account. -/
theorem accounted_spawn {discipline : Discipline X T Q} {world : QueueWorld X T Q}
    {task : QueueTask X T} (accounted : Accounted discipline world)
    (unlogged : task.logged discipline = none) (stayed : task.left = none) :
    Accounted discipline (world.spawn task) := by
  obtain ⟨intact, balance⟩ := accounted
  refine ⟨intact, ?_⟩
  -- A task that starts adds to neither side of the balance.
  simp only [Pool.spawn, List.filterMap_append, List.filterMap_cons, unlogged, stayed,
    List.filterMap_nil, List.append_nil]
  exact balance

/-- Every allowed step keeps the account. -/
theorem accounted_step {discipline : Discipline X T Q} {world next : QueueWorld X T Q}
    {act : QueueAction X} (clean : act.clean) (agree : PopsAgree discipline world act)
    (settled : NoneWithheld world act) (accounted : Accounted discipline world)
    (taken : QueueWorld.step discipline world act = some next) : Accounted discipline next := by
  cases act with
  | callEnqueue payload =>
    cases taken
    exact accounted_spawn accounted rfl rfl
  | callDequeue =>
    cases taken
    exact accounted_spawn accounted rfl rfl
  | step i outcome =>
    obtain rfl : outcome = .ok := by simpa [QueueAction.clean] using clean
    obtain ⟨task, shared, moved, found, stepped, rfl⟩ := Pool.advance_eq_some.mp taken
    exact accounted_move accounted found agree stepped
  | reopen =>
    cases taken
    classical
    rw [accounted_iff_tally] at accounted ⊢
    refine ⟨rfl, fun item => ?_⟩
    have before := accounted.2 item
    -- A killed call is no longer owed its item, and a finished one is not killed.
    have fewer : tally (share (QueueTask.logged discipline) item) (world.tasks.map QueueTask.kill) ≤
        tally (share (QueueTask.logged discipline) item) world.tasks := by
      rw [tally_map]
      apply tally_le_tally
      intro task _
      cases task <;> simp [QueueTask.kill, QueueTask.finished, share, QueueTask.logged]
    have kept : tally (share QueueTask.left item) world.tasks ≤
        tally (share QueueTask.left item) (world.tasks.map QueueTask.kill) := by
      -- No call is killed that has logged the departure of its item.
      rw [tally_map]
      apply tally_le_tally
      intro task member
      have returned := settled task member
      cases task with
      | returning item => cases returned
      | _ => simp [QueueTask.kill, QueueTask.finished, share, QueueTask.left]
    show tally _ (world.tasks.map _) ≤ tally _ (world.tasks.map _) +
      (discipline.contents (discipline.replay world.shared.wal.records)).count item
    omega

/-- What a queue that has just been opened again accounts for is not lost. -/
theorem Accounted.nothingLost {discipline : Discipline X T Q} {world next : QueueWorld X T Q}
    (accounted : Accounted discipline next)
    (reopened : QueueWorld.step discipline world .reopen = some next) : NothingLost discipline next := by
  classical
  rw [accounted_iff_tally] at accounted
  rw [NothingLost, Multiset.le_iff_count]
  obtain rfl := Option.some.inj reopened
  intro item
  rw [Multiset.count_add, count_filterMap, count_filterMap]
  have balance := accounted.2 item
  -- An acknowledged call is in particular one whose record was logged.
  have acknowledged : tally (share (QueueTask.acknowledged discipline) item) (world.tasks.map QueueTask.kill) ≤
      tally (share (QueueTask.logged discipline) item) (world.tasks.map QueueTask.kill) := by
    apply tally_le_tally
    intro task _
    cases task <;> simp [share, QueueTask.acknowledged, QueueTask.logged]
  -- What has left was returned, since no call goes on.
  have returned : tally (share QueueTask.left item) (world.tasks.map QueueTask.kill) ≤
      tally (share QueueTask.delivered item) (world.tasks.map QueueTask.kill) := by
    rw [tally_map, tally_map]
    apply tally_le_tally
    intro task _
    cases task <;> simp [QueueTask.kill, QueueTask.finished, share, QueueTask.left, QueueTask.delivered]
  exact (acknowledged.trans balance).trans (Nat.add_le_add_right returned _)

/-- A run whose logged dequeues agree with the replay, and whose crashes wait for them to return. -/
abbrev OrderlyRun (discipline : Discipline X T Q)
    (trace : List (Transition (QueueWorld X T Q) (QueueAction X))) (world : QueueWorld X T Q) : Prop :=
  Run (QueueWorld.step discipline)
    (fun world act => act.clean ∧ PopsAgree discipline world act ∧ NoneWithheld world act)
    (.start discipline) trace world

/-- No such run loses an item. -/
theorem nothing_lost {discipline : Discipline X T Q}
    {trace : List (Transition (QueueWorld X T Q) (QueueAction X))} {world : QueueWorld X T Q}
    (run : OrderlyRun discipline trace world) : NothingLostAtReopening discipline trace := by
  have accounted {trace : List (Transition (QueueWorld X T Q) (QueueAction X))} {world : QueueWorld X T Q}
      (run : OrderlyRun discipline trace world) : Accounted discipline world := by
    -- The balance holds of the empty queue and every step keeps it.
    apply run.invariant
    · exact ⟨rfl, Multiset.zero_le _⟩
    · intro world act next allowed accounted taken
      exact accounted_step allowed.1 allowed.2.1 allowed.2.2 accounted taken
  rintro ⟨pre, act, post⟩ member rfl
  obtain ⟨⟨earlier, reached⟩, allowed, taken⟩ := run.of_mem member
  exact (accounted (reached.snoc allowed taken)).nothingLost taken

/-- A persistent first-in-first-out queue loses no item while logged dequeues agree with the replay
and the process does not die before they return. -/
theorem fifo_nothing_lost {trace : List (Transition (QueueWorld T T (FifoQueue T)) (QueueAction T))}
    {world : QueueWorld T T (FifoQueue T)} (run : OrderlyRun (fifoDiscipline T) trace world) :
    NothingLostAtReopening (fifoDiscipline T) trace :=
  nothing_lost run

/-- Two enqueues and a dequeue, one call after the other, and then a crash. -/
def fifoInOrder : List (QueueAction Nat) :=
  [.callEnqueue 1, .step 0 .ok, .step 0 .ok, .step 0 .ok,
    .callEnqueue 2, .step 1 .ok, .step 1 .ok, .step 1 .ok,
    .callDequeue, .step 2 .ok, .step 2 .ok, .step 2 .ok, .step 2 .ok, .reopen]

/-- After calls made one after the other, the rebuilt queue holds what was not delivered. -/
theorem fifo_in_order_keeps : ∃ (trace : List (Transition (QueueWorld Nat Nat (FifoQueue Nat)) (QueueAction Nat)))
    (world : QueueWorld Nat Nat (FifoQueue Nat)),
    world.tasks = [.enqueued 1, .enqueued 2, .dequeued 1] ∧ world.shared.queue.items = [2] ∧
      NothingLostAtReopening (fifoDiscipline Nat) trace := by
  have reachable : ∃ world, Reachable (QueueWorld.step (fifoDiscipline Nat))
      (fun world act => act.clean ∧ PopsAgree (fifoDiscipline Nat) world act ∧ NoneWithheld world act)
      (.start (fifoDiscipline Nat)) world ∧
      world.tasks = [.enqueued 1, .enqueued 2, .dequeued 1] ∧ world.shared.queue.items = [2] :=
    reaches_of_exec fifoInOrder _ (by decide)
  obtain ⟨world, ⟨trace, run⟩, tasks, items⟩ := reachable
  exact ⟨trace, world, tasks, items, fifo_nothing_lost run⟩

/-- Two enqueues logged in one order and pushed in the other, one dequeue, and then a crash. -/
def fifoOvertaken : List (QueueAction Nat) :=
  [.callEnqueue 1, .callEnqueue 2, .step 0 .ok, .step 1 .ok,
    -- The second call is logged last but pushed first.
    .step 1 .ok, .step 1 .ok, .step 0 .ok, .step 0 .ok,
    .callDequeue, .step 2 .ok, .step 2 .ok, .step 2 .ok, .step 2 .ok, .reopen]

/-- A crash right behind the record of a dequeue. -/
def fifoWithheld : List (QueueAction Nat) :=
  [.callEnqueue 1, .step 0 .ok, .step 0 .ok, .step 0 .ok,
    .callDequeue, .step 1 .ok, .step 1 .ok, .step 1 .ok, .reopen]

/-- The dequeue returns one item and logs the departure of the other; or it dies with the item. -/
theorem fifo_overtaken_loses : [fifoOvertaken, fifoWithheld].Forall fun acts =>
    ∃ ran ∈ record (QueueWorld.step (fifoDiscipline Nat)) (.start (fifoDiscipline Nat)) acts,
      (∀ e ∈ ran.1, e.act.clean) ∧ ¬ NothingLostAtReopening (fifoDiscipline Nat) ran.1 := by
  decide

/-- A persistent priority queue loses no item while logged dequeues agree with the replay and the
process does not die before they return. -/
theorem priority_nothing_lost
    {trace : List (Transition (QueueWorld (T × Priority) T (PriorityQueue T)) (QueueAction (T × Priority)))}
    {world : QueueWorld (T × Priority) T (PriorityQueue T)}
    (run : OrderlyRun (priorityDiscipline T) trace world) :
    NothingLostAtReopening (priorityDiscipline T) trace :=
  nothing_lost run

/-- A low and a high priority enqueue and a dequeue, one call after the other, and then a crash. -/
def priorityInOrder : List (QueueAction (Nat × Priority)) :=
  [.callEnqueue (1, ⟨1⟩), .step 0 .ok, .step 0 .ok, .step 0 .ok,
    .callEnqueue (2, ⟨10⟩), .step 1 .ok, .step 1 .ok, .step 1 .ok,
    .callDequeue, .step 2 .ok, .step 2 .ok, .step 2 .ok, .step 2 .ok, .reopen]

/-- After calls made one after the other, the rebuilt queue holds the item of low priority. -/
theorem priority_in_order_keeps :
    ∃ (trace : List (Transition (QueueWorld (Nat × Priority) Nat (PriorityQueue Nat)) (QueueAction (Nat × Priority))))
      (world : QueueWorld (Nat × Priority) Nat (PriorityQueue Nat)),
    world.tasks = [.enqueued (1, ⟨1⟩), .enqueued (2, ⟨10⟩), .dequeued 2] ∧
      world.shared.queue.items.map Entry.item = [1] ∧
      NothingLostAtReopening (priorityDiscipline Nat) trace := by
  have reachable : ∃ world, Reachable (QueueWorld.step (priorityDiscipline Nat))
      (fun world act => act.clean ∧ PopsAgree (priorityDiscipline Nat) world act ∧ NoneWithheld world act)
      (.start (priorityDiscipline Nat)) world ∧
      world.tasks = [.enqueued (1, ⟨1⟩), .enqueued (2, ⟨10⟩), .dequeued 2] ∧
      world.shared.queue.items.map Entry.item = [1] :=
    reaches_of_exec priorityInOrder _ (by decide)
  obtain ⟨world, ⟨trace, run⟩, tasks, items⟩ := reachable
  exact ⟨trace, world, tasks, items, priority_nothing_lost run⟩

/-- A high priority enqueue that is logged before a dequeue of a low one and pushed after it, and then
a crash. -/
def priorityOvertaken : List (QueueAction (Nat × Priority)) :=
  [.callEnqueue (1, ⟨1⟩), .step 0 .ok, .step 0 .ok, .step 0 .ok,
    .callEnqueue (2, ⟨10⟩), .step 1 .ok,
    -- The dequeue pops the low item, and its record makes a replay pop the high one.
    .callDequeue, .step 2 .ok, .step 2 .ok, .step 2 .ok, .step 2 .ok,
    .step 1 .ok, .step 1 .ok, .reopen]

/-- A crash right behind the record of a dequeue. -/
def priorityWithheld : List (QueueAction (Nat × Priority)) :=
  [.callEnqueue (1, ⟨1⟩), .step 0 .ok, .step 0 .ok, .step 0 .ok,
    .callDequeue, .step 1 .ok, .step 1 .ok, .step 1 .ok, .reopen]

/-- The high priority item is acknowledged and waiting in memory, and a crash loses it; or the item
dies with the call that was to return it. -/
theorem priority_overtaken_loses : [priorityOvertaken, priorityWithheld].Forall fun acts =>
    ∃ ran ∈ record (QueueWorld.step (priorityDiscipline Nat)) (.start (priorityDiscipline Nat)) acts,
      (∀ e ∈ ran.1, e.act.clean) ∧ ¬ NothingLostAtReopening (priorityDiscipline Nat) ran.1 := by
  decide

end Qaas
