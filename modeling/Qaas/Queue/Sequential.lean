import Qaas.Queue.Priority
import Qaas.Queue.Survival

/-! Calls on a persistent queue one after the other, over any number of sessions. -/

namespace Qaas

open Concurrency Ordered

variable {X T Q : Type}

/-- Log an item and then push it, and whether the call returned `Ok`. -/
def PersistentQueue.enqueue (discipline : Discipline X T Q) (state : PersistentQueue X Q) (payload : X)
    (outcome : AppendOutcome) : PersistentQueue X Q × Bool :=
  let (wal, written) := state.wal.append (.enqueue payload) outcome
  if written then
    ({ state with
        wal
        queue := discipline.push state.queue payload
        notEmpty := state.notEmpty.notifyOne }, true)
  else ({ state with wal }, false)

/-- Pop an item and then log that it left, and whether the call returned it; a call waits while
there is none. -/
def PersistentQueue.dequeue (discipline : Discipline X T Q) (state : PersistentQueue X Q)
    (outcome : AppendOutcome) : Option (PersistentQueue X Q × T × Bool) :=
  (discipline.tryDequeue state.queue).map fun (item, queue) =>
    let (wal, written) := state.wal.append .dequeue outcome
    ({ state with queue, wal, notFull := state.notFull.notifyOne }, item, written)

/-- What comes next in a sequential run. -/
inductive QueueCall (X : Type) where
  | enqueue (payload : X) (outcome : AppendOutcome)
  | dequeue (outcome : AppendOutcome)
  /-- The process ends, and the queue is opened again. -/
  | reopen
  deriving DecidableEq

/-- How the append of a call ends. -/
def QueueCall.outcome : QueueCall X → AppendOutcome
  | .enqueue _ outcome | .dequeue outcome => outcome
  | .reopen => .ok

/-- One call, from its start to its end. -/
def PersistentQueue.step (discipline : Discipline X T Q) (state : PersistentQueue X Q) :
    QueueCall X → Option (PersistentQueue X Q)
  | .enqueue payload outcome => some (state.enqueue discipline payload outcome).1
  | .dequeue outcome => (state.dequeue discipline outcome).map Prod.fst
  | .reopen => some (.opened discipline state.wal)

/-- What a call of `dequeue` does that finds an item. -/
theorem PersistentQueue.dequeue_eq_some {discipline : Discipline X T Q}
    {state next : PersistentQueue X Q} {outcome : AppendOutcome} {item : T} {written : Bool} :
    state.dequeue discipline outcome = some (next, item, written) ↔
      ∃ queue, discipline.tryDequeue state.queue = some (item, queue) ∧
        next = { state with
          queue
          wal := (state.wal.append .dequeue outcome).1
          notFull := state.notFull.notifyOne } ∧ written = outcome.acknowledged := by
  simp only [dequeue, Option.map_eq_some_iff, Prod.exists, Prod.mk.injEq, Log.append_snd]
  constructor
  · intro ⟨first, queue, taken, same, own, result⟩
    subst own
    exact ⟨queue, taken, same.symm, result.symm⟩
  · intro ⟨queue, taken, same, result⟩
    exact ⟨item, queue, taken, same.symm, rfl, result.symm⟩

/-- A call of `enqueue` that nothing interrupts. -/
theorem PersistentQueue.enqueue_alone {discipline : Discipline X T Q} (state : PersistentQueue X Q)
    (tasks : List (QueueTask X T)) (payload : X) {outcome : AppendOutcome}
    (told : outcome.acknowledged = true) :
    exec (QueueWorld.step discipline) (fun _ _ => True) (⟨state, tasks⟩ : QueueWorld X T Q)
        [.callEnqueue payload, .step tasks.length outcome, .step tasks.length .ok, .step tasks.length .ok] =
      some ⟨(state.enqueue discipline payload outcome).1, tasks ++ [.enqueued payload]⟩ := by
  simp [exec, QueueWorld.step, Pool.spawn, Pool.advance, move, enqueue, told]

/-- A call of `enqueue` whose append fails ends there. -/
theorem PersistentQueue.enqueue_failed {discipline : Discipline X T Q} (state : PersistentQueue X Q)
    (tasks : List (QueueTask X T)) (payload : X) {outcome : AppendOutcome}
    (fails : outcome.acknowledged = false) :
    exec (QueueWorld.step discipline) (fun _ _ => True) (⟨state, tasks⟩ : QueueWorld X T Q)
        [.callEnqueue payload, .step tasks.length outcome] =
      some ⟨(state.enqueue discipline payload outcome).1, tasks ++ [.failed]⟩ := by
  simp [exec, QueueWorld.step, Pool.spawn, Pool.advance, move, enqueue, fails]

/-- A call of `dequeue` that finds an item and that nothing interrupts. -/
theorem PersistentQueue.dequeue_alone {discipline : Discipline X T Q} {state next : PersistentQueue X Q}
    (tasks : List (QueueTask X T)) {outcome : AppendOutcome} {item : T}
    (popped : state.dequeue discipline outcome = some (next, item, true)) :
    exec (QueueWorld.step discipline) (fun _ _ => True) (⟨state, tasks⟩ : QueueWorld X T Q)
        [.callDequeue, .step tasks.length .ok, .step tasks.length .ok, .step tasks.length outcome,
          .step tasks.length .ok] =
      some ⟨next, tasks ++ [.dequeued item]⟩ := by
  obtain ⟨queue, taken, rfl, told⟩ := dequeue_eq_some.mp popped
  simp [exec, QueueWorld.step, Pool.spawn, Pool.advance, move, taken, ← told]

/-- A call of `dequeue` whose append fails ends there, and the item is in memory no more. -/
theorem PersistentQueue.dequeue_failed {discipline : Discipline X T Q} {state next : PersistentQueue X Q}
    (tasks : List (QueueTask X T)) {outcome : AppendOutcome} {item : T}
    (popped : state.dequeue discipline outcome = some (next, item, false)) :
    exec (QueueWorld.step discipline) (fun _ _ => True) (⟨state, tasks⟩ : QueueWorld X T Q)
        [.callDequeue, .step tasks.length .ok, .step tasks.length .ok, .step tasks.length outcome] =
      some ⟨next, tasks ++ [.failed]⟩ := by
  obtain ⟨queue, taken, rfl, refused⟩ := dequeue_eq_some.mp popped
  simp [exec, QueueWorld.step, Pool.spawn, Pool.advance, move, taken, ← refused]

variable {discipline : Discipline X T Q}

/-- The queue in memory is what the log replays to. -/
structure PersistentQueue.Mirrored (discipline : Discipline X T Q) (state : PersistentQueue X Q) :
    Prop where
  replays : state.queue = discipline.replay state.wal.records
  intact : state.wal.torn = false

/-- A successful call does to the queue what replaying its record does, down to the sequence numbers. -/
theorem PersistentQueue.Mirrored.step {state next : PersistentQueue X Q} {call : QueueCall X}
    (succeeds : call.outcome = .ok) (mirrored : state.Mirrored discipline)
    (taken : state.step discipline call = some next) : next.Mirrored discipline := by
  obtain ⟨replays, intact⟩ := mirrored
  cases call with
  | enqueue payload outcome =>
    obtain rfl : outcome = .ok := succeeds
    obtain rfl := Option.some.inj taken
    simp only [enqueue, Log.append_ok intact, if_true]
    refine ⟨?_, intact⟩
    rw [discipline.replay_append, ← replays]
    rfl
  | dequeue outcome =>
    obtain rfl : outcome = .ok := succeeds
    obtain ⟨⟨_, item, written⟩, popped, rfl⟩ := Option.map_eq_some_iff.mp taken
    obtain ⟨rest, found, rfl, -⟩ := dequeue_eq_some.mp popped
    rw [Log.append_ok intact]
    refine ⟨?_, intact⟩
    -- The record takes out of the replayed queue what left the one in memory.
    rw [discipline.replay_append, ← replays, Discipline.replayRecord, found]
    rfl
  | reopen =>
    obtain rfl := Option.some.inj taken
    exact ⟨rfl, rfl⟩

/-- A run of successful calls, from a queue that is opened on an empty log. -/
abbrev PersistentQueue.SuccessfulRun (discipline : Discipline X T Q)
    (trace : List (Transition (PersistentQueue X Q) (QueueCall X)))
    (state : PersistentQueue X Q) : Prop :=
  Run (step discipline) (fun _ call => call.outcome = .ok) (.opened discipline {}) trace state

/-- In a run of successful calls, the queue in memory is what the log replays to. -/
theorem PersistentQueue.mirrored {trace : List (Transition (PersistentQueue X Q) (QueueCall X))}
    {state : PersistentQueue X Q} (run : SuccessfulRun discipline trace state) :
    state.Mirrored discipline :=
  run.invariant ⟨rfl, rfl⟩ fun _ _ _ succeeds mirrored taken => mirrored.step succeeds taken

/-- The payload of an enqueue. -/
def QueueRecord.payload : QueueRecord X → Option X
  | .enqueue payload => some payload
  | .dequeue => none

/-- The payloads of the enqueues in a log, in their order. -/
def QueueRecord.enqueued (records : List (QueueRecord X)) : List X :=
  records.filterMap payload

/-- An enqueue and a dequeue one after the other use up one sequence number, and leave nothing
behind. -/
theorem PersistentQueue.uses_up (enqueues : Nat) : ∃ state,
    Reachable (step (priorityDiscipline Nat)) (fun _ call => call.outcome = .ok)
      (.opened (priorityDiscipline Nat) {}) state ∧
      state.queue = ⟨[], none, UInt64.ofNat enqueues⟩ := by
  -- By induction on the number of enqueues, each one followed by a dequeue.
  induction enqueues with
  | zero => exact ⟨_, ⟨[], .nil⟩, rfl⟩
  | succ enqueues ih =>
    obtain ⟨⟨queue, notEmpty, notFull, wal⟩, reached, rfl⟩ := ih
    have emptied := reachable_of_exec reached
      (show exec _ _ _ [.enqueue (0, ⟨0⟩) .ok, .dequeue .ok] = some _ from rfl)
    exact ⟨_, emptied, by simp [enqueue, priorityDiscipline, PriorityQueue.pushEntry, UInt64.ofNat_add]⟩

end Qaas
