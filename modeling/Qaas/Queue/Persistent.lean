import Qaas.Concurrency.Notify
import Qaas.Concurrency.Pool
import Qaas.Concurrency.Run
import Qaas.Queue.Memory
import Qaas.Wal.Log

/-! The persistent queues: a log of operations in front of an in-memory queue, used by many tasks. -/

namespace Qaas

open Concurrency

/-- What the persistent queues need of the in-memory queue they wrap. -/
structure Discipline (X T Q : Type) where
  /-- The item of an enqueued payload, which may carry more than the item. -/
  item : X → T
  unbounded : Q
  push : Q → X → Q
  tryDequeue : Q → Option (T × Q)
  /-- The items inside, in no order. -/
  contents : Q → Multiset T
  contents_unbounded : contents unbounded = 0
  contents_push : ∀ queue payload, contents (push queue payload) = item payload ::ₘ contents queue
  contents_tryDequeue : ∀ queue item rest, tryDequeue queue = some (item, rest) →
    contents queue = item ::ₘ contents rest
  contents_of_none : ∀ queue, tryDequeue queue = none → contents queue = 0

/-- The queue inside a `PersistentFifoQueue`. -/
def fifoDiscipline (T : Type) : Discipline T T (FifoQueue T) where
  item := id
  unbounded := FifoQueue.unbounded
  push := FifoQueue.pushBack
  tryDequeue := FifoQueue.tryDequeue
  contents queue := queue.items
  contents_unbounded := rfl
  contents_push queue item := by
    rw [Multiset.cons_coe, Multiset.coe_eq_coe]
    exact List.perm_append_singleton item queue.items
  contents_tryDequeue queue item rest popped := by
    obtain ⟨items, capacity⟩ := queue
    cases items with
    | nil => cases popped
    | cons first others => cases popped; rfl
  contents_of_none queue nothing := by
    obtain ⟨items, capacity⟩ := queue
    cases items with
    | nil => rfl
    | cons first others => cases nothing

/-- The queue inside a `PersistentPriorityQueue`, whose payloads carry their priority. -/
def priorityDiscipline (T : Type) : Discipline (T × Priority) T (PriorityQueue T) where
  item := Prod.fst
  unbounded := PriorityQueue.unbounded
  push queue payload := queue.pushEntry payload.1 payload.2
  tryDequeue := PriorityQueue.tryDequeue
  contents queue := queue.items.map Entry.item
  contents_unbounded := rfl
  contents_push queue payload := by
    rw [Multiset.cons_coe, Multiset.coe_eq_coe, PriorityQueue.pushEntry, List.map_append]
    exact List.perm_append_singleton payload.1 _
  contents_tryDequeue queue item rest popped := by
    obtain ⟨⟨best, others⟩, taken, result⟩ := Option.map_eq_some_iff.mp popped
    cases result
    rw [Multiset.cons_coe, Multiset.coe_eq_coe]
    exact (popGreatest_perm taken).map Entry.item
  contents_of_none queue nothing := by
    rw [popGreatest_eq_none (Option.map_eq_none_iff.mp nothing)]
    rfl

/-- One entry of a persistent queue's log. -/
inductive QueueRecord (X : Type)
  | enqueue (payload : X)
  | dequeue
  deriving DecidableEq, Repr

variable {X T Q : Type}

/-- Replay one record; a dequeue pops and discards whatever is in front. -/
def Discipline.replayRecord (discipline : Discipline X T Q) (queue : Q) : QueueRecord X → Q
  | .enqueue payload => discipline.push queue payload
  | .dequeue => (discipline.tryDequeue queue).elim queue Prod.snd

/-- The queue `open` rebuilds from the records of its log. -/
def Discipline.replay (discipline : Discipline X T Q) (records : List (QueueRecord X)) : Q :=
  records.foldl discipline.replayRecord discipline.unbounded

/-- A persistent queue in memory, and its log. -/
structure PersistentQueue (X Q : Type) where
  queue : Q
  notEmpty : Notify := {}
  notFull : Notify := {}
  wal : Log (QueueRecord X)

/-- Open a log and rebuild the queue from it. -/
def PersistentQueue.opened (discipline : Discipline X T Q) (wal : Log (QueueRecord X)) :
    PersistentQueue X Q :=
  { queue := discipline.replay wal.records, wal := wal.reopen }

/-- Where a call of `enqueue` or `dequeue` stands: the atomic step it takes next, or its result. -/
inductive QueueTask (X T : Type)
  /-- `enqueue`: append the record. -/
  | appendEnqueue (payload : X)
  /-- `enqueue`: push under the queue's lock. -/
  | push (payload : X)
  | notifyNotEmpty (payload : X)
  /-- `enqueue` has returned `Ok`. -/
  | enqueued (payload : X)
  /-- `dequeue`: pop under the queue's lock. -/
  | pop
  | awaitNotEmpty
  | parked
  | notifyNotFull (item : T)
  /-- `dequeue`: append the record that an item has left. -/
  | appendDequeue (item : T)
  /-- `dequeue`: the record is in the log, and the item is yet to be returned. -/
  | returning (item : T)
  /-- `dequeue` has returned the item. -/
  | dequeued (item : T)
  /-- The call has returned an error. -/
  | failed
  /-- The process died before the call returned. -/
  | killed
  deriving DecidableEq, Repr

/-- Whether a call has no step left to take. -/
def QueueTask.finished : QueueTask X T → Bool
  | .enqueued _ | .dequeued _ | .failed | .killed => true
  | _ => false

/-- What becomes of a call when the process dies. -/
def QueueTask.kill (task : QueueTask X T) : QueueTask X T :=
  if task.finished then task else .killed

/-- The next atomic step of one call; an append ends as `outcome` says. -/
def PersistentQueue.move (discipline : Discipline X T Q) (self : Nat) (outcome : AppendOutcome)
    (state : PersistentQueue X Q) : QueueTask X T → Option (PersistentQueue X Q × QueueTask X T)
  | .appendEnqueue payload =>
    let (wal, written) := state.wal.append (.enqueue payload) outcome
    some ({ state with wal }, if written then .push payload else .failed)
  | .push payload =>
    some ({ state with queue := discipline.push state.queue payload }, .notifyNotEmpty payload)
  | .notifyNotEmpty payload =>
    some ({ state with notEmpty := state.notEmpty.notifyOne }, .enqueued payload)
  | .pop =>
    match discipline.tryDequeue state.queue with
    | some (item, queue) => some ({ state with queue }, .notifyNotFull item)
    | none => some (state, .awaitNotEmpty)
  | .awaitNotEmpty =>
    let (notEmpty, ready) := state.notEmpty.notified self
    some ({ state with notEmpty }, if ready then .pop else .parked)
  | .parked =>
    if state.notEmpty.ready self then
      some ({ state with notEmpty := state.notEmpty.withdraw self }, .pop)
    else none
  | .notifyNotFull item =>
    some ({ state with notFull := state.notFull.notifyOne }, .appendDequeue item)
  | .appendDequeue item =>
    -- The item left memory before this write, and is handed out only if the write succeeds.
    let (wal, written) := state.wal.append .dequeue outcome
    some ({ state with wal }, if written then .returning item else .failed)
  | .returning item => some (state, .dequeued item)
  | .enqueued _ | .dequeued _ | .failed | .killed => none

/-- What can happen next to a persistent queue. -/
inductive QueueAction (X : Type)
  | callEnqueue (payload : X)
  | callDequeue
  | step (task : Nat) (outcome : AppendOutcome)
  /-- The process dies, and the queue is opened again. -/
  | reopen
  deriving DecidableEq, Repr

/-- A persistent queue with every call ever made on it. -/
abbrev QueueWorld (X T Q : Type) := Pool (PersistentQueue X Q) (QueueTask X T)

/-- One step of the system. -/
def QueueWorld.step (discipline : Discipline X T Q) (world : QueueWorld X T Q) :
    QueueAction X → Option (QueueWorld X T Q)
  | .callEnqueue payload => some (world.spawn (.appendEnqueue payload))
  | .callDequeue => some (world.spawn .pop)
  | .step task outcome => world.advance task (PersistentQueue.move discipline task outcome)
  | .reopen => some ⟨.opened discipline world.shared.wal, world.tasks.map QueueTask.kill⟩

/-- A queue opened on an empty log, before any call. -/
def QueueWorld.start (discipline : Discipline X T Q) : QueueWorld X T Q :=
  ⟨.opened discipline {}, []⟩

end Qaas
