import Qaas.Concurrency.Notify
import Qaas.Concurrency.Pool
import Qaas.Concurrency.Run
import Qaas.Concurrency.Supply
import Qaas.Queue.Memory

/-! The in-memory queues as concurrent tasks share them. -/

namespace Qaas

open Concurrency

variable {Q R T : Type}

/-- What the two in-memory queues have in common, by what their operations do to the length. -/
structure QueueKind (Q R T : Type) where
  len : Q → Nat
  capacity : Q → Option { limit : Nat // 0 < limit }
  tryEnqueue : Q → R → Except T Q
  tryDequeue : Q → Option (T × Q)
  pushed {queue next : Q} {request : R} (fits : tryEnqueue queue request = .ok next) :
    len next = len queue + 1 ∧ capacity next = capacity queue ∧
      ∀ limit ∈ capacity queue, len queue < limit.val
  refused {queue : Q} {request : R} {item : T} (full : tryEnqueue queue request = .error item) :
    ∃ limit ∈ capacity queue, limit.val ≤ len queue
  popped {queue next : Q} {item : T} (found : tryDequeue queue = some (item, next)) :
    len queue = len next + 1 ∧ capacity next = capacity queue
  drained {queue : Q} (nothing : tryDequeue queue = none) : len queue = 0

/-- A first-in-first-out queue, whose requests are the items. -/
def FifoQueue.kind (T : Type) : QueueKind (FifoQueue T) T T where
  len queue := queue.items.length
  capacity queue := queue.capacity
  tryEnqueue := tryEnqueue
  tryDequeue := tryDequeue
  pushed {queue next request} fits := by
    unfold tryEnqueue at fits
    split at fits
    · rename_i room
      cases fits
      refine ⟨by simp [pushBack], rfl, fun limit bounded => ?_⟩
      rw [Option.mem_def] at bounded
      simpa [hasRoom, bounded] using room
    · cases fits
  refused {queue request item} full := by
    unfold tryEnqueue at full
    split at full
    · cases full
    · rename_i crowded
      cases bounded : queue.capacity with
      | none => simp [hasRoom, bounded] at crowded
      | some limit => exact ⟨limit, rfl, by simpa [hasRoom, bounded] using crowded⟩
  popped {queue next item} found := by
    unfold tryDequeue at found
    split at found <;> cases found
    rename_i shape
    exact ⟨by simp [shape], rfl⟩
  drained {queue} nothing := by
    unfold tryDequeue at nothing
    split at nothing
    · rename_i shape
      simp [shape]
    · cases nothing

/-- A priority queue, whose requests are items with their priorities. -/
def PriorityQueue.kind (T : Type) : QueueKind (PriorityQueue T) (T × Priority) T where
  len queue := queue.items.length
  capacity queue := queue.capacity
  tryEnqueue queue request := queue.tryEnqueue request.1 request.2
  tryDequeue := tryDequeue
  pushed {queue next request} fits := by
    unfold tryEnqueue at fits
    split at fits
    · rename_i room
      cases fits
      refine ⟨by simp [pushEntry], rfl, fun limit bounded => ?_⟩
      rw [Option.mem_def] at bounded
      simpa [hasRoom, bounded] using room
    · cases fits
  refused {queue request item} full := by
    unfold tryEnqueue at full
    split at full
    · cases full
    · rename_i crowded
      cases bounded : queue.capacity with
      | none => simp [hasRoom, bounded] at crowded
      | some limit => exact ⟨limit, rfl, by simpa [hasRoom, bounded] using crowded⟩
  popped {queue next item} found := by
    obtain ⟨⟨best, others⟩, taken, same⟩ := Option.map_eq_some_iff.mp found
    cases same
    exact ⟨by simpa using (popGreatest_perm taken).length_eq, rfl⟩
  drained {queue} nothing := by
    rw [popGreatest_eq_none (Option.map_eq_none_iff.mp nothing)]
    rfl

/-- What a task waits for: an item to take out, or room to put one in. -/
inductive Side where
  | items
  | room
  deriving DecidableEq, Repr

/-- A call of one of the queue's methods. -/
inductive SharedCall (R : Type) where
  | enqueue (request : R)
  | tryEnqueue (request : R)
  | dequeue
  | tryDequeue
  deriving DecidableEq, Repr

/-- What a call needs. -/
def SharedCall.wants : SharedCall R → Side
  | .enqueue _ | .tryEnqueue _ => .room
  | .dequeue | .tryDequeue => .items

/-- What a call that got it leaves for others. -/
def SharedCall.gives : SharedCall R → Side
  | .enqueue _ | .tryEnqueue _ => .items
  | .dequeue | .tryDequeue => .room

/-- What a call returns. -/
inductive SharedResult (T : Type) where
  | enqueued
  | refused (item : T)
  | dequeued (item : T)
  | empty
  deriving DecidableEq, Repr

/-- The next step of a call. -/
inductive SharedPc (T : Type) where
  -- Take the lock, and push or pop if there is room or an item.
  | lock
  -- The lock is released, and one wakeup is to be sent.
  | notify (result : SharedResult T)
  -- The lock is released, and the call has yet to ask for a wakeup.
  | await
  | parked
  | done (result : SharedResult T)
  deriving DecidableEq, Repr

/-- A running call. -/
structure SharedTask (R T : Type) where
  call : SharedCall R
  pc : SharedPc T
  deriving DecidableEq, Repr

/-- A queue with its two wakeups. -/
structure SharedQueue (Q : Type) where
  queue : Q
  notEmpty : Notify := {}
  notFull : Notify := {}

/-- The wakeups of those who wait for something. -/
def SharedQueue.notify (shared : SharedQueue Q) : Side → Notify
  | .items => shared.notEmpty
  | .room => shared.notFull

/-- Change the wakeups of those who wait for something. -/
def SharedQueue.renotify (shared : SharedQueue Q) (side : Side) (change : Notify → Notify) :
    SharedQueue Q :=
  match side with
  | .items => { shared with notEmpty := change shared.notEmpty }
  | .room => { shared with notFull := change shared.notFull }

/-- The body of the lock: push or pop, or see that there is nothing to be done yet. -/
def SharedQueue.locked (kind : QueueKind Q R T) (shared : SharedQueue Q) :
    SharedCall R → SharedQueue Q × SharedPc T
  | .enqueue request =>
    match kind.tryEnqueue shared.queue request with
    | .ok queue => ({ shared with queue := queue }, .notify .enqueued)
    | .error _ => (shared, .await)
  | .tryEnqueue request =>
    match kind.tryEnqueue shared.queue request with
    | .ok queue => ({ shared with queue := queue }, .notify .enqueued)
    | .error item => (shared, .done (.refused item))
  | .dequeue =>
    match kind.tryDequeue shared.queue with
    | some (item, queue) => ({ shared with queue := queue }, .notify (.dequeued item))
    | none => (shared, .await)
  | .tryDequeue =>
    match kind.tryDequeue shared.queue with
    | some (item, queue) => ({ shared with queue := queue }, .notify (.dequeued item))
    | none => (shared, .done .empty)

/-- One step of a call, refused while it waits and when it has returned. -/
def SharedQueue.move (kind : QueueKind Q R T) (self : Nat) (shared : SharedQueue Q)
    (task : SharedTask R T) : Option (SharedQueue Q × SharedTask R T) :=
  match task.pc with
  | .lock =>
    let (shared, pc) := shared.locked kind task.call
    some (shared, { task with pc := pc })
  | .notify result =>
    some (shared.renotify task.call.gives Notify.notifyOne, { task with pc := .done result })
  | .await =>
    let stored := (shared.notify task.call.wants).permit
    some (shared.renotify task.call.wants fun notify => (notify.notified self).1,
      { task with pc := if stored then .lock else .parked })
  | .parked =>
    if (shared.notify task.call.wants).ready self then
      some (shared.renotify task.call.wants fun notify => notify.withdraw self,
        { task with pc := .lock })
    else none
  | .done _ => none

/-- A queue and the calls on it. -/
abbrev SharedPool (Q R T : Type) := Pool (SharedQueue Q) (SharedTask R T)

/-- A call begins, or a running one takes its next step. -/
inductive SharedAction (R : Type) where
  | call (call : SharedCall R)
  | step (task : Nat)
  deriving DecidableEq, Repr

/-- One step of the calls on a queue. -/
def SharedPool.step (kind : QueueKind Q R T) (pool : SharedPool Q R T) :
    SharedAction R → Option (SharedPool Q R T)
  | .call call => some (pool.spawn ⟨call, .lock⟩)
  | .step i => pool.advance i (SharedQueue.move kind i)

/-- A queue on which no call has been made. -/
def SharedPool.start (queue : Q) : SharedPool Q R T :=
  ⟨{ queue := queue }, []⟩

end Qaas
