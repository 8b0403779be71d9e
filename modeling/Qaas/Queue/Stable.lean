import Qaas.Queue.Priority
import Qaas.Queue.Wakeups

/-! A priority queue that concurrent calls share: stable, bounded, and without loss. -/

namespace Qaas

open Concurrency Ordered

variable {R T : Type}

/-- What a call asks to push. -/
def SharedCall.request : SharedCall R → Option R
  | .enqueue request | .tryEnqueue request => some request
  | .dequeue | .tryDequeue => none

/-- The item that a call has pushed. -/
def SharedTask.pushed (task : SharedTask (T × Priority) T) : Option T :=
  match task.pc with
  | .notify .enqueued | .done .enqueued => task.call.request.map Prod.fst
  | _ => none

/-- The item that a call has popped and returns. -/
def SharedTask.popped (task : SharedTask (T × Priority) T) : Option T :=
  match task.pc with
  | .notify (.dequeued item) | .done (.dequeued item) => some item
  | _ => none

/-- A queue is at its capacity. -/
def PriorityQueue.Full (queue : PriorityQueue T) : Prop :=
  ∃ limit ∈ queue.capacity, queue.waiting.length = limit.val

/-- What a step of a call on a priority queue does, by where the call stands before and after it; the
queue is stable as long as its sequence numbers have not wrapped around. -/
inductive PriorityStep (unwrapped : Prop) (shared next : SharedQueue (PriorityQueue T))
    (call : SharedCall (T × Priority)) : SharedPc T → SharedPc T → Prop
  /-- An item goes behind all that wait. -/
  | pushes {request : T × Priority} (asks : call.request = some request) (room : ¬ shared.queue.Full)
      (behind : next.queue.waiting = shared.queue.waiting ++ [request]) :
      PriorityStep unwrapped shared next call .lock (.notify .enqueued)
  /-- One item of the highest priority leaves; it is the earliest of them, and the others keep their
  order. -/
  | pops {item : T} {priority : Priority} (asks : call.request = none)
      (leaves : shared.queue.waiting.Perm ((item, priority) :: next.queue.waiting))
      (highest : ∀ waiting ∈ shared.queue.waiting, waiting.2.rank ≤ priority.rank)
      (best : unwrapped → EarliestBest (fun waiting => waiting.2.rank) shared.queue.waiting
        (item, priority) next.queue.waiting) :
      PriorityStep unwrapped shared next call .lock (.notify (.dequeued item))
  /-- A call that does not wait gets its item back. -/
  | refuses {item : T} {priority : Priority} (asks : call = .tryEnqueue (item, priority))
      (full : shared.queue.Full) (same : next = shared) :
      PriorityStep unwrapped shared next call .lock (.done (.refused item))
  | empty (asks : call = .tryDequeue) (nothing : shared.queue.waiting = []) (same : next = shared) :
      PriorityStep unwrapped shared next call .lock (.done .empty)
  /-- A call that waits goes to sleep. -/
  | waits (lacks : call.request.isSome ∧ shared.queue.Full ∨ call.request = none ∧ shared.queue.waiting = [])
      (same : next = shared) : PriorityStep unwrapped shared next call .lock .await
  /-- All that is done without the lock leaves the queue. -/
  | notifies {result : SharedResult T} (same : next.queue = shared.queue) :
      PriorityStep unwrapped shared next call (.notify result) (.done result)
  | asks {pc : SharedPc T} (again : pc = .lock ∨ pc = .parked) (same : next.queue = shared.queue) :
      PriorityStep unwrapped shared next call .await pc
  | wakes (same : next.queue = shared.queue) : PriorityStep unwrapped shared next call .parked .lock

/-- The items that calls have pushed since the queue was made. -/
def SharedPool.pushed {Q : Type} (pool : SharedPool Q (T × Priority) T) : List T :=
  pool.tasks.filterMap SharedTask.pushed

/-- A step on the calls of a priority queue, which is stable up to the last sequence number. -/
def StableTransition (e : Transition (SharedPool (PriorityQueue T) (T × Priority) T) (SharedAction (T × Priority))) :
    Prop :=
  match e.act with
  | .call call => e.post = e.pre.spawn ⟨call, .lock⟩
  | .step i => ∃ task pc, e.pre.tasks[i]? = some task ∧
    e.post.tasks = e.pre.tasks.set i ⟨task.call, pc⟩ ∧
      PriorityStep (e.pre.pushed.length ≤ UInt64.size) e.pre.shared e.post.shared task.call task.pc pc

@[simp] theorem PriorityQueue.length_waiting (queue : PriorityQueue T) :
    queue.waiting.length = queue.items.length := by
  simp [waiting]

/-- No more items wait than a queue has room for. -/
def PriorityQueue.Within (queue : PriorityQueue T) : Prop :=
  ∀ limit ∈ queue.capacity, queue.waiting.length ≤ limit.val

/-- A push goes through unless the queue is full. -/
theorem PriorityQueue.Within.tryEnqueue_cases {queue : PriorityQueue T} (within : queue.Within)
    (request : T × Priority) :
    ¬ queue.Full ∧ (PriorityQueue.kind T).tryEnqueue queue request =
      .ok (queue.pushEntry request.1 request.2) ∨
      queue.Full ∧ (PriorityQueue.kind T).tryEnqueue queue request = .error request.1 := by
  -- The queue is full exactly when the check of the source finds no room.
  by_cases room : queue.hasRoom queue.items.length
  · refine .inl ⟨fun ⟨limit, bound, full⟩ => ?_, if_pos room⟩
    -- Room and a reached limit contradict each other.
    rw [Option.mem_def] at bound
    rw [length_waiting] at full
    simp [hasRoom, bound, full] at room
  · refine .inr ⟨?_, if_neg room⟩
    cases bounded : queue.capacity with
    | none => simp [hasRoom, bounded] at room
    | some limit =>
      -- Without room the limit is reached, and it was never passed.
      have most := within limit bounded
      have reached : limit.val ≤ queue.items.length := by simpa [hasRoom, bounded] using room
      rw [length_waiting] at most
      exact ⟨limit, bounded, by rw [length_waiting]; omega⟩

/-- A push keeps within the capacity when there is room. -/
theorem PriorityQueue.Within.pushEntry {queue : PriorityQueue T} (within : queue.Within)
    (room : ¬ queue.Full) (item : T) (priority : Priority) :
    (queue.pushEntry item priority).Within := by
  intro limit bound
  have most := within limit bound
  -- A queue within its bound that is not full is short of it.
  have short : queue.waiting.length ≠ limit.val := fun full => room ⟨limit, bound, full⟩
  rw [waiting_pushEntry, List.length_append, List.length_singleton]
  omega

/-- A pop keeps within the capacity. -/
theorem PriorityQueue.Within.tryDequeue {queue next : PriorityQueue T} {item : T} (within : queue.Within)
    (popped : queue.tryDequeue = some (item, next)) : next.Within := by
  -- A pop makes the queue shorter and leaves the capacity alone.
  obtain ⟨shorter, same⟩ := (PriorityQueue.kind T).popped popped
  simp only [PriorityQueue.kind] at shorter same
  intro limit bound
  rw [same] at bound
  have most := within limit bound
  rw [length_waiting] at most ⊢
  omega

/-- The queue is in order as long as there were no more pushes than sequence numbers. -/
structure PriorityQueue.Numbered (queue : PriorityQueue T) (pushes : Nat) : Prop where
  counter : queue.nextSequence = UInt64.ofNat pushes
  ordered : pushes ≤ UInt64.size → queue.Ordered pushes

/-- A push takes the next number. -/
theorem PriorityQueue.Numbered.pushEntry {queue : PriorityQueue T} {pushes : Nat}
    (numbered : queue.Numbered pushes) (item : T) (priority : Priority) :
    (queue.pushEntry item priority).Numbered (pushes + 1) where
  counter := by simp [PriorityQueue.pushEntry, numbered.counter, UInt64.ofNat_add]
  ordered few := (numbered.ordered (Nat.le_of_succ_le few)).pushEntry few item priority

/-- A pop takes one item of the highest priority, and the earliest of them unless the numbers have
wrapped around. -/
theorem PriorityQueue.Numbered.tryDequeue {queue next : PriorityQueue T} {item : T} {pushes : Nat}
    (numbered : queue.Numbered pushes) (popped : queue.tryDequeue = some (item, next)) :
    next.Numbered pushes ∧ ∃ priority : Priority, queue.waiting.Perm ((item, priority) :: next.waiting) ∧
      (∀ waiting ∈ queue.waiting, waiting.2.rank ≤ priority.rank) ∧
      (pushes ≤ UInt64.size →
        EarliestBest (fun waiting => waiting.2.rank) queue.waiting (item, priority) next.waiting) := by
  obtain ⟨same, priority, leaves, highest⟩ := tryDequeue_highest popped
  refine ⟨⟨same.trans numbered.counter, fun few => ((numbered.ordered few).tryDequeue popped).1⟩, ?_⟩
  -- In order or not, the priority is that of the item popped.
  by_cases few : pushes ≤ UInt64.size
  · obtain ⟨-, own, best⟩ := (numbered.ordered few).tryDequeue popped
    exact ⟨own, best.perm, fun waiting inside => best.level_le inside, fun _ => best⟩
  · exact ⟨priority, leaves, highest, fun fewer => absurd fewer few⟩

/-- The number of items that a call has pushed, which is one at most. -/
def SharedTask.pushes (task : SharedTask (T × Priority) T) : Nat :=
  task.pushed.toList.length

/-- The body of the lock is a step of a priority queue, and keeps its order and its bound. -/
theorem locked_priorityStep {shared : SharedQueue (PriorityQueue T)} {pushes : Nat}
    (numbered : shared.queue.Numbered pushes) (within : shared.queue.Within)
    (call : SharedCall (T × Priority)) :
    PriorityStep (pushes ≤ UInt64.size) shared (shared.locked (PriorityQueue.kind T) call).1 call .lock
        (shared.locked (PriorityQueue.kind T) call).2 ∧
      (shared.locked (PriorityQueue.kind T) call).1.queue.Numbered
        (pushes + SharedTask.pushes ⟨call, (shared.locked (PriorityQueue.kind T) call).2⟩) ∧
      (shared.locked (PriorityQueue.kind T) call).1.queue.Within ∧
      (shared.locked (PriorityQueue.kind T) call).1.queue.capacity = shared.queue.capacity := by
  -- Under the lock a request is pushed if there is room, and otherwise waits or is refused.
  cases call with
  | enqueue request =>
    rcases within.tryEnqueue_cases request with ⟨room, fits⟩ | ⟨full, refused⟩
    · simp only [SharedQueue.locked, fits]
      exact ⟨.pushes rfl room (PriorityQueue.waiting_pushEntry _ _ _), numbered.pushEntry _ _,
        within.pushEntry room _ _, rfl⟩
    · simp only [SharedQueue.locked, refused]
      exact ⟨.waits (.inl ⟨rfl, full⟩) rfl, numbered, within, trivial⟩
  | tryEnqueue request =>
    rcases within.tryEnqueue_cases request with ⟨room, fits⟩ | ⟨full, refused⟩
    · simp only [SharedQueue.locked, fits]
      exact ⟨.pushes rfl room (PriorityQueue.waiting_pushEntry _ _ _), numbered.pushEntry _ _,
        within.pushEntry room _ _, rfl⟩
    · simp only [SharedQueue.locked, refused]
      exact ⟨.refuses rfl full rfl, numbered, within, trivial⟩
  -- The one popped is of the highest priority, and the earliest of them while the numbers have not wrapped.
  | dequeue =>
    cases popped : shared.queue.tryDequeue with
    | none =>
      have found : (PriorityQueue.kind T).tryDequeue shared.queue = none := popped
      simp only [SharedQueue.locked, found]
      exact ⟨.waits (.inr ⟨rfl, PriorityQueue.tryDequeue_eq_none.mp popped⟩) rfl, numbered,
        within, trivial⟩
    | some pair =>
      obtain ⟨item, rest⟩ := pair
      have found : (PriorityQueue.kind T).tryDequeue shared.queue = some (item, rest) := popped
      obtain ⟨kept, priority, leaves, highest, best⟩ := numbered.tryDequeue popped
      simp only [SharedQueue.locked, found]
      exact ⟨.pops rfl leaves highest best, kept, within.tryDequeue popped,
        ((PriorityQueue.kind T).popped popped).2⟩
  | tryDequeue =>
    cases popped : shared.queue.tryDequeue with
    | none =>
      have found : (PriorityQueue.kind T).tryDequeue shared.queue = none := popped
      simp only [SharedQueue.locked, found]
      exact ⟨.empty rfl (PriorityQueue.tryDequeue_eq_none.mp popped) rfl, numbered, within, trivial⟩
    | some pair =>
      obtain ⟨item, rest⟩ := pair
      have found : (PriorityQueue.kind T).tryDequeue shared.queue = some (item, rest) := popped
      obtain ⟨kept, priority, leaves, highest, best⟩ := numbered.tryDequeue popped
      simp only [SharedQueue.locked, found]
      exact ⟨.pops rfl leaves highest best, kept, within.tryDequeue popped,
        ((PriorityQueue.kind T).popped popped).2⟩

/-- Every step of a call is a step of a priority queue, and keeps its order and its bound. -/
theorem move_priorityStep {self pushes : Nat} {shared next : SharedQueue (PriorityQueue T)}
    {task after : SharedTask (T × Priority) T} (numbered : shared.queue.Numbered pushes)
    (within : shared.queue.Within)
    (moved : shared.move (PriorityQueue.kind T) self task = some (next, after)) :
    after.call = task.call ∧
      PriorityStep (pushes ≤ UInt64.size) shared next task.call task.pc after.pc ∧
      (∃ total, next.queue.Numbered total ∧ total + task.pushes = pushes + after.pushes) ∧
      next.queue.Within ∧ next.queue.capacity = shared.queue.capacity := by
  -- Only the body of the lock touches the queue.
  obtain ⟨call, pc⟩ := task
  cases pc with
  | lock =>
    obtain ⟨rfl, rfl⟩ := Prod.mk.inj (Option.some.inj moved)
    obtain ⟨step, kept, bound, same⟩ := locked_priorityStep numbered within call
    exact ⟨rfl, step, ⟨_, kept, rfl⟩, bound, same⟩
  | notify result =>
    -- From here on only the wakeups change.
    obtain ⟨rfl, rfl⟩ := Prod.mk.inj (Option.some.inj moved)
    simp only [SharedQueue.queue_renotify]
    refine ⟨trivial, .notifies (SharedQueue.queue_renotify _ _ _), ⟨pushes, numbered, ?_⟩, within, trivial⟩
    cases result <;> rfl
  | await =>
    obtain ⟨rfl, rfl⟩ := Prod.mk.inj (Option.some.inj moved)
    simp only [SharedQueue.queue_renotify]
    refine ⟨trivial, .asks ?_ (SharedQueue.queue_renotify _ _ _), ⟨pushes, numbered, ?_⟩, within, trivial⟩
    · split
      · exact .inl rfl
      · exact .inr rfl
    · split <;> rfl
  | parked =>
    -- A parked call goes on when it was notified.
    simp only [SharedQueue.move] at moved
    split at moved
    · obtain ⟨rfl, rfl⟩ := Prod.mk.inj (Option.some.inj moved)
      simp only [SharedQueue.queue_renotify]
      exact ⟨trivial, .wakes (SharedQueue.queue_renotify _ _ _), ⟨pushes, numbered, rfl⟩, within, trivial⟩
    · cases moved
  | done result => cases moved

/-- A step moves an item between those who have pushed it, the queue and those who have popped it. -/
theorem PriorityStep.conserves [DecidableEq T] {unwrapped : Prop}
    {shared next : SharedQueue (PriorityQueue T)}
    {call : SharedCall (T × Priority)} {before after : SharedPc T}
    (step : PriorityStep unwrapped shared next call before after) (item : T) :
    share SharedTask.pushed item ⟨call, after⟩ + share SharedTask.popped item ⟨call, before⟩ +
        (shared.queue.waiting.map Prod.fst).count item =
      share SharedTask.pushed item ⟨call, before⟩ + share SharedTask.popped item ⟨call, after⟩ +
        (next.queue.waiting.map Prod.fst).count item := by
  cases step with
  | @pushes request asks room behind =>
    simp only [share, SharedTask.pushed, SharedTask.popped, asks, behind, Option.map_some,
      Option.some.injEq,
      List.map_append, List.map_singleton, List.count_append, List.count_singleton, reduceCtorEq,
        if_false, beq_iff_eq]
    omega
  | @pops other priority asks leaves highest best =>
    -- What leaves the queue is what the call has popped.
    have counted := (leaves.map Prod.fst).count_eq item
    simp only [List.map_cons, List.count_cons, beq_iff_eq] at counted
    simp only [share, SharedTask.pushed, SharedTask.popped, Option.some.injEq, reduceCtorEq, if_false]
    omega
  -- Nothing moves in the steps that are left.
  | refuses asks full same =>
    subst same
    rfl
  | empty asks nothing same =>
    subst same
    rfl
  | waits lacks same =>
    subst same
    rfl
  | @notifies result same =>
    rw [same]
    cases result <;> rfl
  | asks again same =>
    rw [same]
    rcases again with rfl | rfl <;> rfl
  | wakes same =>
    rw [same]
    rfl

/-- What is true of the calls on a priority queue at any time. -/
structure SharedPool.PrioritySound (capacity : Option { limit : Nat // 0 < limit })
    (pool : SharedPool (PriorityQueue T) (T × Priority) T) : Prop where
  numbered : pool.shared.queue.Numbered pool.pushed.length
  within : pool.shared.queue.Within
  capacity : pool.shared.queue.capacity = capacity
  /-- Every item that was pushed is in the queue, or some call has popped it. -/
  conserved : (pool.pushed : Multiset T) =
    pool.tasks.filterMap SharedTask.popped + pool.shared.queue.waiting.map Prod.fst

/-- Every step keeps the calls sound, and is one of a priority queue. -/
theorem SharedPool.PrioritySound.step {capacity : Option { limit : Nat // 0 < limit }}
    {pool next : SharedPool (PriorityQueue T) (T × Priority) T} {act : SharedAction (T × Priority)}
    (sound : pool.PrioritySound capacity) (taken : SharedPool.step (PriorityQueue.kind T) pool act = some next) :
    next.PrioritySound capacity ∧ StableTransition ⟨pool, act, next⟩ := by
  obtain ⟨numbered, within, same, conserved⟩ := sound
  cases act with
  | call call =>
    obtain rfl := Option.some.inj taken
    -- A call that begins has neither pushed nor popped.
    have none_pushed : SharedPool.pushed (pool.spawn ⟨call, .lock⟩) = pool.pushed := by
      have pushed : [(⟨call, .lock⟩ : SharedTask (T × Priority) T)].filterMap SharedTask.pushed = [] := rfl
      simp only [SharedPool.pushed, Pool.spawn, List.filterMap_append, pushed, List.append_nil]
    have popped : [(⟨call, .lock⟩ : SharedTask (T × Priority) T)].filterMap SharedTask.popped = [] := rfl
    refine ⟨⟨?_, within, same, ?_⟩, rfl⟩
    · rw [none_pushed]
      exact numbered
    · rw [none_pushed]
      simp only [Pool.spawn, List.filterMap_append, popped, List.append_nil]
      exact conserved
  | step i =>
    -- One call takes a step, and it stays the same call.
    obtain ⟨⟨_, before⟩, shared, ⟨call, after⟩, found, moved, rfl⟩ := Pool.advance_eq_some.mp taken
    obtain ⟨own, step, ⟨total, counted, pushes⟩, bound, unchanged⟩ := move_priorityStep numbered within moved
    simp only at own step
    subst own
    refine ⟨⟨?_, bound, unchanged.trans same, ?_⟩, ⟨call, before⟩, after, found, rfl, step⟩
    · -- The pushes over all calls change by those of the one that moved.
      have moves := tally_set SharedTask.pushes ⟨call, after⟩ found
      have summed : total = (SharedPool.pushed ⟨shared, pool.tasks.set i ⟨call, after⟩⟩).length := by
        simp only [SharedPool.pushed, length_filterMap] at pushes ⊢
        change total = tally SharedTask.pushes _
        change total + _ = tally SharedTask.pushes _ + _ at pushes
        omega
      exact summed ▸ counted
    · classical
      -- Counted item by item, the sums over the calls change by the one that moved.
      refine Multiset.ext.mpr fun item => ?_
      have balance := congrArg (Multiset.count item) conserved
      have moves := step.conserves item
      have pushed := tally_set (share SharedTask.pushed item) ⟨call, after⟩ found
      have popped := tally_set (share SharedTask.popped item) ⟨call, after⟩ found
      simp only [SharedPool.pushed, Multiset.count_add, count_filterMap] at balance ⊢
      rw [Multiset.coe_count] at balance ⊢
      omega

/-- A priority queue with any capacity or none, under any interleaving of the steps of any calls: it
never holds more items than its capacity; a call pops an item of the highest priority, the earliest
of them as long as no more items were pushed than there are sequence numbers, and a refused call
gets its item back and changes nothing; and every pushed item is in the queue or has been popped by
one call. -/
theorem SharedPool.priority_stable {capacity : Option { limit : Nat // 0 < limit }}
    {trace : List (Transition (SharedPool (PriorityQueue T) (T × Priority) T) (SharedAction (T × Priority)))}
    {pool : SharedPool (PriorityQueue T) (T × Priority) T}
    (run : Run (SharedPool.step (PriorityQueue.kind T)) (fun _ _ => True) (.start ⟨[], capacity, 0⟩) trace pool) :
    (∀ limit ∈ capacity, pool.shared.queue.items.length ≤ limit.val) ∧
      (∀ e ∈ trace, StableTransition e) ∧
      (pool.tasks.filterMap SharedTask.pushed : Multiset T) =
        pool.tasks.filterMap SharedTask.popped + pool.shared.queue.items.map Entry.item := by
  -- Soundness is the invariant, and the steps of the run are read off from it.
  have sound {trace pool}
      (run : Run (SharedPool.step (PriorityQueue.kind T)) (fun _ _ => True) (.start ⟨[], capacity, 0⟩) trace pool) :
      pool.PrioritySound capacity :=
    run.invariant ⟨⟨rfl, fun _ => .new capacity⟩, fun _ _ => Nat.zero_le _, rfl, rfl⟩
      fun _ _ _ _ sound taken => (sound.step taken).1
  obtain ⟨_, within, same, conserved⟩ := sound run
  refine ⟨fun limit bound => ?_, fun e member => ?_, ?_⟩
  · rw [← PriorityQueue.length_waiting]
    exact within limit (same ▸ bound)
  · obtain ⟨⟨_, reached⟩, _, taken⟩ := run.of_mem member
    exact ((sound reached).step taken).2
  · rw [SharedPool.pushed, PriorityQueue.waiting, List.map_map] at conserved
    exact conserved

/-- Two items fill the queue, one call is refused and another waits until a third has popped an item. -/
def crowdedPriorities : List (SharedAction (Nat × Priority)) :=
  [.call (.enqueue (1, ⟨1⟩)), .step 0, .step 0, .call (.enqueue (2, ⟨10⟩)), .step 1, .step 1,
    .call (.tryEnqueue (3, ⟨1⟩)), .step 2, .call (.enqueue (4, ⟨1⟩)), .step 3,
    -- The item of the higher priority leaves first, and there is room again.
    .call .dequeue, .step 4, .step 4, .step 3, .step 3, .step 3, .call .dequeue, .step 5, .step 5]

theorem SharedPool.priority_stable_crowded : ∃ trace pool,
    Run (SharedPool.step (PriorityQueue.kind Nat)) (fun _ _ => True)
      (.start ⟨[], some ⟨2, Nat.two_pos⟩, 0⟩)
      trace pool ∧
      pool.tasks.map SharedTask.pc = [.done .enqueued, .done .enqueued, .done (.refused 3),
        .done .enqueued, .done (.dequeued 2), .done (.dequeued 1)] ∧
      ∀ e ∈ trace, StableTransition e := by
  have reached : ∃ pool, Reachable (SharedPool.step (PriorityQueue.kind Nat)) (fun _ _ => True)
      (.start ⟨[], some ⟨2, Nat.two_pos⟩, 0⟩) pool ∧
      pool.tasks.map SharedTask.pc = [.done .enqueued, .done .enqueued, .done (.refused 3),
        .done .enqueued, .done (.dequeued 2), .done (.dequeued 1)] :=
    reaches_of_exec crowdedPriorities _ (by decide +kernel)
  obtain ⟨pool, ⟨trace, run⟩, returned⟩ := reached
  exact ⟨trace, pool, run, returned, (SharedPool.priority_stable run).2.1⟩

/-- A push into a queue without a limit, by a call that nothing interrupts. -/
theorem SharedPool.enqueue_alone {shared : SharedQueue (PriorityQueue T)}
    (unlimited : shared.queue.capacity = none) (tasks : List (SharedTask (T × Priority) T))
    (request : T × Priority) :
    exec (SharedPool.step (PriorityQueue.kind T)) (fun _ _ => True) ⟨shared, tasks⟩
        [.call (.enqueue request), .step tasks.length, .step tasks.length] =
      some ⟨{ shared with
        queue := shared.queue.pushEntry request.1 request.2
        notEmpty := shared.notEmpty.notifyOne }, tasks ++ [⟨.enqueue request, .done .enqueued⟩]⟩ := by
  simp [exec, SharedPool.step, Pool.spawn, Pool.advance, SharedQueue.move, SharedQueue.locked,
    PriorityQueue.kind, PriorityQueue.tryEnqueue, PriorityQueue.hasRoom, unlimited, SharedCall.gives,
    SharedQueue.renotify]

/-- A pop by a call that finds an item and that nothing interrupts. -/
theorem SharedPool.dequeue_alone {shared : SharedQueue (PriorityQueue T)} {rest : PriorityQueue T}
    {item : T} (popped : shared.queue.tryDequeue = some (item, rest))
    (tasks : List (SharedTask (T × Priority) T)) :
    exec (SharedPool.step (PriorityQueue.kind T)) (fun _ _ => True) ⟨shared, tasks⟩
        [.call .dequeue, .step tasks.length, .step tasks.length] =
      some ⟨{ shared with queue := rest, notFull := shared.notFull.notifyOne },
        tasks ++ [⟨.dequeue, .done (.dequeued item)⟩]⟩ := by
  simp [exec, SharedPool.step, Pool.spawn, Pool.advance, SharedQueue.move, SharedQueue.locked,
    PriorityQueue.kind, popped, SharedCall.gives, SharedQueue.renotify]

/-- A push and a pop one after the other use up one sequence number, and leave nothing behind. -/
theorem SharedPool.uses_up (pushes : Nat) : ∃ pool,
    Reachable (SharedPool.step (PriorityQueue.kind Nat)) (fun _ _ => True)
      (.start PriorityQueue.unbounded) pool ∧
      pool.shared.queue = ⟨[], none, UInt64.ofNat pushes⟩ := by
  -- By induction on the number of pushes, each one followed by a pop.
  induction pushes with
  | zero => exact ⟨_, ⟨[], .nil⟩, rfl⟩
  | succ pushes ih =>
    obtain ⟨⟨shared, tasks⟩, reached, empty⟩ := ih
    have pushed := reachable_of_exec reached (enqueue_alone (by rw [empty]) tasks (0, ⟨0⟩))
    have popped := reachable_of_exec pushed (dequeue_alone (by rw [empty]; rfl) _)
    exact ⟨_, popped, by simp [PriorityQueue.pushEntry, UInt64.ofNat_add]⟩

/-- When the last sequence number and then the first are given to two items of one priority, the one
pushed later leaves first. -/
theorem SharedPool.overtaken_wrapped : ∃ pool next : SharedPool (PriorityQueue Nat) (Nat × Priority) Nat,
    Reachable (SharedPool.step (PriorityQueue.kind Nat)) (fun _ _ => True)
      (.start PriorityQueue.unbounded) pool ∧
      pool.shared.queue.waiting = [(1, ⟨0⟩), (2, ⟨0⟩)] ∧
      exec (SharedPool.step (PriorityQueue.kind Nat)) (fun _ _ => True) pool
        [.call .dequeue, .step pool.tasks.length, .step pool.tasks.length] = some next ∧
      next.tasks = pool.tasks ++ [⟨.dequeue, .done (.dequeued 2)⟩] := by
  -- The first of the two takes the last number, and the counter begins again with the second.
  obtain ⟨⟨shared, tasks⟩, reached, empty⟩ := uses_up (UInt64.size - 1)
  have first := reachable_of_exec reached (enqueue_alone (by rw [empty]) tasks (1, ⟨0⟩))
  have second := reachable_of_exec first (enqueue_alone (by rw [empty]; rfl) _ (2, ⟨0⟩))
  have popped : ((shared.queue.pushEntry 1 ⟨0⟩).pushEntry 2 ⟨0⟩).tryDequeue =
      some (2, ⟨[⟨⟨0⟩, UInt64.ofNat (UInt64.size - 1), 1⟩], none, 1⟩) := by
    rw [empty]
    rfl
  exact ⟨_, _, second, by rw [empty]; rfl, dequeue_alone popped _, rfl⟩

end Qaas
