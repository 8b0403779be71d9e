import Qaas.Queue.Shared

/-! Whether a call on an in-memory queue waits for something that is there. -/

namespace Qaas

open Concurrency

variable {Q R T : Type}

/-- A queue has nothing of what a call needs. -/
def QueueKind.Lacks (kind : QueueKind Q R T) (queue : Q) : Side → Prop
  | .items => kind.len queue = 0
  | .room => ∃ limit ∈ kind.capacity queue, limit.val ≤ kind.len queue

/-- How much of what a call needs a queue has, as far as anybody can wait for it. -/
def QueueKind.available (kind : QueueKind Q R T) (queue : Q) : Side → Nat
  | .items => kind.len queue
  | .room =>
    match kind.capacity queue with
    | none => 0
    | some limit => limit.val - kind.len queue

/-- What a queue is after a call has got what it needs. -/
def QueueKind.Took (kind : QueueKind Q R T) (queue next : Q) (side : Side) : Prop :=
  kind.capacity next = kind.capacity queue ∧
    match side with
    | .items => kind.len queue = kind.len next + 1
    | .room => kind.len next = kind.len queue + 1 ∧ ∀ limit ∈ kind.capacity queue, kind.len queue < limit.val

/-- Whether a step is one that looks whether there is anything. -/
def SharedPc.looking : SharedPc T → Bool
  | .lock => true
  | _ => false

/-- Whether a call has found nothing and has no wakeup. -/
def SharedPc.waiting : SharedPc T → Bool
  | .await | .parked => true
  | _ => false

/-- Whether a step is one that sends a wakeup. -/
def SharedPc.telling : SharedPc T → Bool
  | .notify _ => true
  | _ => false

/-- Whether a call is registered for a wakeup. -/
def SharedPc.parks : SharedPc T → Bool
  | .parked => true
  | _ => false

/-- Whether a call has returned. -/
def SharedPc.finished : SharedPc T → Bool
  | .done _ => true
  | _ => false

/-- One for a call that is about to take what others may wait for. -/
def SharedTask.looks (side : Side) (task : SharedTask R T) : Nat :=
  (decide (task.call.wants = side) && task.pc.looking).toNat

/-- One for a call that waits. -/
def SharedTask.waits (side : Side) (task : SharedTask R T) : Nat :=
  (decide (task.call.wants = side) && task.pc.waiting).toNat

/-- One for a call that is about to send a wakeup. -/
def SharedTask.tells (side : Side) (task : SharedTask R T) : Nat :=
  (decide (task.call.gives = side) && task.pc.telling).toNat

/-- A call is registered for a wakeup. -/
def SharedTask.ParksFor (side : Side) (task : SharedTask R T) : Prop :=
  task.call.wants = side ∧ task.pc.parks

/-- What there is of one thing, who takes it, and which wakeups are under way. -/
def SharedPool.supply (kind : QueueKind Q R T) (pool : SharedPool Q R T) (side : Side) : Supply where
  available := kind.available pool.shared.queue side
  looking := tally (SharedTask.looks side) pool.tasks
  waiting := tally (SharedTask.waits side) pool.tasks
  telling := tally (SharedTask.tells side) pool.tasks
  stored := (pool.shared.notify side).permit.toNat
  sent := (pool.shared.notify side).woken.length

/--
Two wakeups become one only where one of them is to spare.

A wakeup that finds another one stored is lost. Then more wakeups are under way than there are
calls that wait and will find something, counting out what the calls about to look will take.
-/
def Sparing (kind : QueueKind Q R T) (pool : SharedPool Q R T) : SharedAction R → Prop
  | .call _ => True
  | .step i => ∀ task ∈ pool.tasks[i]?, task.pc.telling →
      (pool.shared.notify task.call.gives).permit → (pool.supply kind task.call.gives).Spare

instance (kind : QueueKind Q R T) (pool : SharedPool Q R T) (act : SharedAction R) :
    Decidable (Sparing kind pool act) :=
  match act with
  | .call _ => .isTrue trivial
  | .step i => inferInstanceAs (Decidable (∀ task ∈ pool.tasks[i]?, task.pc.telling →
      (pool.shared.notify task.call.gives).permit → (pool.supply kind task.call.gives).Spare))

/-- Every call has returned, or waits without a wakeup. -/
def SharedPool.Settled (pool : SharedPool Q R T) : Prop :=
  pool.All fun i task => task.pc.finished ∨
    task.pc.parks ∧ (pool.shared.notify task.call.wants).ready i = false

instance SharedPool.decidableSettled (pool : SharedPool Q R T) : Decidable pool.Settled :=
  inferInstanceAs (Decidable (pool.All fun _ _ => _))

/-- What one step of a call does. -/
inductive SharedMoved (kind : QueueKind Q R T) (self : Nat) (shared : SharedQueue Q)
    (call : SharedCall R) : SharedPc T → SharedQueue Q → SharedPc T → Prop
  | took {queue : Q} {result : SharedResult T} (took : kind.Took shared.queue queue call.wants) :
      SharedMoved kind self shared call .lock { shared with queue := queue } (.notify result)
  | waited (lacks : kind.Lacks shared.queue call.wants) :
      SharedMoved kind self shared call .lock shared .await
  | gaveUp {result : SharedResult T} (lacks : kind.Lacks shared.queue call.wants) :
      SharedMoved kind self shared call .lock shared (.done result)
  | told {result : SharedResult T} :
      SharedMoved kind self shared call (.notify result)
        (shared.renotify call.gives Notify.notifyOne) (.done result)
  | went (stored : (shared.notify call.wants).permit = true) :
      SharedMoved kind self shared call .await
        (shared.renotify call.wants fun notify => (notify.notified self).1) .lock
  | parked (empty : (shared.notify call.wants).permit = false) :
      SharedMoved kind self shared call .await
        (shared.renotify call.wants fun notify => (notify.notified self).1) .parked
  | roused (ready : (shared.notify call.wants).ready self = true) :
      SharedMoved kind self shared call .parked
        (shared.renotify call.wants fun notify => notify.withdraw self) .lock

/-- The lock's body takes what there is, or finds nothing. -/
theorem locked_moved (kind : QueueKind Q R T) (self : Nat) (shared : SharedQueue Q)
    (call : SharedCall R) :
    SharedMoved kind self shared call .lock (shared.locked kind call).1 (shared.locked kind call).2 := by
  -- What a call does with the lock is settled by the queue it finds.
  cases call with
  | enqueue request =>
    simp only [SharedQueue.locked]
    split
    · rename_i queue fits
      -- There was room, and the item joins the queue.
      obtain ⟨longer, same, room⟩ := kind.pushed fits
      exact .took ⟨same, longer, room⟩
    · rename_i full
      exact .waited (kind.refused full)
  | tryEnqueue request =>
    simp only [SharedQueue.locked]
    split
    · rename_i queue fits
      obtain ⟨longer, same, room⟩ := kind.pushed fits
      exact .took ⟨same, longer, room⟩
    · rename_i full
      -- The non-waiting variants answer at once instead of waiting.
      exact .gaveUp (kind.refused full)
  | dequeue =>
    simp only [SharedQueue.locked]
    split
    · rename_i item queue found
      obtain ⟨shorter, same⟩ := kind.popped found
      exact .took ⟨same, shorter⟩
    · rename_i nothing
      -- The queue is empty, and the call goes on to wait.
      exact .waited (kind.drained nothing)
  | tryDequeue =>
    simp only [SharedQueue.locked]
    split
    · rename_i item queue found
      obtain ⟨shorter, same⟩ := kind.popped found
      exact .took ⟨same, shorter⟩
    · rename_i nothing
      exact .gaveUp (kind.drained nothing)

/-- Every step of a call is one of these. -/
theorem move_sharedMoved {kind : QueueKind Q R T} {self : Nat} {shared shared' : SharedQueue Q}
    {task task' : SharedTask R T} (moved : shared.move kind self task = some (shared', task')) :
    task'.call = task.call ∧ SharedMoved kind self shared task.call task.pc shared' task'.pc := by
  obtain ⟨call, pc⟩ := task
  cases pc with
  | lock =>
    cases moved
    exact ⟨rfl, locked_moved kind self shared call⟩
  | notify result =>
    cases moved
    exact ⟨rfl, .told⟩
  | await =>
    cases moved
    refine ⟨rfl, ?_⟩
    -- A stored permit is consumed without waiting.
    cases stored : (shared.notify call.wants).permit with
    | true => exact .went stored
    | false => exact .parked stored
  | parked =>
    simp only [SharedQueue.move] at moved
    split at moved <;> cases moved
    -- Only a call that has been woken goes on from here.
    rename_i ready
    exact ⟨rfl, .roused ready⟩
  | done result => cases moved

/-- A step is a call, or one step of a running one. -/
theorem pool_step {kind : QueueKind Q R T} {pool next : SharedPool Q R T} {act : SharedAction R}
    (taken : pool.step kind act = some next) :
    (∃ call, act = .call call ∧ next = pool.spawn ⟨call, .lock⟩) ∨
      ∃ i task shared pc, act = .step i ∧ pool.tasks[i]? = some task ∧
        SharedMoved kind i pool.shared task.call task.pc shared pc ∧
        next = ⟨shared, pool.tasks.set i ⟨task.call, pc⟩⟩ := by
  -- Either a call arrives or one task takes its next turn.
  cases act with
  | call call => cases taken; exact .inl ⟨call, rfl, rfl⟩
  | step i =>
    obtain ⟨task, shared, ⟨call, pc⟩, found, moved, rfl⟩ := Pool.advance_eq_some.mp taken
    obtain ⟨same, moved⟩ := move_sharedMoved moved
    exact .inr ⟨i, task, shared, pc, rfl, found, moved, by rw [← same]⟩

/-- Changing the wakeups of one side gives that side the changed ones. -/
@[simp] theorem SharedQueue.notify_renotify (shared : SharedQueue Q) (side : Side)
    (change : Notify → Notify) : (shared.renotify side change).notify side = change (shared.notify side) := by
  cases side <;> rfl

/-- Changing the wakeups of one side leaves the other side's. -/
theorem SharedQueue.notify_renotify_of_ne {shared : SharedQueue Q} {side other : Side}
    (apart : other ≠ side) (change : Notify → Notify) :
    (shared.renotify side change).notify other = shared.notify other := by
  cases side <;> cases other <;> first | rfl | exact absurd rfl apart

/-- Changing the wakeups leaves the queue. -/
@[simp] theorem SharedQueue.queue_renotify (shared : SharedQueue Q) (side : Side)
    (change : Notify → Notify) : (shared.renotify side change).queue = shared.queue := by
  cases side <;> rfl

/-- Changing the queue leaves the wakeups. -/
@[simp] theorem SharedQueue.notify_queue (shared : SharedQueue Q) (queue : Q) (side : Side) :
    SharedQueue.notify { shared with queue := queue } side = shared.notify side := by
  cases side <;> rfl

/-- A call never wants what it gives. -/
theorem SharedCall.gives_ne_wants (call : SharedCall R) : call.gives ≠ call.wants := by
  cases call <;> simp [SharedCall.gives, SharedCall.wants]

/-- The registrations are those of the calls that wait, on either side. -/
structure SharedPool.Orderly (kind : QueueKind Q R T) (pool : SharedPool Q R T) : Prop where
  seats : ∀ side, (pool.shared.notify side).Seats (pool.At (SharedTask.ParksFor side))
  released : ∀ side, (pool.shared.notify side).released = []
  limited : ∀ task ∈ pool.tasks, task.call.wants = .room → task.pc.waiting →
    ∃ limit, kind.capacity pool.shared.queue = some limit

/-- A call that is not registered is not registered for anything. -/
theorem unparked {side : Side} {task : SharedTask R T} (unregistered : task.pc.parks = false) :
    ¬ task.ParksFor side := by
  intro parks
  rw [SharedTask.ParksFor, unregistered] at parks
  exact absurd parks.2 (by simp)

/-- A call that neither waited for a thing nor does so now leaves the standing of those who do. -/
theorem at_of_unparked {pool : SharedPool Q R T} {shared : SharedQueue Q} {i : Nat}
    {task moved : SharedTask R T} {side : Side} (found : pool.tasks[i]? = some task)
    (before : ¬ task.ParksFor side) (after : ¬ moved.ParksFor side) (j : Nat) :
    pool.At (SharedTask.ParksFor side) j ↔
      Pool.At ⟨shared, pool.tasks.set i moved⟩ (SharedTask.ParksFor side) j := by
  -- Only the stepping task could have joined or left the line.
  rw [Pool.at_set moved found]
  by_cases own : j = i
  · subst own
    simp [Pool.at_iff found, before, after]
  · simp [own]

/-- A step of a call keeps the registrations in order. -/
theorem seats_of_sharedMoved {kind : QueueKind Q R T} {pool : SharedPool Q R T} {i : Nat}
    {shared : SharedQueue Q} {task : SharedTask R T} {pc : SharedPc T} {side : Side}
    (seats : (pool.shared.notify side).Seats (pool.At (SharedTask.ParksFor side)))
    (found : pool.tasks[i]? = some task)
    (moved : SharedMoved kind i pool.shared task.call task.pc shared pc) :
    (shared.notify side).Seats
      (Pool.At ⟨shared, pool.tasks.set i ⟨task.call, pc⟩⟩ (SharedTask.ParksFor side)) := by
  -- roused ready|The call gives up its seat.
  -- parked empty|The call joins the line.
  obtain ⟨call, before⟩ := task
  by_cases wanted : side = call.wants
  · subst wanted
    have away : before.parks = false → ¬ pool.At (SharedTask.ParksFor call.wants) i := by
      intro unregistered
      rw [Pool.at_iff found]
      exact unparked unregistered
    cases moved with
    | took taken =>
      -- Working on the queue touches neither `Notify`.
      rw [SharedQueue.notify_queue]
      exact seats.congr (at_of_unparked found (unparked rfl) (unparked rfl))
    | waited | gaveUp =>
      exact seats.congr (at_of_unparked found (unparked rfl) (unparked rfl))
    | told =>
      rw [SharedQueue.notify_renotify_of_ne call.gives_ne_wants.symm]
      exact seats.congr (at_of_unparked found (unparked rfl) (unparked rfl))
    | went stored =>
      -- The stored wakeup is taken, and nobody joins the line.
      rw [SharedQueue.notify_renotify]
      apply (seats.notified (away rfl)).congr
      intro j
      rw [Pool.at_set _ found]
      by_cases own : j = i
      · subst own
        simp [Pool.at_iff found, stored, SharedTask.ParksFor, SharedPc.parks]
      · simp [own]
    | parked empty =>
      rw [SharedQueue.notify_renotify]
      apply (seats.notified (away rfl)).congr
      intro j
      rw [Pool.at_set _ found]
      by_cases own : j = i
      · subst own
        simp [Pool.at_iff found, empty, SharedTask.ParksFor, SharedPc.parks]
      · simp [own]
    | roused ready =>
      rw [SharedQueue.notify_renotify]
      apply (seats.withdraw i).congr
      intro j
      rw [Pool.at_set _ found]
      by_cases own : j = i
      · subst own
        simp [SharedTask.ParksFor, SharedPc.parks]
      · simp [own]
  · -- The call does not wait on this side, and can at most send a wakeup there.
    have away : ∀ pc : SharedPc T, ¬ SharedTask.ParksFor side ⟨call, pc⟩ := fun _ parks => wanted parks.1.symm
    have same (j : Nat) : pool.At (SharedTask.ParksFor side) j ↔
        Pool.At ⟨shared, pool.tasks.set i ⟨call, pc⟩⟩ (SharedTask.ParksFor side) j :=
      at_of_unparked found (away before) (away pc) j
    cases moved with
    | took taken =>
      rw [SharedQueue.notify_queue]
      exact seats.congr same
    | waited | gaveUp => exact seats.congr same
    | told =>
      by_cases given : side = call.gives
      · subst given
        rw [SharedQueue.notify_renotify]
        exact seats.notifyOne.congr same
      · rw [SharedQueue.notify_renotify_of_ne given]
        exact seats.congr same
    | went | parked | roused =>
      rw [SharedQueue.notify_renotify_of_ne wanted]
      exact seats.congr same

/-- Waking one task, asking for a wakeup and giving one up release nobody. -/
theorem released_of_sharedMoved {kind : QueueKind Q R T} {self : Nat} {shared shared' : SharedQueue Q}
    {call : SharedCall R} {pc pc' : SharedPc T} {side : Side}
    (released : (shared.notify side).released = [])
    (moved : SharedMoved kind self shared call pc shared' pc') :
    (shared'.notify side).released = [] := by
  -- Nobody calls `notify_waiters` here, so that list never fills.
  cases moved with
  | took => rwa [SharedQueue.notify_queue]
  | waited | gaveUp => exact released
  | told =>
    by_cases given : side = call.gives
    · subst given
      rw [SharedQueue.notify_renotify, Notify.notifyOne]
      split <;> exact released
    · rwa [SharedQueue.notify_renotify_of_ne given]
  | went | parked =>
    by_cases wanted : side = call.wants
    · subst wanted
      rw [SharedQueue.notify_renotify, Notify.notified]
      split <;> exact released
    · rwa [SharedQueue.notify_renotify_of_ne wanted]
  | roused =>
    by_cases wanted : side = call.wants
    · subst wanted
      simp [Notify.withdraw, released]
    · rwa [SharedQueue.notify_renotify_of_ne wanted]

/-- No step changes the capacity. -/
theorem SharedMoved.capacity {kind : QueueKind Q R T} {self : Nat} {shared shared' : SharedQueue Q}
    {call : SharedCall R} {pc pc' : SharedPc T}
    (moved : SharedMoved kind self shared call pc shared' pc') :
    kind.capacity shared'.queue = kind.capacity shared.queue := by
  -- The bound is fixed when the queue is built.
  cases moved with
  | took taken => exact taken.1
  | waited | gaveUp => rfl
  | told | went | parked | roused => rw [SharedQueue.queue_renotify]

/-- Whoever waits after a step waited before it, or has just found nothing. -/
theorem SharedMoved.waiting {kind : QueueKind Q R T} {self : Nat} {shared shared' : SharedQueue Q}
    {call : SharedCall R} {pc pc' : SharedPc T}
    (moved : SharedMoved kind self shared call pc shared' pc') (waits : pc'.waiting) :
    pc.waiting ∨ kind.Lacks shared.queue call.wants := by
  -- A task only sets out to wait after finding nothing for it.
  cases moved with
  | waited lacks => exact .inr lacks
  | parked => exact .inl rfl
  | _ => cases waits

/-- Every step keeps the registrations in order. -/
theorem SharedPool.Orderly.step {kind : QueueKind Q R T} {pool next : SharedPool Q R T}
    {act : SharedAction R} (orderly : pool.Orderly kind) (taken : pool.step kind act = some next) :
    next.Orderly kind := by
  rcases pool_step taken with ⟨call, rfl, rfl⟩ | ⟨i, task, shared, pc, rfl, found, moved, rfl⟩
  · refine ⟨fun side => ?_, orderly.released, ?_⟩
    · exact (orderly.seats side).congr fun j => (Pool.at_spawn (unparked rfl) j).symm
    · -- A call that just arrived is not waiting.
      intro task member wants waits
      rcases List.mem_append.mp member with before | new
      · exact orderly.limited task before wants waits
      · obtain rfl := List.mem_singleton.mp new
        cases waits
  · refine ⟨fun side => seats_of_sharedMoved (orderly.seats side) found moved,
      fun side => released_of_sharedMoved (orderly.released side) moved, ?_⟩
    -- The limit behind a wait for room is the one the queue was built with.
    intro other member wants waits
    show ∃ limit, kind.capacity shared.queue = some limit
    rw [moved.capacity]
    rcases List.mem_or_eq_of_mem_set member with before | rfl
    · exact orderly.limited other before wants waits
    · rcases moved.waiting waits with before | lacks
      · exact orderly.limited task (List.mem_of_getElem? found) wants before
      · -- A queue without a limit always has room.
        rw [show task.call.wants = .room from wants] at lacks
        obtain ⟨limit, bounded, _⟩ := lacks
        exact ⟨limit, bounded⟩

/-- The registrations are in order in every run. -/
theorem orderly_of_run {kind : QueueKind Q R T} {queue : Q}
    {trace : List (Transition (SharedPool Q R T) (SharedAction R))} {pool : SharedPool Q R T}
    (run : Run (SharedPool.step kind) (fun _ _ => True) (SharedPool.start queue) trace pool) :
    pool.Orderly kind := by
  -- By induction on the run; at the start there are no tasks at all.
  apply run.invariant
  · refine ⟨fun side => ⟨?_, fun i => ?_, ?_⟩, fun side => ?_, List.forall_mem_nil _⟩
    · cases side <;> exact List.nodup_nil
    · cases side <;> simp [SharedPool.start, SharedQueue.notify, Notify.seats, Pool.At]
    · -- No wakeup is stored while somebody waits, for nobody does.
      cases side <;> simp [SharedPool.start, SharedQueue.notify]
    · cases side <;> rfl
  · intro pool act next _ orderly taken
    exact orderly.step taken

/-- A call's step trades its share of each counter for its new one. -/
theorem supply_set {kind : QueueKind Q R T} {pool : SharedPool Q R T} {i : Nat}
    {task : SharedTask R T} (shared : SharedQueue Q) (moved : SharedTask R T) (side : Side)
    (found : pool.tasks[i]? = some task) :
    SharedPool.supply kind ⟨shared, pool.tasks.set i moved⟩ side =
      { available := kind.available shared.queue side
        looking := (pool.supply kind side).looking - task.looks side + moved.looks side
        waiting := (pool.supply kind side).waiting - task.waits side + moved.waits side
        telling := (pool.supply kind side).telling - task.tells side + moved.tells side
        stored := (shared.notify side).permit.toNat
        sent := (shared.notify side).woken.length } := by
  -- Each count loses the task's old share and gains its new one.
  have member := List.mem_of_getElem? found
  have looks := tally_set (SharedTask.looks side) moved found
  have looked := le_tally (SharedTask.looks side) member
  have waits := tally_set (SharedTask.waits side) moved found
  have waited := le_tally (SharedTask.waits side) member
  have tells := tally_set (SharedTask.tells side) moved found
  have told := le_tally (SharedTask.tells side) member
  simp only [SharedPool.supply, Supply.mk.injEq, true_and, and_true]
  omega

/-- A queue that lacks something has none of it. -/
theorem QueueKind.Lacks.available {kind : QueueKind Q R T} {queue : Q} {side : Side}
    (lacks : kind.Lacks queue side) : kind.available queue side = 0 := by
  -- An empty queue has no items, a full one no room.
  cases side with
  | items => exact lacks
  | room =>
    obtain ⟨limit, bounded, full⟩ := lacks
    rw [Option.mem_def] at bounded
    simp only [QueueKind.available, bounded]
    omega

/-- Where there can be too little of a thing, taking it leaves one less. -/
theorem QueueKind.Took.taken {kind : QueueKind Q R T} {queue next : Q} {side : Side}
    (took : kind.Took queue next side)
    (scarce : side = .room → ∃ limit, kind.capacity queue = some limit) :
    0 < kind.available queue side ∧ kind.available next side = kind.available queue side - 1 := by
  obtain ⟨same, change⟩ := took
  -- What was taken was there, and exactly one less is left.
  cases side with
  | items =>
    simp only [QueueKind.available]
    simp only at change
    omega
  | room =>
    obtain ⟨limit, bounded⟩ := scarce rfl
    obtain ⟨longer, room⟩ := change
    have below := room limit bounded
    simp only [QueueKind.available, same, bounded]
    omega

/-- Taking one thing gives at most one of the other. -/
theorem QueueKind.Took.given {kind : QueueKind Q R T} {queue next : Q} {call : SharedCall R}
    (took : kind.Took queue next call.wants) :
    kind.available next call.gives ≤ kind.available queue call.gives + 1 := by
  obtain ⟨same, change⟩ := took
  -- An enqueue makes an item available, a dequeue a place.
  cases call with
  | enqueue | tryEnqueue =>
    obtain ⟨longer, _⟩ := change
    exact longer.le
  | dequeue | tryDequeue =>
    simp only [SharedCall.wants] at change
    simp only [SharedCall.gives, QueueKind.available, same]
    split <;> omega

/-- A step of a call is one step of the counters of what it wants. -/
theorem supply_step_wants {kind : QueueKind Q R T} {pool : SharedPool Q R T} {i : Nat}
    {shared : SharedQueue Q} {task : SharedTask R T} {pc : SharedPc T} (orderly : pool.Orderly kind)
    (found : pool.tasks[i]? = some task)
    (moved : SharedMoved kind i pool.shared task.call task.pc shared pc)
    (scarce : task.call.wants = .room → ∃ limit, kind.capacity pool.shared.queue = some limit) :
    SharedPool.supply kind ⟨shared, pool.tasks.set i ⟨task.call, pc⟩⟩ task.call.wants =
        pool.supply kind task.call.wants ∨
      (pool.supply kind task.call.wants).Step
        (SharedPool.supply kind ⟨shared, pool.tasks.set i ⟨task.call, pc⟩⟩ task.call.wants) := by
  -- told =>|The wakeup that the call sends is for the other side.
  -- waited lacks|Finding nothing, the call turns from looking to waiting.
  have member := List.mem_of_getElem? found
  have looks : task.looks task.call.wants ≤ (pool.supply kind task.call.wants).looking :=
    le_tally (SharedTask.looks task.call.wants) member
  have waits : task.waits task.call.wants ≤ (pool.supply kind task.call.wants).waiting :=
    le_tally (SharedTask.waits task.call.wants) member
  have apart := task.call.gives_ne_wants
  rw [supply_set shared ⟨task.call, pc⟩ task.call.wants found]
  obtain ⟨call, before⟩ := task
  simp only [SharedTask.looks, SharedTask.waits, SharedTask.tells, apart, decide_true, decide_false,
    Bool.true_and, Bool.false_and, Bool.toNat_false, Nat.sub_zero, Nat.add_zero] at looks waits ⊢
  cases moved with
  | took taken =>
    -- The call takes one of what there is.
    obtain ⟨there, less⟩ := taken.taken scarce
    rw [less, SharedQueue.notify_queue]
    exact .inr (.take there looks)
  | waited lacks => exact .inr (.wait lacks.available looks)
  | gaveUp lacks => exact .inr (.leave lacks.available looks)
  | told =>
    left
    rw [SharedQueue.notify_renotify_of_ne apart.symm, SharedQueue.queue_renotify]
    rfl
  | went stored =>
    -- The stored wakeup is used up.
    have one : (pool.supply kind call.wants).stored = 1 := by simp [SharedPool.supply, stored]
    have spent : ((pool.shared.notify call.wants).notified i).1 =
        { pool.shared.notify call.wants with permit := false } := by
      simp [Notify.notified, stored]
    rw [SharedQueue.notify_renotify, SharedQueue.queue_renotify, spent]
    have collected := Supply.Step.collect (one ▸ Nat.one_pos) waits
    rw [one] at collected
    exact .inr collected
  | parked empty =>
    -- Joining the line changes no counter.
    have queued : ((pool.shared.notify call.wants).notified i).1 =
        { pool.shared.notify call.wants with
          waiters := (pool.shared.notify call.wants).waiters ++ [i] } := by
      simp [Notify.notified, empty]
    rw [SharedQueue.notify_renotify, SharedQueue.queue_renotify, queued]
    left
    simp only [SharedPool.supply, SharedPc.looking, SharedPc.waiting, Supply.mk.injEq, true_and,
      and_true] at waits ⊢
    have waited : 1 ≤ tally (SharedTask.waits call.wants) pool.tasks := waits
    exact ⟨by simp, by simp; omega⟩
  | roused ready =>
    -- A wakeup that has been sent to this call is used up.
    have picked : i ∈ (pool.shared.notify call.wants).woken := by
      rcases Notify.ready_iff.mp ready with picked | released
      · exact picked
      · rw [orderly.released] at released
        cases released
    have sent : 0 < (pool.supply kind call.wants).sent := List.length_pos_of_mem picked
    rw [SharedQueue.notify_renotify, SharedQueue.queue_renotify]
    have woken := Supply.Step.wake sent waits
    have fewer : ((pool.shared.notify call.wants).withdraw i).woken.length =
        (pool.supply kind call.wants).sent - 1 :=
      List.length_erase_of_mem picked
    rw [fewer]
    exact .inr woken

/-- A step of a call is one step of the counters of what it gives. -/
theorem supply_step_gives {kind : QueueKind Q R T} {pool : SharedPool Q R T} {i : Nat}
    {shared : SharedQueue Q} {task : SharedTask R T} {pc : SharedPc T} (orderly : pool.Orderly kind)
    (found : pool.tasks[i]? = some task) (sparing : Sparing kind pool (.step i))
    (moved : SharedMoved kind i pool.shared task.call task.pc shared pc) :
    SharedPool.supply kind ⟨shared, pool.tasks.set i ⟨task.call, pc⟩⟩ task.call.gives =
        pool.supply kind task.call.gives ∨
      (pool.supply kind task.call.gives).Step
        (SharedPool.supply kind ⟨shared, pool.tasks.set i ⟨task.call, pc⟩⟩ task.call.gives) := by
  -- cons first rest|The longest-waiting call gets the wakeup.
  -- false =>|The wakeup is kept until somebody asks.
  have member := List.mem_of_getElem? found
  have tells : task.tells task.call.gives ≤ (pool.supply kind task.call.gives).telling :=
    le_tally (SharedTask.tells task.call.gives) member
  have apart := task.call.gives_ne_wants
  have spare := sparing task found
  have idle := (orderly.seats task.call.gives).idle
  rw [supply_set shared ⟨task.call, pc⟩ task.call.gives found]
  obtain ⟨call, before⟩ := task
  simp only [SharedTask.looks, SharedTask.waits, SharedTask.tells, apart.symm, decide_true, decide_false,
    Bool.true_and, Bool.false_and, Bool.toNat_false, Nat.sub_zero, Nat.add_zero] at tells ⊢
  cases moved with
  | took taken =>
    rw [SharedQueue.notify_queue]
    -- What the call took from one side is free on the other.
    exact .inr (.put taken.given)
  | waited | gaveUp => exact .inl rfl
  | told =>
    right
    rw [SharedQueue.notify_renotify, SharedQueue.queue_renotify]
    cases line : (pool.shared.notify call.gives).waiters with
    | nil =>
      have stored : (pool.shared.notify call.gives).notifyOne =
          { pool.shared.notify call.gives with permit := true } := by
        simp [Notify.notifyOne, line]
      rw [stored]
      cases permit : (pool.shared.notify call.gives).permit with
      | true =>
        -- Another wakeup is stored already, and this one is lost.
        have one : (pool.supply kind call.gives).stored = 1 := by simp [SharedPool.supply, permit]
        have merged := Supply.Step.merge tells (spare rfl permit)
        rw [one] at merged
        exact merged
      | false =>
        have zero : (pool.supply kind call.gives).stored = 0 := by simp [SharedPool.supply, permit]
        have kept := Supply.Step.store tells
        rw [zero] at kept
        exact kept
    | cons first rest =>
      have sent : (pool.shared.notify call.gives).notifyOne =
          { pool.shared.notify call.gives with
            waiters := rest, woken := (pool.shared.notify call.gives).woken ++ [first] } := by
        simp [Notify.notifyOne, line]
      rw [sent, List.length_append, List.length_singleton]
      exact .send tells
  | went | parked | roused =>
    left
    rw [SharedQueue.notify_renotify_of_ne apart, SharedQueue.queue_renotify]
    rfl

/-- No call waits for room in a queue that has no limit. -/
theorem SharedPool.Orderly.unwaited {kind : QueueKind Q R T} {pool : SharedPool Q R T}
    (orderly : pool.Orderly kind) (unlimited : kind.capacity pool.shared.queue = none) :
    (pool.supply kind .room).waiting = 0 := by
  apply tally_eq_zero.mpr
  -- A waiter for room would show a limit that is not there.
  intro task member
  by_contra waits
  simp only [SharedTask.waits, Bool.toNat_eq_zero, Bool.and_eq_false_iff, decide_eq_false_iff_not,
    not_or, Bool.not_eq_false, Decidable.not_not] at waits
  obtain ⟨limit, bounded⟩ := orderly.limited task member waits.1 waits.2
  rw [unlimited] at bounded
  cases bounded

/-- Enough wakeups are under way for those who wait, on either side. -/
def SharedPool.Covered (kind : QueueKind Q R T) (pool : SharedPool Q R T) : Prop :=
  ∀ side, (pool.supply kind side).Covered

/-- A call takes of one side and gives to the other. -/
theorem SharedCall.wants_or_gives (call : SharedCall R) (side : Side) :
    side = call.wants ∨ side = call.gives := by
  cases call with
  | enqueue | tryEnqueue =>
    cases side with
    | items => exact .inr rfl
    | room => exact .inl rfl
  | dequeue | tryDequeue =>
    cases side with
    | items => exact .inl rfl
    | room => exact .inr rfl

/-- A sparing step leaves enough wakeups. -/
theorem SharedPool.Covered.step {kind : QueueKind Q R T} {pool next : SharedPool Q R T}
    {act : SharedAction R} (covered : pool.Covered kind) (orderly : pool.Orderly kind)
    (after : next.Orderly kind) (sparing : Sparing kind pool act)
    (taken : pool.step kind act = some next) : next.Covered kind := by
  intro side
  rcases pool_step taken with ⟨call, rfl, rfl⟩ | ⟨i, task, shared, pc, rfl, found, moved, rfl⟩
  · -- A new call is about to look, on the side of what it wants.
    by_cases wanted : call.wants = side
    · have joined : SharedPool.supply kind (pool.spawn ⟨call, .lock⟩) side =
          { pool.supply kind side with looking := (pool.supply kind side).looking + 1 } := by
        simp [SharedPool.supply, Pool.spawn, SharedTask.looks, SharedTask.waits, SharedTask.tells,
          SharedPc.looking, SharedPc.waiting, SharedPc.telling, wanted]
      rw [joined]
      exact (covered side).step .join
    · have same : SharedPool.supply kind (pool.spawn ⟨call, .lock⟩) side = pool.supply kind side := by
        simp [SharedPool.supply, Pool.spawn, SharedTask.looks, SharedTask.waits, SharedTask.tells,
          SharedPc.waiting, SharedPc.telling, wanted]
      rw [same]
      exact covered side
  · -- The step touches the supply its call takes from and the one it gives to.
    by_cases wanted : side = task.call.wants
    · subst wanted
      by_cases scarce : task.call.wants = .room → ∃ limit, kind.capacity pool.shared.queue = some limit
      · rcases supply_step_wants orderly found moved scarce with same | step
        · rw [same]
          exact covered _
        · exact (covered _).step step
      · -- Without a limit nobody waits for room, before the step or after it.
        obtain ⟨wants, unlimited⟩ := Classical.not_imp.mp scarce
        have still : kind.capacity shared.queue = none := by
          rw [moved.capacity]
          exact Option.eq_none_iff_forall_ne_some.mpr fun limit bounded => unlimited ⟨limit, bounded⟩
        have nobody := after.unwaited still
        rw [wants]
        simp [Supply.Covered, nobody]
    · obtain rfl := (task.call.wants_or_gives side).resolve_left wanted
      rcases supply_step_gives orderly found sparing moved with same | step
      · rw [same]
        exact covered _
      · exact (covered _).step step

/-- Enough wakeups are under way in every run of sparing steps. -/
theorem covered_of_run {kind : QueueKind Q R T} {queue : Q}
    {trace : List (Transition (SharedPool Q R T) (SharedAction R))} {pool : SharedPool Q R T}
    (run : Run (SharedPool.step kind) (Sparing kind) (SharedPool.start queue) trace pool) :
    pool.Covered kind := by
  -- The seats are in order on any run, sparing or not.
  have known : ∀ {trace : List (Transition (SharedPool Q R T) (SharedAction R))}
      {pool : SharedPool Q R T}, Run (SharedPool.step kind) (Sparing kind) (SharedPool.start queue)
        trace pool → pool.Orderly kind :=
    fun run => orderly_of_run (run.mono fun _ _ _ => trivial)
  -- By induction on the run, with the seats known before and after each step.
  refine run.invariant_of ?_ known ?_
  · intro side
    simp [SharedPool.supply, SharedPool.start, Supply.Covered]
  · intro pool act next sparing orderly after covered taken
    exact covered.step orderly after sparing taken

/-- A call that has returned is not registered. -/
theorem SharedPc.unparked_of_finished {pc : SharedPc T} (finished : pc.finished) :
    pc.parks = false := by
  cases pc with
  | done => rfl
  | _ => cases finished

/-- A call at rest is about neither to look nor to send a wakeup. -/
theorem SharedPc.still {pc : SharedPc T} (rests : pc.finished ∨ pc.parks) :
    pc.looking = false ∧ pc.telling = false := by
  cases pc with
  | done | parked => exact ⟨rfl, rfl⟩
  | _ => rcases rests with finished | parks <;> contradiction

/-- Once everything has come to rest, nobody has a wakeup that it has not taken. -/
theorem SharedPool.Settled.unready {pool : SharedPool Q R T} {side : Side} (settled : pool.Settled)
    (seats : (pool.shared.notify side).Seats (pool.At (SharedTask.ParksFor side))) (j : Nat) :
    (pool.shared.notify side).ready j = false := by
  -- Whoever has a wakeup is parked, and could go on.
  by_contra ready
  obtain ⟨other, there, wants, parks⟩ := seats.parked_of_ready (by simpa using ready)
  rcases settled j other there with finished | ⟨_, asleep⟩
  · rw [SharedPc.unparked_of_finished finished] at parks
    cases parks
  · rw [wants] at asleep
    exact ready asleep

/-- Once everything has come to rest, nobody is about to take anything or to send a wakeup. -/
theorem SharedPool.Settled.still {pool : SharedPool Q R T} (settled : pool.Settled)
    (kind : QueueKind Q R T) (side : Side) :
    (pool.supply kind side).looking = 0 ∧ (pool.supply kind side).telling = 0 := by
  -- Every call has ended or is asleep, and neither looks nor tells.
  have still (task : SharedTask R T) (member : task ∈ pool.tasks) :
      task.pc.looking = false ∧ task.pc.telling = false := by
    obtain ⟨j, there⟩ := List.getElem?_of_mem member
    exact SharedPc.still ((settled j task there).imp_right And.left)
  constructor
  · apply tally_eq_zero.mpr
    intro task member
    simp [SharedTask.looks, (still task member).1]
  · apply tally_eq_zero.mpr
    intro task member
    simp [SharedTask.tells, (still task member).2]

/-- Once everything has come to rest, no wakeup is under way where somebody waits. -/
theorem SharedPool.Settled.wakeups {pool : SharedPool Q R T} {side : Side} (settled : pool.Settled)
    (seats : (pool.shared.notify side).Seats (pool.At (SharedTask.ParksFor side))) {i : Nat}
    (seated : pool.At (SharedTask.ParksFor side) i) (kind : QueueKind Q R T) :
    (pool.supply kind side).wakeups = 0 := by
  -- No wakeup is about to be sent, none is stored, and none has been sent and not taken.
  have unready := settled.unready seats
  have silent := (settled.still kind side).2
  have unstored : (pool.supply kind side).stored = 0 := by
    simp only [SharedPool.supply, seats.unstored_of_unready unready seated, Bool.toNat_false]
  have unsent : (pool.supply kind side).sent = 0 := by
    simp only [SharedPool.supply, Notify.woken_of_unready unready, List.length_nil]
  simp only [Supply.wakeups, silent, unstored, unsent]

/-- Once everything has come to rest, a call waits only for what is not there. -/
theorem waits_in_need {kind : QueueKind Q R T} {queue : Q} {pool : SharedPool Q R T}
    (reached : Reachable (SharedPool.step kind) (Sparing kind) (SharedPool.start queue) pool)
    (settled : pool.Settled) {i : Nat} {task : SharedTask R T} (found : pool.tasks[i]? = some task)
    (waits : task.pc = .parked) : kind.Lacks pool.shared.queue task.call.wants := by
  obtain ⟨trace, run⟩ := reached
  have orderly := orderly_of_run (run.mono fun _ _ _ => trivial)
  have covered := covered_of_run run task.call.wants
  -- The waiting call is in line on the side of what it wants.
  have seated : pool.At (SharedTask.ParksFor task.call.wants) i :=
    (Pool.at_iff found).mpr ⟨rfl, by rw [waits]; rfl⟩
  have unlooking := (settled.still kind task.call.wants).1
  have spent := settled.wakeups (orderly.seats task.call.wants) seated kind
  -- With no wakeup under way, either there is nothing to take or nobody waits.
  rcases covered.at_rest unlooking spent with nothing | nobody
  · cases wants : task.call.wants with
    | items => rwa [wants] at nothing
    | room =>
      obtain ⟨limit, bounded⟩ :=
        orderly.limited task (List.mem_of_getElem? found) wants (by rw [waits]; rfl)
      rw [wants] at nothing
      simp only [SharedPool.supply, QueueKind.available, bounded] at nothing
      exact ⟨limit, bounded, by omega⟩
  · -- This call itself waits.
    have own := tally_eq_zero.mp nobody task (List.mem_of_getElem? found)
    simp [SharedTask.waits, waits, SharedPc.waiting] at own

/-- A queue of one place, and the call that puts an item in. -/
def onePlace : List (SharedAction Nat) :=
  [.call (.enqueue 1), .step 0, .step 0, .call (.enqueue 2), .step 1, .step 1]

/-- Two calls take an item each, one of which has been put in since the other came. -/
def oneItem : List (SharedAction (Nat × Priority)) :=
  [.call .dequeue, .step 0, .step 0, .call (.enqueue (1, ⟨0⟩)), .step 1, .step 1, .step 0, .step 0,
    .step 0, .call .dequeue, .step 2, .step 2]

/-- The second enqueue waits because the place is taken, and the second dequeue because nothing is left. -/
theorem waits_in_need_full_and_empty :
    (∃ pool : SharedPool (FifoQueue Nat) Nat Nat,
      (FifoQueue.kind Nat).Lacks pool.shared.queue .room) ∧
    ∃ pool : SharedPool (PriorityQueue Nat) (Nat × Priority) Nat,
      (PriorityQueue.kind Nat).Lacks pool.shared.queue .items := by
  -- Both runs are computed, and the theorem is applied to each.
  constructor
  · have reachable : ∃ pool : SharedPool (FifoQueue Nat) Nat Nat,
        Reachable (SharedPool.step (FifoQueue.kind Nat)) (Sparing (FifoQueue.kind Nat))
          (SharedPool.start (FifoQueue.bounded ⟨1, Nat.one_pos⟩)) pool ∧ pool.Settled ∧
        (pool.tasks)[1]? = some ⟨.enqueue 2, .parked⟩ :=
      reaches_of_exec onePlace _ (by decide +kernel)
    obtain ⟨pool, reached, settled, found⟩ := reachable
    exact ⟨pool, waits_in_need reached settled found rfl⟩
  · have reachable : ∃ pool : SharedPool (PriorityQueue Nat) (Nat × Priority) Nat,
        Reachable (SharedPool.step (PriorityQueue.kind Nat)) (Sparing (PriorityQueue.kind Nat))
          (SharedPool.start PriorityQueue.unbounded) pool ∧ pool.Settled ∧
        (pool.tasks)[2]? = some ⟨.dequeue, .parked⟩ :=
      reaches_of_exec oneItem _ (by decide +kernel)
    obtain ⟨pool, reached, settled, found⟩ := reachable
    exact ⟨pool, waits_in_need reached settled found rfl⟩

/-- Two dequeues find nothing and have yet to ask for a wakeup, when two enqueues put an item in each. -/
def twoWakeupsForItems : List (SharedAction Nat) :=
  [.call .dequeue, .step 0, .call .dequeue, .step 1, .call (.enqueue 1), .step 2, .step 2,
    .call (.enqueue 2), .step 3, .step 3, .step 0, .step 0, .step 0, .step 1]

/-- Two enqueues find no room and have yet to ask for a wakeup, when two dequeues make room. -/
def twoWakeupsForRoom : List (SharedAction (Nat × Priority)) :=
  [.call (.enqueue (1, ⟨0⟩)), .step 0, .step 0, .call (.enqueue (2, ⟨0⟩)), .step 1, .step 1,
    .call (.enqueue (3, ⟨0⟩)), .step 2, .call (.enqueue (4, ⟨0⟩)), .step 3, .call .dequeue, .step 4,
    .step 4, .call .dequeue, .step 5, .step 5, .step 2, .step 2, .step 2, .step 3]

/-- The second of the two wakeups is lost: a dequeue waits beside an item, and an enqueue beside room. -/
theorem wakeup_lost :
    (∃ pool : SharedPool (FifoQueue Nat) Nat Nat,
      Reachable (SharedPool.step (FifoQueue.kind Nat)) (fun _ _ => True)
        (SharedPool.start FifoQueue.unbounded) pool ∧ pool.Settled ∧
      (pool.tasks)[1]? = some ⟨.dequeue, .parked⟩ ∧ pool.shared.queue.items = [2]) ∧
    ∃ pool : SharedPool (PriorityQueue Nat) (Nat × Priority) Nat,
      Reachable (SharedPool.step (PriorityQueue.kind Nat)) (fun _ _ => True)
        (SharedPool.start (PriorityQueue.bounded ⟨2, Nat.two_pos⟩)) pool ∧ pool.Settled ∧
      (pool.tasks)[3]? = some ⟨.enqueue (4, ⟨0⟩), .parked⟩ ∧
      pool.shared.queue.items.map Entry.item = [3] ∧ pool.shared.queue.hasRoom 1 :=
  ⟨reaches_of_exec twoWakeupsForItems _ (by decide +kernel),
    reaches_of_exec twoWakeupsForRoom _ (by decide +kernel)⟩

end Qaas
