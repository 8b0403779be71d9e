import Qaas.Queue.Sequential

/-! Which items a persistent queue still holds after a restart, when appends may fail. -/

namespace Qaas

open Concurrency

variable {X T Q : Type}

/-- A persistent queue, and what has become of its items since it was opened. -/
structure QueueSession (X T Q : Type) where
  state : PersistentQueue X Q
  /-- What was in it when it was opened. -/
  held : Multiset T
  /-- What calls of `enqueue` that returned `Ok` have added. -/
  enqueued : Multiset T := 0
  /-- What calls of `dequeue` have returned. -/
  returned : Multiset T := 0
  /-- What calls of `dequeue` have popped that returned an error. -/
  failed : Multiset T := 0

/-- A queue that is opened on a log. -/
def QueueSession.opened (discipline : Discipline X T Q) (wal : Log (QueueRecord X)) :
    QueueSession X T Q :=
  ⟨.opened discipline wal, discipline.contents (discipline.replay wal.records), 0, 0, 0⟩

/-- One call, from its start to its end. -/
def QueueSession.step (discipline : Discipline X T Q) (session : QueueSession X T Q) :
    QueueCall X → Option (QueueSession X T Q)
  | .enqueue payload outcome =>
    let (state, added) := session.state.enqueue discipline payload outcome
    some { session with
      state
      enqueued := if added then discipline.item payload ::ₘ session.enqueued else session.enqueued }
  | .dequeue outcome =>
    (session.state.dequeue discipline outcome).map fun (state, item, returned) =>
      if returned then { session with state, returned := item ::ₘ session.returned }
      else { session with state, failed := item ::ₘ session.failed }
  | .reopen => some (.opened discipline session.state.wal)

/-- An append that does not succeed writes nothing, whatever it returns. -/
def QueueCall.writesAllOrNothing (call : QueueCall X) : Prop :=
  call.outcome = .ok ∨ call.outcome = .lostEmpty ∨ call.outcome = .failedEmpty

/-- What the queue holds if it is opened again now. -/
def QueueSession.recovered (discipline : Discipline X T Q) (session : QueueSession X T Q) : Multiset T :=
  discipline.contents (PersistentQueue.opened discipline session.state.wal).queue

/-- When the queue is opened again, every item is in it whose dequeue failed, and none that was
returned: of each item there are no more copies, those in the queue and those returned, than there
ever were. -/
def QueueSession.Recoverable (discipline : Discipline X T Q) (session : QueueSession X T Q) : Prop :=
  session.failed ≤ session.recovered discipline ∧
    session.recovered discipline + session.returned ≤ session.held + session.enqueued

/-- The log gives back one more copy of an item than failed calls have popped. -/
def QueueSession.Spare (discipline : Discipline X T Q) (session : QueueSession X T Q) (item : T) : Prop :=
  item ::ₘ session.failed ≤ session.recovered discipline

/-- One more copy of an item is in memory, or was popped by a failed call, than the log gives back. -/
def QueueSession.Unlogged (discipline : Discipline X T Q) (session : QueueSession X T Q) (item : T) : Prop :=
  item ::ₘ session.recovered discipline ≤ session.failed + discipline.contents session.state.queue

/-- A dequeue and the log agree. If its record is written, the item that the record takes out of what
the log gives back is one to spare, and the item popped or one in place of it that was never logged;
if the call fails, the log has the item to give back; and if it returns the item without a record, that
item was never logged. -/
def QueueSession.LogAgrees (discipline : Discipline X T Q) (session : QueueSession X T Q) :
    QueueCall X → Prop
  | .dequeue outcome => ∀ popped ∈ discipline.tryDequeue session.state.queue,
    match outcome with
    | .ok => ∀ front ∈ discipline.tryDequeue (discipline.replay session.state.wal.records),
      session.Spare discipline front.1 ∧ (front.1 = popped.1 ∨ session.Unlogged discipline popped.1)
    | .lostEmpty | .lostTorn => session.Unlogged discipline popped.1
    | .failedEmpty | .failedTorn | .failedWhole => session.Spare discipline popped.1
  | .enqueue _ _ | .reopen => True

variable {discipline : Discipline X T Q} {session next : QueueSession X T Q}

instance decidableWritesAllOrNothing (call : QueueCall X) : Decidable call.writesAllOrNothing :=
  inferInstanceAs (Decidable (_ ∨ _ ∨ _))

instance decidableRecoverable [DecidableEq T] (discipline : Discipline X T Q)
    (session : QueueSession X T Q) :
    Decidable (session.Recoverable discipline) :=
  inferInstanceAs (Decidable (_ ∧ _))

instance decidableLogAgrees [DecidableEq T] (discipline : Discipline X T Q)
    (session : QueueSession X T Q) (call : QueueCall X) :
    Decidable (session.LogAgrees discipline call) :=
  match call with
  | .dequeue .ok =>
    inferInstanceAs (Decidable (∀ popped ∈ discipline.tryDequeue session.state.queue,
      ∀ front ∈ discipline.tryDequeue (discipline.replay session.state.wal.records),
        front.1 ::ₘ _ ≤ _ ∧ (front.1 = popped.1 ∨ popped.1 ::ₘ _ ≤ _)))
  | .dequeue .lostEmpty | .dequeue .lostTorn | .dequeue .failedEmpty | .dequeue .failedTorn
  | .dequeue .failedWhole =>
    inferInstanceAs (Decidable (∀ popped ∈ discipline.tryDequeue session.state.queue,
      popped.1 ::ₘ _ ≤ _))
  | .enqueue _ _ | .reopen => inferInstanceAs (Decidable True)

/-- What a call does that writes its record or nothing. -/
inductive QueueSession.Stepped (discipline : Discipline X T Q) (session : QueueSession X T Q) :
    QueueCall X → QueueSession X T Q → Prop
  | enqueueWritten (payload : X) : Stepped discipline session (.enqueue payload .ok) { session with
      state := { session.state with
        queue := discipline.push session.state.queue payload
        notEmpty := session.state.notEmpty.notifyOne
        wal := { session.state.wal with records := session.state.wal.records ++ [.enqueue payload] } }
      enqueued := discipline.item payload ::ₘ session.enqueued }
  | enqueueLost (payload : X) : Stepped discipline session (.enqueue payload .lostEmpty) { session with
      state := { session.state with
        queue := discipline.push session.state.queue payload
        notEmpty := session.state.notEmpty.notifyOne }
      enqueued := discipline.item payload ::ₘ session.enqueued }
  | enqueueFailed (payload : X) : Stepped discipline session (.enqueue payload .failedEmpty) session
  | dequeueWritten {item : T} {rest : Q} (popped : discipline.tryDequeue session.state.queue = some (item, rest)) :
    Stepped discipline session (.dequeue .ok) { session with
      state := { session.state with
        queue := rest
        notFull := session.state.notFull.notifyOne
        wal := { session.state.wal with records := session.state.wal.records ++ [.dequeue] } }
      returned := item ::ₘ session.returned }
  | dequeueLost {item : T} {rest : Q} (popped : discipline.tryDequeue session.state.queue = some (item, rest)) :
    Stepped discipline session (.dequeue .lostEmpty) { session with
      state := { session.state with queue := rest, notFull := session.state.notFull.notifyOne }
      returned := item ::ₘ session.returned }
  | dequeueFailed {item : T} {rest : Q} (popped : discipline.tryDequeue session.state.queue = some (item, rest)) :
    Stepped discipline session (.dequeue .failedEmpty) { session with
      state := { session.state with queue := rest, notFull := session.state.notFull.notifyOne }
      failed := item ::ₘ session.failed }
  | reopened : Stepped discipline session .reopen (.opened discipline session.state.wal)

/-- Every call that writes its record or nothing does one of these things. -/
theorem QueueSession.step_stepped {call : QueueCall X} (whole : call.writesAllOrNothing)
    (intact : session.state.wal.torn = false) (taken : session.step discipline call = some next) :
    session.Stepped discipline call next := by
  cases call with
  | enqueue payload outcome =>
    rcases whole with rfl | rfl | rfl
    · simp only [step, PersistentQueue.enqueue, Log.append_ok intact, if_true, Option.some.injEq]
        at taken
      exact taken ▸ .enqueueWritten payload
    · exact Option.some.inj taken ▸ .enqueueLost payload
    · exact Option.some.inj taken ▸ .enqueueFailed payload
  | dequeue outcome =>
    obtain ⟨⟨state, item, returned⟩, popped, same⟩ := Option.map_eq_some_iff.mp taken
    obtain ⟨rest, found, rfl, rfl⟩ := PersistentQueue.dequeue_eq_some.mp popped
    -- Whatever becomes of the record, the item has left the memory.
    rcases whole with rfl | rfl | rfl
    · simp only [Log.append_ok intact, AppendOutcome.acknowledged_ok, if_true] at same
      exact same ▸ .dequeueWritten found
    · exact same ▸ .dequeueLost found
    · exact same ▸ .dequeueFailed found
  | reopen =>
    obtain rfl := Option.some.inj taken
    exact .reopened

/-- What is true whatever the log says: every item was returned, lost to a failed call, or is in
memory. -/
structure QueueSession.Balanced (discipline : Discipline X T Q)
    (session : QueueSession X T Q) : Prop where
  intact : session.state.wal.torn = false
  items : session.held + session.enqueued =
    session.returned + (session.failed + discipline.contents session.state.queue)

/-- The queue that is opened next has the items whose dequeue failed, and no others than these and
those in memory. -/
def QueueSession.Kept (discipline : Discipline X T Q) (session : QueueSession X T Q) : Prop :=
  session.failed ≤ session.recovered discipline ∧
    session.recovered discipline ≤ session.failed + discipline.contents session.state.queue

/-- A queue that has just been opened is in balance. -/
theorem QueueSession.balanced_opened (discipline : Discipline X T Q) (wal : Log (QueueRecord X)) :
    (opened discipline wal).Balanced discipline :=
  ⟨rfl, by simp [opened, PersistentQueue.opened]⟩

/-- Every call keeps the balance. -/
theorem QueueSession.Balanced.step {call : QueueCall X} (balanced : session.Balanced discipline)
    (stepped : session.Stepped discipline call next) : next.Balanced discipline := by
  obtain ⟨intact, items⟩ := balanced
  cases stepped with
  | enqueueWritten payload | enqueueLost payload =>
    -- An enqueued item is one more on both sides.
    refine ⟨intact, ?_⟩
    simp only [discipline.contents_push, Multiset.add_cons, items]
  | enqueueFailed payload => exact ⟨intact, items⟩
  | dequeueWritten popped | dequeueLost popped =>
    -- An item goes from the memory to the caller.
    refine ⟨intact, ?_⟩
    simp only [items, discipline.contents_tryDequeue _ _ _ popped, Multiset.add_cons, Multiset.cons_add]
  | dequeueFailed popped =>
    -- The item is lost to a failed call.
    refine ⟨intact, ?_⟩
    simp only [items, discipline.contents_tryDequeue _ _ _ popped, Multiset.add_cons, Multiset.cons_add]
  | reopened => exact balanced_opened discipline session.state.wal

-- The same of a priority queue, whose items are of one priority.
example : ∃ session, Reachable (QueueSession.step (priorityDiscipline Nat))
    (fun _ call => call.writesAllOrNothing) (.opened (priorityDiscipline Nat) {}) session ∧
      ¬ session.Recoverable (priorityDiscipline Nat) :=
  reaches_of_exec [.enqueue (1, ⟨1⟩) .ok, .enqueue (2, ⟨1⟩) .ok, .dequeue .failedEmpty, .dequeue .ok] _
    (by decide +kernel)

end Qaas
