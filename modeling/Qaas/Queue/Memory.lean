import Mathlib.Data.Multiset.AddSub

/-! The in-memory queues: strictly first in first out, and by priority. -/

namespace Qaas

variable {T : Type}

/-- An in-memory, strictly first-in-first-out queue. -/
structure FifoQueue (T : Type) where
  items : List T
  capacity : Option { limit : Nat // 0 < limit }

/-- A queue with no capacity limit. -/
def FifoQueue.unbounded : FifoQueue T :=
  ⟨[], none⟩

/-- A queue that holds at most `capacity` items. -/
def FifoQueue.bounded (capacity : { limit : Nat // 0 < limit }) : FifoQueue T :=
  ⟨[], some capacity⟩

/-- Whether one more item fits. -/
def FifoQueue.hasRoom (queue : FifoQueue T) (currentLen : Nat) : Bool :=
  queue.capacity.all fun capacity => currentLen < capacity.val

/-- `push_back` -/
def FifoQueue.pushBack (queue : FifoQueue T) (item : T) : FifoQueue T :=
  { queue with items := queue.items ++ [item] }

/-- Push an item, or hand it back when the queue is at capacity. -/
def FifoQueue.tryEnqueue (queue : FifoQueue T) (item : T) : Except T (FifoQueue T) :=
  if queue.hasRoom queue.items.length then .ok (queue.pushBack item) else .error item

/-- Pop the item at the front. -/
def FifoQueue.tryDequeue (queue : FifoQueue T) : Option (T × FifoQueue T) :=
  match queue.items with
  | [] => none
  | item :: rest => some (item, { queue with items := rest })

/-- A message's priority, higher values leaving first. -/
structure Priority where
  level : UInt8
  deriving DecidableEq, Repr

/-- A single slot in the heap. -/
structure Entry (T : Type) where
  priority : Priority
  sequence : UInt64
  item : T

/-- Higher priority compares as greater, and so does the earlier of two equal priorities. -/
def Entry.cmp (entry other : Entry T) : Ordering :=
  (compare entry.priority.level other.priority.level).then (compare other.sequence entry.sequence)

/-- `BinaryHeap::pop`: take out a greatest entry. -/
def popGreatest : List (Entry T) → Option (Entry T × List (Entry T))
  | [] => none
  | entry :: rest =>
    match popGreatest rest with
    | none => some (entry, [])
    | some (best, others) =>
      if best.cmp entry = .gt then some (best, entry :: others) else some (entry, rest)

/-- An in-memory priority queue, first in first out among equal priorities. -/
structure PriorityQueue (T : Type) where
  items : List (Entry T)
  capacity : Option { limit : Nat // 0 < limit }
  nextSequence : UInt64

/-- A queue with no capacity limit. -/
def PriorityQueue.unbounded : PriorityQueue T :=
  ⟨[], none, 0⟩

/-- A queue that holds at most `capacity` items. -/
def PriorityQueue.bounded (capacity : { limit : Nat // 0 < limit }) : PriorityQueue T :=
  ⟨[], some capacity, 0⟩

/-- Whether one more item fits. -/
def PriorityQueue.hasRoom (queue : PriorityQueue T) (currentLen : Nat) : Bool :=
  queue.capacity.all fun capacity => currentLen < capacity.val

/-- `guard.push(self.entry(item, priority))`: the sequence number is taken with the push, and the
counter wraps around. -/
def PriorityQueue.pushEntry (queue : PriorityQueue T) (item : T) (priority : Priority) :
    PriorityQueue T :=
  { queue with
    items := queue.items ++ [⟨priority, queue.nextSequence, item⟩]
    nextSequence := queue.nextSequence + 1 }

/-- Push an item at a priority, or hand it back when the queue is at capacity. -/
def PriorityQueue.tryEnqueue (queue : PriorityQueue T) (item : T) (priority : Priority) :
    Except T (PriorityQueue T) :=
  if queue.hasRoom queue.items.length then .ok (queue.pushEntry item priority) else .error item

/-- Pop the item of the highest priority. -/
def PriorityQueue.tryDequeue (queue : PriorityQueue T) : Option (T × PriorityQueue T) :=
  (popGreatest queue.items).map fun popped => (popped.1.item, { queue with items := popped.2 })

/-- Nothing can be popped only from an empty heap. -/
theorem popGreatest_eq_none {entries : List (Entry T)} (nothing : popGreatest entries = none) :
    entries = [] := by
  cases entries with
  | nil => rfl
  | cons entry rest =>
    simp only [popGreatest] at nothing
    split at nothing
    · cases nothing
    · split at nothing <;> cases nothing

/-- Popping takes out one entry and leaves the others. -/
theorem popGreatest_perm {entries others : List (Entry T)} {best : Entry T}
    (popped : popGreatest entries = some (best, others)) : entries.Perm (best :: others) := by
  -- Along the list, as the search for the greatest entry goes.
  induction entries generalizing best others with
  | nil => cases popped
  | cons entry rest ih =>
    simp only [popGreatest] at popped
    split at popped
    · -- The rest was empty, so the only entry is the one taken out.
      rename_i empty
      obtain ⟨rfl, rfl⟩ : entry = best ∧ [] = others := by simpa using popped
      rw [popGreatest_eq_none empty]
    · rename_i greatest left found
      split at popped
      · -- The greatest of the rest beats the first entry.
        obtain ⟨rfl, rfl⟩ : greatest = best ∧ entry :: left = others := by simpa using popped
        exact ((ih found).cons entry).trans (List.Perm.swap greatest entry left)
      · obtain ⟨rfl, rfl⟩ : entry = best ∧ rest = others := by simpa using popped
        exact List.Perm.refl _

end Qaas
