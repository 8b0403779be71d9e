import Qaas.Ordered.Earliest
import Qaas.Queue.Memory

/-! The order in which a priority queue hands out its items. -/

namespace Qaas

open Ordered

variable {T : Type}

/-- A priority as a number. -/
def Priority.rank (priority : Priority) : Nat :=
  priority.level.toNat

/-- One entry goes before another when its priority is higher, or the same and it was pushed earlier. -/
theorem Entry.cmp_eq_gt {entry other : Entry T} :
    entry.cmp other = .gt ↔ other.priority.rank < entry.priority.rank ∨
      entry.priority.rank = other.priority.rank ∧ entry.sequence.toNat < other.sequence.toNat := by
  rw [cmp, Ordering.then_eq_gt, Std.compare_eq_gt, Std.compare_eq_gt, Std.compare_eq_iff_eq,
    UInt8.lt_iff_toNat_lt, UInt64.lt_iff_toNat_lt, ← UInt8.toNat_inj]
  rfl

/-- The order of entries is the mirror image of itself. -/
theorem Entry.cmp_eq_lt {entry other : Entry T} : entry.cmp other = .lt ↔ other.cmp entry = .gt := by
  rw [cmp, cmp, Ordering.then_eq_lt, Ordering.then_eq_gt, Std.compare_eq_gt, Std.compare_eq_gt,
    Std.compare_eq_lt, Std.compare_eq_lt, Std.compare_eq_iff_eq, Std.compare_eq_iff_eq, eq_comm]

/-- Entries compare as equal exactly when `eq` takes them for equal. -/
theorem Entry.cmp_eq_eq {entry other : Entry T} :
    entry.cmp other = .eq ↔ entry.priority = other.priority ∧ entry.sequence = other.sequence := by
  -- The sequence numbers are compared the other way round.
  obtain ⟨⟨level⟩, sequence, item⟩ := entry
  obtain ⟨⟨otherLevel⟩, otherSequence, otherItem⟩ := other
  simp only [cmp, Ordering.then_eq_eq, Std.compare_eq_iff_eq, Priority.mk.injEq]
  exact and_congr_right fun _ => eq_comm

/-- The order of entries is transitive. -/
theorem Entry.cmp_trans {entry middle other : Entry T} (first : entry.cmp middle = .gt)
    (second : middle.cmp other = .gt) : entry.cmp other = .gt := by
  rw [cmp_eq_gt] at first second ⊢
  omega

/-- What is popped is greater than every entry that is left, when no two compare as equal. -/
theorem popGreatest_greatest {entries others : List (Entry T)} {best : Entry T}
    (distinct : entries.Pairwise fun entry other => entry.sequence.toNat ≠ other.sequence.toNat)
    (popped : popGreatest entries = some (best, others)) : ∀ entry ∈ others, best.cmp entry = .gt := by
  induction entries generalizing best others with
  | nil => cases popped
  | cons entry rest ih =>
    obtain ⟨apart, distinct⟩ := List.pairwise_cons.mp distinct
    simp only [popGreatest] at popped
    split at popped
    · -- The only entry leaves nothing behind.
      obtain ⟨rfl, rfl⟩ := Prod.mk.inj (Option.some.inj popped)
      simp
    · rename_i greatest left found
      -- The first entry is compared with the greatest of the rest.
      have above := ih distinct found
      have listed : greatest ∈ rest := (popGreatest_perm found).mem_iff.mpr List.mem_cons_self
      split at popped
      · rename_i beats
        obtain ⟨rfl, rfl⟩ := Prod.mk.inj (Option.some.inj popped)
        intro other inside
        rcases List.mem_cons.mp inside with rfl | inside
        · exact beats
        · exact above other inside
      · rename_i loses
        obtain ⟨rfl, rfl⟩ := Prod.mk.inj (Option.some.inj popped)
        -- The first entry beats the greatest of the rest, which beats the others.
        have wins : entry.cmp greatest = .gt := by
          have differ := apart greatest listed
          rw [Entry.cmp_eq_gt] at loses ⊢
          omega
        intro other inside
        rcases List.mem_cons.mp ((popGreatest_perm found).mem_iff.mp inside) with rfl | inside
        · exact wins
        · exact Entry.cmp_trans wins (above other inside)

/-- What is popped from entries in the order of their pushes is the earliest of the highest priority. -/
theorem popGreatest_earliestBest {entries others : List (Entry T)} {best : Entry T}
    (ordered : entries.Pairwise fun entry other => entry.sequence.toNat < other.sequence.toNat)
    (popped : popGreatest entries = some (best, others)) :
    EarliestBest (fun entry => entry.priority.rank) entries best others := by
  induction entries generalizing best others with
  | nil => cases popped
  | cons entry rest ih =>
    obtain ⟨first, ordered⟩ := List.pairwise_cons.mp ordered
    simp only [popGreatest] at popped
    split at popped
    · rename_i empty
      obtain ⟨rfl, rfl⟩ := Prod.mk.inj (Option.some.inj popped)
      rw [popGreatest_eq_none empty]
      exact .head (by simp)
    · rename_i greatest left found
      -- Every other entry was pushed later than the first.
      have best_left := ih ordered found
      have listed : greatest ∈ rest := (popGreatest_perm found).mem_iff.mpr List.mem_cons_self
      have earlier := first greatest listed
      split at popped
      · rename_i beats
        obtain ⟨rfl, rfl⟩ := Prod.mk.inj (Option.some.inj popped)
        -- It was pushed later, so it must be of a higher priority.
        refine best_left.cons ?_
        rw [Entry.cmp_eq_gt] at beats
        omega
      · rename_i loses
        obtain ⟨rfl, rfl⟩ := Prod.mk.inj (Option.some.inj popped)
        refine .head fun other inside => ?_
        -- What does not beat it is of no higher level, and neither is what is below that.
        have below := best_left.level_le inside
        rw [Entry.cmp_eq_gt] at loses
        omega

/-- What is popped has the highest priority there is, whatever the sequence numbers are. -/
theorem popGreatest_highest {entries others : List (Entry T)} {best : Entry T}
    (popped : popGreatest entries = some (best, others)) :
    ∀ entry ∈ entries, entry.priority.rank ≤ best.priority.rank := by
  -- Along the list, as the search for the greatest entry goes.
  induction entries generalizing best others with
  | nil => cases popped
  | cons entry rest ih =>
    simp only [popGreatest] at popped
    split at popped
    · rename_i empty
      obtain ⟨rfl, rfl⟩ := Prod.mk.inj (Option.some.inj popped)
      simp [popGreatest_eq_none empty]
    · rename_i greatest left found
      have below := ih found
      split at popped
      · -- The greatest of the rest beats the first entry, so it is of no lower priority.
        rename_i beats
        obtain ⟨rfl, rfl⟩ := Prod.mk.inj (Option.some.inj popped)
        rw [Entry.cmp_eq_gt] at beats
        exact List.forall_mem_cons.mpr ⟨by omega, below⟩
      · -- It does not, so it is of no higher one.
        rename_i loses
        obtain ⟨rfl, rfl⟩ := Prod.mk.inj (Option.some.inj popped)
        rw [Entry.cmp_eq_gt] at loses
        exact List.forall_mem_cons.mpr ⟨le_rfl, fun other inside => (below other inside).trans (by omega)⟩

/-- After so many pushes, at most one for every sequence number, the entries are in the order of
their pushes. -/
structure PriorityQueue.Ordered (queue : PriorityQueue T) (pushes : Nat) : Prop where
  numbered : queue.nextSequence = UInt64.ofNat pushes
  unwrapped : pushes ≤ UInt64.size
  increasing : queue.items.Pairwise fun entry other => entry.sequence.toNat < other.sequence.toNat
  below : ∀ entry ∈ queue.items, entry.sequence.toNat < pushes

/-- The items with their priorities, in the order of their pushes. -/
def PriorityQueue.waiting (queue : PriorityQueue T) : List (T × Priority) :=
  queue.items.map fun entry => (entry.item, entry.priority)

/-- A new queue is in order. -/
theorem PriorityQueue.Ordered.new (capacity : Option { limit : Nat // 0 < limit }) :
    (⟨[], capacity, 0⟩ : PriorityQueue T).Ordered 0 where
  numbered := rfl
  unwrapped := Nat.zero_le _
  increasing := .nil
  below := by simp

/-- A push keeps the order while a sequence number is left. -/
theorem PriorityQueue.Ordered.pushEntry {queue : PriorityQueue T} {pushes : Nat}
    (ordered : queue.Ordered pushes) (left : pushes < UInt64.size) (item : T) (priority : Priority) :
    (queue.pushEntry item priority).Ordered (pushes + 1) := by
  -- The new entry takes the number of pushes for its own, which is above all before it.
  have number : queue.nextSequence.toNat = pushes := by
    rw [ordered.numbered, UInt64.toNat_ofNat_of_lt' left]
  refine ⟨?_, left, List.pairwise_append.mpr ⟨ordered.increasing, by simp, fun entry inside other last => ?_⟩,
    fun entry inside => ?_⟩
  · simp [PriorityQueue.pushEntry, ordered.numbered, UInt64.ofNat_add]
  · rw [List.mem_singleton.mp last, number]
    exact ordered.below entry inside
  · simp only [PriorityQueue.pushEntry, List.mem_append, List.mem_singleton] at inside
    rcases inside with earlier | rfl
    · exact (ordered.below entry earlier).trans (Nat.lt_succ_self pushes)
    · rw [number]
      exact Nat.lt_succ_self pushes

/-- A push puts the item behind the others. -/
@[simp] theorem PriorityQueue.waiting_pushEntry (queue : PriorityQueue T) (item : T)
    (priority : Priority) :
    (queue.pushEntry item priority).waiting = queue.waiting ++ [(item, priority)] := by
  simp [waiting, pushEntry]

/-- A pop takes one item of the highest priority, whatever the sequence numbers are. -/
theorem PriorityQueue.tryDequeue_highest {queue next : PriorityQueue T} {item : T}
    (popped : queue.tryDequeue = some (item, next)) : next.nextSequence = queue.nextSequence ∧
      ∃ priority : Priority, queue.waiting.Perm ((item, priority) :: next.waiting) ∧
        ∀ waiting ∈ queue.waiting, waiting.2.rank ≤ priority.rank := by
  obtain ⟨⟨best, others⟩, taken, same⟩ := Option.map_eq_some_iff.mp popped
  obtain ⟨rfl, rfl⟩ := Prod.mk.inj same
  refine ⟨rfl, best.priority, (popGreatest_perm taken).map _, fun waiting inside => ?_⟩
  obtain ⟨entry, listed, rfl⟩ := List.mem_map.mp inside
  exact popGreatest_highest taken entry listed

/-- A pop takes the earliest item of the highest priority, and keeps the order. -/
theorem PriorityQueue.Ordered.tryDequeue {queue next : PriorityQueue T} {item : T} {pushes : Nat}
    (ordered : queue.Ordered pushes) (popped : queue.tryDequeue = some (item, next)) :
    next.Ordered pushes ∧ ∃ priority : Priority,
      EarliestBest (fun waiting => waiting.2.rank) queue.waiting (item, priority) next.waiting := by
  obtain ⟨⟨best, others⟩, taken, same⟩ := Option.map_eq_some_iff.mp popped
  obtain ⟨rfl, rfl⟩ := Prod.mk.inj same
  -- What is true of the entries is true of the items that they hold.
  have first := popGreatest_earliestBest ordered.increasing taken
  have fewer := first.sublist
  refine ⟨⟨ordered.numbered, ordered.unwrapped, ordered.increasing.sublist fewer,
    fun entry inside => ordered.below entry (fewer.subset inside)⟩, best.priority, ?_⟩
  exact first.map (fun waiting : T × Priority => waiting.2.rank) fun entry : Entry T =>
    (entry.item, entry.priority)

/-- Nothing is popped exactly when nothing waits. -/
theorem PriorityQueue.tryDequeue_eq_none {queue : PriorityQueue T} :
    queue.tryDequeue = none ↔ queue.waiting = [] := by
  rw [PriorityQueue.tryDequeue, Option.map_eq_none_iff, waiting, List.map_eq_nil_iff]
  constructor
  · intro nothing
    exact popGreatest_eq_none nothing
  · intro empty
    rw [empty]
    rfl

end Qaas
