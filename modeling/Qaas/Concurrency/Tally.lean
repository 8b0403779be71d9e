import Mathlib.Algebra.BigOperators.Group.List.Basic
import Mathlib.Algebra.BigOperators.Group.Multiset.Basic
import Mathlib.Algebra.Order.BigOperators.Group.List
import Mathlib.Algebra.GroupWithZero.Nat
import Mathlib.Algebra.Order.Group.Nat
import Mathlib.Tactic.ByContra

/-! Adding a quantity up over a list of tasks. -/

namespace Concurrency

variable {τ : Type*}

/-- The sum of a quantity over a list. -/
def tally (f : τ → Nat) (tasks : List τ) : Nat :=
  (tasks.map f).sum

@[simp] theorem tally_nil (f : τ → Nat) : tally f [] = 0 := rfl

@[simp] theorem tally_cons (f : τ → Nat) (t : τ) (tasks : List τ) :
    tally f (t :: tasks) = f t + tally f tasks := by
  simp [tally]

@[simp] theorem tally_append (f : τ → Nat) (left right : List τ) :
    tally f (left ++ right) = tally f left + tally f right := by
  simp [tally]

/-- Replacing one task trades its share of the sum for that of its replacement. -/
theorem tally_set (f : τ → Nat) {tasks : List τ} {i : Nat} {old : τ} (new : τ)
    (found : tasks[i]? = some old) : tally f (tasks.set i new) + f old = tally f tasks + f new := by
  induction tasks generalizing i with
  | nil => simp at found
  | cons head rest ih =>
    cases i with
    | zero =>
      obtain rfl : head = old := by simpa using found
      simp only [List.set_cons_zero, tally_cons]
      omega
    | succ i =>
      have shifted := ih (by simpa using found)
      simp only [List.set_cons_succ, tally_cons]
      omega

/-- One member's share is at most the whole sum. -/
theorem le_tally (f : τ → Nat) {tasks : List τ} {t : τ} (member : t ∈ tasks) :
    f t ≤ tally f tasks :=
  List.single_le_sum (by simp) _ (List.mem_map_of_mem member)

/-- A sum vanishes exactly when every share does. -/
theorem tally_eq_zero {f : τ → Nat} {tasks : List τ} :
    tally f tasks = 0 ↔ ∀ t ∈ tasks, f t = 0 := by
  induction tasks with
  | nil => simp
  | cons head rest ih => simp [ih]

/-- A positive sum has a positive share. -/
theorem exists_of_tally_pos {f : τ → Nat} {tasks : List τ} (positive : 0 < tally f tasks) :
    ∃ t ∈ tasks, 0 < f t := by
  by_contra none_positive
  have vanishes : tally f tasks = 0 :=
    tally_eq_zero.mpr fun t member =>
      Nat.eq_zero_of_not_pos fun some_positive => none_positive ⟨t, member, some_positive⟩
  omega

/-- Shares that are pointwise smaller have a smaller sum. -/
theorem tally_le_tally {f g : τ → Nat} {tasks : List τ} (below : ∀ t ∈ tasks, f t ≤ g t) :
    tally f tasks ≤ tally g tasks :=
  List.sum_le_sum below

/-- The sum of two quantities is the quantity of the sums. -/
theorem tally_add (f g : τ → Nat) (tasks : List τ) :
    tally (fun t => f t + g t) tasks = tally f tasks + tally g tasks := by
  induction tasks with
  | nil => rfl
  | cons head rest ih => simp only [tally_cons, ih]; omega

/-- Relabelling the tasks first is adding up the quantity of their new labels. -/
theorem tally_map {τ' : Type*} (f : τ' → Nat) (relabel : τ → τ') (tasks : List τ) :
    tally f (tasks.map relabel) = tally (fun t => f (relabel t)) tasks := by
  simp only [tally, List.map_map, Function.comp_def]

/-- One for a task that contributes the given value, and zero for any other. -/
def share {β : Type*} [DecidableEq β] (f : τ → Option β) (x : β) (t : τ) : Nat :=
  if f t = some x then 1 else 0

/-- The tasks contribute as many values in all as they do one by one. -/
theorem length_filterMap {β : Type*} (f : τ → Option β) (tasks : List τ) :
    (tasks.filterMap f).length = tally (fun t => (f t).toList.length) tasks := by
  induction tasks with
  | nil => rfl
  | cons head rest ih =>
    rw [tally_cons, ← ih]
    cases contributed : f head with
    | none => simp [contributed]
    | some y => simp [contributed, Nat.add_comm]

/-- A value's multiplicity among what the tasks contribute is the number of shares in it. -/
theorem count_filterMap {β : Type*} [DecidableEq β] (f : τ → Option β) (tasks : List τ) (x : β) :
    Multiset.count x (tasks.filterMap f) = tally (share f x) tasks := by
  induction tasks with
  | nil => rfl
  | cons head rest ih =>
    rw [Multiset.coe_count] at ih ⊢
    cases contributed : f head with
    | none => simp [contributed, ih, share]
    | some y =>
      rw [List.filterMap_cons_some contributed, List.count_cons, ih, tally_cons, share, contributed]
      simp only [beq_iff_eq, Option.some.injEq]
      omega

end Concurrency
