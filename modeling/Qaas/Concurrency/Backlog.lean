import Mathlib.Data.List.Basic

/-! Operations that are logged first and applied later, by tasks that do not wait for each other. -/

namespace Concurrency

variable {ν ο : Type*}

/-- The operations that tasks have logged and not applied yet, in the order of the log. -/
abbrev Backlog (ο : Type*) := List (Nat × ο)

/-- What a value becomes when a backlog is applied to it in order. -/
def Backlog.settle (backlog : Backlog ο) (apply : ν → ο → ν) (value : ν) : ν :=
  backlog.foldl (fun value entry => apply value entry.2) value

/-- A backlog after one task has applied its operation. -/
def Backlog.without (backlog : Backlog ο) (task : Nat) : Backlog ο :=
  backlog.filter fun entry => entry.1 ≠ task

/-- A backlog after a step of one task, by the operation the task had outstanding before and after it. -/
def Backlog.follow (backlog : Backlog ο) (task : Nat) : Option ο → Option ο → Backlog ο
  | none, none => backlog
  | none, some op => backlog ++ [(task, op)]
  | some _, _ => backlog.without task

/-- A task that applies its operation now undoes nothing that was logged before it. -/
def Backlog.Yields (backlog : Backlog ο) (apply : ν → ο → ν) (value : ν) (task : Nat) (op : ο) : Prop :=
  (backlog.without task).settle apply (apply value op) = backlog.settle apply value

instance [DecidableEq ν] (backlog : Backlog ο) (apply : ν → ο → ν) (value : ν) (task : Nat) (op : ο) :
    Decidable (backlog.Yields apply value task op) :=
  inferInstanceAs (Decidable (_ = _))

/-- A backlog lists exactly the operations that tasks have outstanding. -/
def Backlog.Lists (backlog : Backlog ο) (owed : Nat → Option ο) : Prop :=
  ∀ task op, (task, op) ∈ backlog ↔ owed task = some op

/-- A backlog is applied part by part. -/
theorem Backlog.settle_append (first second : Backlog ο) (apply : ν → ο → ν) (value : ν) :
    Backlog.settle (first ++ second) apply value = second.settle apply (first.settle apply value) :=
  List.foldl_append

/-- An operation logged last is applied last. -/
theorem Backlog.settle_concat (backlog : Backlog ο) (apply : ν → ο → ν) (value : ν) (task : Nat)
    (op : ο) : Backlog.settle (backlog ++ [(task, op)]) apply value =
      apply (backlog.settle apply value) op := by
  simp [settle]

/-- What two values agree on, and every operation keeps, their settled values agree on. -/
theorem Backlog.settle_rel (agree : ν → ν → Prop) {apply : ν → ο → ν} {backlog : Backlog ο}
    (keeps : ∀ task op, (task, op) ∈ backlog → ∀ x y, agree x y → agree (apply x op) (apply y op))
    {x y : ν} (before : agree x y) : agree (backlog.settle apply x) (backlog.settle apply y) := by
  -- The induction applies the operations in the order of the log.
  induction backlog generalizing x y with
  | nil => exact before
  | cons entry rest ih =>
    have head := keeps entry.1 entry.2 List.mem_cons_self x y before
    exact ih (fun task op member => keeps task op (List.mem_cons_of_mem _ member)) head

/-- What every operation keeps of a value, its settled value has. -/
theorem Backlog.settle_inv (inv : ν → Prop) {apply : ν → ο → ν} {backlog : Backlog ο}
    (keeps : ∀ task op, (task, op) ∈ backlog → ∀ x, inv x → inv (apply x op)) {x : ν}
    (before : inv x) : inv (backlog.settle apply x) := by
  -- The induction applies the operations in the order of the log.
  induction backlog generalizing x with
  | nil => exact before
  | cons entry rest ih =>
    have head := keeps entry.1 entry.2 List.mem_cons_self x before
    exact ih (fun task op member => keeps task op (List.mem_cons_of_mem _ member)) head

/-- What is left after one task has applied its operation is what the others have outstanding. -/
theorem Backlog.mem_without {backlog : Backlog ο} {task other : Nat} {op : ο} :
    (other, op) ∈ backlog.without task ↔ (other, op) ∈ backlog ∧ other ≠ task := by
  simp [without]

/-- A step that logs one operation or applies one keeps the backlog exact. -/
theorem Backlog.Lists.follow {backlog : Backlog ο} {owed next : Nat → Option ο} {task : Nat}
    (lists : backlog.Lists owed) (others : ∀ other, other ≠ task → next other = owed other)
    (single : owed task = none ∨ next task = none) :
    (backlog.follow task (owed task) (next task)).Lists next := by
  intro other op
  cases had : owed task with
  | none =>
    -- Nothing was outstanding, so the backlog has no entry of this task yet.
    have absent : ∀ op, (task, op) ∉ backlog := by
      intro op member
      rw [lists, had] at member
      cases member
    -- Its new entry, if there is one, is the last.
    by_cases own : other = task
    · subst own
      cases has : next other with
      | none => simp [Backlog.follow, absent]
      | some logged => simp [Backlog.follow, absent, eq_comm]
    · rw [others other own, ← lists]
      cases has : next task with
      | none => rfl
      | some logged => simp [Backlog.follow, own]
  | some applied =>
    have gone : next task = none := single.resolve_left (by simp [had])
    rw [gone, Backlog.follow, mem_without]
    by_cases own : other = task
    · subst own
      simp [gone]
    · rw [others other own, ← lists]
      simp [own]

end Concurrency
