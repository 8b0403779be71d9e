import Qaas.Concurrency.Tally

/-! Tasks that take turns on a shared state, one atomic step at a time. -/

namespace Concurrency

variable {σ τ : Type*}

/-- A shared state and every task ever started, finished ones included. -/
structure Pool (σ τ : Type*) where
  shared : σ
  tasks : List τ

/-- Start one more task. -/
def Pool.spawn (pool : Pool σ τ) (task : τ) : Pool σ τ :=
  { pool with tasks := pool.tasks ++ [task] }

/-- Let one task take its next step, which may be refused. -/
def Pool.advance (pool : Pool σ τ) (i : Nat) (move : σ → τ → Option (σ × τ)) :
    Option (Pool σ τ) :=
  pool.tasks[i]?.bind fun task =>
    (move pool.shared task).map fun moved => ⟨moved.1, pool.tasks.set i moved.2⟩

/-- A step changes the shared state and one task, as the task's own move says. -/
theorem Pool.advance_eq_some {pool next : Pool σ τ} {i : Nat} {move : σ → τ → Option (σ × τ)} :
    pool.advance i move = some next ↔ ∃ task shared moved, pool.tasks[i]? = some task ∧
      move pool.shared task = some (shared, moved) ∧ next = ⟨shared, pool.tasks.set i moved⟩ := by
  unfold advance
  constructor
  · -- The task is there, and its move is not refused.
    intro taken
    obtain ⟨task, found, taken⟩ := Option.bind_eq_some_iff.mp taken
    obtain ⟨⟨shared, moved⟩, stepped, rfl⟩ := Option.map_eq_some_iff.mp taken
    exact ⟨task, shared, moved, found, stepped, rfl⟩
  · intro ⟨task, shared, moved, found, stepped, result⟩
    subst result
    simp [found, stepped]

/-- Some task has a property, which may depend on the task's index. -/
def Pool.Has (pool : Pool σ τ) (p : Nat → τ → Prop) : Prop :=
  ∃ i task, pool.tasks[i]? = some task ∧ p i task

instance (pool : Pool σ τ) (p : Nat → τ → Prop) [∀ i task, Decidable (p i task)] :
    Decidable (pool.Has p) :=
  decidable_of_iff (∃ i ∈ List.range pool.tasks.length, ∃ task ∈ pool.tasks[i]?, p i task) <| by
    constructor
    · rintro ⟨i, _, task, found, holds⟩
      exact ⟨i, task, found, holds⟩
    · rintro ⟨i, task, found, holds⟩
      have within := (List.getElem?_eq_some_iff.mp found).1
      exact ⟨i, List.mem_range.mpr within, task, found, holds⟩

/-- Every task has a property, which may depend on the task's index. -/
def Pool.All (pool : Pool σ τ) (p : Nat → τ → Prop) : Prop :=
  ∀ i task, pool.tasks[i]? = some task → p i task

instance (pool : Pool σ τ) (p : Nat → τ → Prop) [∀ i task, Decidable (p i task)] :
    Decidable (pool.All p) :=
  decidable_of_iff (∀ i ∈ List.range pool.tasks.length, ∀ task ∈ pool.tasks[i]?, p i task) <| by
    constructor
    · intro every i task found
      exact every i (List.mem_range.mpr (List.getElem?_eq_some_iff.mp found).1) task found
    · intro every i _ task found
      exact every i task found

/-- After one member of a list is replaced, each is the new one or another of the old. -/
theorem found_set {tasks : List τ} {i j : Nat} {old new task : τ} (found : tasks[i]? = some old)
    (there : (tasks.set i new)[j]? = some task) :
    j = i ∧ task = new ∨ j ≠ i ∧ tasks[j]? = some task := by
  -- Either the place is the one that was set, or it is untouched.
  by_cases own : j = i
  · subst own
    rw [List.getElem?_set_self (List.getElem?_eq_some_iff.mp found).1] at there
    exact .inl ⟨rfl, (Option.some.inj there).symm⟩
  · rw [List.getElem?_set_ne fun same => own same.symm] at there
    exact .inr ⟨own, there⟩

/-- Each member of a list that one more was added to is an old one, or the new one at the end. -/
theorem found_concat {tasks : List τ} {i : Nat} {new task : τ}
    (there : (tasks ++ [new])[i]? = some task) :
    tasks[i]? = some task ∨ i = tasks.length ∧ task = new := by
  -- A place before the end is an old one.
  rcases Nat.lt_or_ge i tasks.length with earlier | last
  · exact .inl ((List.getElem?_append_left earlier).symm.trans there)
  · have bound := (List.getElem?_eq_some_iff.mp there).1
    simp only [List.length_append, List.length_singleton] at bound
    obtain rfl : i = tasks.length := by omega
    rw [List.getElem?_concat_length] at there
    exact .inr ⟨rfl, (Option.some.inj there).symm⟩

/-- After a task's move its own new state counts, and the other tasks' as before. -/
theorem Pool.has_set {pool : Pool σ τ} {shared : σ} {i : Nat} {old : τ} (new : τ)
    {p : Nat → τ → Prop} (found : pool.tasks[i]? = some old) :
    Pool.Has ⟨shared, pool.tasks.set i new⟩ p ↔
      p i new ∨ ∃ j task, j ≠ i ∧ pool.tasks[j]? = some task ∧ p j task := by
  have within := (List.getElem?_eq_some_iff.mp found).1
  constructor
  · -- Whoever has the property after the step is the moved task or another.
    rintro ⟨j, task, there, holds⟩
    rcases found_set found there with ⟨rfl, rfl⟩ | ⟨own, before⟩
    · exact .inl holds
    · exact .inr ⟨j, task, own, before, holds⟩
  · rintro (holds | ⟨j, task, own, there, holds⟩)
    · exact ⟨i, new, List.getElem?_set_self within, holds⟩
    · exact ⟨j, task, (List.getElem?_set_ne fun same => own same.symm).trans there, holds⟩

/-- A new task comes last, and the others keep their places. -/
theorem Pool.has_spawn {pool : Pool σ τ} {task : τ} {p : Nat → τ → Prop} :
    (pool.spawn task).Has p ↔ pool.Has p ∨ p pool.tasks.length task := by
  constructor
  · rintro ⟨j, other, there, holds⟩
    rcases found_concat there with before | ⟨rfl, rfl⟩
    · exact .inl ⟨j, other, before, holds⟩
    · exact .inr holds
  · rintro (⟨j, other, there, holds⟩ | holds)
    · have earlier := (List.getElem?_eq_some_iff.mp there).1
      exact ⟨j, other, (List.getElem?_append_left earlier).trans there, holds⟩
    · exact ⟨_, task, List.getElem?_concat_length, holds⟩

/-- The task at an index has a property. -/
def Pool.At (pool : Pool σ τ) (p : τ → Prop) (i : Nat) : Prop :=
  ∃ task, pool.tasks[i]? = some task ∧ p task

/-- A task's own standing is known. -/
theorem Pool.at_iff {pool : Pool σ τ} {p : τ → Prop} {i : Nat} {task : τ}
    (found : pool.tasks[i]? = some task) : pool.At p i ↔ p task := by
  simp [Pool.At, found]

/-- A task's move changes only its own standing. -/
theorem Pool.at_set {pool : Pool σ τ} {shared : σ} {p : τ → Prop} {i : Nat} {task : τ} (moved : τ)
    (found : pool.tasks[i]? = some task) (j : Nat) :
    Pool.At ⟨shared, pool.tasks.set i moved⟩ p j ↔ (j ≠ i ∧ pool.At p j) ∨ (j = i ∧ p moved) := by
  -- Replacing one member leaves every other index.
  have within := (List.getElem?_eq_some_iff.mp found).1
  by_cases own : j = i
  · subst own
    simp [Pool.At, List.getElem?_set_self within]
  · simp [Pool.At, List.getElem?_set_ne (fun same => own same.symm), own]

/-- A new task without a property leaves everybody's standing. -/
theorem Pool.at_spawn {pool : Pool σ τ} {p : τ → Prop} {task : τ} (lacks : ¬ p task) (i : Nat) :
    (pool.spawn task).At p i ↔ pool.At p i := by
  constructor
  · intro ⟨other, there, holds⟩
    rcases found_concat there with before | ⟨_, rfl⟩
    · exact ⟨other, before, holds⟩
    · exact absurd holds lacks
  · intro ⟨other, there, holds⟩
    have earlier := (List.getElem?_eq_some_iff.mp there).1
    exact ⟨other, (List.getElem?_append_left earlier).trans there, holds⟩

/-- What the task at an index shows of itself, if there is one and it shows anything. -/
def Pool.shows {β : Type*} (pool : Pool σ τ) (label : τ → Option β) (i : Nat) : Option β :=
  pool.tasks[i]?.bind label

/-- A task shows what its own state says. -/
theorem Pool.shows_of_found {β : Type*} {pool : Pool σ τ} (label : τ → Option β) {i : Nat} {task : τ}
    (found : pool.tasks[i]? = some task) : pool.shows label i = label task := by
  simp [shows, found]

/-- A task's move changes what it shows itself. -/
theorem Pool.shows_set_self {β : Type*} {pool : Pool σ τ} {shared : σ} (label : τ → Option β) {i : Nat}
    {task : τ} (moved : τ) (found : pool.tasks[i]? = some task) :
    Pool.shows ⟨shared, pool.tasks.set i moved⟩ label i = label moved := by
  have within := (List.getElem?_eq_some_iff.mp found).1
  simp [shows, List.getElem?_set_self within]

/-- A task's move changes nothing that another shows. -/
theorem Pool.shows_set_other {β : Type*} {pool : Pool σ τ} {shared : σ} {label : τ → Option β}
    {i j : Nat} (moved : τ) (other : j ≠ i) :
    Pool.shows ⟨shared, pool.tasks.set i moved⟩ label j = pool.shows label j := by
  simp [shows, List.getElem?_set_ne fun same => other same.symm]

/-- A new task that shows nothing changes nothing. -/
theorem Pool.shows_spawn {β : Type*} {pool : Pool σ τ} {label : τ → Option β} {task : τ}
    (blank : label task = none) : (pool.spawn task).shows label = pool.shows label := by
  -- An index is that of an old task, that of the new one, or beyond both.
  funext i
  rcases Nat.lt_trichotomy i pool.tasks.length with earlier | last | beyond
  · simp [shows, Pool.spawn, List.getElem?_append_left earlier]
  · simp [shows, Pool.spawn, last, blank]
  · -- Neither pool has a task this far.
    have within : pool.tasks.length ≤ i := by omega
    have outside : (pool.tasks ++ [task]).length ≤ i := by simp; omega
    simp [shows, Pool.spawn, List.getElem?_eq_none within, List.getElem?_eq_none outside]

/-- Replacing one member keeps every other. -/
theorem mem_set_or_eq {tasks : List τ} {i : Nat} {old other : τ} (new : τ)
    (found : tasks[i]? = some old) (member : other ∈ tasks) : other = old ∨ other ∈ tasks.set i new := by
  -- The member stands at an index, which is the replaced one or not.
  obtain ⟨j, placed⟩ := List.getElem?_of_mem member
  by_cases here : i = j
  · subst here
    rw [found] at placed
    exact .inl (Option.some.inj placed).symm
  · right
    apply List.mem_of_getElem? (i := j)
    rw [List.getElem?_set_ne here, placed]

/-- What a member shows after a move, the moved one or a member before it shows. -/
theorem shown_of_set {β : Type*} {label : τ → Option β} {tasks : List τ} {i : Nat} {new : τ} {b : β}
    (shown : ∃ task ∈ tasks.set i new, label task = some b) :
    label new = some b ∨ ∃ task ∈ tasks, label task = some b := by
  -- The members after the replacement are the new one and some of the old.
  obtain ⟨task, member, own⟩ := shown
  rcases List.mem_or_eq_of_mem_set member with before | rfl
  · exact .inr ⟨task, before, own⟩
  · exact .inl own

/-- What a member shows before a move, the moved one or a member after it shows. -/
theorem shown_set {β : Type*} {label : τ → Option β} {tasks : List τ} {i : Nat} {old : τ} (new : τ)
    {b : β} (found : tasks[i]? = some old) (shown : ∃ task ∈ tasks, label task = some b) :
    label old = some b ∨ ∃ task ∈ tasks.set i new, label task = some b := by
  -- The members before the replacement are the old one and those that stay.
  obtain ⟨task, member, own⟩ := shown
  rcases mem_set_or_eq new found member with rfl | after
  · exact .inl own
  · exact .inr ⟨task, after, own⟩

/-- Replacing a member by one with the same label keeps the list of labels. -/
theorem filterMap_set {β : Type*} {label : τ → Option β} {tasks : List τ} {i : Nat} {old new : τ}
    (found : tasks[i]? = some old) (same : label new = label old) :
    (tasks.set i new).filterMap label = tasks.filterMap label := by
  -- The induction walks to the replaced member.
  induction tasks generalizing i with
  | nil => cases found
  | cons head rest ih =>
    cases i with
    | zero =>
      obtain rfl : head = old := by simpa using found
      simp only [List.set_cons_zero, List.filterMap_cons, same]
    | succ i => simp only [List.set_cons_succ, List.filterMap_cons, ih (by simpa using found)]

/-- A member that had no label before adds its label to the others. -/
theorem filterMap_set_perm {β : Type*} {label : τ → Option β} {tasks : List τ} {i : Nat} {old new : τ} {b : β}
    (found : tasks[i]? = some old) (blank : label old = none) (shown : label new = some b) :
    ((tasks.set i new).filterMap label).Perm (tasks.filterMap label ++ [b]) := by
  induction tasks generalizing i with
  | nil => simp at found
  | cons head rest ih =>
    cases i with
    | zero =>
      obtain rfl : head = old := by simpa using found
      rw [List.set_cons_zero, List.filterMap_cons_some shown, List.filterMap_cons_none blank]
      exact (List.perm_append_singleton b _).symm
    | succ i =>
      -- The labels in front of the member stay where they are.
      have later := ih (by simpa using found)
      rw [List.set_cons_succ]
      cases headLabel : label head with
      | none =>
        rwa [List.filterMap_cons_none headLabel, List.filterMap_cons_none headLabel]
      | some first =>
        rw [List.filterMap_cons_some headLabel, List.filterMap_cons_some headLabel, List.cons_append]
        exact later.cons first

/-- Where no two members have the same label, a label names one member. -/
theorem eq_of_nodup_filterMap {β : Type*} {label : τ → Option β} {tasks : List τ}
    (distinct : (tasks.filterMap label).Nodup) {first second : τ} {b : β} (left : first ∈ tasks)
    (right : second ∈ tasks) (leftLabel : label first = some b) (rightLabel : label second = some b) :
    first = second := by
  induction tasks with
  | nil => cases left
  | cons head rest ih =>
    -- A member further on with the head's label would repeat it.
    have repeated : ∀ other ∈ rest, label head = some b → label other ≠ some b := by
      intro other member headLabel otherLabel
      rw [List.filterMap_cons_some headLabel, List.nodup_cons] at distinct
      exact distinct.1 (List.mem_filterMap.mpr ⟨other, member, otherLabel⟩)
    rcases List.mem_cons.mp left with rfl | before <;> rcases List.mem_cons.mp right with rfl | after
    · rfl
    · exact absurd rightLabel (repeated second after leftLabel)
    · exact absurd leftLabel (repeated first before rightLabel)
    · apply ih _ before after
      cases headLabel : label head with
      | none => rwa [List.filterMap_cons_none headLabel] at distinct
      | some _ =>
        rw [List.filterMap_cons_some headLabel] at distinct
        exact distinct.of_cons

end Concurrency
