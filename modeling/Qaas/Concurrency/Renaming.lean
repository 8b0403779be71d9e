import Mathlib.Data.List.Basic
import Qaas.Concurrency.Notify

/-! A wakeup primitive whose waiters go by other names elsewhere. -/

namespace Concurrency

variable {g : Nat → Nat} {tasks : List Nat} {task : Nat} {notify : Notify}

/-- No other of these tasks goes by the same name. -/
def Lone (g : Nat → Nat) (tasks : List Nat) (task : Nat) : Prop :=
  ∀ other ∈ tasks, g other = g task → other = task

/-- Whether a task is listed can be read off the names. -/
theorem Lone.contains_map (lone : Lone g tasks task) : (tasks.map g).contains (g task) = tasks.contains task := by
  -- A task of the same name is the task itself.
  rw [Bool.eq_iff_iff, List.contains_iff_mem, List.contains_iff_mem, List.mem_map]
  constructor
  · rintro ⟨other, member, same⟩
    exact lone other member same ▸ member
  · intro member
    exact ⟨task, member, rfl⟩

/-- Taking a task's name off the names takes the task off the list. -/
theorem Lone.erase_map (lone : Lone g tasks task) : (tasks.map g).erase (g task) = (tasks.erase task).map g := by
  induction tasks with
  | nil => rfl
  | cons head rest ih =>
    by_cases own : head = task
    · -- The task heads the list, and its name the names.
      subst own
      simp
    · have named : g head ≠ g task := fun same => own (lone head List.mem_cons_self same)
      have later : Lone g rest task := fun other member => lone other (List.mem_cons_of_mem _ member)
      simp [own, named, ih later]

/-- The same waiters and wakeups, each task under its other name. -/
def Notify.rename (g : Nat → Nat) (notify : Notify) : Notify :=
  { notify with
    waiters := notify.waiters.map g
    woken := notify.woken.map g
    released := notify.released.map g }

/-- Two renamings that agree on the seated tasks do the same. -/
theorem Notify.rename_congr {other : Nat → Nat} (agree : ∀ task ∈ notify.seats, g task = other task) :
    notify.rename g = notify.rename other := by
  have within {listed : List Nat} (seated : ∀ task ∈ listed, task ∈ notify.seats) :
      listed.map g = listed.map other :=
    List.map_congr_left fun task member => agree task (seated task member)
  unfold Notify.rename
  rw [within fun task member => ?waiting, within fun task member => ?woken, within fun task member => ?released]
  -- Each of the three lists holds seats.
  case waiting => exact List.mem_append_left _ member
  case woken => exact List.mem_append_right _ (List.mem_append_left _ member)
  case released => exact List.mem_append_right _ (List.mem_append_right _ member)

/-- The first of the line is woken, whatever it is called. -/
@[simp] theorem Notify.notifyOne_rename : (notify.rename g).notifyOne = notify.notifyOne.rename g := by
  unfold Notify.notifyOne
  cases line : notify.waiters with
  | nil => simp [Notify.rename, line]
  | cons first rest => simp [Notify.rename, line]

/-- Everybody in line is woken, whatever they are called. -/
@[simp] theorem Notify.notifyWaiters_rename :
    (notify.rename g).notifyWaiters = notify.notifyWaiters.rename g := by
  simp [Notify.notifyWaiters, Notify.rename]

/-- A task asks for a wakeup under its other name as it does under its own. -/
theorem Notify.notified_rename (task : Nat) :
    (notify.rename g).notified (g task) = ((notify.notified task).1.rename g, (notify.notified task).2) := by
  unfold Notify.notified
  cases stored : notify.permit with
  | true => simp [Notify.rename, stored]
  | false => simp [Notify.rename, stored]

section

variable (lone : Lone g notify.seats task)

include lone

theorem Notify.lone_seats : Lone g notify.waiters task ∧ Lone g notify.woken task ∧ Lone g notify.released task := by
  refine ⟨fun other member => lone other ?_, fun other member => lone other ?_, fun other member => lone other ?_⟩
  · exact List.mem_append_left _ member
  · exact List.mem_append_right _ (List.mem_append_left _ member)
  · exact List.mem_append_right _ (List.mem_append_right _ member)

/-- A task that shares its name with no seated task is ready under both its names. -/
theorem Notify.ready_rename : (notify.rename g).ready (g task) = notify.ready task := by
  obtain ⟨_, woken, released⟩ := Notify.lone_seats lone
  unfold Notify.ready
  rw [← woken.contains_map, ← released.contains_map]
  rfl

/-- Giving up a seat under one name gives up that of the other. -/
theorem Notify.withdraw_rename : (notify.rename g).withdraw (g task) = (notify.withdraw task).rename g := by
  obtain ⟨waiters, woken, released⟩ := Notify.lone_seats lone
  simp only [Notify.withdraw, Notify.rename, waiters.erase_map, woken.erase_map, released.erase_map]

/-- A wakeup that is passed on goes to the same task under both its names. -/
theorem Notify.cancel_rename : (notify.rename g).cancel (g task) = (notify.cancel task).rename g := by
  obtain ⟨_, woken, _⟩ := Notify.lone_seats lone
  have same : (notify.rename g).woken.contains (g task) = notify.woken.contains task := woken.contains_map
  unfold Notify.cancel
  rw [same, Notify.withdraw_rename lone]
  split
  · exact Notify.notifyOne_rename
  · rfl

end

end Concurrency
