import Mathlib.Data.List.Nodup
import Mathlib.Data.List.Perm.Basic

/-! A wakeup primitive with at most one stored permit, whose waiters are tasks named by index. -/

namespace Concurrency

/-- Which tasks wait for a wakeup, and which have been sent one they have not yet taken. -/
structure Notify where
  /-- A wakeup sent while nobody waited. -/
  permit : Bool := false
  /-- The registered waiters, longest waiting first. -/
  waiters : List Nat := []
  /-- Waiters that were picked out to be woken on their own. -/
  woken : List Nat := []
  /-- Waiters that were woken together with every other. -/
  released : List Nat := []
  deriving DecidableEq, Repr

/-- Wake the longest-waiting task, or store the wakeup for the next one to ask. -/
def Notify.notifyOne (notify : Notify) : Notify :=
  match notify.waiters with
  | [] => { notify with permit := true }
  | first :: rest => { notify with waiters := rest, woken := notify.woken ++ [first] }

/-- Wake every registered task, storing nothing for the tasks that come later. -/
def Notify.notifyWaiters (notify : Notify) : Notify :=
  { notify with waiters := [], released := notify.released ++ notify.waiters }

/-- Ask for a wakeup: take the stored one, or register as a waiter. -/
def Notify.notified (notify : Notify) (task : Nat) : Notify × Bool :=
  if notify.permit then ({ notify with permit := false }, true)
  else ({ notify with waiters := notify.waiters ++ [task] }, false)

/-- Whether a registered task has been woken. -/
def Notify.ready (notify : Notify) (task : Nat) : Bool :=
  notify.woken.contains task || notify.released.contains task

/-- Withdraw a task, dropping its registration or its wakeup. -/
def Notify.withdraw (notify : Notify) (task : Nat) : Notify :=
  { notify with
    waiters := notify.waiters.erase task
    woken := notify.woken.erase task
    released := notify.released.erase task }

/-- Give up waiting; a wakeup meant for this task alone goes on to the next one. -/
def Notify.cancel (notify : Notify) (task : Nat) : Notify :=
  if notify.woken.contains task then (notify.withdraw task).notifyOne else notify.withdraw task

/-- Every task that is registered, or has a wakeup it has not taken yet. -/
def Notify.seats (notify : Notify) : List Nat :=
  notify.waiters ++ (notify.woken ++ notify.released)

/-- The seats are those of the tasks that are parked, and a wakeup is stored only while nobody waits. -/
structure Notify.Seats (notify : Notify) (parked : Nat → Prop) : Prop where
  nodup : notify.seats.Nodup
  mem_iff : ∀ task, task ∈ notify.seats ↔ parked task
  idle : notify.permit = true → notify.waiters = []

variable {notify : Notify} {parked : Nat → Prop}

/-- A task is ready exactly if it has a wakeup that it has not taken yet. -/
theorem Notify.ready_iff {task : Nat} :
    notify.ready task = true ↔ task ∈ notify.woken ∨ task ∈ notify.released := by
  simp [Notify.ready]

/-- A parked task waits in line, or is ready. -/
theorem Notify.Seats.waiting_or_ready (seats : notify.Seats parked) {task : Nat} (there : parked task) :
    task ∈ notify.waiters ∨ notify.ready task = true := by
  have seated := (seats.mem_iff task).mpr there
  rw [Notify.seats, List.mem_append, List.mem_append] at seated
  exact seated.imp_right Notify.ready_iff.mpr

/-- Whoever is ready is parked. -/
theorem Notify.Seats.parked_of_ready (seats : notify.Seats parked) {task : Nat}
    (ready : notify.ready task = true) : parked task := by
  rw [← seats.mem_iff, Notify.seats, List.mem_append, List.mem_append]
  exact .inr (Notify.ready_iff.mp ready)

/-- Where nobody has a wakeup that it has not taken, none has been sent. -/
theorem Notify.woken_of_unready (unready : ∀ task, notify.ready task = false) : notify.woken = [] := by
  apply List.eq_nil_iff_forall_not_mem.mpr
  intro task woken
  have ready := Notify.ready_iff.mpr (.inl woken)
  rw [unready task] at ready
  cases ready

/-- Where somebody is parked, and nobody has a wakeup, none is stored. -/
theorem Notify.Seats.unstored_of_unready (seats : notify.Seats parked)
    (unready : ∀ task, notify.ready task = false) {task : Nat} (there : parked task) :
    notify.permit = false := by
  -- A stored wakeup would have been sent to the task, which is in line.
  by_contra stored
  have empty := seats.idle (by simpa using stored)
  rcases seats.waiting_or_ready there with line | ready
  · rw [empty] at line
    cases line
  · rw [unready task] at ready
    cases ready

/-- Waking one task moves it from the line to the woken ones, or stores the wakeup. -/
theorem Notify.notifyOne_seats (notify : Notify) : notify.notifyOne.seats.Perm notify.seats := by
  cases line : notify.waiters with
  | nil => simp [Notify.notifyOne, Notify.seats, line]
  | cons first rest =>
    simp only [Notify.notifyOne, Notify.seats, line, List.append_assoc, List.cons_append,
      List.nil_append]
    -- The first of the line comes to stand behind those already woken.
    rw [← List.append_assoc]
    exact List.perm_middle.trans (by rw [List.append_assoc])

/-- Waking one task keeps everybody's seat. -/
theorem Notify.Seats.notifyOne (seats : notify.Seats parked) : notify.notifyOne.Seats parked := by
  -- The line and the woken together stay the same seats, whoever is moved between them.
  refine ⟨notify.notifyOne_seats.nodup_iff.mpr seats.nodup, ?_, ?_⟩
  · intro task
    rw [notify.notifyOne_seats.mem_iff]
    exact seats.mem_iff task
  · intro stored
    unfold Notify.notifyOne at stored ⊢
    split at stored
    · rename_i line
      rw [line]
    · -- With somebody in line the permit cannot have been there before either.
      rename_i first rest line
      have empty := seats.idle stored
      rw [line] at empty
      cases empty

/-- Waking everybody empties the line. -/
theorem Notify.notifyWaiters_seats (notify : Notify) :
    notify.notifyWaiters.seats.Perm notify.seats := by
  simp only [Notify.notifyWaiters, Notify.seats, List.nil_append]
  rw [← List.append_assoc]
  exact List.perm_append_comm

/-- Waking everybody keeps everybody's seat. -/
theorem Notify.Seats.notifyWaiters (seats : notify.Seats parked) :
    notify.notifyWaiters.Seats parked := by
  -- Everybody in line is released, and keeps the seat until it looks.
  refine ⟨notify.notifyWaiters_seats.nodup_iff.mpr seats.nodup, ?_, fun _ => rfl⟩
  intro task
  rw [notify.notifyWaiters_seats.mem_iff]
  exact seats.mem_iff task

/-- Asking for a wakeup goes on at once exactly if one is stored. -/
theorem Notify.notified_taken (notify : Notify) (task : Nat) :
    (notify.notified task).2 = notify.permit := by
  unfold Notify.notified
  cases notify.permit <;> rfl

/-- Asking for a wakeup takes the stored one, or takes a seat at the end of the line. -/
theorem Notify.Seats.notified (seats : notify.Seats parked) {self : Nat} (away : ¬ parked self) :
    (notify.notified self).1.Seats fun task =>
      parked task ∨ task = self ∧ notify.permit = false := by
  unfold Notify.notified
  split
  · rename_i stored
    -- The stored permit is taken, and nobody sits down.
    refine ⟨seats.nodup, ?_, nofun⟩
    intro task
    simp only [stored, Bool.true_eq_false, and_false, or_false]
    exact seats.mem_iff task
  · rename_i unstored
    -- The caller joins the end of the line, which is a seat more.
    have joined : ((notify.waiters ++ [self]) ++ (notify.woken ++ notify.released)).Perm
        (self :: notify.seats) := by
      rw [List.append_assoc]
      exact List.perm_middle
    refine ⟨joined.nodup_iff.mpr (List.nodup_cons.mpr ⟨?_, seats.nodup⟩), ?_, ?_⟩
    · rw [seats.mem_iff]
      exact away
    · intro task
      have member := joined.mem_iff (a := task)
      rw [List.mem_cons, seats.mem_iff, or_comm] at member
      simpa [Notify.seats, unstored] using member
    · intro stored
      exact absurd stored unstored

/-- The seats that are left when one task gives up its own. -/
theorem Notify.withdraw_seats (notify : Notify) (task : Nat) :
    (notify.withdraw task).seats.Sublist notify.seats :=
  (List.erase_sublist).append ((List.erase_sublist).append List.erase_sublist)

/-- Giving up a seat leaves everybody else's. -/
theorem Notify.Seats.withdraw (seats : notify.Seats parked) (self : Nat) :
    (notify.withdraw self).Seats fun task => parked task ∧ task ≠ self := by
  refine ⟨seats.nodup.sublist (notify.withdraw_seats self), ?_, ?_⟩
  · intro task
    have apart := seats.nodup
    rw [Notify.seats, List.nodup_append, List.nodup_append] at apart
    -- No list names a task twice, so erasing it once is removing it.
    rw [← seats.mem_iff task]
    simp only [Notify.seats, Notify.withdraw, List.mem_append, apart.1.mem_erase_iff,
      apart.2.1.1.mem_erase_iff, apart.2.1.2.1.mem_erase_iff]
    tauto
  · intro stored
    have empty := seats.idle stored
    simp [Notify.withdraw, empty]

/-- Giving up a wait leaves everybody else's seat, whoever the wakeup goes on to. -/
theorem Notify.Seats.cancel (seats : notify.Seats parked) (self : Nat) :
    (notify.cancel self).Seats fun task => parked task ∧ task ≠ self := by
  -- A wakeup that was sent to the cancelled waiter is passed on.
  unfold Notify.cancel
  split
  · exact (seats.withdraw self).notifyOne
  · exact seats.withdraw self

/-- Waking one task takes no wakeup away. -/
theorem Notify.ready_notifyOne {task : Nat} (ready : notify.ready task = true) :
    notify.notifyOne.ready task = true := by
  -- Nobody loses a wakeup to somebody else's.
  rw [Notify.ready_iff] at ready ⊢
  unfold Notify.notifyOne
  split
  · exact ready
  · exact ready.imp_left (List.mem_append_left _)

/-- Waking everybody takes no wakeup away. -/
theorem Notify.ready_notifyWaiters {task : Nat} (ready : notify.ready task = true) :
    notify.notifyWaiters.ready task = true := by
  rw [Notify.ready_iff] at ready ⊢
  exact ready.imp_right (List.mem_append_left _)

/-- Asking for a wakeup changes nothing for those who have one. -/
theorem Notify.ready_notified (self task : Nat) :
    (notify.notified self).1.ready task = notify.ready task := by
  unfold Notify.notified
  split <;> rfl

/-- Giving up a seat changes nothing for the others. -/
theorem Notify.ready_withdraw {self task : Nat} (apart : task ≠ self) :
    (notify.withdraw self).ready task = notify.ready task := by
  rw [Bool.eq_iff_iff, Notify.ready_iff, Notify.ready_iff]
  simp only [Notify.withdraw, List.mem_erase_of_ne apart]

/-- After a wakeup for one task it is stored, or somebody has it. -/
theorem Notify.notifyOne_sent (notify : Notify) :
    notify.notifyOne.permit = true ∨ notify.notifyOne.woken ≠ [] := by
  -- With nobody in line the wakeup is stored.
  unfold Notify.notifyOne
  split
  · exact .inl rfl
  · exact .inr (by simp)

/-- The seats of the same tasks, said differently. -/
theorem Notify.Seats.congr {other : Nat → Prop} (seats : notify.Seats parked)
    (same : ∀ task, parked task ↔ other task) : notify.Seats other :=
  ⟨seats.nodup, fun task => (seats.mem_iff task).trans (same task), seats.idle⟩

end Concurrency
