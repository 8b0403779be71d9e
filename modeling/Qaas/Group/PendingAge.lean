import Mathlib.Data.List.MinMax
import Qaas.Group.Sound

/-! How long the oldest claimable message has waited, going by the time that its id was generated. -/

namespace Qaas

open Concurrency

variable {T V : Type}

/-- When an id was generated: the 48 bits that a UUID of version seven begins with. -/
def MessageId.timestamp (id : MessageId) : Timestamp :=
  ⟨UInt64.ofNat (id.uuid.toNat / 2 ^ 80)⟩

/-- The time since an id was generated, none if the clock says that it is still to come. -/
def MessageId.age (id : MessageId) (now : Timestamp) : Duration :=
  ((now.millis.toNat - id.timestamp.millis.toNat : ℕ) : ℚ) / 1000

/-- The age of the front message. -/
def ConsumerGroup.oldestPendingAge (group : ConsumerGroup T V) (now : Timestamp) : Option Duration :=
  group.state.pending.head?.map fun oldest => oldest.id.age now

/-- The age that is reported is the largest one of a pending message. -/
def ConsumerGroup.ReportsOldest (group : ConsumerGroup T V) (now : Timestamp) : Prop :=
  group.oldestPendingAge now = (group.state.pending.map fun entry => entry.id.age now).max?

/-- The first of two messages is not younger than the second. -/
def Pending.NotYounger (first second : Pending T V) : Prop :=
  first.id.timestamp.millis ≤ second.id.timestamp.millis

/-- What the next step of an operation adds to the pending messages. -/
def ConsumerGroup.pushes (group : ConsumerGroup T V) (now : Instant) : Pc T V → List (Pending T V)
  | .pushPending message _ => [.fresh message.id message.item message.idempotencyKey]
  | .claimNext => (group.state.delayed.filter fun entry => entry.availableAt ≤ now).map Delayed.pending
  | _ => []

/-- Messages that are added to the pending ones are in the order of their age, and none of them is older than
one that waits. -/
structure ConsumerGroup.TakesUp (group : ConsumerGroup T V) (added : List (Pending T V)) : Prop where
  inOrder : added.Pairwise Pending.NotYounger
  youngest : ∀ waiting ∈ group.state.pending, ∀ entry ∈ added, waiting.NotYounger entry

/-- A step adds messages to the pending ones in the order of their age only. -/
def World.PushesInOrder (world : World T V) : Action T V → Prop
  | .step i _ => ∀ task ∈ world.tasks[i]?,
    world.shared.group.TakesUp (world.shared.group.pushes world.shared.now task.pc)
  | .reopen order => (world.shared.group.reopened order).state.pending.Pairwise Pending.NotYounger
  | _ => True

instance : DecidableRel (Pending.NotYounger (T := T) (V := V)) := fun first second =>
  inferInstanceAs (Decidable (first.id.timestamp.millis ≤ second.id.timestamp.millis))

instance (group : ConsumerGroup T V) (added : List (Pending T V)) : Decidable (group.TakesUp added) :=
  decidable_of_iff (added.Pairwise Pending.NotYounger ∧
      ∀ waiting ∈ group.state.pending, ∀ entry ∈ added, waiting.NotYounger entry)
    ⟨fun both => ⟨both.1, both.2⟩, fun takesUp => ⟨takesUp.inOrder, takesUp.youngest⟩⟩

instance (world : World T V) (act : Action T V) : Decidable (world.PushesInOrder act) :=
  match act with
  | .step i _ => inferInstanceAs (Decidable (∀ task ∈ world.tasks[i]?,
      world.shared.group.TakesUp (world.shared.group.pushes world.shared.now task.pc)))
  | .reopen order => inferInstanceAs (Decidable
      ((world.shared.group.reopened order).state.pending.Pairwise Pending.NotYounger))
  | .call _ | .drop _ _ | .tick _ | .setWallClock _ => .isTrue trivial

/-- What is pending after a step was pending before it or is added by it, in that order. -/
theorem Moved.pending_sublist {now : Instant} {wallClock : Timestamp} {env : StepEnv}
    {group group' : ConsumerGroup T V} {pc next : Pc T V}
    (moved : Moved now wallClock env group pc group' next) :
    List.Sublist group'.state.pending (group.state.pending ++ group.pushes now pc) := by
  cases moved with
  | pushPending => exact List.Sublist.refl _
  | claimed front =>
    -- The front message is taken away, and the due retries come behind the others.
    have whole : group.state.pending ++ group.pushes now .claimNext = _ := front
    rw [whole]
    exact List.sublist_cons_self _ _
  | promoted => exact List.Sublist.refl _
  | _ => exact List.sublist_append_left _ _

/-- Messages in the order of their age have the oldest one in front. -/
theorem ConsumerGroup.reportsOldest_of_ordered {group : ConsumerGroup T V}
    (ordered : group.state.pending.Pairwise Pending.NotYounger) (now : Timestamp) : group.ReportsOldest now := by
  unfold ReportsOldest oldestPendingAge
  cases waiting : group.state.pending with
  | nil => rfl
  | cons oldest rest =>
    rw [waiting] at ordered
    obtain ⟨least, _⟩ := List.pairwise_cons.mp ordered
    refine (List.max?_eq_some_iff.mpr ⟨List.mem_cons_self, fun age member => ?_⟩).symm
    rcases List.mem_cons.mp member with rfl | later
    · exact le_refl _
    · obtain ⟨entry, among, rfl⟩ := List.mem_map.mp later
      have notYounger := UInt64.le_iff_toNat_le.mp (least entry among)
      -- The later an id was generated, the younger its message is.
      have ages : now.millis.toNat - entry.id.timestamp.millis.toNat ≤
          now.millis.toNat - oldest.id.timestamp.millis.toNat := by omega
      exact div_le_div_of_nonneg_right (Nat.cast_le.mpr ages) (by decide +kernel)

/-- If every step adds messages in the order of their age, they wait in that order. -/
theorem ordered_of_run {visibilityTimeout : Duration} {retryPolicy : RetryPolicy}
    {trace : List (Transition (World T V) (Action T V))} {world : World T V}
    (run : Run World.step World.PushesInOrder (World.start visibilityTimeout retryPolicy) trace world) :
    world.shared.group.state.pending.Pairwise Pending.NotYounger := by
  induction run with
  | nil => exact .nil
  | @snoc trace world next act _ inOrder taken ordered =>
    cases step_stepped taken with
    | call => exact ordered
    | @step i env task group pc found alive moved =>
      -- What the step adds comes behind what waits already.
      have takesUp := inOrder task found
      have both : (world.shared.group.state.pending ++
          world.shared.group.pushes world.shared.now task.pc).Pairwise Pending.NotYounger :=
        List.pairwise_append.mpr ⟨ordered, takesUp.inOrder, takesUp.youngest⟩
      exact both.sublist moved.pending_sublist
    | drop found alive dropped =>
      have memory := dropped.memory.1
      rw [← memory] at ordered
      exact ordered
    | tick => exact ordered
    | setWallClock => exact ordered
    | reopen => exact inOrder

/-- If every step adds messages to the pending ones in the order of their age, the age that is reported is the
largest one in every state. -/
theorem oldestPendingAge_reports {visibilityTimeout : Duration} {retryPolicy : RetryPolicy}
    {trace : List (Transition (World T V) (Action T V))} {world : World T V}
    (run : Run World.step World.PushesInOrder (World.start visibilityTimeout retryPolicy) trace world) :
    ∀ now, world.shared.group.ReportsOldest now :=
  fun now => ConsumerGroup.reportsOldest_of_ordered (ordered_of_run run) now

/-- An id that is generated at the given millisecond. -/
def idAt (millis : Nat) : MessageId :=
  ⟨BitVec.ofNat 128 (millis * 2 ^ 80 + 0x70008000000000000000)⟩

/-- Messages of three successive seconds. -/
def threeSeconds : List (Action Nat Nat) :=
  Action.run 0 (.enqueue ⟨idAt 1000, 10, none⟩) 3 ++ Action.run 1 (.enqueue ⟨idAt 2000, 20, none⟩) 3 ++
    Action.run 2 (.enqueue ⟨idAt 3000, 30, none⟩) 3

/-- The first of three messages is claimed and fails, and is behind the third when the second is claimed. -/
def retriedBehind : List (Action Nat Nat) :=
  threeSeconds ++ Action.run 3 .claim 3 ++ Action.run 4 (.nack (idAt 1000) ⟨0⟩ none) 3 ++
    [.pass 1] ++ Action.run 5 .claim 3 ++ [.setWallClock ⟨10000⟩]

/-- The third message is seven seconds old, and the first one, which waits behind it, nine. -/
theorem oldestPendingAge_front_only :
    ¬ ∀ (visibilityTimeout : Duration) (retryPolicy : RetryPolicy)
      (trace : List (Transition (World Nat Nat) (Action Nat Nat))) (world : World Nat Nat),
      Run World.step (fun _ _ => True) (World.start visibilityTimeout retryPolicy) trace world →
      world.shared.group.ReportsOldest world.shared.wallClock := by
  intro always
  have recorded : ∃ ran ∈ record World.step (World.start 30 .default) retriedBehind,
      ran.2.shared.group.oldestPendingAge ran.2.shared.wallClock = some 7 ∧
        (ran.2.shared.group.state.pending.map fun entry => entry.id.age ran.2.shared.wallClock) = [7, 9] := by
    decide +kernel
  obtain ⟨⟨trace, world⟩, ran, reported, ages⟩ := recorded
  have oldest := always 30 .default trace world (run_of_record .nil ran)
  unfold ConsumerGroup.ReportsOldest at oldest
  rw [reported, ages] at oldest
  revert oldest
  decide +kernel

/-- All three messages are claimed, and the first two fail one after the other. -/
def retriedInOrder : List (Action Nat Nat) :=
  threeSeconds ++ Action.run 3 .claim 3 ++ Action.run 4 .claim 3 ++ Action.run 5 .claim 3 ++
    Action.run 6 (.nack (idAt 1000) ⟨0⟩ none) 3 ++ Action.run 7 (.nack (idAt 2000) ⟨1⟩ none) 3 ++
    [.pass 1] ++ Action.run 8 .claim 3 ++ [.setWallClock ⟨10000⟩]

theorem oldestPendingAge_reports_retriedInOrder :
    ∃ ran ∈ record World.step (World.start 30 .default) retriedInOrder,
      ran.2.shared.group.oldestPendingAge ran.2.shared.wallClock = some 8 ∧
        ran.2.shared.group.ReportsOldest ran.2.shared.wallClock := by
  have recorded : ∃ ran ∈ record World.step (World.start 30 .default) retriedInOrder,
      (∀ e ∈ ran.1, World.PushesInOrder e.pre e.act) ∧
        ran.2.shared.group.oldestPendingAge ran.2.shared.wallClock = some 8 := by
    decide +kernel
  obtain ⟨⟨trace, world⟩, ran, inOrder, reported⟩ := recorded
  have run := ((run_of_record .nil ran).strengthen inOrder).mono fun _ _ both => both.2
  exact ⟨(trace, world), ran, reported, oldestPendingAge_reports run _⟩

end Qaas
