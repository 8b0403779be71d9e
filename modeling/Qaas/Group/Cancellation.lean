import Qaas.Group.Copies

/-! What dropping a `claim` leaves of the messages that were in the group before it. -/

namespace Qaas

open Concurrency

variable {T V : Type}

/-- A message is in the four structures, or in an operation's hands, exactly if they count a copy of it. -/
theorem houses_or_held {group : ConsumerGroup T V} {pc : Pc T V} {id : MessageId} :
    group.Houses id ∨ id ∈ pc.held ↔ 0 < group.copies id + pc.held.count id := by
  rw [houses_iff, ← List.count_pos_iff, ConsumerGroup.copies]
  omega

/-- Dropping a future takes no message out of memory, and puts none in. -/
theorem Dropped.houses {now : Instant} {wallClock : Timestamp} {wrote : AppendOutcome}
    {group group' : ConsumerGroup T V} {pc next : Pc T V} {id : MessageId}
    (dropped : Dropped now wallClock wrote group pc group' next) :
    group'.Houses id ↔ group.Houses id := by
  obtain ⟨state, entries, _⟩ := dropped.memory
  rw [ConsumerGroup.Houses, state, entries]
  exact Iff.rfl

/-- A `claim` lets no message go while its writes succeed, and reserves and releases no key. -/
theorem Pc.serves_claim {pc : Pc T V} (serves : pc.serves .claim) (group : ConsumerGroup T V) :
    pc.goes group .ok = [] ∧ pc.keeping = pc.held ∧ ∀ message key, pc ≠ .reserve message key := by
  -- The program points that no claim passes through are ruled out by the call.
  cases pc with
  | reserve message key => cases serves.1
  | releaseAcked id token => cases serves
  | releaseKey id key result =>
    rcases serves with ⟨message, caller, serves, _⟩ | ⟨purge, _⟩
    · cases caller <;> cases serves
    · cases purge
  | appendEnqueue message caller | appendRemove deadLetter caller => cases caller <;> cases serves
  | resolve failed caller => exact ⟨by simp [Pc.goes], rfl, by simp⟩
  | _ => exact ⟨rfl, rfl, by simp⟩

/--
While a task runs, others may do anything but take one message out of the group.

The task's own writes succeed, and the process lives on.
-/
def Meanwhile (i : Nat) (id : MessageId) (world : World T V) : Action T V → Prop
  | .step j env =>
    if j = i then env.outcome = .ok
    else ∀ next ∈ world.step (.step j env),
      world.shared.group.Houses id → next.shared.group.Houses id
  | .drop j _ => j ≠ i
  | .reopen _ => False
  | .call _ | .tick _ | .setWallClock _ => True

instance (i : Nat) (id : MessageId) (world : World T V) (act : Action T V) :
    Decidable (Meanwhile i id world act) :=
  match act with
  | .step j env => inferInstanceAs (Decidable (if j = i then env.outcome = .ok
      else ∀ next ∈ world.step (.step j env),
        world.shared.group.Houses id → next.shared.group.Houses id))
  | .drop j _ => inferInstanceAs (Decidable (j ≠ i))
  | .reopen _ => inferInstanceAs (Decidable False)
  | .call _ | .tick _ | .setWallClock _ => inferInstanceAs (Decidable True)

/-- The invariant of a claim that runs: the message is in the group, or in the claim's hands. -/
structure Kept (i : Nat) (id : MessageId) (world : World T V) : Prop where
  claims : ∃ task, world.tasks[i]? = some task ∧ task.call = .claim
  kept : world.shared.group.Houses id ∨
    ∃ task, world.tasks[i]? = some task ∧ id ∈ task.pc.held

/-- Whatever happens meanwhile keeps the message in the group, or in the claim's hands. -/
theorem Kept.step {world world' : World T V} {act : Action T V} {i : Nat} {id : MessageId}
    (kept : Kept i id world) (sound : Sound world) (meanwhile : Meanwhile i id world act)
    (taken : world.step act = some world') : Kept i id world' := by
  obtain ⟨⟨task, found, claims⟩, there⟩ := kept
  have bound := (List.getElem?_eq_some_iff.mp found).1
  -- The message is in the group or in the hands of this very claim.
  replace there : world.shared.group.Houses id ∨ id ∈ task.pc.held := by
    refine there.imp_right ?_
    rintro ⟨other, here, holds⟩
    rw [found] at here
    exact Option.some.inj here ▸ holds
  cases step_stepped taken with
  | @call call fresh =>
    have still : (world.tasks ++ [⟨call, call.entry, false⟩])[i]? = some task := by
      rw [List.getElem?_append_left bound, found]
    exact ⟨⟨task, still, claims⟩, there.imp_right fun holds => ⟨task, still, holds⟩⟩
  | @step j env other group next here alive moved =>
    by_cases own : j = i
    · -- The claim's own step lets no message go.
      subst own
      rw [found] at here
      obtain rfl := Option.some.inj here
      have serves := sound.serves task (List.mem_of_getElem? found)
      rw [claims] at serves
      obtain ⟨stays, hands, unreserved⟩ := Pc.serves_claim serves world.shared.group
      have serves' := moved.serves sound.sourced serves
      obtain ⟨_, hands', _⟩ := Pc.serves_claim serves' group
      have clean : env.outcome = .ok := by simpa [Meanwhile] using meanwhile
      have still : (world.tasks.set j { task with pc := next })[j]? = some { task with pc := next } :=
        List.getElem?_set_self bound
      have left := (moved.copies sound.sourced.toHoused unreserved id).2
      rw [clean, stays, hands, hands', List.count_nil] at left
      have after := left (houses_or_held.mp there)
      exact ⟨⟨_, still, claims⟩, (houses_or_held.mpr after).imp_right fun holds => ⟨_, still, holds⟩⟩
    · -- The steps of the others keep the message by assumption.
      have still : (world.tasks.set j { other with pc := next })[i]? = some task := by
        rw [List.getElem?_set_ne own, found]
      simp only [Meanwhile, if_neg own] at meanwhile
      exact ⟨⟨task, still, claims⟩,
        there.imp (meanwhile _ taken) fun holds => ⟨task, still, holds⟩⟩
  | @drop j wrote other group next here alive dropped =>
    have still : (world.tasks.set j { other with pc := next, cancelled := true })[i]? = some task := by
      rw [List.getElem?_set_ne meanwhile, found]
    exact ⟨⟨task, still, claims⟩,
      there.imp dropped.houses.mpr fun holds => ⟨task, still, holds⟩⟩
  | tick => exact ⟨⟨task, found, claims⟩, there.imp_right fun holds => ⟨task, found, holds⟩⟩
  | setWallClock => exact ⟨⟨task, found, claims⟩, there.imp_right fun holds => ⟨task, found, holds⟩⟩
  | reopen iterates => exact meanwhile.elim

/--
A cancelled claim loses a message exactly if it has taken it out and not put it back yet.

The claim may be dropped at any await, and other operations may run before that.
-/
theorem cancelled_claim_keeps {visibilityTimeout : Duration} {retryPolicy : RetryPolicy}
    {ok : World T V → Action T V → Prop} {world called waiting cancelled : World T V}
    {id : MessageId} {wrote : AppendOutcome}
    (reached : Reachable World.step ok (World.start visibilityTimeout retryPolicy) world)
    (calls : world.step (.call .claim) = some called)
    (waits : Reachable World.step (Meanwhile world.tasks.length id) called waiting)
    (drops : waiting.step (.drop world.tasks.length wrote) = some cancelled)
    (there : world.shared.group.Houses id) :
    cancelled.shared.group.Houses id ↔
      ∀ task, waiting.tasks[world.tasks.length]? = some task → id ∈ task.pc.held →
        waiting.shared.group.Houses id := by
  obtain ⟨_, run⟩ := reached
  obtain ⟨_, meanwhile⟩ := waits
  have sound := sound_of_run run
  have start : Kept world.tasks.length id called := by
    cases step_stepped calls with
    | call fresh => exact ⟨⟨_, List.getElem?_concat_length, rfl⟩, .inl there⟩
  have both : Sound waiting ∧ Kept world.tasks.length id waiting := by
    apply meanwhile.invariant ⟨sound.step (step_stepped calls), start⟩
    intro between act next allowed ⟨sound, kept⟩ taken
    exact ⟨sound.step (step_stepped taken), kept.step sound allowed taken⟩
  -- The drop leaves the memory as it is, so what is lost is what is in the claim's hands only.
  have same : cancelled.shared.group.Houses id ↔ waiting.shared.group.Houses id := by
    cases step_stepped drops with
    | drop found alive dropped => exact dropped.houses
  rw [same]
  constructor
  · intro houses _ _ _
    exact houses
  · intro covered
    rcases both.2.kept with houses | ⟨task, found, holds⟩
    · exact houses
    · exact covered task found holds

/-- A message is enqueued and claimed, and its lease times out. -/
def expiring : List (Action Nat Nat) :=
  Action.run 0 (.enqueue ⟨⟨0⟩, 10, none⟩) 3 ++ Action.run 1 .claim 3 ++ [.pass 60]

/-- A claim that is cancelled after it has scheduled the retry of the expired delivery keeps the message. -/
theorem cancelled_claim_keeps_retried : ∃ world called waiting cancelled : World Nat Nat,
    world.shared.group.Houses ⟨0⟩ ∧ world.step (.call .claim) = some called ∧
      Reachable World.step (Meanwhile world.tasks.length ⟨0⟩) called waiting ∧
      waiting.step (.drop world.tasks.length .failedEmpty) = some cancelled ∧
      cancelled.shared.group.Houses ⟨0⟩ := by
  have reachable : ∃ world : World Nat Nat, Reachable World.step (fun _ _ => True)
      (World.start 30 .default) world ∧ world.shared.group.Houses ⟨0⟩ ∧
      ∃ called ∈ world.step (.call .claim),
        ∃ waiting ∈ exec World.step (Meanwhile world.tasks.length ⟨0⟩) called
            [.step 2 { order := [⟨0⟩] }, .step 2 {}, .step 2 {}],
          (waiting.step (.drop world.tasks.length .failedEmpty)).isSome ∧
            ∀ task ∈ waiting.tasks[world.tasks.length]?, ⟨0⟩ ∉ task.pc.held :=
    reaches_of_exec expiring _ (by decide +kernel)
  obtain ⟨world, reached, there, called, calls, waiting, ran, drops, restored⟩ := reachable
  obtain ⟨cancelled, drops⟩ := Option.isSome_iff_exists.mp drops
  -- The expired delivery is back among the delayed ones by the time the claim is dropped.
  have waits := reachable_of_exec ⟨[], .nil⟩ ran
  refine ⟨world, called, waiting, cancelled, there, calls, waits, drops, ?_⟩
  apply (cancelled_claim_keeps reached calls waits drops there).mpr
  intro task found holds
  exact absurd holds (restored task found)

/-- A claim that is cancelled right after it has taken the expired delivery out loses the message. -/
theorem cancelled_claim_loses : ∃ world called waiting cancelled : World Nat Nat,
    Reachable World.step (fun _ _ => True) (World.start 30 .default) world ∧
      world.shared.group.Houses ⟨0⟩ ∧ world.step (.call .claim) = some called ∧
      Reachable World.step (Meanwhile world.tasks.length ⟨0⟩) called waiting ∧
      waiting.step (.drop world.tasks.length .failedEmpty) = some cancelled ∧
      ¬ cancelled.shared.group.Houses ⟨0⟩ := by
  -- The claim is dropped while the expired lease is in its hands.
  have reachable : ∃ world : World Nat Nat, Reachable World.step (fun _ _ => True)
      (World.start 30 .default) world ∧ world.shared.group.Houses ⟨0⟩ ∧
      ∃ called ∈ world.step (.call .claim),
        ∃ waiting ∈ exec World.step (Meanwhile world.tasks.length ⟨0⟩) called
            [.step 2 { order := [⟨0⟩] }],
          ∃ cancelled ∈ waiting.step (.drop world.tasks.length .failedEmpty),
            ¬ cancelled.shared.group.Houses ⟨0⟩ :=
    reaches_of_exec expiring _ (by decide +kernel)
  obtain ⟨world, reached, there, called, calls, waiting, ran, cancelled, drops, lost⟩ := reachable
  exact ⟨world, called, waiting, cancelled, reached, there, calls,
    reachable_of_exec ⟨[], .nil⟩ ran, drops, lost⟩

end Qaas
