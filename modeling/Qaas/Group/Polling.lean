import Qaas.Concurrency.Cursor
import Qaas.Group.LeaseTokens
import Qaas.Group.Wakeups

/-! What a watcher gets to see that polls a message's stream again and again. -/

namespace Qaas

open Concurrency

variable {T V : Type}

/-- The chunk that a step appends to a stream, from where the step begins and ends. -/
def Pc.pushed : Pc T V → Pc T V → Option (MessageId × StreamChunk V)
  | .pushChunk id _ data isFinal, .notifyPublished sequence => some (id, ⟨sequence, data, isFinal⟩)
  | _, _ => none

/-- The chunks that a call gets, with its message and its cursor, from where the step begins and ends. -/
def Pc.answered : Pc T V → Pc T V → Option (MessageId × UInt64 × List (StreamChunk V))
  | .pollStream id after, .done (.polled (.chunks chunks)) => some (id, after, chunks)
  | _, _ => none

/-- What is read off the places at which an operation's step begins and ends. -/
def Transition.across {α : Type} (e : Transition (World T V) (Action T V))
    (read : Pc T V → Pc T V → Option α) : Option α :=
  match e.act with
  | .step i _ =>
    e.pre.tasks[i]?.bind fun before => e.post.tasks[i]?.bind fun after => read before.pc after.pc
  | _ => none

/-- How many times a message has been delivered. -/
def deliveries (trace : List (Transition (World T V) (Action T V))) (id : MessageId) : Nat :=
  tally (fun e => ((Transition.granted e).any fun claim => decide (claim.id = id)).toNat) trace

/-- What a step that may append a chunk adds to one message's stream. -/
def added (id : MessageId) (pushed : Option (MessageId × StreamChunk V)) : List (StreamChunk V) :=
  ((pushed.filter fun chunk => decide (chunk.1 = id)).map Prod.snd).toList

@[simp] theorem added_none (id : MessageId) :
    added id (none : Option (MessageId × StreamChunk V)) = [] := rfl

@[simp] theorem added_some (id other : MessageId) (chunk : StreamChunk V) :
    added id (some (other, chunk)) = if other = id then [chunk] else [] := by
  by_cases same : other = id <;> simp [added, Option.filter_some, same]

/-- The chunks that a message's last delivery has published. -/
def published (trace : List (Transition (World T V) (Action T V))) (id : MessageId) :
    List (StreamChunk V) :=
  trace.foldl (fun stream e =>
    if (Transition.granted e).any fun claim => decide (claim.id = id) then []
    else stream ++ added id (Transition.across e Pc.pushed)) []

/-- One answer that a watcher gets, and the step of the run at which it gets it. -/
structure Answer (V : Type) where
  step : Nat
  chunks : List (StreamChunk V)

/-- The highest sequence number that a watcher has received. -/
def received (answers : List (Answer V)) : Nat :=
  highest (fun chunk => chunk.sequence.toNat) (answers.flatMap Answer.chunks)

/-- What a watcher receives that calls `partial_results_since` again and again, from zero on. -/
inductive Watches (trace : List (Transition (World T V) (Action T V))) (id : MessageId) :
    List (Answer V) → Prop
  | nil : Watches trace id []
  | snoc {answers : List (Answer V)} {answer : Answer V} {cursor : UInt64} :
      Watches trace id answers → (∀ earlier ∈ answers, earlier.step < answer.step) →
      cursor.toNat = received answers →
      ((trace)[answer.step]?.bind fun e => Transition.across e Pc.answered) =
        some (id, cursor, answer.chunks) →
      Watches trace id (answers ++ [answer])

/-- The number of the delivery that was current when an answer was given. -/
def Answer.delivery (trace : List (Transition (World T V) (Action T V))) (id : MessageId)
    (answer : Answer V) : Nat :=
  deliveries (trace.take answer.step) id

/-- What a watcher has received from one delivery. -/
def handed (trace : List (Transition (World T V) (Action T V))) (id : MessageId)
    (answers : List (Answer V)) (n : Nat) : List (StreamChunk V) :=
  (answers.filter fun answer => answer.delivery trace id = n).flatMap Answer.chunks

/-- One more step is one more delivery, or none. -/
theorem deliveries_append (trace more : List (Transition (World T V) (Action T V))) (id : MessageId) :
    deliveries (trace ++ more) id = deliveries trace id + deliveries more id := by
  simp [deliveries]

/-- The chunks after one more step. -/
theorem published_snoc (trace : List (Transition (World T V) (Action T V)))
    (e : Transition (World T V) (Action T V)) (id : MessageId) :
    published (trace ++ [e]) id =
      if (Transition.granted e).any fun claim => decide (claim.id = id) then []
      else published trace id ++ added id (Transition.across e Pc.pushed) := by
  simp [published]

/-- While no delivery begins, chunks are only added. -/
theorem published_prefix (trace more : List (Transition (World T V) (Action T V))) {id : MessageId}
    (same : deliveries more id = 0) : published trace id <+: published (trace ++ more) id := by
  -- From the end of the continuation, which grants nothing of this message.
  induction more using List.reverseRecOn with
  | nil => simp
  | append_singleton more e ih =>
    rw [deliveries_append] at same
    have ungranted : ¬ (Transition.granted e).any fun claim => decide (claim.id = id) := by
      intro granted
      simp [deliveries, granted] at same
    rw [← List.append_assoc, published_snoc, if_neg ungranted]
    exact (ih (by omega)).trans (List.prefix_append _ _)

/-- A later moment has seen as many deliveries, and if no more, then all the chunks of the earlier one. -/
theorem deliveries_mono (trace : List (Transition (World T V) (Action T V))) (id : MessageId)
    {m n : Nat} (ordered : m ≤ n) :
    deliveries (trace.take m) id ≤ deliveries (trace.take n) id ∧
      (deliveries (trace.take m) id = deliveries (trace.take n) id →
        published (trace.take m) id <+: published (trace.take n) id) := by
  -- The shorter trace is a prefix of the longer one.
  obtain ⟨more, whole⟩ : ∃ more, trace.take n = trace.take m ++ more :=
    ⟨_, (List.prefix_iff_eq_append.mp (List.take_prefix_take_left ordered)).symm⟩
  rw [whole, deliveries_append]
  exact ⟨Nat.le_add_right _ _, fun same => published_prefix _ _ (by omega)⟩

/-- No stream has outgrown its vector, whose length is a 64-bit number. -/
def World.Fits (world : World T V) : Prop :=
  ∀ id lease, world.shared.group.state.leased.lookup id = some lease → lease.stream.length < 2 ^ 64

instance (world : World T V) : Decidable world.Fits :=
  decidable_of_iff (∀ id ∈ world.shared.group.state.leased.keys,
      ∀ lease ∈ world.shared.group.state.leased.lookup id, lease.stream.length < 2 ^ 64) <| by
    constructor
    · intro every id lease leased
      exact every id (Finmap.mem_keys.mpr (Finmap.mem_of_lookup_eq_some leased)) lease leased
    · intro every id _ lease leased
      exact every id lease leased

/-- A lease's stream starts out empty, and goes on with the chunks that are pushed. -/
theorem Moved.stream {now : Instant} {wallClock : Timestamp} {env : StepEnv}
    {group group' : ConsumerGroup T V} {pc next : Pc T V} {id : MessageId} {lease : Leased T V}
    (moved : Moved now wallClock env group pc group' next)
    (leased : group'.state.leased.lookup id = some lease) :
    (∃ claim, next = .notifyOne (.claimed claim) ∧ claim.id = id ∧ lease.stream = []) ∨
      (∀ claim, next = .notifyOne (.claimed claim) → claim.id ≠ id) ∧
        ∃ old, group.state.leased.lookup id = some old ∧
          lease.stream = old.stream ++ added id (Pc.pushed pc next) := by
  -- @published other|The chunk goes to the end of its own lease's stream.
  -- reclaim reclaims|A lease that is left was not among the expired ones.
  rcases moved.grants with ⟨entry, rest, _, _, granted, rfl⟩ | ⟨unclaimed, _⟩
  · rcases lookup_of_insert leased with ⟨rfl, rfl⟩ | ⟨other, before⟩
    · exact .inl ⟨_, granted, rfl, rfl⟩
    · -- A claim leases one message, and leaves the other leases as they are.
      refine .inr ⟨?_, lease, before, ?_⟩
      · intro claim same
        obtain rfl := Result.claimed.inj (Pc.notifyOne.inj (granted.symm.trans same))
        exact fun same => other same.symm
      · have silent : Pc.pushed pc next = none := by
          rw [granted]
          cases pc <;> rfl
        simp [silent]
  · refine .inr ⟨fun claim same => absurd same (unclaimed claim), ?_⟩
    cases moved with
    | claimed front => exact absurd rfl (unclaimed _)
    | reclaim reclaims =>
      simp only [ConsumerGroup.withState, lookup_foldl_erase] at leased
      split at leased
      · cases leased
      · exact ⟨lease, leased, by simp [Pc.pushed]⟩
    | acked active => exact ⟨lease, (lookup_of_erase leased).2, by simp [Pc.pushed]⟩
    | nacked active => exact ⟨lease, (lookup_of_erase leased).2, by simp [Pc.pushed]⟩
    | @checkpointStored other token state old active =>
      -- The message's lease is stored again, with the stream it had.
      rcases lookup_of_insert leased with ⟨rfl, rfl⟩ | ⟨_, before⟩
      · exact ⟨old, (Option.filter_eq_some_iff.mp active).1, by simp [Pc.pushed]⟩
      · exact ⟨lease, before, by simp [Pc.pushed]⟩
    | @published other token data isFinal old sequence active =>
      rcases lookup_of_insert leased with ⟨rfl, rfl⟩ | ⟨apart, before⟩
      · exact ⟨old, (Option.filter_eq_some_iff.mp active).1, by simp [Pc.pushed]⟩
      · exact ⟨lease, before, by simp [Pc.pushed, Ne.symm apart]⟩
    | quiet changed quiet =>
      have silent : Pc.pushed pc next = none := by cases quiet <;> rfl
      exact ⟨lease, leased, by simp [silent]⟩
    | _ => exact ⟨lease, leased, by simp [Pc.pushed]⟩

/-- A pushed chunk bears the number that comes after the stream's length. -/
theorem move_sequence {self : Nat} {now : Instant} {wallClock : Timestamp} {env : StepEnv}
    {group group' : ConsumerGroup T V} {pc next : Pc T V} {id : MessageId} {chunk : StreamChunk V}
    (moved : group.move self now wallClock env pc = some (group', next))
    (pushed : Pc.pushed pc next = some (id, chunk)) :
    ∃ old, group.state.leased.lookup id = some old ∧
      chunk.sequence = UInt64.ofNat old.stream.length + 1 := by
  cases pc with
  | pushChunk other token data isFinal =>
    simp only [ConsumerGroup.move, ConsumerGroup.pushChunk] at moved
    split at moved
    · -- The chunk takes the number after the last one of the lease's stream.
      rename_i old active
      cases moved
      cases pushed
      exact ⟨old, (Option.filter_eq_some_iff.mp active).1, rfl⟩
    · cases moved
      cases pushed
  | _ => cases pushed

/-- An answer of chunks is the part of the lease's stream that lies behind the cursor, and never empty. -/
theorem move_answered {self : Nat} {now : Instant} {wallClock : Timestamp} {env : StepEnv}
    {group group' : ConsumerGroup T V} {pc next : Pc T V} {id : MessageId} {cursor : UInt64}
    {chunks : List (StreamChunk V)}
    (moved : group.move self now wallClock env pc = some (group', next))
    (answered : Pc.answered pc next = some (id, cursor, chunks)) :
    ∃ lease, group.state.leased.lookup id = some lease ∧
      chunks = (lease.stream.filter fun chunk => decide (cursor < chunk.sequence)) ∧ chunks ≠ [] := by
  cases pc with
  | pollStream other after =>
    obtain ⟨rfl, rfl⟩ := Prod.mk.inj (Option.some.inj moved)
    unfold ConsumerGroup.pollStream at answered
    -- No lease and an empty answer both send the watcher on to wait.
    split at answered
    · cases answered
    · rename_i lease found
      split at answered
      · cases answered
      · rename_i chunks nonempty
        cases answered
        exact ⟨lease, found, rfl, nonempty⟩
  | _ => cases answered

/-- What an operation's step reads off the places at which it begins and ends. -/
theorem across_step {α : Type} {world : World T V} {i : Nat} {env : StepEnv} {task : Task T V}
    {shared : Runtime T V} {next : Pc T V} (read : Pc T V → Pc T V → Option α)
    (found : world.tasks[i]? = some task) :
    Transition.across ⟨world, .step i env, ⟨shared, world.tasks.set i { task with pc := next }⟩⟩ read =
      read task.pc next := by
  have bound := (List.getElem?_eq_some_iff.mp found).1
  simp [Transition.across, found, List.getElem?_set_self bound]

/-- The number of a pushed chunk does not wrap around in a stream that fits. -/
theorem sequence_toNat {length : Nat} (small : length + 1 < 2 ^ 64) :
    (UInt64.ofNat length + 1).toNat = length + 1 := by
  rw [UInt64.toNat_add, UInt64.toNat_ofNat', UInt64.toNat_one]
  omega

/-- A lease's stream is what its message's last delivery has published, numbered from one on. -/
theorem stream_of_run {visibilityTimeout : Duration} {retryPolicy : RetryPolicy}
    {trace : List (Transition (World T V) (Action T V))} {world : World T V}
    (run : Run World.step (fun _ _ => True) (World.start visibilityTimeout retryPolicy) trace world)
    (fits : ∀ e ∈ trace, e.post.Fits) {id : MessageId} {lease : Leased T V}
    (leased : world.shared.group.state.leased.lookup id = some lease) :
    lease.stream = published trace id ∧
      Numbered (fun chunk : StreamChunk V => chunk.sequence.toNat) lease.stream := by
  -- Along the run, with the bound on stream lengths that `Vec` has.
  induction run generalizing lease with
  | nil => cases leased
  | @snoc trace world next act _ _ taken ih =>
    have earlier := fun e member => fits e (List.mem_append_left _ member)
    have small := fits ⟨world, act, next⟩ (by simp) id lease leased
    -- A step that neither delivers the message nor publishes for it leaves its stream.
    have kept : world.shared.group.state.leased.lookup id = some lease →
        Transition.granted ⟨world, act, next⟩ = none →
        Transition.across ⟨world, act, next⟩ (Pc.pushed (T := T) (V := V)) = none →
        lease.stream = published (trace ++ [⟨world, act, next⟩]) id ∧
          Numbered (fun chunk : StreamChunk V => chunk.sequence.toNat) lease.stream := by
      intro before ungranted silent
      obtain ⟨same, numbered⟩ := ih earlier before
      rw [published_snoc, ungranted, silent]
      exact ⟨by simp [same], numbered⟩
    cases act with
    | step i env =>
      obtain ⟨task, group, after, found, alive, moved, rfl⟩ := step_advanced taken
      rw [published_snoc, across_step _ found]
      rcases (move_moved moved).stream leased with ⟨claim, granted, rfl, empty⟩ | ⟨others, old, before, whole⟩
      · -- A new delivery's stream is empty.
        rw [(granted_iff found).mpr granted, empty]
        exact ⟨by simp, .nil⟩
      · -- The stream goes on, by the chunk that this step pushes or not at all.
        have ungranted : ¬ (Transition.granted ⟨world, .step i env,
            ⟨{ world.shared with group := group },
              world.tasks.set i { task with pc := after }⟩⟩).any fun claim => decide (claim.id = id) := by
          intro granted
          obtain ⟨claim, delivered, about⟩ := (Option.any_eq_true _ _).mp granted
          exact others claim ((granted_iff found).mp delivered) (by simpa using about)
        obtain ⟨same, numbered⟩ := ih earlier before
        rw [if_neg ungranted, whole, same]
        refine ⟨rfl, ?_⟩
        cases pushed : Pc.pushed task.pc after with
        | none => simpa [same] using numbered
        | some push =>
          obtain ⟨other, chunk⟩ := push
          rw [added_some]
          by_cases own : other = id
          · -- The pushed chunk bears the next number.
            subst own
            obtain ⟨again, there, sequence⟩ := move_sequence moved pushed
            obtain rfl := Option.some.inj (before.symm.trans there)
            rw [if_pos rfl, ← same]
            rw [whole, pushed, added_some, if_pos rfl, List.length_append, List.length_singleton] at small
            apply numbered.snoc
            rw [sequence, sequence_toNat small]
          · simpa [own, same] using numbered
    | call call =>
      cases step_stepped taken with
      | call fresh => exact kept leased rfl rfl
    | drop i wrote =>
      cases step_stepped taken with
      | drop found alive dropped =>
        -- A dropped operation changes no lease.
        rw [dropped.memory.1] at leased
        exact kept leased rfl rfl
    | tick elapsed => cases taken; exact kept leased rfl rfl
    | setWallClock wallClock => cases taken; exact kept leased rfl rfl
    | reopen order =>
      cases step_stepped taken with
      | reopen iterates => cases leased

/-- An answer is the part of the current delivery's chunks behind the cursor, and never empty. -/
theorem answer_of_run {visibilityTimeout : Duration} {retryPolicy : RetryPolicy}
    {trace : List (Transition (World T V) (Action T V))} {world : World T V}
    (run : Run World.step (fun _ _ => True) (World.start visibilityTimeout retryPolicy) trace world)
    (fits : ∀ e ∈ trace, e.post.Fits) {n : Nat} {id : MessageId} {cursor : UInt64}
    {chunks : List (StreamChunk V)}
    (answered : ((trace)[n]?.bind fun e => Transition.across e Pc.answered) = some (id, cursor, chunks)) :
    chunks = (published (trace.take n) id).drop cursor.toNat ∧ chunks ≠ [] ∧
      Numbered (fun chunk : StreamChunk V => chunk.sequence.toNat) (published (trace.take n) id) := by
  obtain ⟨⟨pre, act, post⟩, there, answered⟩ := Option.bind_eq_some_iff.mp answered
  obtain ⟨reached, taken⟩ := run.take there
  -- Only a task's own step can answer it.
  cases act with
  | step i env =>
    have stepped : pre.step (.step i env) = some post := taken
    obtain ⟨task, group, next, found, alive, moved, rfl⟩ := step_advanced stepped
    rw [across_step _ found] at answered
    obtain ⟨lease, leased, part, nonempty⟩ := move_answered moved answered
    obtain ⟨whole, numbered⟩ :=
      stream_of_run reached (fun e member => fits e (List.mem_of_mem_take member)) leased
    rw [whole] at part numbered
    simp only [UInt64.lt_iff_toNat_lt] at part
    -- Chunks are numbered from one on, so those past the cursor are a suffix.
    exact ⟨part.trans (numbered.filter_eq_drop cursor.toNat), nonempty, numbered⟩
  | _ => cases answered

/-- The cursor after an answer is the number of chunks that the delivery had published by then. -/
theorem received_snoc {answers : List (Answer V)} {answer : Answer V} {stream : List (StreamChunk V)}
    (numbered : Numbered (fun chunk : StreamChunk V => chunk.sequence.toNat) stream)
    (part : answer.chunks = stream.drop (received answers)) (nonempty : answer.chunks ≠ []) :
    received answers < stream.length ∧ received (answers ++ [answer]) = stream.length := by
  have within : received answers < stream.length := by
    have left := List.length_pos_of_ne_nil nonempty
    rw [part, List.length_drop] at left
    omega
  refine ⟨within, ?_⟩
  -- The answer ends with the last chunk of the stream.
  have last := numbered.highest_drop within
  rw [received, List.flatMap_append, highest_append, List.flatMap_singleton, part, last]
  exact max_eq_right within.le

/-- One more answer adds to what there is from its own delivery. -/
theorem handed_snoc (trace : List (Transition (World T V) (Action T V))) (id : MessageId)
    (answers : List (Answer V)) (answer : Answer V) (n : Nat) :
    handed trace id (answers ++ [answer]) n =
      handed trace id answers n ++ if answer.delivery trace id = n then answer.chunks else [] := by
  -- The answer counts for the delivery that it was given in.
  by_cases current : answer.delivery trace id = n
  · simp only [handed, List.filter_append, List.flatMap_append, List.filter_singleton, current]
    simp
  · simp only [handed, List.filter_append, List.flatMap_append, if_neg current]
    simp [current]

/-- What a watcher has from a delivery is all of it up to the cursor, but for a part at its beginning. -/
theorem handed_of_watches {visibilityTimeout : Duration} {retryPolicy : RetryPolicy}
    {trace : List (Transition (World T V) (Action T V))} {world : World T V}
    (run : Run World.step (fun _ _ => True) (World.start visibilityTimeout retryPolicy) trace world)
    (fits : ∀ e ∈ trace, e.post.Fits) {id : MessageId} {answers : List (Answer V)}
    (watches : Watches trace id answers) {n : Nat} (before : ∀ answer ∈ answers, answer.step < n) :
    ∃ missed, missed ≤ received answers ∧
      handed trace id answers (deliveries (trace.take n) id) =
        ((published (trace.take n) id).take (received answers)).drop missed ∧
      (missed = 0 ↔ ∀ answer ∈ answers, answer.delivery trace id = deliveries (trace.take n) id) := by
  -- Along the answers; `missed` counts the chunks of the current delivery that the cursor skipped.
  induction watches generalizing n with
  | nil => exact ⟨0, Nat.zero_le _, by simp [handed, received, highest], by simp⟩
  | @snoc answers answer cursor earlier ordered same answered ih =>
    obtain ⟨missed, below, got, whole⟩ := ih ordered
    obtain ⟨part, nonempty, numbered⟩ := answer_of_run run fits answered
    rw [same] at part
    obtain ⟨within, total⟩ := received_snoc numbered part nonempty
    have sooner := before answer (by simp)
    obtain ⟨mono, grown⟩ := deliveries_mono trace id sooner.le
    by_cases current : answer.delivery trace id = deliveries (trace.take n) id
    · -- No delivery has begun since the answer, which joins what came before it.
      obtain ⟨more, longer⟩ := grown current
      refine ⟨missed, by omega, ?_, ?_⟩
      · have joined := take_drop_append_drop below within.le
        rw [← part, ← got] at joined
        rw [handed_snoc, if_pos current, ← longer, total, List.take_left, ← joined, ← current]
        rfl
      · rw [whole, ← current]
        simp only [List.mem_append, List.mem_singleton, or_imp, forall_and, forall_eq, and_true]
        rfl
    · -- The delivery is a new one, of which the watcher has nothing yet.
      refine ⟨received (answers ++ [answer]), le_rfl, ?_, ?_⟩
      · have nothing : handed trace id (answers ++ [answer]) (deliveries (trace.take n) id) = [] := by
          rw [handed_snoc, if_neg current, List.append_nil, handed, List.filter_eq_nil_iff.mpr]
          · rfl
          · -- All its answers come from deliveries before the new one.
            intro other member
            have older := (deliveries_mono trace id (ordered other member).le).1
            have apart : other.delivery trace id ≠ deliveries (trace.take n) id := by
              unfold Answer.delivery at current ⊢
              omega
            simpa using apart
        rw [nothing, List.drop_take_self]
      · rw [total]
        constructor
        · intro none
          omega
        · intro same
          exact absurd (same answer (by simp)) current

/--
A watcher has all chunks of the current delivery once, in order, exactly if it has none of another one.

The cursor of a watcher is the highest number that it has received, from whichever delivery. Each
delivery numbers its chunks from one on.
-/
theorem poll_complete {visibilityTimeout : Duration} {retryPolicy : RetryPolicy}
    {trace : List (Transition (World T V) (Action T V))} {world : World T V}
    (run : Run World.step (fun _ _ => True) (World.start visibilityTimeout retryPolicy) trace world)
    (fits : ∀ e ∈ trace, e.post.Fits) {id : MessageId} {answers : List (Answer V)} {answer : Answer V}
    (watches : Watches trace id (answers ++ [answer])) :
    handed trace id (answers ++ [answer]) (answer.delivery trace id) =
        published (trace.take answer.step) id ↔
      ∀ earlier ∈ answers, earlier.delivery trace id = answer.delivery trace id := by
  generalize shape : answers ++ [answer] = both at watches
  cases watches with
  | nil => simp at shape
  | @snoc earlier last cursor before ordered same answered =>
    obtain ⟨rfl, alike⟩ := List.append_inj' shape rfl
    obtain rfl := List.singleton_inj.mp alike
    obtain ⟨part, nonempty, numbered⟩ := answer_of_run run fits answered
    rw [same] at part
    obtain ⟨within, _⟩ := received_snoc numbered part nonempty
    -- What the watcher missed at the beginning of the delivery it never gets.
    obtain ⟨missed, below, got, whole⟩ := handed_of_watches run fits before ordered
    have joined : handed trace id (answers ++ [answer]) (answer.delivery trace id) =
        (published (trace.take answer.step) id).drop missed := by
      rw [handed_snoc, if_pos rfl, part, Answer.delivery, got]
      exact take_drop_append_drop below within.le
    rw [joined, drop_eq_self_iff (by omega), whole]
    rfl

/-- Two chunks are published in one delivery, and each is polled for. -/
def polledOnce : List (Action Nat Nat) :=
  Action.run 0 (.enqueue ⟨⟨0⟩, 10, none⟩) 3 ++ Action.run 1 .claim 3 ++
    Action.run 2 (.publishPartialResult ⟨0⟩ ⟨0⟩ 7 false) 2 ++
    Action.run 3 (.partialResultsSince ⟨0⟩ 0) 1 ++
    Action.run 4 (.publishPartialResult ⟨0⟩ ⟨0⟩ 8 true) 2 ++
    Action.run 5 (.partialResultsSince ⟨0⟩ 1) 1

set_option synthInstance.maxSize 256 in
/-- The watcher gets the two chunks one after the other. -/
theorem poll_complete_once : ∃ (trace : List (Transition (World Nat Nat) (Action Nat Nat)))
    (world : World Nat Nat) (answers : List (Answer Nat)) (answer : Answer Nat),
    Run World.step (fun _ _ => True) (World.start 30 .default) trace world ∧
      Watches trace ⟨0⟩ (answers ++ [answer]) ∧ answers ≠ [] ∧
      handed trace ⟨0⟩ (answers ++ [answer]) (answer.delivery trace ⟨0⟩) =
        published (trace.take answer.step) ⟨0⟩ := by
  -- Two chunks of one delivery, each polled after it was published.
  have recorded : ∃ ran ∈ record World.step (World.start 30 .default) polledOnce,
      ((ran.1)[12]?.bind fun e => Transition.across e Pc.answered) =
        some (⟨0⟩, 0, [⟨1, 7, false⟩]) ∧
      ((ran.1)[17]?.bind fun e => Transition.across e Pc.answered) =
        some (⟨0⟩, 1, [⟨2, 8, true⟩]) ∧
      (∀ e ∈ ran.1, e.post.Fits) ∧ deliveries (ran.1.take 12) ⟨0⟩ = 1 ∧
        deliveries (ran.1.take 17) ⟨0⟩ = 1 := by
    decide +kernel
  obtain ⟨⟨trace, world⟩, ran, first, second, fits, before, now⟩ := recorded
  have one : Watches trace ⟨0⟩ ([] ++ [⟨12, [⟨1, 7, false⟩]⟩]) := .snoc .nil (by simp) rfl first
  have two : Watches trace ⟨0⟩ ([⟨12, [⟨1, 7, false⟩]⟩] ++ [⟨17, [⟨2, 8, true⟩]⟩]) :=
    .snoc one (by simp) rfl second
  have run : Run World.step (fun _ _ => True) (World.start 30 .default) trace world :=
    run_of_record .nil ran
  refine ⟨trace, world, _, _, run, two, by simp, (poll_complete run fits two).mpr ?_⟩
  intro earlier member
  obtain rfl := List.mem_singleton.mp member
  exact before.trans now.symm

/-- A chunk is polled for, and the delivery fails; the next one publishes two chunks. -/
def polledAcross : List (Action Nat Nat) :=
  Action.run 0 (.enqueue ⟨⟨0⟩, 10, none⟩) 3 ++ Action.run 1 .claim 3 ++
    Action.run 2 (.publishPartialResult ⟨0⟩ ⟨0⟩ 7 false) 2 ++
    Action.run 3 (.partialResultsSince ⟨0⟩ 0) 1 ++ Action.run 4 (.nack ⟨0⟩ ⟨0⟩ none) 3 ++
    [.pass 60] ++ Action.run 5 .claim 3 ++
    Action.run 6 (.publishPartialResult ⟨0⟩ ⟨1⟩ 8 false) 2 ++
    Action.run 7 (.publishPartialResult ⟨0⟩ ⟨1⟩ 9 true) 2 ++
    Action.run 8 (.partialResultsSince ⟨0⟩ 1) 1

set_option synthInstance.maxSize 256 in
/-- The watcher gets the second chunk of the second delivery, and never the first. -/
theorem chunk_missed : ∃ (trace : List (Transition (World Nat Nat) (Action Nat Nat)))
    (world : World Nat Nat) (answers : List (Answer Nat)) (answer : Answer Nat),
    Run World.step (fun _ _ => True) (World.start 30 .default) trace world ∧
      Watches trace ⟨0⟩ (answers ++ [answer]) ∧
      handed trace ⟨0⟩ (answers ++ [answer]) (answer.delivery trace ⟨0⟩) = [⟨2, 9, true⟩] ∧
      published (trace.take answer.step) ⟨0⟩ = [⟨1, 8, false⟩, ⟨2, 9, true⟩] := by
  -- The cursor of the first delivery hides the first chunk of the second.
  have recorded : ∃ ran ∈ record World.step (World.start 30 .default) polledAcross,
      ((ran.1)[12]?.bind fun e => Transition.across e Pc.answered) =
        some (⟨0⟩, 0, [⟨1, 7, false⟩]) ∧
      ((ran.1)[29]?.bind fun e => Transition.across e Pc.answered) =
        some (⟨0⟩, 1, [⟨2, 9, true⟩]) ∧
      handed ran.1 ⟨0⟩ [⟨12, [⟨1, 7, false⟩]⟩, ⟨29, [⟨2, 9, true⟩]⟩] (deliveries (ran.1.take 29) ⟨0⟩) =
        [⟨2, 9, true⟩] ∧
      published (ran.1.take 29) ⟨0⟩ = [⟨1, 8, false⟩, ⟨2, 9, true⟩] := by
    decide +kernel
  obtain ⟨⟨trace, world⟩, ran, first, second, got, there⟩ := recorded
  have one : Watches trace ⟨0⟩ ([] ++ [⟨12, [⟨1, 7, false⟩]⟩]) := .snoc .nil (by simp) rfl first
  exact ⟨trace, world, [⟨12, [⟨1, 7, false⟩]⟩], ⟨29, [⟨2, 9, true⟩]⟩, run_of_record .nil ran,
    .snoc one (by simp) rfl second, got, there⟩

end Qaas
