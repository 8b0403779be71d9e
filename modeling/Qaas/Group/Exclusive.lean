import Qaas.Group.Copies
import Qaas.Group.LeaseTokens

/-! Exclusive delivery in the life of one process, whatever fails and whoever is cancelled. -/

namespace Qaas

open Concurrency

variable {T V : Type}

/-- Any action within the life of one process. -/
def InProcess (_ : World T V) (act : Action T V) : Prop :=
  ∀ order, act ≠ .reopen order

instance (world : World T V) (act : Action T V) : Decidable (InProcess world act) :=
  match act with
  | .reopen _ => .isFalse fun within => within _ rfl
  | .step _ _ | .drop _ _ | .call _ | .tick _ | .setWallClock _ => .isTrue nofun

/-- How often a message is in the group, or in the hands of a running operation. -/
def World.present (world : World T V) (id : MessageId) : Nat :=
  world.shared.group.copies id + world.inHands Pc.held id

/-- Whatever is present is an issued message. -/
theorem Sound.issued_of_present {world : World T V} (sound : Sound world) {id : MessageId}
    (present : 0 < world.present id) : ∃ message, world.Issued message ∧ message.id = id := by
  -- A copy is in the group's own structures or in somebody's hands.
  by_cases housed : 0 < world.shared.group.copies id
  · exact sound.sourced.issued_of_houses (houses_iff.mpr housed)
  · -- Otherwise some running operation has it in its hands.
    have inHands : 0 < tally (Task.inHands Pc.held id) world.tasks := by
      simp only [World.present, World.inHands] at present
      omega
    obtain ⟨task, member, among⟩ := exists_of_inHands inHands
    obtain ⟨message, inHand, rfl⟩ := List.mem_map.mp among
    exact ⟨message, sound.held task member message inHand, rfl⟩

/-- What an operation holds, it keeps. -/
theorem Pc.held_le_keeping (pc : Pc T V) (id : MessageId) : pc.held.count id ≤ pc.keeping.count id := by
  cases pc with
  | releaseKey => exact Nat.zero_le _
  | _ => exact le_refl _

/-- A step brings no message in, unless it is a reservation. -/
theorem Moved.present_le {now : Instant} {wallClock : Timestamp} {env : StepEnv}
    {group group' : ConsumerGroup T V} {pc next : Pc T V} {issued : Message T → Prop}
    (moved : Moved now wallClock env group pc group' next) (housed : Housed issued group)
    (unreserved : ∀ message key, pc ≠ .reserve message key) (id : MessageId) :
    group'.copies id + next.held.count id ≤ group.copies id + pc.held.count id := by
  -- Copies never grow in a step, except by a reservation, which is where a message is born.
  have fewer := (moved.copies housed unreserved id).1
  have holds := next.held_le_keeping id
  by_cases releases : ∃ other key result, pc = .releaseKey other key result
  · -- Releasing a key touches no message.
    obtain ⟨other, key, result, rfl⟩ := releases
    cases moved with
    | releaseKey => exact le_refl _
    | quiet changed quiet => cases quiet
  · have same : pc.keeping = pc.held := by
      cases pc with
      | releaseKey other key result => exact absurd ⟨other, key, result, rfl⟩ releases
      | _ => rfl
    rw [same] at fewer
    omega

/-- Nobody has a message yet while its enqueue is about to reserve its key. -/
theorem Sound.absent_of_reserve {world : World T V} (sound : Sound world) {task : Task T V}
    (member : task ∈ world.tasks) {message : Message T} {key : IdempotencyKey}
    (reserving : task.pc = .reserve message key) : world.present message.id = 0 := by
  by_contra there
  obtain ⟨other, ⟨owner, among, called, passed⟩, same⟩ :=
    sound.issued_of_present (Nat.pos_of_ne_zero there)
  have serves := sound.serves task member
  rw [reserving] at serves
  -- Only this very call generates the id, and it has not got past its reservation.
  have generated : task.call.newId = some message.id := by simp [serves.1, Call.newId]
  have generated' : owner.call.newId = some message.id := by simp [called, Call.newId, same]
  obtain rfl := eq_of_nodup_filterMap sound.distinct member among generated generated'
  have shape : message = other := Call.enqueue.inj (serves.1.symm.trans called)
  exact passed key (by rw [← shape]; exact reserving)

/-- One step of an operation leaves a message in at most one place. -/
theorem Sound.present_of_move {world : World T V} {i : Nat} {env : StepEnv} {task : Task T V}
    {group : ConsumerGroup T V} {next : Pc T V} {id : MessageId} (sound : Sound world)
    (single : world.present id ≤ 1) (found : world.tasks[i]? = some task)
    (alive : task.cancelled = false)
    (moved : Moved world.shared.now world.shared.wallClock env world.shared.group task.pc group next) :
    World.present ⟨{ world.shared with group := group }, world.tasks.set i { task with pc := next }⟩ id ≤
      1 := by
  have member := List.mem_of_getElem? found
  have traded := inHands_set found alive next Pc.held id
  have own := le_tally (Task.inHands Pc.held id) member
  have before := single
  simp only [Task.inHands, alive, Bool.false_eq_true, if_false] at own
  by_cases reserving : ∃ message key, task.pc = .reserve message key
  · obtain ⟨message, key, reserving⟩ := reserving
    -- A message to be reserved is nowhere yet.
    have absent := sound.absent_of_reserve member reserving
    rw [reserving] at moved traded
    cases moved with
    | quiet changed quiet => cases quiet
    | reserveHit taken =>
      simp only [World.present, World.inHands, Pc.held, Pc.messages, List.map_nil,
        List.count_nil] at before traded ⊢
      omega
    | reserveFresh free =>
      -- The message goes from its producer into the hands of the operation.
      have same : (world.shared.group.withState { world.shared.group.state with
          dedup := world.shared.group.state.dedup.insert key message.id }).copies id =
          world.shared.group.copies id := rfl
      simp only [World.present, World.inHands, Pc.held, Pc.messages, List.map_cons, List.map_nil,
        List.count_nil, List.count_singleton, same] at before traded absent ⊢
      by_cases mine : message.id = id
      · subst mine
        simp only [beq_self_eq_true, if_true] at traded
        omega
      · simp only [beq_iff_eq, mine, if_false] at traded
        omega
  · -- Any other step moves copies and makes none.
    have fewer := moved.present_le sound.sourced.toHoused
      (fun message key reserves => reserving ⟨message, key, reserves⟩) id
    simp only [World.present, World.inHands] at before ⊢
    omega

/-- A step within the life of a process leaves a message in at most one place. -/
theorem Sound.present_of_step {world next : World T V} {act : Action T V} {id : MessageId}
    (sound : Sound world) (single : world.present id ≤ 1) (within : InProcess world act)
    (stepped : Stepped world act next) : next.present id ≤ 1 := by
  cases stepped with
  | @call call fresh =>
    have before := single
    have hands : World.present (world.spawn ⟨call, call.entry, false⟩) id =
        world.present id + (call.entry : Pc T V).held.count id := by
      simp [World.present, World.inHands, Pool.spawn, Task.inHands, Nat.add_assoc]
    rw [hands, call.entry_parts.2.2.2.2]
    have born := call.born_count_le call.entry id
    by_cases new : call.newId = some id
    · -- The id that the call generates is nobody's yet.
      have absent : world.present id = 0 := by
        by_contra there
        obtain ⟨message, ⟨task, among, called, _⟩, same⟩ :=
          sound.issued_of_present (Nat.pos_of_ne_zero there)
        exact fresh task among id new (by simp [called, Call.newId, same])
      rw [if_pos new] at born
      omega
    · rw [if_neg new] at born
      omega
  | step found alive moved => exact sound.present_of_move single found alive moved
  | @drop i wrote task group next found alive dropped =>
    -- What the dropped operation had in its hands is gone, and the group keeps what it has.
    obtain ⟨state, entries, _⟩ := dropped.memory
    have before := single
    have traded := tally_set (Task.inHands Pc.held id) { task with pc := next, cancelled := true } found
    have memory : group.copies id = world.shared.group.copies id := by
      rw [ConsumerGroup.copies, state, entries, ConsumerGroup.copies]
    simp only [Task.inHands, if_true] at traded
    simp only [World.present, World.inHands, memory] at before ⊢
    omega
  | tick => exact single
  | setWallClock => exact single
  | reopen iterates => exact absurd rfl (within _)

/-- A process keeps a message in at most one place, whatever it starts from. -/
theorem Sound.present_of_run {start world : World T V}
    {trace : List (Transition (World T V) (Action T V))} {id : MessageId} (sound : Sound start)
    (single : start.present id ≤ 1) (run : Run World.step InProcess start trace world) :
    Sound world ∧ world.present id ≤ 1 := by
  induction run with
  | nil => exact ⟨sound, single⟩
  | snoc _ within taken ih =>
    obtain ⟨reached, before⟩ := ih
    have stepped := step_stepped taken
    exact ⟨reached.step stepped, reached.present_of_step before within stepped⟩

/-- In the life of one process no message is ever in two places. -/
theorem present_le_one {visibilityTimeout : Duration} {retryPolicy : RetryPolicy}
    {trace : List (Transition (World T V) (Action T V))} {world : World T V}
    (run : Run World.step InProcess (World.start visibilityTimeout retryPolicy) trace world) :
    ∀ id, world.present id ≤ 1 := by
  intro id
  have sound : Sound (World.start visibilityTimeout retryPolicy : World T V) :=
    Sound.start visibilityTimeout retryPolicy
  exact (sound.present_of_run (Nat.zero_le 1) run).2

/-- The lease that an operation is about to end, if it presents the token of an active one. -/
def Pc.ends : Pc T V → Option (MessageId × LeaseToken)
  | .releaseAcked id token | .releaseNacked id token _ => some (id, token)
  | _ => none

/-- A step acknowledges a message or gives it back, under the token of its active lease. -/
def Transition.Ends (e : Transition (World T V) (Action T V)) (id : MessageId) (token : LeaseToken) :
    Prop :=
  match e.act with
  | .step i _ => (∃ task ∈ e.pre.tasks[i]?, task.pc.ends = some (id, token)) ∧
      (e.pre.shared.group.state.activeLease id token).isSome
  | _ => False

/-- A message with a lease counts once among the leased ones. -/
theorem State.leasedCount_of_leased {state : State T V} {id : MessageId} {lease : Leased T V}
    (leased : state.leased.lookup id = some lease) : state.leasedCount id = 1 := by
  simp [leasedCount, leased]

/-- A message at the front of the queue has one copy there, besides those that are delayed or leased. -/
theorem copies_of_claimed {group : ConsumerGroup T V} {now : Instant} {entry : Pending T V}
    {rest : List (Pending T V)} (front : (group.state.promoteReadyDelayed now).pending = entry :: rest) :
    1 + group.state.leasedCount entry.id + (group.state.promoteReadyDelayed now).delayedCount entry.id ≤
      group.copies entry.id := by
  -- A promotion only moves entries from one list to the other.
  have counts := group.state.promoted_count now entry.id
  have popped : 1 ≤ (group.state.promoteReadyDelayed now).pendingCount entry.id := by
    simp [State.pendingCount, front]
  simp only [ConsumerGroup.copies, State.live]
  omega

/-- A message that can be claimed while it is on a lease is in two places. -/
theorem two_of_claimed {group : ConsumerGroup T V} {now : Instant} {entry : Pending T V}
    {rest : List (Pending T V)} {lease : Leased T V}
    (front : (group.state.promoteReadyDelayed now).pending = entry :: rest)
    (leased : group.state.leased.lookup entry.id = some lease) : 2 ≤ group.copies entry.id := by
  -- One copy at the front of the queue and a second out on the lease.
  have inside := copies_of_claimed front
  have out := State.leasedCount_of_leased leased
  omega

/-- A message that is out on a lease is not claimed again. -/
theorem Stepped.unleased {world next : World T V} {act : Action T V} {claim : Claim T V}
    (stepped : Stepped world act next) (single : world.shared.group.copies claim.id ≤ 1)
    (granted : Transition.granted ⟨world, act, next⟩ = some claim) :
    world.shared.group.state.leased.lookup claim.id = none := by
  obtain ⟨entry, rest, front, rfl, _⟩ := stepped.grants granted
  -- A lease would be a second place for the message at the front.
  rw [Option.eq_none_iff_forall_ne_some]
  intro lease leased
  have twice : 2 ≤ world.shared.group.copies entry.id := two_of_claimed front leased
  exact absurd (twice.trans single) (by decide)

/-- A lease whose timeout has not passed outlives a step that does not end it. -/
theorem Moved.lease_kept {now : Instant} {wallClock : Timestamp} {env : StepEnv}
    {group group' : ConsumerGroup T V} {pc next : Pc T V} {id : MessageId} {lease : Leased T V}
    (moved : Moved now wallClock env group pc group' next)
    (leased : group.state.leased.lookup id = some lease) (single : group.copies id ≤ 1)
    (unended : pc.ends ≠ some (id, lease.token)) (running : now < lease.expiresAt) :
    ∃ kept, group'.state.leased.lookup id = some kept ∧ kept.token = lease.token ∧
      kept.expiresAt = lease.expiresAt := by
  cases moved with
  | @claimed entry rest front =>
    -- A claim leases another message, for this one would be in two places.
    have apart : id ≠ entry.id := by
      rintro rfl
      have twice := two_of_claimed front leased
      omega
    exact ⟨lease, (Finmap.lookup_insert_of_ne _ apart).trans leased, rfl, rfl⟩
  | @reclaim order failed rest reclaims =>
    -- Only leases whose timeout has passed are reclaimed.
    have unlisted : id ∉ order := by
      intro listed
      obtain ⟨other, found, expired⟩ := (reclaims.expired id).mp listed
      obtain rfl := Option.some.inj (leased.symm.trans found)
      have passed : lease.expiresAt ≤ now := by simpa [Leased.expired] using expired
      exact absurd running (not_lt.mpr passed)
    refine ⟨lease, ?_, rfl, rfl⟩
    simp only [ConsumerGroup.withState, lookup_foldl_erase, if_neg unlisted, leased]
  | @acked other token old active | @nacked other token reason old active =>
    -- The lease that is ended here is another message's.
    have apart : id ≠ other := by
      rintro rfl
      obtain ⟨found, rfl⟩ := lookup_of_active active
      obtain rfl := Option.some.inj (leased.symm.trans found)
      exact unended rfl
    exact ⟨lease, (Finmap.lookup_erase_ne apart).trans leased, rfl, rfl⟩
  | @checkpointStored other token state old active
  | @published other token data isFinal old sequence active =>
    by_cases same : id = other
    · -- The message's lease is stored again, with the token and the timeout it had.
      subst same
      obtain ⟨found, _⟩ := lookup_of_active active
      obtain rfl := Option.some.inj (leased.symm.trans found)
      exact ⟨_, Finmap.lookup_insert _, rfl, rfl⟩
    · exact ⟨lease, (Finmap.lookup_insert_of_ne _ same).trans leased, rfl, rfl⟩
  | _ => exact ⟨lease, leased, rfl, rfl⟩

/-- The lease that a delivery took has been ended since then, or its visibility timeout has passed. -/
def LeaseOver (trace : List (Transition (World T V) (Action T V))) (m : Nat) (claim : Claim T V)
    (now : Instant) : Prop :=
  (∃ k later, m < k ∧ (trace)[k]? = some later ∧ Transition.Ends later claim.id claim.token) ∨
    ∃ e, (trace)[m]? = some e ∧
      e.pre.shared.now + e.pre.shared.group.visibilityTimeout ≤ now

/-- A lease that is over stays over. -/
theorem LeaseOver.snoc {trace : List (Transition (World T V) (Action T V))} {m : Nat}
    {claim : Claim T V} {now later : Instant} (ended : LeaseOver trace m claim now)
    (e : Transition (World T V) (Action T V)) (onward : now ≤ later) :
    LeaseOver (trace ++ [e]) m claim later := by
  -- A longer trace keeps its steps where they were.
  have kept : ∀ {k : Nat} {found : Transition (World T V) (Action T V)}, (trace)[k]? = some found →
      (trace ++ [e])[k]? = some found := by
    intro k found there
    rw [List.getElem?_append_left (List.getElem?_eq_some_iff.mp there).1]
    exact there
  rcases ended with ⟨k, ending, after, there, ends⟩ | ⟨granting, there, passed⟩
  · exact .inl ⟨k, ending, after, kept there, ends⟩
  · exact .inr ⟨granting, kept there, passed.trans onward⟩

/-- What holds of the lease that a delivery took. -/
structure Running (world : World T V) (trace : List (Transition (World T V) (Action T V))) (m : Nat)
    (claim : Claim T V) (lease : Leased T V) : Prop where
  leased : world.shared.group.state.leased.lookup claim.id = some lease
  token : lease.token = claim.token
  expiresAt : ∃ e, (trace)[m]? = some e ∧
    lease.expiresAt = e.pre.shared.now + e.pre.shared.group.visibilityTimeout

/-- A lease that still runs goes on running in a longer trace whose last step leaves it alone. -/
theorem Running.snoc {world next : World T V} {trace : List (Transition (World T V) (Action T V))}
    {m : Nat} {claim : Claim T V} {lease kept : Leased T V} (running : Running world trace m claim lease)
    (e : Transition (World T V) (Action T V))
    (leased : next.shared.group.state.leased.lookup claim.id = some kept)
    (token : kept.token = lease.token) (expiresAt : kept.expiresAt = lease.expiresAt) :
    Running next (trace ++ [e]) m claim kept := by
  obtain ⟨granting, there, instant⟩ := running.expiresAt
  -- The granting transition stays where it was in the longer trace.
  refine ⟨leased, token.trans running.token, granting, ?_, expiresAt.trans instant⟩
  rw [List.getElem?_append_left (List.getElem?_eq_some_iff.mp there).1]
  exact there

/-- A step ends a running lease, comes after its timeout, or leaves it running. -/
theorem Running.step {world next : World T V} {trace : List (Transition (World T V) (Action T V))}
    {m : Nat} {claim : Claim T V} {lease : Leased T V} {act : Action T V}
    (running : Running world trace m claim lease) (within : InProcess world act)
    (single : ∀ id, world.present id ≤ 1) (stepped : Stepped world act next) :
    LeaseOver (trace ++ [⟨world, act, next⟩]) m claim next.shared.now ∨
      ∃ kept, Running next (trace ++ [⟨world, act, next⟩]) m claim kept := by
  cases stepped with
  | call fresh => exact .inr ⟨lease, running.snoc _ running.leased rfl rfl⟩
  | @step i env task group after found alive moved =>
    obtain ⟨granting, there, instant⟩ := running.expiresAt
    have length := (List.getElem?_eq_some_iff.mp there).1
    by_cases passed : lease.expiresAt ≤ world.shared.now
    · -- The visibility timeout has passed.
      rw [instant] at passed
      exact .inl (LeaseOver.snoc (.inr ⟨granting, there, passed⟩) _ le_rfl)
    · by_cases ended : task.pc.ends = some (claim.id, lease.token)
      · -- This step is the acknowledgement or the refusal of the delivery.
        refine .inl (.inl ⟨trace.length, _, length, List.getElem?_concat_length, ?_⟩)
        rw [running.token] at ended
        refine ⟨⟨task, found, ended⟩, ?_⟩
        simp [State.activeLease, running.leased, running.token, Option.filter]
      · have copies : world.shared.group.copies claim.id ≤ 1 :=
          (Nat.le_add_right _ _).trans (single claim.id)
        obtain ⟨kept, leased, token, expiresAt⟩ :=
          moved.lease_kept running.leased copies ended (not_le.mp passed)
        exact .inr ⟨kept, running.snoc _ leased token expiresAt⟩
  | @drop i wrote task group after found alive dropped =>
    -- Dropping an operation changes nothing in memory.
    have leased : group.state.leased.lookup claim.id = some lease := by
      rw [dropped.memory.1]
      exact running.leased
    exact .inr ⟨lease, running.snoc _ leased rfl rfl⟩
  | tick => exact .inr ⟨lease, running.snoc _ running.leased rfl rfl⟩
  | setWallClock => exact .inr ⟨lease, running.snoc _ running.leased rfl rfl⟩
  | reopen iterates => exact absurd rfl (within _)

/-- The clock of a process never runs backwards. -/
theorem Stepped.onward {world next : World T V} {act : Action T V} (stepped : Stepped world act next) :
    world.shared.now ≤ next.shared.now := by
  cases stepped with
  | @tick elapsed => exact le_add_of_nonneg_right elapsed.property
  | _ => exact le_rfl

/-- After a delivery its lease is over, or the message is still out on it. -/
theorem over_or_running {visibilityTimeout : Duration} {retryPolicy : RetryPolicy}
    {trace : List (Transition (World T V) (Action T V))} {world : World T V} {m : Nat}
    {claim : Claim T V}
    (run : Run World.step InProcess (World.start visibilityTimeout retryPolicy) trace world)
    (delivered : delivery trace m = some claim) :
    LeaseOver trace m claim world.shared.now ∨ ∃ lease, Running world trace m claim lease := by
  -- Along the run: before the delivery there is nothing to show.
  induction run with
  | nil => simp [delivery] at delivered
  | @snoc trace world next act before within taken ih =>
    have stepped := step_stepped taken
    obtain ⟨e, there, granted⟩ := Option.bind_eq_some_iff.mp delivered
    rcases Nat.lt_or_ge m trace.length with earlier | last
    · -- The delivery lies further back, and this step may end its lease.
      rw [List.getElem?_append_left earlier] at there
      rcases ih (Option.bind_eq_some_iff.mpr ⟨e, there, granted⟩) with ended | ⟨lease, running⟩
      · exact .inl (ended.snoc _ stepped.onward)
      · exact running.step within (present_le_one before) stepped
    · -- The delivery is this very step, which leases the message.
      have position : m = trace.length := by
        have bound := (List.getElem?_eq_some_iff.mp there).1
        simp only [List.length_append, List.length_singleton] at bound
        omega
      subst position
      obtain rfl : ⟨world, act, next⟩ = e := by simpa using there
      obtain ⟨entry, rest, _, rfl, shape⟩ := stepped.grants granted
      have leased : next.shared.group.state.leased.lookup entry.id =
          some (entry.lease ⟨world.shared.group.nextLeaseToken⟩
            (world.shared.now + world.shared.group.visibilityTimeout)) := by
        rw [shape]
        exact Finmap.lookup_insert _
      exact .inr ⟨_, leased, rfl, _, List.getElem?_concat_length, rfl⟩

/-- The operations that a stale lease token turns away for good. -/
def Call.settles : Call T V → Bool
  | .ack _ _ | .nack _ _ _ | .publishPartialResult _ _ _ _ => true
  | _ => false

/-- No resolution of a failed delivery goes on to a refusal. -/
theorem ResolveCaller.unrefused (caller : ResolveCaller T V) :
    caller.next.refused = false ∧ caller.failed.refused = false := by
  match caller with
  | .nack | .reclaim [] | .reclaim (_ :: _) => exact ⟨rfl, rfl⟩

/-- A refused operation has stood at its first step, and has changed nothing. -/
theorem Moved.refusal {now : Instant} {wallClock : Timestamp} {env : StepEnv}
    {group group' : ConsumerGroup T V} {pc next : Pc T V} {call : Call T V}
    (moved : Moved now wallClock env group pc group' next) (serves : pc.serves call)
    (settles : call.settles) (refused : next.refused) :
    pc = call.entry ∧ group'.state = group.state ∧ group'.dlq = group.dlq ∧ group'.wal = group.wal := by
  -- nackStale id token reason|The lock was taken, the token compared, and nothing changed.
  cases moved with
  | quiet changed quiet =>
    cases quiet with
    | nackStale id token reason | publishStale id token data isFinal =>
      rw [serves]
      exact ⟨rfl, rfl, rfl, rfl⟩
    | checkStale | storeStale | entryMissing => rw [serves] at settles; cases settles
    | takeMissing id caller =>
      cases caller <;> rw [serves] at settles <;> cases settles
    | notifyOne result =>
      -- Whoever notifies has not been refused.
      rcases serves with ⟨_, rfl, rfl⟩ | ⟨_, rfl, rfl⟩ | ⟨_, _, _, rfl, rfl⟩ | ⟨_, rfl, rfl⟩ <;>
        cases refused
    | _ => cases refused
  | ackStale stale =>
    rw [serves]
    exact ⟨rfl, rfl, rfl, rfl⟩
  | @enqueueFailed message caller failed =>
    cases keyed : message.idempotencyKey <;> rw [keyed] at refused <;> cases refused
  | @releaseKey id key result =>
    rcases serves with ⟨_, _, _, _, _, rfl⟩ | ⟨rfl, _⟩
    · cases refused
    · cases settles
  | @retried failed caller attemptsLeft => rw [caller.unrefused.1] at refused; cases refused
  | @exhaustedFailed failed caller exhausted unsynced =>
    rw [caller.unrefused.2] at refused
    cases refused
  | @deadLetteredWritten id caller synced => rw [caller.unrefused.1] at refused; cases refused
  | @deadLetteredFailed id caller failed => rw [caller.unrefused.2] at refused; cases refused
  | verdictStored found => rw [serves] at settles; cases settles
  | @removeWritten deadLetter caller synced =>
    cases caller with
    | reprocess => cases refused
    | purge =>
      cases keyed : deadLetter.idempotencyKey <;> simp only [TakeCaller.next, keyed] at refused <;>
        cases refused
  | _ => cases refused

/-- The operation that a step belongs to. -/
def Transition.mover (e : Transition (World T V) (Action T V)) : Option Nat :=
  match e.act with
  | .step i _ => some i
  | _ => none

/--
A claim takes its lease on a message only after the leases of all earlier deliveries of it are over.

An acknowledgement, a refusal or a publication that a stale token turns away is a single step.
It leaves the messages, the keys, the dead letters and both logs exactly as they were.
-/
theorem exclusive_delivery {visibilityTimeout : Duration} {retryPolicy : RetryPolicy}
    {trace : List (Transition (World T V) (Action T V))} {world : World T V}
    (run : Run World.step InProcess (World.start visibilityTimeout retryPolicy) trace world) :
    (∀ m n claim redelivered, m < n → delivery trace m = some claim →
        delivery trace n = some redelivered → redelivered.id = claim.id →
        ∃ e, (trace)[n]? = some e ∧ LeaseOver (trace.take n) m claim e.pre.shared.now) ∧
      ∀ e ∈ trace, ∀ i task, Transition.mover e = some i → e.post.tasks[i]? = some task →
        task.call.settles → task.pc.refused →
        e.pre.tasks[i]? = some { task with pc := task.call.entry } ∧
          e.post.shared.group.state = e.pre.shared.group.state ∧
          e.post.shared.group.dlq = e.pre.shared.group.dlq ∧
          e.post.shared.group.wal = e.pre.shared.group.wal := by
  constructor
  · -- The second delivery finds the first lease over.
    intro m n claim redelivered before delivered again same
    obtain ⟨e, there, granted⟩ := Option.bind_eq_some_iff.mp again
    -- The state just before the second delivery is reached by the earlier steps.
    obtain ⟨reached, taken⟩ := run.take there
    refine ⟨e, there, ?_⟩
    have earlier : delivery (trace.take n) m = some claim := by
      rw [delivery, List.getElem?_take_of_lt before]
      exact delivered
    rcases over_or_running reached earlier with ended | ⟨lease, running⟩
    · exact ended
    · -- A message that is still out on the lease is not claimed again.
      exfalso
      have single := present_le_one reached redelivered.id
      have free := Stepped.unleased (step_stepped taken) ((Nat.le_add_right _ _).trans single) granted
      rw [same, running.leased] at free
      cases free
  · -- A settling call that is refused has checked the token before it changed anything.
    intro e member i task moves after settles refused
    obtain ⟨⟨_, reached⟩, _, taken⟩ := run.of_mem member
    have sound := sound_of_run reached
    obtain ⟨pre, act, post⟩ := e
    have stepped : Stepped pre act post := step_stepped taken
    cases stepped with
    | @step j _ standing group next found alive moved =>
      obtain rfl : j = i := Option.some.inj moves
      have bound := (List.getElem?_eq_some_iff.mp found).1
      obtain rfl : { standing with pc := next } = task := by
        simpa only [List.getElem?_set_self bound, Option.some.injEq] using after
      obtain ⟨entry, state, dlq, wal⟩ :=
        moved.refusal (sound.serves standing (List.mem_of_getElem? found)) settles refused
      refine ⟨?_, state, dlq, wal⟩
      show pre.tasks[j]? = some { standing with pc := standing.call.entry }
      rw [found, ← entry]
    | _ => cases moves

/-- A message is claimed, claimed again when the lease has timed out, and acknowledged under the old token. -/
def timingOut : List (Action Nat Nat) :=
  Action.run 0 (.enqueue ⟨⟨0⟩, 10, none⟩) 3 ++ Action.run 1 .claim 3 ++
    [.pass 30, .call .claim, .step 2 { order := [⟨0⟩] }, .step 2 {}, .step 2 {},
      .step 2 {}, .step 2 {}, .pass 30, .step 2 {}, .step 2 {}] ++
    Action.run 3 (.ack ⟨0⟩ ⟨0⟩) 1

set_option synthInstance.maxSize 256 in
/-- The second delivery waits for the timeout of the first, and the late acknowledgement changes nothing. -/
theorem exclusive_delivery_timed_out : ∃ (trace : List (Transition (World Nat Nat) (Action Nat Nat)))
    (claim redelivered : Claim Nat Nat) (e late : Transition (World Nat Nat) (Action Nat Nat)),
    delivery trace 6 = some claim ∧ delivery trace 17 = some redelivered ∧
      redelivered.id = claim.id ∧ (trace)[17]? = some e ∧
      LeaseOver (trace.take 17) 6 claim e.pre.shared.now ∧ (trace)[19]? = some late ∧
      late.pre.tasks[3]? = some ⟨.ack claim.id claim.token, .releaseAcked claim.id claim.token, false⟩ ∧
      late.post.shared.group.state = late.pre.shared.group.state ∧
      late.post.shared.group.dlq = late.pre.shared.group.dlq ∧
      late.post.shared.group.wal = late.pre.shared.group.wal := by
  -- The run is found by evaluation, and what follows reads the theorem off it.
  have recorded : ∃ ran ∈ record World.step (World.start 30 .default) timingOut,
      (∀ e ∈ ran.1, InProcess e.pre e.act) ∧ ∃ claim ∈ delivery ran.1 6,
      ∃ redelivered ∈ delivery ran.1 17, claim.id = ⟨0⟩ ∧ claim.token = ⟨0⟩ ∧ redelivered.id = ⟨0⟩ ∧
      ∃ late ∈ (ran.1)[19]?, Transition.mover late = some 3 ∧
      ∃ task ∈ late.post.tasks[3]?, task = ⟨.ack ⟨0⟩ ⟨0⟩, .done (.answered false), false⟩ := by
    decide +kernel
  obtain ⟨⟨trace, world⟩, ran, within, claim, delivered, redelivered, again, first, token, second, late,
    there, moves, task, after, rfl⟩ := recorded
  have run := (run_of_record .nil ran).strengthen within
  have same : redelivered.id = claim.id := second.trans first.symm
  obtain ⟨exclusive, refusals⟩ := exclusive_delivery (run.mono fun _ _ allowed => allowed.2)
  obtain ⟨e, taken, ended⟩ := exclusive 6 17 claim redelivered (by decide) delivered again same
  obtain ⟨standing, unchanged⟩ := refusals late (List.mem_of_getElem? there) 3 _ moves after rfl rfl
  refine ⟨trace, claim, redelivered, e, late, delivered, again, same, taken, ended, there, ?_, unchanged⟩
  rw [first, token]
  exact standing

/-- The claim that a step returns to its consumer. -/
def Transition.returned (e : Transition (World T V) (Action T V)) : Option (Claim T V) :=
  match e.act with
  | .step i _ =>
    e.post.tasks[i]?.bind fun task =>
      match task.pc with
      | .done (.claimed claim) => some claim
      | _ => none
  | _ => none

/-- The first claim is held up before it returns, until its lease has timed out and the next claim has returned. -/
def returningLate : List (Action Nat Nat) :=
  Action.run 0 (.enqueue ⟨⟨0⟩, 10, none⟩) 3 ++ Action.run 1 .claim 2 ++
    [.pass 30, .call .claim, .step 2 { order := [⟨0⟩] }, .step 2 {}, .step 2 {},
      .step 2 {}, .step 2 {}, .pass 1, .step 2 {}, .step 2 {}, .step 2 {}, .step 1 {}]

set_option synthInstance.maxSize 256 in
/-- A claim returns a message right after another claim has, whose lease on it still runs. -/
theorem returned_twice : ∃ (trace : List (Transition (World Nat Nat) (Action Nat Nat)))
    (world : World Nat Nat) (claim late : Claim Nat Nat) (lease : Leased Nat Nat),
    Run World.step InProcess (World.start 30 .default) trace world ∧
      (trace)[17]?.bind Transition.returned = some claim ∧
      (trace)[18]?.bind Transition.returned = some late ∧ late.id = claim.id ∧
      world.shared.group.state.activeLease claim.id claim.token = some lease ∧
      world.shared.now < lease.expiresAt := by
  -- Both claims return after the second one was granted.
  have recorded : ∃ ran ∈ record World.step (World.start 30 .default) returningLate,
      (∀ e ∈ ran.1, InProcess e.pre e.act) ∧ ∃ claim ∈ (ran.1)[17]?.bind Transition.returned,
      ∃ late ∈ (ran.1)[18]?.bind Transition.returned, late.id = claim.id ∧
      ∃ lease ∈ ran.2.shared.group.state.activeLease claim.id claim.token,
        ran.2.shared.now < lease.expiresAt := by
    decide +kernel
  obtain ⟨⟨trace, world⟩, ran, within, claim, first, late, second, same, lease, active, running⟩ := recorded
  have run := (run_of_record .nil ran).strengthen within
  exact ⟨trace, world, claim, late, lease, run.mono fun _ _ allowed => allowed.2, first, second, same,
    active, running⟩

end Qaas
