import Qaas.Concurrency.Reach
import Qaas.Group.Ledger

/-! No message in a group is stranded: whatever the other operations do not do, one more consumer gets it,
or finds it dead-lettered. -/

namespace Qaas

open Concurrency

variable {T V : Type}

/-- One more consumer acts: time passes, it claims, or a claim of its own takes a step whose write succeeds. -/
def World.Consuming (before : Nat) (_ : World T V) : Action T V → Prop
  | .tick _ => True
  | .call call => call = .claim
  | .step i env => before ≤ i ∧ env.outcome = .ok
  | _ => False

/-- One of the claims since then has returned the message with a lease that still holds, or the message is a
dead letter. -/
def World.Obtained (before : Nat) (id : MessageId) (world : World T V) : Prop :=
  (∃ deadLetter, world.shared.group.dlq.entries.lookup id = some deadLetter) ∨
    ∃ i claim, before ≤ i ∧ world.tasks[i]? = some ⟨.claim, .done (.claimed claim), false⟩ ∧ claim.id = id ∧
      (world.shared.group.state.activeLease id claim.token).isSome

/-- A message waits out a backoff, or is a dead letter. -/
def ConsumerGroup.Settled (group : ConsumerGroup T V) (id : MessageId) : Prop :=
  (∃ entry ∈ group.state.delayed, entry.id = id) ∨ ∃ deadLetter, group.dlq.entries.lookup id = some deadLetter

/-- What a consumer that only puts failed deliveries back leaves as it was. -/
structure ConsumerGroup.Lays (group later : ConsumerGroup T V) : Prop where
  pending : later.state.pending = group.state.pending
  delayed : ∀ entry ∈ group.state.delayed, entry ∈ later.state.delayed
  entries : ∀ id, (∃ deadLetter, group.dlq.entries.lookup id = some deadLetter) →
    ∃ deadLetter, later.dlq.entries.lookup id = some deadLetter

section

variable {group later last : ConsumerGroup T V} {id : MessageId}

theorem ConsumerGroup.Lays.refl (group : ConsumerGroup T V) : group.Lays group :=
  ⟨rfl, fun _ member => member, fun _ found => found⟩

theorem ConsumerGroup.Lays.trans (first : group.Lays later) (second : later.Lays last) : group.Lays last where
  pending := second.pending.trans first.pending
  delayed entry member := second.delayed entry (first.delayed entry member)
  entries id found := second.entries id (first.entries id found)

/-- What has been put back stays there. -/
theorem ConsumerGroup.Settled.mono (settled : group.Settled id) (lays : group.Lays later) : later.Settled id := by
  rcases settled with ⟨entry, member, same⟩ | found
  · exact .inl ⟨entry, lays.delayed entry member, same⟩
  · exact .inr (lays.entries id found)

end

/-- What an operation can come to by itself, while no write fails and the clocks stand. -/
abbrev ConsumerGroup.Comes (self : Nat) (now : Instant) (wallClock : Timestamp)
    (goal : ConsumerGroup T V × Pc T V → Prop) (group : ConsumerGroup T V) (pc : Pc T V) : Prop :=
  CanReach (fun (state : ConsumerGroup T V × Pc T V) env => state.1.move self now wallClock env state.2)
    (fun _ env => env.outcome = .ok) goal (group, pc)

section

variable {self : Nat} {now : Instant} {wallClock : Timestamp}

/-- An operation goes on from where its next step leads. -/
theorem ConsumerGroup.Comes.from_next {goal : ConsumerGroup T V × Pc T V → Prop} {group later : ConsumerGroup T V}
    {pc next : Pc T V} (stepped : group.move self now wallClock {} pc = some (later, next))
    (onward : later.Comes self now wallClock goal next) : group.Comes self now wallClock goal pc :=
  .after stepped rfl onward

/-- A failed delivery comes back with a backoff, or becomes a dead letter. -/
theorem ConsumerGroup.resolve_settles (group : ConsumerGroup T V) (failed : FailedDelivery T V)
    (caller : ResolveCaller T V) :
    group.Comes self now wallClock (fun state => state.2 = caller.next ∧ group.Lays state.1 ∧
      state.1.Settled failed.id) (.resolve failed caller) := by
  cases exhausted : group.retryPolicy.isExhausted failed.deliveryCount with
  | false =>
    have stepped : group.move self now wallClock {} (.resolve failed caller) = some (group.withState { group.state with
        delayed := group.state.delayed ++
          [failed.delayed (now + group.retryPolicy.delayFor failed.deliveryCount .zero)] }, caller.next) := by
      simp [move, resolve, exhausted]
    refine .from_next stepped (.here ⟨rfl, ⟨rfl, fun entry member => ?_, fun _ found => found⟩, .inl ?_⟩)
    · exact List.mem_append_left _ member
    · exact ⟨_, List.mem_append_right _ List.mem_cons_self, rfl⟩
  | true =>
    -- The dead letter is logged, inserted, and logged as gone from the queue.
    have logged : group.move self now wallClock {} (.resolve failed caller) = some
        (group.withDlqWal (group.dlq.wal.land (.deadLetter (failed.deadLetter wallClock))),
          .insertDeadLetter (failed.deadLetter wallClock) caller) := by
      simp [move, resolve, exhausted, appendDlq, DeadLetterQueue.append, withDlqWal]
    refine .from_next logged (.from_next rfl (.from_next rfl (.here ⟨rfl, ⟨rfl, fun _ member => member,
      fun id found => ?_⟩, .inr ⟨failed.deadLetter wallClock, Finmap.lookup_insert _⟩⟩)))
    show ∃ deadLetter, (group.dlq.entries.insert failed.id (failed.deadLetter wallClock)).lookup id = some deadLetter
    by_cases own : id = failed.id
    · subst own
      exact ⟨_, Finmap.lookup_insert _⟩
    · rwa [Finmap.lookup_insert_of_ne _ own]

/-- Every delivery of a batch does. -/
theorem ConsumerGroup.batch_settles (rest : List (FailedDelivery T V)) (group : ConsumerGroup T V)
    (failed : FailedDelivery T V) :
    group.Comes self now wallClock (fun state => state.2 = .notifyReclaimed ∧ group.Lays state.1 ∧
      ∀ one ∈ failed :: rest, state.1.Settled one.id) (.resolve failed (.reclaim rest)) := by
  -- The induction is on the deliveries that are still to come, each from the group that the one before leaves.
  induction rest generalizing group failed with
  | nil =>
    refine (group.resolve_settles failed (.reclaim [])).trans ?_
    rintro ⟨later, _⟩ ⟨rfl, lays, settled⟩
    exact .here ⟨rfl, lays, List.forall_mem_singleton.mpr settled⟩
  | cons next rest ih =>
    refine (group.resolve_settles failed (.reclaim (next :: rest))).trans ?_
    rintro ⟨later, _⟩ ⟨rfl, lays, settled⟩
    refine (ih later next).trans ?_
    rintro ⟨last, _⟩ ⟨rfl, kept, others⟩
    exact .here ⟨rfl, lays.trans kept, List.forall_mem_cons.mpr ⟨settled.mono kept, others⟩⟩

/-- A claim that begins comes to look for a message, after it has put every expired delivery back. -/
theorem ConsumerGroup.reclaim_settles (group : ConsumerGroup T V) :
    group.Comes self now wallClock (fun state => state.2 = .claimNext ∧ group.Lays state.1 ∧
      ∀ id lease, group.state.leased.lookup id = some lease → lease.expired now → state.1.Settled id)
      .reclaimExpired := by
  -- The leases that are over are taken in some order; with none of them the claim goes on at once.
  let order := (group.state.expiredIds now).toList
  have iterates : order.Nodup ∧ order.toFinset = group.state.expiredIds now :=
    ⟨Finset.nodup_toList _, Finset.toList_toFinset _⟩
  let batch := order.filterMap fun id =>
    (group.state.leased.lookup id).map fun lease => lease.failed id (some "visibility timeout expired")
  have within {id : MessageId} {lease : Leased T V} (found : group.state.leased.lookup id = some lease)
      (expired : lease.expired now) : lease.failed id (some "visibility timeout expired") ∈ batch := by
    refine List.mem_filterMap.mpr ⟨id, Finset.mem_toList.mpr (mem_expiredIds.mpr ⟨lease, found, expired⟩), ?_⟩
    rw [found]
    rfl
  cases taken : batch with
  | nil =>
    have stepped : group.move self now wallClock { order } .reclaimExpired = some (group, .claimNext) := by
      show group.reclaimExpired now order = _
      unfold ConsumerGroup.reclaimExpired
      rw [if_pos iterates]
      dsimp only
      rw [show order.filterMap _ = [] from taken]
    refine .after stepped rfl (.here ⟨rfl, .refl group, fun id lease found expired => ?_⟩)
    have member := within found expired
    rw [taken] at member
    cases member
  | cons failed rest =>
    have stepped : group.move self now wallClock { order } .reclaimExpired = some (group.withState { group.state with
        leased := order.foldl (fun leased id => leased.erase id) group.state.leased },
          .resolve failed (.reclaim rest)) := by
      show group.reclaimExpired now order = _
      unfold ConsumerGroup.reclaimExpired
      rw [if_pos iterates]
      dsimp only
      rw [show order.filterMap _ = failed :: rest from taken]
    refine .after stepped rfl ((ConsumerGroup.batch_settles rest _ failed).trans ?_)
    rintro ⟨later, _⟩ ⟨rfl, lays, settled⟩
    refine ConsumerGroup.Comes.from_next rfl (.here ⟨rfl, ⟨lays.pending, lays.delayed, lays.entries⟩,
      fun id lease found expired => ?_⟩)
    have member := within found expired
    rw [taken] at member
    exact settled _ member

/-- A claim that looks for a message returns the first one, and leases it. -/
theorem ConsumerGroup.claimNext_grants {group : ConsumerGroup T V} {entry : Pending T V} {rest : List (Pending T V)}
    (front : (group.state.promoteReadyDelayed now).pending = entry :: rest) :
    group.Comes self now wallClock (fun state => ∃ claim, state.2 = .done (.claimed claim) ∧ claim.id = entry.id ∧
      (state.1.state.activeLease entry.id claim.token).isSome ∧ state.1.state.pending = rest) .claimNext := by
  -- Two steps: the lease is stored, and the next consumer is woken.
  let token : LeaseToken := ⟨group.nextLeaseToken⟩
  have leased : group.claimNext now = ({ group with
      state := { group.state.promoteReadyDelayed now with
        pending := rest
        leased := group.state.leased.insert entry.id (entry.lease token (now + group.visibilityTimeout)) }
      nextLeaseToken := group.nextLeaseToken + 1 }, .notifyOne (.claimed (entry.claim token))) := by
    unfold claimNext
    dsimp only
    rw [front]
    rfl
  refine .from_next (congrArg some leased) (.from_next rfl (.here ⟨entry.claim token, rfl, rfl, ?_, rfl⟩))
  simp [State.activeLease, Pending.lease, Pending.claim]

end

section

variable {before : Nat} {id : MessageId} {world : World T V}

/-- Time can pass up to any instant. -/
theorem World.waits (world : World T V) (instant : Instant) : ∃ elapsed : { elapsed : Duration // 0 ≤ elapsed },
    instant ≤ world.shared.now + elapsed.val ∧ world.step (.tick elapsed) =
      some { world with shared := { world.shared with now := world.shared.now + elapsed.val } } :=
  ⟨⟨max (instant - world.shared.now) 0, le_max_right _ _⟩, sub_le_iff_le_add'.mp (le_max_left _ _), rfl⟩

/-- Whatever a claim can come to by itself, the world comes to with it. -/
theorem World.comes {i : Nat} {pc : Pc T V} {goal : ConsumerGroup T V × Pc T V → Prop} (since : before ≤ i)
    (found : world.tasks[i]? = some ⟨.claim, pc, false⟩)
    (comes : world.shared.group.Comes i world.shared.now world.shared.wallClock goal pc) :
    CanReach World.step (World.Consuming before) (fun next => ∃ group pc, goal (group, pc) ∧
      next = ⟨{ world.shared with group }, world.tasks.set i ⟨.claim, pc, false⟩⟩) world := by
  -- The operation is seen as a task that carries its program point only.
  have alone : CanReach (fun (state : Runtime T V × Task T V) env => Runtime.advance i env state.1 state.2)
      (fun _ env => env.outcome = .ok) (fun state => ∃ group pc, goal (group, pc) ∧
        state = ({ world.shared with group }, ⟨.claim, pc, false⟩)) (world.shared, ⟨.claim, pc, false⟩) := by
    obtain ⟨trace, last, run, reached⟩ := comes
    have lifted : CanReach (fun (state : Runtime T V × Task T V) env => Runtime.advance i env state.1 state.2)
        (fun _ env => env.outcome = .ok)
        (fun state => state = ({ world.shared with group := last.1 }, ⟨.claim, last.2, false⟩))
        (world.shared, ⟨.claim, pc, false⟩) := by
      clear reached
      induction run with
      | nil => exact .here rfl
      | @snoc _ middle last env _ allowed taken ih =>
        refine ih.trans ?_
        rintro _ rfl
        refine .after ?_ allowed (.here rfl)
        show (Option.map _ (middle.1.move i world.shared.now world.shared.wallClock env middle.2)) = _
        rw [taken]
        rfl
    exact lifted.trans fun state same => .here ⟨last.1, last.2, reached, same⟩
  refine (CanReach.alone (Action.step i) (fun _ _ => rfl) found (fun _ _ _ allowed => ⟨since, allowed⟩) alone).trans ?_
  rintro next ⟨_, _, ⟨group, pc, reached, same⟩, rfl⟩
  obtain ⟨rfl, rfl⟩ := Prod.mk.inj same
  exact .here ⟨group, pc, reached, rfl⟩

/-- One more claim comes to look for a message, and has put back whatever lease was over by then. -/
theorem World.claims_again (world : World T V) (older : before ≤ world.tasks.length) :
    CanReach World.step (World.Consuming before) (fun next => before ≤ next.tasks.length ∧
      (∃ i, before ≤ i ∧ next.tasks[i]? = some ⟨.claim, .claimNext, false⟩) ∧
      next.shared.now = world.shared.now ∧ world.shared.group.Lays next.shared.group ∧
      ∀ id lease, world.shared.group.state.leased.lookup id = some lease →
        lease.expired world.shared.now → next.shared.group.Settled id) world := by
  -- A new claim comes last in the pool, and first puts back what has expired.
  have fresh : world.Fresh (.claim : Call T V) := fun _ _ _ made => by cases made
  have begun : world.step (.call .claim) = some (world.spawn ⟨.claim, .reclaimExpired, false⟩) := if_pos fresh
  have found : (world.spawn ⟨.claim, .reclaimExpired, false⟩).tasks[world.tasks.length]? =
      some ⟨.claim, .reclaimExpired, false⟩ := List.getElem?_concat_length
  refine .after begun rfl ((World.comes older found (ConsumerGroup.reclaim_settles _)).trans ?_)
  rintro _ ⟨group, _, ⟨rfl, lays, settled⟩, rfl⟩
  have bound := (List.getElem?_eq_some_iff.mp found).1
  refine .here ⟨?_, ⟨_, older, List.getElem?_set_self bound⟩, rfl, lays, settled⟩
  show before ≤ (List.set _ _ _).length
  rw [List.length_set]
  exact older.trans bound.le

/-- A claim that looks for a message gets the first one, and those behind it move up for the next claim. -/
theorem World.obtains (place : Nat) (world : World T V) (older : before ≤ world.tasks.length)
    (looks : ∃ i, before ≤ i ∧ world.tasks[i]? = some ⟨.claim, .claimNext, false⟩)
    (there : ((world.shared.group.state.promoteReadyDelayed world.shared.now).pending.map Pending.id)[place]? = some id) :
    CanReach World.step (World.Consuming before) (World.Obtained before id) world := by
  -- The induction is on how many messages are in front: each of them takes one more claim.
  induction place generalizing world with
  | zero =>
    obtain ⟨i, since, found⟩ := looks
    have bound := (List.getElem?_eq_some_iff.mp found).1
    cases front : (world.shared.group.state.promoteReadyDelayed world.shared.now).pending with
    | nil => rw [front] at there; cases there
    | cons entry rest =>
      rw [front] at there
      obtain rfl : entry.id = id := Option.some.inj there
      refine (World.comes since found (ConsumerGroup.claimNext_grants front)).trans ?_
      rintro _ ⟨group, _, ⟨claim, rfl, same, active, _⟩, rfl⟩
      exact .here (.inr ⟨i, claim, since, List.getElem?_set_self bound, same, active⟩)
  | succ place ih =>
    obtain ⟨i, since, found⟩ := looks
    cases front : (world.shared.group.state.promoteReadyDelayed world.shared.now).pending with
    | nil => rw [front] at there; cases there
    | cons entry rest =>
      rw [front] at there
      have behind : (rest.map Pending.id)[place]? = some id := there
      refine (World.comes since found (ConsumerGroup.claimNext_grants front)).trans ?_
      rintro _ ⟨group, _, ⟨claim, rfl, _, _, left⟩, rfl⟩
      -- Another claim comes to look, and finds the pending messages as this one leaves them.
      refine .trans (World.claims_again _ (by rwa [List.length_set])) ?_
      rintro next ⟨older, looks, _, lays, _⟩
      refine ih next older looks ?_
      have kept : next.shared.group.state.pending = rest := lays.pending.trans left
      simp only [State.promoteReadyDelayed, kept, List.map_append]
      rw [List.getElem?_append_left (List.getElem?_eq_some_iff.mp behind).1]
      exact behind

/-- A message that waits out a backoff is obtained once the backoff is over, and a dead letter is one already. -/
theorem ConsumerGroup.Settled.obtained (settled : world.shared.group.Settled id) (older : before ≤ world.tasks.length) :
    CanReach World.step (World.Consuming before) (World.Obtained before id) world := by
  rcases settled with ⟨entry, member, rfl⟩ | found
  · obtain ⟨elapsed, late, passed⟩ := world.waits entry.availableAt
    refine .after passed True.intro (.trans (World.claims_again _ older) ?_)
    rintro next ⟨older, looks, same, lays, _⟩
    -- The claim promotes the message.
    have promoted : entry.pending ∈ (next.shared.group.state.promoteReadyDelayed next.shared.now).pending := by
      refine List.mem_append_right _ (List.mem_map.mpr ⟨entry, List.mem_filter.mpr ⟨lays.delayed entry member, ?_⟩, rfl⟩)
      rw [same]
      exact decide_eq_true late
    obtain ⟨place, there⟩ := List.mem_iff_getElem?.mp (List.mem_map_of_mem (f := Pending.id) promoted)
    exact World.obtains place next older looks there
  · exact .here (.inl found)

end

/-- In any state whatever, a message that is pending, leased, delayed or dead-lettered can come to one more
consumer, or is a dead letter in the end, if only time passes and that consumer claims. -/
theorem World.deliverable (world : World T V) (id : MessageId) (houses : world.shared.group.Houses id) :
    CanReach World.step (World.Consuming world.tasks.length) (World.Obtained world.tasks.length id) world := by
  rcases houses with ⟨entry, member, rfl⟩ | ⟨lease, found⟩ | delayed | dead
  · refine (World.claims_again world le_rfl).trans ?_
    rintro next ⟨older, looks, _, lays, _⟩
    have there : entry.id ∈ ((next.shared.group.state.promoteReadyDelayed next.shared.now).pending.map Pending.id) := by
      refine List.mem_map_of_mem (List.mem_append_left _ ?_)
      rwa [lays.pending]
    obtain ⟨place, at_⟩ := List.mem_iff_getElem?.mp there
    exact World.obtains place next older looks at_
  · -- The lease ends, and the claim that finds it so puts the message back.
    obtain ⟨elapsed, late, passed⟩ := world.waits lease.expiresAt
    refine .after passed True.intro (.trans (World.claims_again _ le_rfl) ?_)
    rintro next ⟨older, _, _, _, settled⟩
    exact (settled id lease found (decide_eq_true late)).obtained older
  · exact ConsumerGroup.Settled.obtained (.inl delayed) le_rfl
  · exact .here (.inl dead)

/-- A message is claimed, and its consumer is never heard of again. -/
def claimedAndLeft : List (Action Nat Nat) :=
  Action.run 0 (.enqueue ⟨⟨0⟩, 10, none⟩) 3 ++ Action.run 1 .claim 3

/-- Another consumer gets the message then. -/
theorem World.deliverable_leased : ∃ world : World Nat Nat, world.shared.group.state.leased.keys = {⟨0⟩} ∧
    CanReach World.step (World.Consuming world.tasks.length) (World.Obtained world.tasks.length ⟨0⟩) world := by
  have reachable : ∃ world : World Nat Nat, Reachable World.step (fun _ _ => True)
      (World.start 30 RetryPolicy.default) world ∧ world.shared.group.state.leased.keys = {⟨0⟩} ∧
        world.shared.group.Houses ⟨0⟩ :=
    reaches_of_exec claimedAndLeft _ (by decide +kernel)
  obtain ⟨world, _, leased, houses⟩ := reachable
  exact ⟨world, leased, world.deliverable ⟨0⟩ houses⟩

end Qaas
