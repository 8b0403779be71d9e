import Mathlib.Data.List.DropRight
import Qaas.Group.Balance

/-! Where a message's checkpoint is kept: in its entry while it is live, and in the main log. -/

namespace Qaas

open Concurrency

variable {T V : Type}

/-- The latest checkpoint of a message among some records. -/
def lastCheckpoint (id : MessageId) (records : List (WalRecord T V)) : Option V :=
  records.foldl (fun last record =>
    match record with
    | .checkpoint other state => if other = id then some state else last
    | _ => last) none

/-- Whether a record puts a message into the live queue. -/
def WalRecord.requeues (id : MessageId) : WalRecord T V → Bool
  | .enqueue other _ _ => decide (other = id)
  | _ => false

/-- The records written since a message was last put into the live queue. -/
def sinceEnqueue (id : MessageId) (records : List (WalRecord T V)) : List (WalRecord T V) :=
  records.rtakeWhile fun record => !record.requeues id

/-- The checkpoint that a message has got since it was last put into the live queue. -/
def currentCheckpoint (records : List (WalRecord T V)) (id : MessageId) : Option V :=
  lastCheckpoint id (sinceEnqueue id records)

/-- The latest checkpoint after one more record. -/
theorem lastCheckpoint_snoc (id : MessageId) (records : List (WalRecord T V)) (record : WalRecord T V) :
    lastCheckpoint id (records ++ [record]) =
      match record with
      | .checkpoint other state => if other = id then some state else lastCheckpoint id records
      | _ => lastCheckpoint id records := by
  simp [lastCheckpoint]

/-- Putting a message into the live queue starts it without a checkpoint. -/
theorem currentCheckpoint_enqueue (records : List (WalRecord T V)) (id other : MessageId)
    (key : Option IdempotencyKey) (item : T) :
    currentCheckpoint (records ++ [.enqueue other key item]) id =
      if other = id then none else currentCheckpoint records id := by
  -- The records since the last enqueue start over when this message is enqueued again.
  by_cases same : other = id
  · rw [currentCheckpoint, sinceEnqueue, List.rtakeWhile_concat_neg, if_pos same]
    · rfl
    · simp [WalRecord.requeues, same]
  · rw [currentCheckpoint, sinceEnqueue, List.rtakeWhile_concat_pos, lastCheckpoint_snoc, if_neg same]
    · rfl
    · simp [WalRecord.requeues, same]

/-- A checkpoint is its message's current one. -/
theorem currentCheckpoint_checkpoint (records : List (WalRecord T V)) (id other : MessageId) (state : V) :
    currentCheckpoint (records ++ [.checkpoint other state]) id =
      if other = id then some state else currentCheckpoint records id := by
  rw [currentCheckpoint, sinceEnqueue, List.rtakeWhile_concat_pos, lastCheckpoint_snoc]
  · rfl
  · rfl

/-- The records that end a message's life change no checkpoint. -/
theorem currentCheckpoint_end (records : List (WalRecord T V)) (id other : MessageId) :
    currentCheckpoint (records ++ [.ack other]) id = currentCheckpoint records id ∧
      currentCheckpoint (records ++ [.deadLettered other]) id = currentCheckpoint records id := by
  -- Neither record starts the message over and neither saves anything.
  constructor <;>
  · rw [currentCheckpoint, sinceEnqueue, List.rtakeWhile_concat_pos, lastCheckpoint_snoc]
    · rfl
    · rfl

/-- A message has a latest checkpoint exactly if some record is one. -/
theorem lastCheckpoint_eq_none {id : MessageId} {records : List (WalRecord T V)} :
    lastCheckpoint id records = none ↔ ∀ state, WalRecord.checkpoint id state ∉ records := by
  -- From the end of the log, for the last checkpoint is the one that counts.
  induction records using List.reverseRecOn with
  | nil => simp [lastCheckpoint]
  | append_singleton records record ih =>
    rw [lastCheckpoint_snoc]
    cases record with
    | checkpoint other state =>
      by_cases same : other = id
      · subst same
        simp only [if_true, List.mem_append, List.mem_singleton, reduceCtorEq, false_iff]
        intro absent
        exact absent state (.inr rfl)
      · simp [same, ih, Ne.symm same]
    | _ => simp [ih]

/-- A message's current checkpoint is its latest one, unless it has had none since it was enqueued. -/
theorem currentCheckpoint_eq {id : MessageId} {records : List (WalRecord T V)}
    (some_current : currentCheckpoint records id ≠ none) :
    currentCheckpoint records id = lastCheckpoint id records := by
  -- From the end of the log: an enqueue of this message would have left nothing current.
  induction records using List.reverseRecOn with
  | nil => rfl
  | append_singleton records record ih =>
    rw [lastCheckpoint_snoc]
    cases record with
    | enqueue other key item =>
      rw [currentCheckpoint_enqueue] at some_current ⊢
      split at some_current
      · exact absurd rfl some_current
      · rename_i apart
        rw [if_neg apart]
        exact ih some_current
    | checkpoint other state =>
      rw [currentCheckpoint_checkpoint] at some_current ⊢
      by_cases same : other = id
      · -- The checkpoint just saved is the last one and the current one.
        simp [same]
      · rw [if_neg same] at some_current
        simp only [same, if_false]
        exact ih some_current
    | ack other =>
      rw [(currentCheckpoint_end records id other).1] at some_current ⊢
      exact ih some_current
    | deadLettered other =>
      rw [(currentCheckpoint_end records id other).2] at some_current ⊢
      exact ih some_current

/-- The two agree exactly if a message that was ever checkpointed has been so since it was enqueued. -/
theorem currentCheckpoint_eq_iff {id : MessageId} {records : List (WalRecord T V)} :
    currentCheckpoint records id = lastCheckpoint id records ↔
      ((∃ state, WalRecord.checkpoint id state ∈ records) →
        ∃ state, WalRecord.checkpoint id state ∈ sinceEnqueue id records) := by
  have ever : lastCheckpoint id records = none ↔ _ := lastCheckpoint_eq_none
  have since : lastCheckpoint id (sinceEnqueue id records) = none ↔ _ := lastCheckpoint_eq_none
  constructor
  · -- Nothing saved since the enqueue means nothing current, yet the log remembers a state.
    rintro agree ⟨state, member⟩
    by_contra none_since
    rw [not_exists] at none_since
    exact ever.mp (agree.symm.trans (since.mpr none_since)) state member
  · intro resumes
    by_cases some_current : currentCheckpoint records id = none
    · rw [some_current]
      symm
      apply ever.mpr
      intro state member
      obtain ⟨later, again⟩ := resumes ⟨state, member⟩
      exact since.mp some_current later again
    · exact currentCheckpoint_eq some_current

/-- A replay finds each message's latest checkpoint. -/
theorem replay_checkpoints (records : List (WalRecord T V)) (id : MessageId) :
    (Replay.records records).checkpoints.lookup id = lastCheckpoint id records := by
  -- From the end of the log, one replayed record at a time.
  induction records using List.reverseRecOn with
  | nil => rfl
  | append_singleton records record ih =>
    rw [Replay.records_append, lastCheckpoint_snoc]
    cases record with
    | checkpoint other state =>
      by_cases same : other = id
      · subst same
        simp [Replay.record]
      · simp [Replay.record, same, Finmap.lookup_insert_of_ne _ (Ne.symm same), ih]
    | ack other =>
      simp only [Replay.record]
      -- An acknowledgement may compact the live map, but never the checkpoints.
      split <;> exact ih
    | _ => exact ih

/-- A message that is pending once gets its checkpoint back. -/
theorem restoreCheckpoints_of_count {pending : List (Pending T V)} {checkpoints : Checkpoints V}
    {entry : Pending T V} (member : entry ∈ restoreCheckpoints pending checkpoints)
    (once : (pending.map Pending.id).count entry.id ≤ 1) :
    entry.checkpoint = checkpoints.lookup entry.id := by
  -- Along the queue: each entry takes its checkpoint out of the map.
  induction pending generalizing checkpoints with
  | nil => cases member
  | cons first rest ih =>
    rw [restoreCheckpoints, List.mem_cons] at member
    rw [List.map_cons, List.count_cons] at once
    rcases member with rfl | later
    · rfl
    · -- The first entry is of another message, whose checkpoint is taken out of the map.
      have there : 0 < (rest.map Pending.id).count entry.id := by
        rw [← restoreCheckpoints_ids rest (checkpoints.erase first.id)]
        exact List.count_pos_iff.mpr (List.mem_map_of_mem later)
      have apart : first.id ≠ entry.id := by
        intro same
        simp only [same, beq_self_eq_true, if_true] at once
        omega
      rw [ih later (by omega), Finmap.lookup_erase_ne (Ne.symm apart)]

/-- The failed deliveries that a caller of `resolve_failed_delivery` has still to resolve. -/
def ResolveCaller.rest : ResolveCaller T V → List (FailedDelivery T V)
  | .nack => []
  | .reclaim rest => rest

/-- The failed deliveries that an operation has still to put back. -/
def Pc.failing : Pc T V → List (FailedDelivery T V)
  | .resolve failed caller => failed :: caller.rest
  | .insertDeadLetter _ caller | .appendDeadLettered _ caller => caller.rest
  | _ => []

/-- The checkpoints of all live entries have a property, which may depend on the message. -/
structure State.Keeps (ok : MessageId → Option V → Prop) (state : State T V) : Prop where
  pending : ∀ entry ∈ state.pending, ok entry.id entry.checkpoint
  delayed : ∀ entry ∈ state.delayed, ok entry.id entry.checkpoint
  leased : ∀ id lease, state.leased.lookup id = some lease → ok id lease.checkpoint

variable {ok : MessageId → Option V → Prop}

/-- A caller goes on with the failed deliveries that it has left. -/
theorem ResolveCaller.failing (caller : ResolveCaller T V) :
    (∀ failed ∈ caller.next.failing, failed ∈ caller.rest) ∧
      ∀ failed ∈ caller.failed.failing, failed ∈ caller.rest := by
  match caller with
  | .nack | .reclaim [] | .reclaim (_ :: _) =>
    exact ⟨fun _ member => member, fun _ member => member⟩

/-- A retry that becomes claimable keeps its checkpoint. -/
theorem State.Keeps.promote {state : State T V} (keeps : state.Keeps ok) (now : Instant) :
    (state.promoteReadyDelayed now).Keeps ok := by
  refine ⟨?_, ?_, keeps.leased⟩
  · intro entry member
    -- What becomes ready carries the checkpoint it was delayed with.
    rcases List.mem_append.mp member with before | ready
    · exact keeps.pending entry before
    · obtain ⟨retry, delayed, rfl⟩ := List.mem_map.mp ready
      exact keeps.delayed retry (List.mem_of_mem_filter delayed)
  · intro entry member
    exact keeps.delayed entry (List.mem_of_mem_filter member)

/-- Taking leases out leaves the others' checkpoints. -/
theorem State.Keeps.fewer {state : State T V} (keeps : state.Keeps ok) {leased : Leases T V}
    (kept : ∀ id lease, leased.lookup id = some lease → state.leased.lookup id = some lease)
    (dedup : Dedup) : State.Keeps ok { state with leased := leased, dedup := dedup } :=
  ⟨keeps.pending, keeps.delayed, fun id lease found => keeps.leased id lease (kept id lease found)⟩

/-- Only a message that is pushed, and a checkpoint that is stored, bring a new checkpoint in. -/
theorem Moved.keeps {now : Instant} {wallClock : Timestamp} {env : StepEnv}
    {group group' : ConsumerGroup T V} {pc next : Pc T V}
    (moved : Moved now wallClock env group pc group' next) (keeps : group.state.Keeps ok)
    (failing : ∀ failed ∈ pc.failing, ok failed.id failed.checkpoint)
    (pushed : ∀ message caller, pc = .pushPending message caller → ok message.id none)
    (unstored : ∀ id token state, pc ≠ .storeCheckpoint id token state) :
    group'.state.Keeps ok ∧ ∀ failed ∈ next.failing, ok failed.id failed.checkpoint := by
  cases moved with
  | quiet changed quiet =>
    -- Bookkeeping goes on to no failed delivery.
    refine ⟨keeps, fun failed member => ?_⟩
    cases quiet <;> cases member
  | @enqueueFailed message caller failed =>
    refine ⟨keeps, fun failed member => ?_⟩
    cases keyed : message.idempotencyKey <;> rw [keyed] at member <;> cases member
  | @pushPending message caller =>
    refine ⟨⟨?_, keeps.delayed, keeps.leased⟩, List.forall_mem_nil _⟩
    -- The message is pushed without a checkpoint.
    intro entry member
    rcases List.mem_append.mp member with before | new
    · exact keeps.pending entry before
    · obtain rfl := List.mem_singleton.mp new
      exact pushed message caller rfl
  | @reclaim order failed rest reclaims =>
    refine ⟨keeps.fewer (fun id lease found => ?_) _, ?_⟩
    · rw [lookup_foldl_erase] at found
      split at found
      · cases found
      · exact found
    · -- The failed deliveries are those of the leases that are taken out.
      intro other member
      have among : other ∈ failed :: rest := member
      rw [reclaims.taken, List.mem_filterMap] at among
      obtain ⟨id, _, same⟩ := among
      obtain ⟨lease, found, rfl⟩ := Option.map_eq_some_iff.mp same
      exact keeps.leased id lease found
  | @claimed entry rest front =>
    -- The lease takes over the checkpoint of the entry it is made from.
    have promoted := keeps.promote now
    refine ⟨⟨?_, promoted.delayed, ?_⟩, List.forall_mem_nil _⟩
    · intro other member
      exact promoted.pending other (by rw [front]; exact List.mem_cons_of_mem _ member)
    · intro id lease found
      rcases lookup_of_insert found with ⟨rfl, rfl⟩ | ⟨_, before⟩
      · exact promoted.pending entry (by rw [front]; exact List.mem_cons_self)
      · exact keeps.leased id lease before
  | promoted wakeAt empty => exact ⟨keeps.promote now, List.forall_mem_nil _⟩
  | @retried failed caller attemptsLeft =>
    refine ⟨⟨keeps.pending, ?_, keeps.leased⟩, ?_⟩
    · intro entry member
      rcases List.mem_append.mp member with before | new
      · exact keeps.delayed entry before
      · obtain rfl := List.mem_singleton.mp new
        exact failing failed List.mem_cons_self
    · exact fun other member => failing other (List.mem_cons_of_mem _ (caller.failing.1 other member))
  | @exhaustedWritten failed caller exhausted synced =>
    exact ⟨keeps, fun other member => failing other (List.mem_cons_of_mem _ member)⟩
  | @exhaustedFailed failed caller exhausted unsynced =>
    exact ⟨keeps, fun other member =>
      failing other (List.mem_cons_of_mem _ (caller.failing.2 other member))⟩
  | insertDeadLetter => exact ⟨keeps, failing⟩
  | @deadLetteredWritten id caller synced =>
    exact ⟨keeps, fun other member => failing other (caller.failing.1 other member)⟩
  | @deadLetteredFailed id caller unsynced =>
    exact ⟨keeps, fun other member => failing other (caller.failing.2 other member)⟩
  | acked active =>
    exact ⟨keeps.fewer (fun _ _ found => (lookup_of_erase found).2) _, List.forall_mem_nil _⟩
  | @nacked id token reason lease active =>
    refine ⟨keeps.fewer (fun _ _ found => (lookup_of_erase found).2) _, ?_⟩
    intro failed member
    obtain rfl := List.mem_singleton.mp member
    exact keeps.leased id lease (Option.filter_eq_some_iff.mp active).1
  | checkpointStored active => exact absurd rfl (unstored _ _ _)
  | @published id token data isFinal lease sequence active =>
    refine ⟨⟨keeps.pending, keeps.delayed, ?_⟩, List.forall_mem_nil _⟩
    intro other lease' found
    rcases lookup_of_insert found with ⟨rfl, rfl⟩ | ⟨_, before⟩
    · exact keeps.leased other lease (Option.filter_eq_some_iff.mp active).1
    · exact keeps.leased other lease' before
  | @removeWritten deadLetter caller synced =>
    refine ⟨keeps, ?_⟩
    cases caller with
    | reprocess => exact List.forall_mem_nil _
    | purge => cases carried : deadLetter.idempotencyKey <;> simp [TakeCaller.next, carried, Pc.failing]
  | _ => exact ⟨⟨keeps.pending, keeps.delayed, keeps.leased⟩, List.forall_mem_nil _⟩

end Qaas
