import Qaas.Group.KeyUse
import Qaas.Group.Ledger
import Qaas.Ordered.Histories

/-! The keys that an opened group holds, read off the records of its two logs. -/

namespace Qaas

open Histories

variable {T V : Type}

/-- What a record does to the queue of the pending messages of one id, each under its key. -/
def WalRecord.queueOp (id : MessageId) : WalRecord T V → QueueOp (Option IdempotencyKey)
  | .enqueue other idempotencyKey _ => if other = id then .push idempotencyKey else .keep
  | .ack other | .deadLettered other => if other = id then .pop else .keep
  | .checkpoint _ _ => .keep

/-- A message is enqueued under the key, and the removals of its id that follow do not reach it. -/
def StillWaits (records : List (WalRecord T V)) (key : IdempotencyKey) : Prop :=
  ∃ before id item after, records = before ++ .enqueue id (some key) item :: after ∧
    pops (WalRecord.queueOp id) after ≤ lengthAfter (WalRecord.queueOp id) before

/-- A message is enqueued under the key, and the next removal of its id is the one that reaches
it. -/
def IsNext (records : List (WalRecord T V)) (id : MessageId) (key : IdempotencyKey) : Prop :=
  ∃ before item after, records = before ++ .enqueue id (some key) item :: after ∧
    pops (WalRecord.queueOp id) after = lengthAfter (WalRecord.queueOp id) before

/-- A message is enqueued under the key, and no later `Ack` reaches a message under that key. -/
def StillTaken (records : List (WalRecord T V)) (key : IdempotencyKey) : Prop :=
  ∃ before id item after, records = before ++ .enqueue id (some key) item :: after ∧
    ∀ middle other rest, after = middle ++ .ack other :: rest →
      ¬ IsNext (before ++ .enqueue id (some key) item :: middle) other key

/-- Whether a record replaces or removes the dead letter of a message. -/
def DlqRecord.settles (id : MessageId) : DlqRecord T V → Bool
  | .deadLetter letter => letter.id = id
  | .remove other => other = id
  | .annotate _ _ => false

/-- A dead letter is recorded under the key, and no later record replaces or removes it. -/
def StillDead (records : List (DlqRecord T V)) (key : IdempotencyKey) : Prop :=
  ∃ before deadLetter after, records = before ++ .deadLetter deadLetter :: after ∧
    deadLetter.idempotencyKey = some key ∧ ∀ record ∈ after, record.settles deadLetter.id = false

/-- A group holds a key: one of its messages carries it, or a registration is under it. -/
def ConsumerGroup.HoldsKey (group : ConsumerGroup T V) (key : IdempotencyKey) : Prop :=
  (∃ entry ∈ group.state.pending, entry.idempotencyKey = some key) ∨
    (∃ id lease, group.state.leased.lookup id = some lease ∧ lease.idempotencyKey = some key) ∨
    (∃ entry ∈ group.state.delayed, entry.idempotencyKey = some key) ∨
    (group.state.dedup.lookup key).isSome ∨
    ∃ id deadLetter, group.dlq.entries.lookup id = some deadLetter ∧
      deadLetter.idempotencyKey = some key

/-- Only an enqueue pushes, for its own id and under its own key. -/
theorem WalRecord.queueOp_eq_push {id : MessageId} {record : WalRecord T V}
    {key : Option IdempotencyKey} :
    record.queueOp id = .push key ↔ ∃ item, record = .enqueue id key item := by
  -- A record about another id, and one that takes out, is no push.
  cases record with
  | enqueue other taken item =>
    by_cases same : other = id
    · simp [queueOp, same]
    · simp [queueOp, same]
  | ack other | deadLettered other =>
    by_cases same : other = id
    · simp [queueOp, same]
    · simp [queueOp, same]
  | checkpoint other state => simp [queueOp]

/-- Erasing the first entry of an id takes the front off the queue of that id, and of no other. -/
theorem filter_eraseP (entries : List (Pending T V)) (id other : MessageId) :
    ((entries.eraseP fun entry => entry.id = other).filter fun entry => entry.id = id) =
      if other = id then (entries.filter fun entry => entry.id = id).tail
      else entries.filter fun entry => entry.id = id := by
  -- Along the queue, up to the entry that is taken out.
  induction entries with
  | nil => simp
  | cons entry rest ih =>
    by_cases here : entry.id = other
    · rw [List.eraseP_cons_of_pos (by simpa using here)]
      subst here
      by_cases same : entry.id = id
      · simp [same]
      · simp [same]
    · rw [List.eraseP_cons_of_neg (by simpa using here), List.filter_cons, List.filter_cons, ih]
      by_cases same : other = id
      · subst same
        simp [here]
      · simp [same]

/-- The pending messages of an id are what the records leave of its queue. -/
theorem Replay.lane (records : List (WalRecord T V)) (id : MessageId) :
    ((Replay.records records).pending.filter fun entry => entry.id = id).map Pending.idempotencyKey =
      queueAfter (WalRecord.queueOp id) records := by
  induction records using List.reverseRecOn with
  | nil => rfl
  | append_singleton records record ih =>
    rw [Replay.records_append, queueAfter_snoc, ← ih]
    -- One record pushes at the back of its own queue, or pops at the front of it.
    cases record with
    | enqueue other key item =>
      by_cases same : other = id
      · simp [Replay.record, WalRecord.queueOp, QueueOp.apply, Pending.fresh, List.filter_append, same]
      · simp [Replay.record, WalRecord.queueOp, QueueOp.apply, Pending.fresh, List.filter_append, same]
    | ack other =>
      rw [Replay.record_ack_pending, filter_eraseP]
      by_cases same : other = id
      · simp [WalRecord.queueOp, QueueOp.apply, same]
      · simp [WalRecord.queueOp, QueueOp.apply, same]
    | deadLettered other =>
      rw [Replay.record, filter_eraseP]
      by_cases same : other = id
      · simp [WalRecord.queueOp, QueueOp.apply, same]
      · simp [WalRecord.queueOp, QueueOp.apply, same]
    | checkpoint other state => rfl

/-- A replay leaves a message under a key pending exactly if one still waits. -/
theorem pending_iff_stillWaits {records : List (WalRecord T V)} {key : IdempotencyKey} :
    (∃ entry ∈ (Replay.records records).pending, entry.idempotencyKey = some key) ↔
      StillWaits records key := by
  have queued : (∃ entry ∈ (Replay.records records).pending, entry.idempotencyKey = some key) ↔
      ∃ id, some key ∈ queueAfter (WalRecord.queueOp id) records := by
    simp only [← Replay.lane, List.mem_map, List.mem_filter, decide_eq_true_eq]
    constructor
    · rintro ⟨entry, member, carries⟩
      exact ⟨entry.id, entry, ⟨member, rfl⟩, carries⟩
    · rintro ⟨id, entry, ⟨member, _⟩, carries⟩
      exact ⟨entry, member, carries⟩
  -- What a queue still has is what its pops have not reached.
  rw [queued]
  simp only [mem_queueAfter, WalRecord.queueOp_eq_push]
  constructor
  · rintro ⟨id, before, _, after, same, ⟨item, rfl⟩, within⟩
    exact ⟨before, id, item, after, same, within⟩
  · rintro ⟨before, id, item, after, same, within⟩
    exact ⟨id, before, _, after, same, ⟨item, rfl⟩, within⟩

/-- Whether an `Ack` of the id, after these records, finds a message under the key. -/
def Replay.finds (records : List (WalRecord T V)) (id : MessageId) (key : IdempotencyKey) : Bool :=
  ((Replay.records records).pending.find? fun entry => entry.id = id).map Pending.idempotencyKey =
    some (some key)

/-- The message that an `Ack` finds is under a key exactly if such a message is next. -/
theorem Replay.finds_iff_isNext {records : List (WalRecord T V)} {id : MessageId} {key : IdempotencyKey} :
    Replay.finds records id key ↔ IsNext records id key := by
  -- The message that is found is the front of its id's queue.
  rw [finds, decide_eq_true_eq, ← List.head?_filter, ← List.head?_map, lane, List.head?_eq_getElem?,
    queueAfter_getElem?]
  simp only [WalRecord.queueOp_eq_push, Nat.add_zero]
  constructor
  · rintro ⟨before, _, after, same, ⟨item, rfl⟩, counted⟩
    exact ⟨before, item, after, same, counted⟩
  · rintro ⟨before, item, after, same, counted⟩
    exact ⟨before, _, after, same, ⟨item, rfl⟩, counted⟩

/-- What a record does to the registration of a key, after those before it. -/
def Dedup.effect (key : IdempotencyKey) (before : List (WalRecord T V)) :
    WalRecord T V → Option (Option MessageId)
  | .enqueue id taken _ => if taken = some key then some (some id) else none
  | .ack id => if Replay.finds before id key then some none else none
  | _ => none

/-- A record sets, clears or leaves a key's registration. -/
theorem Replay.dedup_snoc (key : IdempotencyKey) (records : List (WalRecord T V))
    (record : WalRecord T V) :
    (Replay.records (records ++ [record])).dedup.lookup key =
      (Dedup.effect key records record).getD ((Replay.records records).dedup.lookup key) := by
  rw [Replay.records_append]
  cases record with
  | enqueue id taken item =>
    by_cases same : taken = some key
    · subst same
      rw [Dedup.effect, if_pos rfl]
      exact Finmap.lookup_insert _
    · rw [Dedup.effect, if_neg same]
      exact Dedup.register_other _ same id
  | ack id =>
    rw [Dedup.effect]
    by_cases finds : Replay.finds records id key
    · -- The message that is found carries the key, which is released with it.
      rw [if_pos finds]
      obtain ⟨acked, found, carries⟩ := Option.map_eq_some_iff.mp (of_decide_eq_true finds)
      simp only [Replay.record, found, carries]
      exact Finmap.lookup_erase _ _
    · rw [if_neg finds]
      simp only [Replay.record]
      split
      · rename_i acked found
        have apart : acked.idempotencyKey ≠ some key := by
          intro carries
          exact finds (decide_eq_true (by rw [found, Option.map_some, carries]))
        exact Dedup.release_other _ apart
      · rfl
  | deadLettered id => rfl
  | checkpoint id state => rfl

/-- Only an enqueue under the key registers it. -/
theorem Dedup.effect_eq_some {key : IdempotencyKey} {before : List (WalRecord T V)}
    {record : WalRecord T V} {owner : MessageId} :
    Dedup.effect key before record = some (some owner) ↔ ∃ item, record = .enqueue owner (some key) item := by
  -- An acknowledgement can only clear, and an enqueue under another key leaves this one.
  cases record with
  | enqueue id taken item =>
    by_cases same : taken = some key
    · simp [effect, same]
    · simp [effect, same]
  | ack id =>
    by_cases finds : Replay.finds before id key
    · simp [effect, finds]
    · simp [effect, finds]
  | deadLettered id => simp [effect]
  | checkpoint id state => simp [effect]

/-- Only an acknowledgement that reaches a message under the key clears it. -/
theorem Dedup.effect_eq_clear {key : IdempotencyKey} {before : List (WalRecord T V)}
    {record : WalRecord T V} :
    Dedup.effect key before record = some none ↔ ∃ id, record = .ack id ∧ IsNext before id key := by
  -- An enqueue can only set, and dead-lettering keeps the registration.
  cases record with
  | enqueue id taken item =>
    by_cases same : taken = some key
    · simp [effect, same]
    · simp [effect, same]
  | ack id => simp [effect, Replay.finds_iff_isNext]
  | deadLettered id => simp [effect]
  | checkpoint id state => simp [effect]

/-- A replay leaves a key registered exactly if it is still taken. -/
theorem dedup_iff_stillTaken {records : List (WalRecord T V)} {key : IdempotencyKey} :
    ((Replay.records records).dedup.lookup key).isSome ↔ StillTaken records key := by
  rw [isSome_iff_notCleared (fun records => (Replay.records records).dedup.lookup key) (Dedup.effect key)
    rfl (Replay.dedup_snoc key) records]
  simp only [Dedup.effect_eq_some, ne_eq, Dedup.effect_eq_clear, not_exists, not_and]
  constructor
  · rintro ⟨before, _, after, same, ⟨id, item, rfl⟩, uncleared⟩
    exact ⟨before, id, item, after, same, fun middle other rest split =>
      uncleared middle _ rest split other rfl⟩
  · rintro ⟨before, id, item, after, same, untouched⟩
    refine ⟨before, _, after, same, ⟨id, item, rfl⟩, ?_⟩
    rintro middle _ rest split other rfl
    exact untouched middle other rest split

/-- An annotation changes no entry's key. -/
theorem DeadLetters.key_of_annotate (entries : DeadLetters T V) (id other : MessageId)
    (verdict : TriageVerdict) :
    ((entries.annotate other verdict).lookup id).map DeadLetter.idempotencyKey =
      (entries.lookup id).map DeadLetter.idempotencyKey := by
  simp only [annotate]
  -- The annotated entry is stored again under its key, and the others stay.
  split
  · rename_i entry stored
    by_cases same : id = other
    · subst same
      rw [Finmap.lookup_insert, stored]
      rfl
    · rw [Finmap.lookup_insert_of_ne _ same]
  · rfl

/-- What a record does to the key of a message's dead letter. -/
def DlqRecord.effect (id : MessageId) : DlqRecord T V → Option (Option (Option IdempotencyKey))
  | .deadLetter letter => if letter.id = id then some (some letter.idempotencyKey) else none
  | .remove other => if other = id then some none else none
  | .annotate _ _ => none

/-- A record that does not settle a message's dead letter leaves its key. -/
theorem DlqRecord.effect_eq_none {id : MessageId} {record : DlqRecord T V} :
    record.effect id = none ↔ record.settles id = false := by
  cases record with
  | deadLetter letter => simp [effect, settles]
  | remove other => simp [effect, settles]
  | annotate other verdict => simp [effect, settles]

/-- Only a dead letter of the message gives its entry a key. -/
theorem DlqRecord.effect_eq_some {id : MessageId} {key : Option IdempotencyKey} {record : DlqRecord T V} :
    record.effect id = some (some key) ↔
      ∃ letter, record = .deadLetter letter ∧ letter.id = id ∧ letter.idempotencyKey = key := by
  cases record with
  | deadLetter letter =>
    by_cases same : letter.id = id
    · simp [effect, same]
    · simp [effect, same]
  | remove other => simp [effect]
  | annotate other verdict => simp [effect]

/-- A record sets, clears or leaves the key of a message's dead letter. -/
theorem DeadLetters.key_snoc (id : MessageId) (records : List (DlqRecord T V)) (record : DlqRecord T V) :
    ((DeadLetters.replay (records ++ [record])).lookup id).map DeadLetter.idempotencyKey =
      (record.effect id).getD (((DeadLetters.replay records).lookup id).map DeadLetter.idempotencyKey) := by
  rw [replay_append]
  -- A record about another message changes nothing of this one's entry.
  cases record with
  | deadLetter letter =>
    by_cases same : letter.id = id
    · subst same
      simp [replayRecord, DlqRecord.effect]
    · simp [replayRecord, DlqRecord.effect, same, Finmap.lookup_insert_of_ne _ (Ne.symm same)]
  | remove other =>
    by_cases same : other = id
    · subst same
      simp [replayRecord, DlqRecord.effect]
    · simp [replayRecord, DlqRecord.effect, same, Finmap.lookup_erase_ne (Ne.symm same)]
  | annotate other verdict => exact key_of_annotate _ id other verdict

/-- A replay leaves a dead letter under a key exactly if one is still dead. -/
theorem entries_iff_stillDead {records : List (DlqRecord T V)} {key : IdempotencyKey} :
    (∃ id deadLetter, (DeadLetters.replay records).lookup id = some deadLetter ∧
      deadLetter.idempotencyKey = some key) ↔ StillDead records key := by
  have keyed : (∃ id deadLetter, (DeadLetters.replay records).lookup id = some deadLetter ∧
      deadLetter.idempotencyKey = some key) ↔
      ∃ id, ((DeadLetters.replay records).lookup id).map DeadLetter.idempotencyKey = some (some key) := by
    simp only [Option.map_eq_some_iff]
  rw [keyed]
  -- The last record that settles an entry is the one whose key it has.
  have last (id : MessageId) := eq_some_iff_lastRecord
    (fun records => ((DeadLetters.replay records).lookup id).map DeadLetter.idempotencyKey)
    (DlqRecord.effect (T := T) (V := V) id) rfl (DeadLetters.key_snoc id) records (some key)
  simp only [last, DlqRecord.effect_eq_some, DlqRecord.effect_eq_none]
  constructor
  · rintro ⟨id, before, _, after, same, ⟨letter, rfl, rfl, carries⟩, kept⟩
    exact ⟨before, letter, after, same, carries, kept⟩
  · rintro ⟨before, letter, after, same, carries, kept⟩
    exact ⟨letter.id, before, _, after, same, ⟨letter, rfl, rfl, carries⟩, kept⟩

/-- Restoring the checkpoints changes no key. -/
theorem restoreCheckpoints_keys (entries : List (Pending T V)) (checkpoints : Checkpoints V) :
    (restoreCheckpoints entries checkpoints).map Pending.idempotencyKey =
      entries.map Pending.idempotencyKey := by
  have messages := congrArg (List.map Message.idempotencyKey) (restoreCheckpoints_messages entries checkpoints)
  rw [List.map_map, List.map_map] at messages
  exact messages

/-- Reseeding takes no registration away. -/
theorem Dedup.reseed_isSome {dedup : Dedup} (listed : List (MessageId × Option IdempotencyKey))
    {key : IdempotencyKey} (present : (dedup.lookup key).isSome) :
    ((dedup.reseed listed).lookup key).isSome := by
  -- A key that some dead letter carries is registered anew, and any other stays.
  by_cases among : ∃ id, (id, some key) ∈ listed
  · obtain ⟨id, member⟩ := among
    have listed : ∃ last, (last, some key) ∈ listed ∧ (dedup.reseed listed).lookup key = some last :=
      Dedup.reseed_of_listed member
    obtain ⟨last, _, registered⟩ := listed
    rw [registered]
    rfl
  · rw [Dedup.reseed_of_unlisted fun id member => among ⟨id, member⟩]
    exact present

/-- The keys that an opened group holds are those that its logs leave in force, in whatever order
its dead letters are iterated. -/
theorem holdsKey_opened_iff (records : List (WalRecord T V)) (letters : List (DlqRecord T V))
    (visibilityTimeout : Duration) (retryPolicy : RetryPolicy) (order : List MessageId)
    (key : IdempotencyKey) :
    (ConsumerGroup.opened { records } { records := letters } visibilityTimeout retryPolicy order).HoldsKey
      key ↔ StillWaits records key ∨ StillTaken records key ∨ StillDead letters key := by
  have pending : (∃ entry ∈ restoreCheckpoints (Replay.records records).pending (Replay.records records).checkpoints,
      entry.idempotencyKey = some key) ↔ StillWaits records key := by
    rw [← pending_iff_stillWaits]
    simp only [← List.mem_map (f := Pending.idempotencyKey), restoreCheckpoints_keys]
  rw [← pending, ← dedup_iff_stillTaken, ← entries_iff_stillDead]
  constructor
  · rintro (waits | ⟨id, lease, leased, _⟩ | ⟨entry, delayed, _⟩ | registered | dead)
    · exact .inl waits
    · cases leased
    · cases delayed
    · -- A registration is the replay's, or that of a dead letter.
      obtain ⟨owner, found⟩ := Option.isSome_iff_exists.mp registered
      rcases Dedup.lookup_of_reseed found with replayed | listed
      · exact .inr (.inl (by rw [replayed]; rfl))
      · obtain ⟨stored, letter, entry, _, carries⟩ := mem_idsAndKeys listed
        exact .inr (.inr ⟨stored, letter, entry, carries⟩)
    · exact .inr (.inr dead)
  · rintro (waits | taken | dead)
    · exact .inl waits
    · exact .inr (.inr (.inr (.inl (Dedup.reseed_isSome _ taken))))
    · exact .inr (.inr (.inr (.inr dead)))

end Qaas
