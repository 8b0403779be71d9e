import Qaas.Group.Sound

/-! Which message a key names after a reopening, read off the records of the two logs. -/

namespace Qaas

open Concurrency

variable {T V : Type}

/-- Whether a record enqueues a message under a key. -/
def WalRecord.enqueues (key : IdempotencyKey) (id : MessageId) : WalRecord T V → Bool
  | .enqueue other carried _ => other = id ∧ carried = some key
  | _ => false

/-- Whether a message was enqueued under a key. -/
def carried (records : List (WalRecord T V)) (key : IdempotencyKey) (id : MessageId) : Bool :=
  records.any (WalRecord.enqueues key id)

/-- Whether a record takes a key for a message, or acknowledges a message that carries it. -/
def WalRecord.uses (records : List (WalRecord T V)) (key : IdempotencyKey) : WalRecord T V → Bool
  | .enqueue _ taken _ => taken = some key
  | .ack id => carried records key id
  | _ => false

/-- The message whose enqueue is the last record about a key, if that record is an enqueue. -/
def lastUser (records : List (WalRecord T V)) (key : IdempotencyKey) : Option MessageId :=
  match records.reverse.find? (WalRecord.uses records key) with
  | some (.enqueue id _ _) => some id
  | _ => none

/-- A message was enqueued under a key exactly if some record says so. -/
theorem carried_iff {records : List (WalRecord T V)} {key : IdempotencyKey} {id : MessageId} :
    carried records key id ↔ ∃ item, WalRecord.enqueue id (some key) item ∈ records := by
  rw [carried, List.any_eq_true]
  constructor
  · rintro ⟨record, member, enqueues⟩
    -- Only an enqueue record carries a key.
    cases record with
    | enqueue other taken item =>
      obtain ⟨rfl, rfl⟩ : other = id ∧ taken = some key := by simpa [WalRecord.enqueues] using enqueues
      exact ⟨item, member⟩
    | _ => cases enqueues
  · rintro ⟨item, member⟩
    exact ⟨_, member, by simp [WalRecord.enqueues]⟩

/-- An enqueue under a key is the last use of that key. -/
theorem lastUser_enqueue (records : List (WalRecord T V)) (key : IdempotencyKey) (id : MessageId)
    (item : T) : lastUser (records ++ [.enqueue id (some key) item]) key = some id := by
  simp [lastUser, WalRecord.uses]

/-- After an acknowledgement of one of its messages, a key has no user. -/
theorem lastUser_ack {records : List (WalRecord T V)} {key : IdempotencyKey} {id : MessageId}
    (carries : carried records key id) : lastUser (records ++ [.ack id]) key = none := by
  obtain ⟨item, member⟩ := carried_iff.mp carries
  -- The acknowledgement enqueues nothing.
  have still : carried (records ++ [.ack id]) key id :=
    carried_iff.mpr ⟨item, List.mem_append_left _ member⟩
  simp [lastUser, WalRecord.uses, still]

/-- A record about other keys leaves the last use of this one as it was. -/
theorem lastUser_other {records : List (WalRecord T V)} {key : IdempotencyKey}
    {record : WalRecord T V} (unused : record.uses records key = false) :
    lastUser (records ++ [record]) key = lastUser records key := by
  -- The record enqueues nothing under the key, so the messages that carry it are the same.
  have same : ∀ id, carried (records ++ [record]) key id = carried records key id := by
    intro id
    have silent : record.enqueues key id = false := by
      cases record with
      | enqueue other taken item =>
        have apart : taken ≠ some key := by simpa [WalRecord.uses] using unused
        simp [WalRecord.enqueues, apart]
      | _ => rfl
    simp [carried, silent]
  have uses : ∀ other : WalRecord T V,
      other.uses (records ++ [record]) key = other.uses records key := by
    intro other
    cases other with
    | ack id => exact same id
    | _ => rfl
  have shape : (WalRecord.uses (records ++ [record]) key : WalRecord T V → Bool) =
      WalRecord.uses records key := funext uses
  rw [lastUser, shape, List.reverse_append, List.reverse_singleton, List.singleton_append,
    List.find?_cons_of_neg (by simp [unused]), lastUser]

/-- Registering one key leaves the others. -/
theorem Dedup.register_other (dedup : Dedup) {taken : Option IdempotencyKey} {key : IdempotencyKey}
    (apart : taken ≠ some key) (id : MessageId) :
    (dedup.register taken id).lookup key = dedup.lookup key := by
  cases taken with
  | none => rfl
  | some other =>
    have different : key ≠ other := fun same => apart (by rw [same])
    exact Finmap.lookup_insert_of_ne _ different

/-- Releasing one key leaves the others. -/
theorem Dedup.release_other (dedup : Dedup) {released : Option IdempotencyKey} {key : IdempotencyKey}
    (apart : released ≠ some key) : (dedup.release released).lookup key = dedup.lookup key := by
  cases released with
  | none => rfl
  | some other =>
    have different : key ≠ other := fun same => apart (by rw [same])
    exact Finmap.lookup_erase_ne different

/-- A replay registers every key for its last user. -/
theorem lookup_of_lastUser {records : List (WalRecord T V)} {key : IdempotencyKey} {id : MessageId}
    (last : lastUser records key = some id) :
    (Replay.records records).dedup.lookup key = some id := by
  induction records using List.reverseRecOn with
  | nil => cases last
  | append_singleton records record ih =>
    rw [Replay.records_append]
    by_cases used : record.uses records key
    · -- The record is about the key, so it is an enqueue under it.
      cases record with
      | enqueue other taken item =>
        obtain rfl : taken = some key := by simpa [WalRecord.uses] using used
        rw [lastUser_enqueue] at last
        rw [← last]
        exact Finmap.lookup_insert _
      | ack other =>
        rw [lastUser_ack used] at last
        cases last
      | _ => cases used
    · rw [lastUser_other (by simpa using used)] at last
      have before := ih last
      cases record with
      | enqueue other taken item =>
        have apart : taken ≠ some key := by simpa [WalRecord.uses] using used
        exact (Dedup.register_other _ apart other).trans before
      | ack other =>
        simp only [Replay.record]
        split
        · rename_i acked found
          -- The acknowledged message was enqueued under no key, or under another one.
          have same : acked.id = other := by simpa using List.find?_some found
          have apart : acked.idempotencyKey ≠ some key := by
            intro carries
            have member := mem_of_replay_pending (List.mem_of_find?_eq_some found)
            rw [same, carries] at member
            exact used (carried_iff.mpr ⟨_, member⟩)
          exact (Dedup.release_other _ apart).trans before
        · exact before
      | deadLettered => exact before
      | checkpoint => exact before

/-- Reseeding with dead letters under other keys leaves a key's registration. -/
theorem Dedup.reseed_of_unlisted {dedup : Dedup} {listed : List (MessageId × Option IdempotencyKey)}
    {key : IdempotencyKey} (unlisted : ∀ id, (id, some key) ∉ listed) :
    (dedup.reseed listed).lookup key = dedup.lookup key := by
  -- Along the list, which registers one letter after the other.
  induction listed generalizing dedup with
  | nil => rfl
  | cons first rest ih =>
    have apart : first.2 ≠ some key := by
      intro same
      apply unlisted first.1
      rw [← same]
      exact List.mem_cons_self
    show ((dedup.register first.2 first.1).reseed rest).lookup key = _
    rw [ih fun id member => unlisted id (List.mem_cons_of_mem _ member)]
    exact register_other dedup apart first.1

/-- Reseeding registers a key for one of the dead letters that carry it. -/
theorem Dedup.reseed_of_listed {dedup : Dedup} {listed : List (MessageId × Option IdempotencyKey)}
    {key : IdempotencyKey} {id : MessageId} (member : (id, some key) ∈ listed) :
    ∃ last, (last, some key) ∈ listed ∧ (dedup.reseed listed).lookup key = some last := by
  induction listed generalizing dedup id with
  | nil => cases member
  | cons first rest ih =>
    show ∃ last, _ ∧ ((dedup.register first.2 first.1).reseed rest).lookup key = some last
    -- A dead letter further on with the same key overwrites the registration.
    by_cases later : ∃ other, (other, some key) ∈ rest
    · obtain ⟨other, among⟩ := later
      have onward : ∃ last, (last, some key) ∈ rest ∧
          ((dedup.register first.2 first.1).reseed rest).lookup key = some last := ih among
      obtain ⟨last, listed, registered⟩ := onward
      exact ⟨last, List.mem_cons_of_mem _ listed, registered⟩
    · have unlisted : ∀ other, (other, some key) ∉ rest := fun other among => later ⟨other, among⟩
      obtain rfl := (List.mem_cons.mp member).resolve_right (unlisted id)
      refine ⟨id, List.mem_cons_self, ?_⟩
      rw [reseed_of_unlisted unlisted]
      exact Finmap.lookup_insert _

/-- A reopening that finds dead letters under a key registers it for one of them. -/
theorem reopened_of_dead {group : ConsumerGroup T V} {order : List MessageId}
    (iterates : (DeadLetters.replay group.dlq.wal.records).Iterates order) {stored : MessageId}
    {deadLetter : DeadLetter T V} {key : IdempotencyKey}
    (entry : (DeadLetters.replay group.dlq.wal.records).lookup stored = some deadLetter)
    (carries : deadLetter.idempotencyKey = some key) :
    ∃ id dead, (DeadLetters.replay group.dlq.wal.records).lookup id = some dead ∧
      dead.idempotencyKey = some key ∧ (group.reopened order).state.dedup.lookup key = some id := by
  have member : stored ∈ order := by
    rw [← List.mem_toFinset, iterates.2, Finmap.mem_keys]
    exact Finmap.mem_of_lookup_eq_some entry
  have listed : (deadLetter.id, some key) ∈ (DeadLetterQueue.opened group.dlq.wal).idsAndKeys order := by
    apply List.mem_filterMap.mpr
    exact ⟨stored, member, by simp [DeadLetterQueue.opened, entry, carries]⟩
  obtain ⟨id, among, registered⟩ := Dedup.reseed_of_listed listed
  obtain ⟨other, dead, found, rfl, same⟩ := mem_idsAndKeys among
  -- A dead letter is stored under its own id.
  obtain ⟨rfl, _⟩ := mem_of_replay_entries found
  exact ⟨_, dead, found, same, registered⟩

/-- A reopening that finds no dead letter under a key registers it as the main log says. -/
theorem reopened_of_replayed {group : ConsumerGroup T V} {key : IdempotencyKey}
    (unused : ∀ id dead, (DeadLetters.replay group.dlq.wal.records).lookup id = some dead →
      dead.idempotencyKey ≠ some key) (order : List MessageId) :
    (group.reopened order).state.dedup.lookup key =
      (Replay.records group.wal.records).dedup.lookup key := by
  -- The dead letters are registered after the replay and leave this key alone.
  apply Dedup.reseed_of_unlisted
  intro id listed
  obtain ⟨stored, dead, entry, _, carries⟩ := mem_idsAndKeys listed
  exact unused stored dead entry carries

end Qaas
