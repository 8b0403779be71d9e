import Qaas.Concurrency.Backlog
import Qaas.Concurrency.Entries
import Qaas.Concurrency.History
import Qaas.DeadLetter.Calls

/-! Whether the log of a dead-letter queue still tells what its entries are. -/

namespace Qaas

open Concurrency

variable {T V : Type}

/-- The message that a record is about. -/
def DlqRecord.id : DlqRecord T V → MessageId
  | .deadLetter letter => letter.id
  | .remove id => id
  | .annotate id _ => id

/-- Whether a record puts an entry where there may be none. -/
def DlqRecord.inserts : DlqRecord T V → Bool
  | .deadLetter _ => true
  | _ => false

/-- The write to the entries that a call has logged and not made yet. -/
def DlqPc.unapplied : DlqPc T V → Option (DlqRecord T V)
  | .insert deadLetter => some (.deadLetter deadLetter)
  | .store id verdict => some (.annotate id verdict)
  | _ => none

/-- The message whose entry a call has removed without having logged it yet. -/
def DlqPc.unlogged : DlqPc T V → Option MessageId
  | .appendRemove id _ => some id
  | _ => none

/-- A call of `take` has removed a message's entry and is about to log it. -/
def DlqPool.Removing (pool : DlqPool T V) (id : MessageId) : Prop :=
  ∃ pc ∈ pool.tasks, pc.unlogged = some id

/-- A call of `record` has logged a dead letter of a message and is about to insert it. -/
def DlqPool.Recording (pool : DlqPool T V) (id : MessageId) : Prop :=
  ∃ pc ∈ pool.tasks, ∃ record ∈ pc.unapplied, record.inserts ∧ record.id = id

instance DlqPool.decidableRemoving (pool : DlqPool T V) (id : MessageId) :
    Decidable (pool.Removing id) :=
  inferInstanceAs (Decidable (∃ pc ∈ pool.tasks, pc.unlogged = some id))

instance DlqPool.decidableRecording (pool : DlqPool T V) (id : MessageId) :
    Decidable (pool.Recording id) :=
  inferInstanceAs (Decidable (∃ pc ∈ pool.tasks, ∃ record ∈ pc.unapplied, _ ∧ _))

/-- The writes logged and not made yet, after one more step. -/
def DlqPool.logged (backlog : Backlog (DlqRecord T V))
    (e : Transition (DlqPool T V) (DlqAction T V)) : Backlog (DlqRecord T V) :=
  match e.act with
  | .call _ => backlog
  | .step i => backlog.follow i (e.pre.shows DlqPc.unapplied i) (e.post.shows DlqPc.unapplied i)

/-- A call's next step does not turn the order of the entries against that of the log. -/
def DlqPc.InOrder (backlog : Backlog (DlqRecord T V)) (pool : DlqPool T V) (i : Nat) :
    DlqPc T V → Prop
  | .appendDeadLetter deadLetter => ¬ pool.Removing deadLetter.id
  | .remove id => (pool.shared.entries.lookup id).isSome → ¬ pool.Recording id
  | .insert deadLetter =>
    backlog.Yields DeadLetters.replayRecord pool.shared.entries i (.deadLetter deadLetter)
  | .store id verdict =>
    backlog.Yields DeadLetters.replayRecord pool.shared.entries i (.annotate id verdict)
  | _ => True

/-- A step does not turn the order of the entries against that of the log. -/
def DlqPool.InOrder (backlog : Backlog (DlqRecord T V))
    (e : Transition (DlqPool T V) (DlqAction T V)) : Prop :=
  match e.act with
  | .call _ => True
  | .step i => ∀ pc ∈ e.pre.tasks[i]?, pc.InOrder backlog e.pre i

/-- Every step of a run is in order, whatever was logged and not yet applied before it. -/
def DlqPool.Orderly (trace : List (Transition (DlqPool T V) (DlqAction T V))) : Prop :=
  Along DlqPool.InOrder DlqPool.logged [] trace

instance DlqPc.decidableInOrder [DecidableEq T] [DecidableEq V] (backlog : Backlog (DlqRecord T V))
    (pool : DlqPool T V) (i : Nat) : ∀ pc : DlqPc T V, Decidable (pc.InOrder backlog pool i)
  | .appendDeadLetter deadLetter => inferInstanceAs (Decidable (¬ pool.Removing deadLetter.id))
  | .remove id =>
    inferInstanceAs (Decidable ((pool.shared.entries.lookup id).isSome → ¬ pool.Recording id))
  | .insert _ | .store _ _ => inferInstanceAs (Decidable (Backlog.Yields _ _ _ _ _))
  | .appendRemove _ _ | .check _ _ | .appendAnnotate _ _ | .done _ => inferInstanceAs (Decidable True)

instance DlqPool.decidableInOrder [DecidableEq T] [DecidableEq V]
    (backlog : Backlog (DlqRecord T V)) :
    ∀ e : Transition (DlqPool T V) (DlqAction T V), Decidable (DlqPool.InOrder backlog e)
  | ⟨_, .call _, _⟩ => inferInstanceAs (Decidable True)
  | ⟨pool, .step i, _⟩ =>
    inferInstanceAs (Decidable (∀ pc ∈ pool.tasks[i]?, pc.InOrder backlog pool i))

instance DlqPool.decidableOrderly [DecidableEq T] [DecidableEq V]
    (trace : List (Transition (DlqPool T V) (DlqAction T V))) : Decidable (DlqPool.Orderly trace) :=
  inferInstanceAs (Decidable (Along DlqPool.InOrder DlqPool.logged [] trace))

/-- A record changes nothing of another message's entry. -/
theorem DeadLetters.replayRecord_other {entries : DeadLetters T V} {id : MessageId}
    {record : DlqRecord T V} (apart : id ≠ record.id) :
    (entries.replayRecord record).lookup id = entries.lookup id := by
  -- Only an annotation looks at what the store holds before it writes.
  cases record with
  | deadLetter letter => exact Finmap.lookup_insert_of_ne _ apart
  | remove other => exact Finmap.lookup_erase_ne apart
  | annotate other verdict =>
    rw [replayRecord, annotate]
    split
    · exact Finmap.lookup_insert_of_ne _ apart
    · rfl

/-- Two sets of entries that agree on a message agree on it after one more record. -/
theorem DeadLetters.replayRecord_congr {entries others : DeadLetters T V} {id : MessageId}
    (record : DlqRecord T V) (agree : entries.lookup id = others.lookup id) :
    (entries.replayRecord record).lookup id = (others.replayRecord record).lookup id := by
  -- A record reads at most the entry of the message it names.
  by_cases own : id = record.id
  · subst own
    cases record with
    | deadLetter letter => simp [replayRecord, DlqRecord.id]
    | remove id => simp [replayRecord, DlqRecord.id]
    | annotate id verdict =>
      simp only [DlqRecord.id] at agree ⊢
      cases found : others.lookup id <;> simp [replayRecord, annotate, agree, found]
  · rw [replayRecord_other own, replayRecord_other own, agree]

/-- A message without an entry gets one only from a dead letter of its own. -/
theorem DeadLetters.replayRecord_absent {entries : DeadLetters T V} {id : MessageId}
    {record : DlqRecord T V} (foreign : record.inserts → record.id ≠ id)
    (absent : entries.lookup id = none) : (entries.replayRecord record).lookup id = none := by
  -- A removal leaves it absent, and a verdict on a missing entry is ignored.
  by_cases own : id = record.id
  · subst own
    cases record with
    | deadLetter letter => exact absurd rfl (foreign rfl)
    | remove id => exact Finmap.lookup_erase _ _
    | annotate id verdict =>
      simp only [DlqRecord.id] at absent ⊢
      rw [replayRecord, annotate, absent]
      exact absent
  · rw [replayRecord_other own, absent]

/--
The log and the entries tell the same, once every call in flight has made its other step.

A message whose removal is still to be logged is told by the entries alone.
-/
structure DlqPool.Matched (backlog : Backlog (DlqRecord T V)) (pool : DlqPool T V) : Prop where
  intact : pool.shared.wal.torn = false
  lists : backlog.Lists (pool.shows DlqPc.unapplied)
  removed : ∀ id, pool.Removing id →
    (backlog.settle DeadLetters.replayRecord pool.shared.entries).lookup id = none
  kept : ∀ id, ¬ pool.Removing id →
    (backlog.settle DeadLetters.replayRecord pool.shared.entries).lookup id =
      (DeadLetters.replay pool.shared.wal.records).lookup id

variable {backlog : Backlog (DlqRecord T V)} {pool : DlqPool T V} {i : Nat} {pc next : DlqPc T V}

/-- A step of a call that removes nothing leaves the messages being removed as they are. -/
theorem DlqPool.removing_set (found : pool.tasks[i]? = some pc) (before : pc.unlogged = none)
    (after : next.unlogged = none) (shared : DeadLetterQueue T V) (id : MessageId) :
    DlqPool.Removing ⟨shared, pool.tasks.set i next⟩ id ↔ pool.Removing id := by
  constructor
  · intro removing
    -- The stepping call stands in no window, before the step or after it.
    exact (shown_of_set removing).resolve_left (by simp [after])
  · intro removing
    exact (shown_set next found removing).resolve_left (by simp [before])

/-- A step of a call keeps the backlog exact. -/
theorem DlqPool.Matched.lists_set (matched : pool.Matched backlog) (next : DlqPc T V)
    (found : pool.tasks[i]? = some pc) (single : pc.unapplied = none ∨ next.unapplied = none) (shared : DeadLetterQueue T V) :
    (backlog.follow i pc.unapplied next.unapplied).Lists
      (Pool.shows ⟨shared, pool.tasks.set i next⟩ DlqPc.unapplied) := by
  have own := Pool.shows_of_found DlqPc.unapplied found
  have moved : Pool.shows ⟨shared, pool.tasks.set i next⟩ DlqPc.unapplied i = next.unapplied :=
    Pool.shows_set_self DlqPc.unapplied next found
  -- The other calls owe what they owed before.
  have others (other : Nat) (apart : other ≠ i) :
      Pool.shows ⟨shared, pool.tasks.set i next⟩ DlqPc.unapplied other =
        pool.shows DlqPc.unapplied other :=
    Pool.shows_set_other next apart
  have followed := matched.lists.follow others (by rwa [own, moved])
  rwa [own, moved] at followed

/-- Logging a write that is still to be made keeps log and entries matched. -/
theorem DlqPool.Matched.append (matched : pool.Matched backlog) (found : pool.tasks[i]? = some pc)
    {record : DlqRecord T V} (idle : pc.unapplied = none) (owes : next.unapplied = some record)
    (before : pc.unlogged = none) (after : next.unlogged = none)
    (allowed : record.inserts → ¬ pool.Removing record.id) :
    DlqPool.Matched (backlog.follow i pc.unapplied next.unapplied)
      ⟨pool.shared.log record, pool.tasks.set i next⟩ := by
  have wal := DeadLetterQueue.log_wal matched.intact record
  refine ⟨by rw [wal]; exact matched.intact, matched.lists_set _ found (.inl idle) _, ?_, ?_⟩
  · intro id removing
    rw [removing_set found before after] at removing
    rw [idle, owes, Backlog.follow, Backlog.settle_concat]
    -- A dead letter of a message that is being removed would have been ruled out.
    refine DeadLetters.replayRecord_absent (fun inserts same => ?_) (matched.removed id removing)
    exact allowed inserts (same ▸ removing)
  · intro id staying
    rw [removing_set found before after] at staying
    simp only [idle, owes, Backlog.follow, Backlog.settle_concat, wal, DeadLetters.replay_append]
    exact DeadLetters.replayRecord_congr record (matched.kept id staying)

/-- Making a write that overtakes nothing keeps log and entries matched. -/
theorem DlqPool.Matched.apply (matched : pool.Matched backlog) (found : pool.tasks[i]? = some pc)
    {record : DlqRecord T V} (owes : pc.unapplied = some record) (done : next.unapplied = none)
    (before : pc.unlogged = none) (after : next.unlogged = none)
    (yields : backlog.Yields DeadLetters.replayRecord pool.shared.entries i record) :
    DlqPool.Matched (backlog.follow i pc.unapplied next.unapplied)
      ⟨{ pool.shared with entries := pool.shared.entries.replayRecord record },
        pool.tasks.set i next⟩ := by
  refine ⟨matched.intact, matched.lists_set _ found (.inr done) _, ?_, ?_⟩
  · -- Ids named by an open removal window.
    intro id removing
    rw [removing_set found before after] at removing
    -- The settled backlog does not tell whether the record came early or late.
    rw [owes, Backlog.follow, yields]
    exact matched.removed id removing
  · -- Ids the log and the store agree on, once the backlog is settled.
    intro id staying
    rw [removing_set found before after] at staying
    rw [owes, Backlog.follow, yields]
    exact matched.kept id staying

/-- A step that changes neither log nor entries keeps them matched. -/
theorem DlqPool.Matched.pass (matched : pool.Matched backlog) (found : pool.tasks[i]? = some pc)
    (idle : pc.unapplied = none) (still : next.unapplied = none)
    (before : pc.unlogged = none) (after : next.unlogged = none) :
    DlqPool.Matched (backlog.follow i pc.unapplied next.unapplied)
      ⟨pool.shared, pool.tasks.set i next⟩ := by
  -- Neither a store nor a log changed, so both halves carry over.
  refine ⟨matched.intact, matched.lists_set _ found (.inl idle) _, ?_, ?_⟩
  · intro id removing
    rw [removing_set found before after] at removing
    rw [idle, still]
    exact matched.removed id removing
  · intro id staying
    rw [removing_set found before after] at staying
    rw [idle, still]
    exact matched.kept id staying

/-- Removing an entry keeps log and entries matched if no dead letter of the message is to be inserted. -/
theorem DlqPool.Matched.remove (matched : pool.Matched backlog) {id : MessageId}
    {letter : DeadLetter T V} (found : pool.tasks[i]? = some (.remove id))
    (allowed : ¬ pool.Recording id) :
    DlqPool.Matched backlog ⟨{ pool.shared with entries := pool.shared.entries.erase id },
      pool.tasks.set i (.appendRemove id letter)⟩ := by
  -- The writes outstanding are other messages' dead letters, and verdicts, which find no entry.
  have gone : (backlog.settle DeadLetters.replayRecord (pool.shared.entries.erase id)).lookup id =
      none := by
    refine Backlog.settle_inv (fun entries => Finmap.lookup id entries = none)
      (fun task record member entries absent => ?_) (Finmap.lookup_erase _ _)
    refine DeadLetters.replayRecord_absent (fun inserts same => ?_) absent
    obtain ⟨pc, placed, owes⟩ := Option.bind_eq_some_iff.mp ((matched.lists task record).mp member)
    exact allowed ⟨pc, List.mem_of_getElem? placed, record, owes, inserts, same⟩
  -- Any other entry is untouched by the removal.
  have others {other : MessageId} (apart : other ≠ id) :
      (backlog.settle DeadLetters.replayRecord (pool.shared.entries.erase id)).lookup other =
        (backlog.settle DeadLetters.replayRecord pool.shared.entries).lookup other :=
    Backlog.settle_rel (fun x y => Finmap.lookup other x = Finmap.lookup other y)
      (fun _ record _ _ _ => DeadLetters.replayRecord_congr record)
      (Finmap.lookup_erase_ne apart)
  have lists : (backlog.follow i none none).Lists _ :=
    matched.lists_set (.appendRemove id letter) found (.inl rfl)
      { pool.shared with entries := pool.shared.entries.erase id }
  refine ⟨matched.intact, lists, ?_, ?_⟩
  · intro other removing
    by_cases same : other = id
    · rw [same]
      exact gone
    · -- Another open removal is another call's.
      rw [others same]
      refine matched.removed other ((shown_of_set removing).resolve_left fun own => ?_)
      exact same (Option.some.inj own).symm
  · intro other staying
    have same : other ≠ id := by
      rintro rfl
      have within := (List.getElem?_eq_some_iff.mp found).1
      exact staying ⟨_, List.mem_set within _, rfl⟩
    rw [others same]
    refine matched.kept other fun removing => staying ?_
    exact (shown_set _ found removing).resolve_left (by simp [DlqPc.unlogged])

/-- Logging a removal keeps log and entries matched. -/
theorem DlqPool.Matched.logRemove (matched : pool.Matched backlog) {id : MessageId}
    {letter : DeadLetter T V} (found : pool.tasks[i]? = some (.appendRemove id letter))
    (idle : next.unapplied = none) (after : next.unlogged = none) :
    DlqPool.Matched (backlog.follow i none next.unapplied)
      ⟨pool.shared.log (.remove id), pool.tasks.set i next⟩ := by
  have wal := DeadLetterQueue.log_wal matched.intact (.remove id)
  -- The record joins the log while the call's window is still open.
  have own : pool.Removing id := ⟨_, List.mem_of_getElem? found, rfl⟩
  refine ⟨by rw [wal]; exact matched.intact, matched.lists_set _ found (.inl rfl) _, ?_, ?_⟩
  · intro other removing
    rw [idle]
    exact matched.removed other ((shown_of_set removing).resolve_left (by simp [after]))
  · intro other staying
    simp only [idle, Backlog.follow, wal, DeadLetters.replay_append, DeadLetterQueue.log_entries,
      DeadLetters.replayRecord]
    by_cases same : other = id
    · -- The entry is gone from both.
      rw [same, matched.removed id own, Finmap.lookup_erase]
    · -- Any other window is another call's.
      rw [Finmap.lookup_erase_ne same]
      refine matched.kept other fun removing => staying ?_
      refine (shown_set next found removing).resolve_left fun named => ?_
      exact same (Option.some.inj named).symm

/-- A new call has nothing outstanding. -/
theorem DlqCall.entry_unapplied (call : DlqCall T V) : call.entry.unapplied = none := by
  cases call <;> rfl

/-- A new call has removed nothing. -/
theorem DlqCall.entry_unlogged (call : DlqCall T V) : call.entry.unlogged = none := by
  cases call <;> rfl

/-- A new call keeps log and entries matched. -/
theorem DlqPool.Matched.spawn (matched : pool.Matched backlog) (call : DlqCall T V) :
    DlqPool.Matched backlog (pool.spawn call.entry) := by
  -- A call that only starts has logged nothing and owes nothing.
  have same (id : MessageId) : DlqPool.Removing (pool.spawn call.entry) id ↔ pool.Removing id := by
    simp [Removing, Pool.spawn, or_and_right, exists_or, call.entry_unlogged]
  refine ⟨matched.intact, ?_, fun id removing => matched.removed id ((same id).mp removing),
    fun id staying => matched.kept id fun removing => staying ((same id).mpr removing)⟩
  rw [Pool.shows_spawn call.entry_unapplied]
  exact matched.lists

/-- Every step in order keeps log and entries matched. -/
theorem DlqPool.Matched.step {act : DlqAction T V} {post : DlqPool T V}
    (matched : pool.Matched backlog) (inOrder : DlqPool.InOrder backlog ⟨pool, act, post⟩)
    (taken : DlqPool.step pool act = some post) :
    post.Matched (DlqPool.logged backlog ⟨pool, act, post⟩) := by
  cases act with
  | call call =>
    cases taken
    exact matched.spawn call
  | step i =>
    obtain ⟨pc, shared, next, found, moved, rfl⟩ := Pool.advance_eq_some.mp taken
    have allowed : pc.InOrder backlog pool i := inOrder pc found
    simp only [logged, Pool.shows_of_found DlqPc.unapplied found,
      Pool.shows_set_self DlqPc.unapplied next found]
    cases pc with
    -- A record is logged in one step and applied in another, except for a removal, which is applied first.
    | appendDeadLetter letter =>
      cases moved
      exact matched.append found rfl rfl rfl rfl fun _ => allowed
    | insert letter =>
      cases moved
      exact matched.apply found rfl rfl rfl rfl allowed
    | remove id =>
      simp only [DeadLetterQueue.move] at moved
      cases entry : pool.shared.entries.lookup id with
      | none =>
        rw [entry] at moved
        cases moved
        exact matched.pass found rfl rfl rfl rfl
      | some letter =>
        rw [entry] at moved
        cases moved
        exact matched.remove found (allowed (by rw [entry]; rfl))
    | appendRemove id letter =>
      cases moved
      exact matched.logRemove found rfl rfl
    | check id verdict =>
      -- Whether or not the entry is there, nothing has been logged yet.
      simp only [DeadLetterQueue.move] at moved
      split at moved
      · cases moved
        exact matched.pass found rfl rfl rfl rfl
      · cases moved
        exact matched.pass found rfl rfl rfl rfl
    | appendAnnotate id verdict =>
      cases moved
      exact matched.append found rfl rfl rfl rfl fun inserts => Bool.noConfusion inserts
    | store id verdict =>
      cases moved
      exact matched.apply found rfl rfl rfl rfl allowed
    | done result => cases moved

/-- An outstanding write never takes an entry out. -/
theorem DlqPc.lookup_unapplied {record : DlqRecord T V} (owes : pc.unapplied = some record)
    {entries : DeadLetters T V} {id : MessageId} (present : (entries.lookup id).isSome) :
    ((entries.replayRecord record).lookup id).isSome := by
  by_cases own : id = record.id
  · subst own
    -- What is still owed is a letter or a verdict; removals apply before they log.
    cases pc <;> cases owes
    · simp [DeadLetters.replayRecord, DlqRecord.id]
    · obtain ⟨entry, found⟩ := Option.isSome_iff_exists.mp present
      simp only [DlqRecord.id] at found
      simp [DeadLetters.replayRecord, DeadLetters.annotate, DlqRecord.id, found]
  · rwa [DeadLetters.replayRecord_other own]

/-- A message whose dead letter is to be inserted will have an entry. -/
theorem DlqPool.Recording.settles {id : MessageId} (recording : pool.Recording id)
    (lists : backlog.Lists (pool.shows DlqPc.unapplied)) (entries : DeadLetters T V) :
    ((backlog.settle DeadLetters.replayRecord entries).lookup id).isSome := by
  obtain ⟨pc, member, record, owes, inserts, about⟩ := recording
  obtain ⟨j, found⟩ := List.getElem?_of_mem member
  have listed : (j, record) ∈ backlog := by
    rw [lists, Pool.shows_of_found DlqPc.unapplied found]
    exact owes
  -- The log has the dead letter somewhere in the middle.
  obtain ⟨before, after, rfl⟩ := List.append_of_mem listed
  -- The dead letter puts the entry in, and no write after it takes the entry out.
  have inserted (entries : DeadLetters T V) : ((entries.replayRecord record).lookup id).isSome := by
    cases record with
    | deadLetter letter =>
      obtain rfl : letter.id = id := about
      simp [DeadLetters.replayRecord]
    | remove _ => cases inserts
    | annotate _ _ => cases inserts
  have kept : ∀ task other, (task, other) ∈ after → ∀ entries : DeadLetters T V,
      (entries.lookup id).isSome → ((entries.replayRecord other).lookup id).isSome := by
    intro task other member entries present
    have later := (lists task other).mp (List.mem_append_right _ (List.mem_cons_of_mem _ member))
    obtain ⟨holder, _, holds⟩ := Option.bind_eq_some_iff.mp later
    exact DlqPc.lookup_unapplied holds present
  rw [Backlog.settle_append]
  exact Backlog.settle_inv (fun entries => (Finmap.lookup id entries).isSome) kept (inserted _)

end Qaas
