import Mathlib.Data.List.Infix
import Mathlib.Data.List.Range
import Mathlib.Data.List.Sort
import Mathlib.Order.Basic
import Qaas.Concurrency.Run
import Qaas.Ordered.SortedMap
import Qaas.Raft.StateMachine

/-! The log of a raft node, kept in memory. -/

namespace Qaas

open Concurrency Ordered

/-- The id of an entry: the leader that has proposed it, and its index in the log. -/
structure LogId (T : Type) where
  leaderId : T
  index : UInt64
  deriving DecidableEq

variable {T M : Type}

/-- The entries of a log by their indexes, and the id of the last one that was purged. -/
structure LogStore (T M : Type) where
  log : SortedMap UInt64 (RaftEntry (LogId T) M)
  lastPurged : Option (LogId T)

/-- How far a log reaches. -/
structure LogState (T : Type) where
  lastPurgedLogId : Option (LogId T)
  lastLogId : Option (LogId T)

/-- A log without entries. -/
def LogStore.new : LogStore T M :=
  ⟨.empty, none⟩

/-- The entries with an index in a range. -/
def LogStore.tryGetLogEntries (store : LogStore T M) (start end_ : Bound UInt64) :
    Option (List (RaftEntry (LogId T) M)) :=
  (store.log.range start end_).map fun entries => entries.map Prod.snd

/-- The last log id is that of the last purged entry if no entry is left. -/
def LogStore.getLogState (store : LogStore T M) : LogState T :=
  ⟨store.lastPurged, (store.log.entries.getLast?.map fun entry => entry.2.logId).or store.lastPurged⟩

/-- Store entries under their indexes. -/
def LogStore.append (store : LogStore T M) (entries : List (RaftEntry (LogId T) M)) : LogStore T M :=
  { store with log := entries.foldl (fun log entry => log.insert entry.logId.index entry) store.log }

/-- Cut off an entry and what is behind it. -/
def LogStore.truncate (store : LogStore T M) (logId : LogId T) : LogStore T M :=
  { store with log := (store.log.splitOff logId.index).1 }

/-- A call that changes the log. -/
inductive LogCall (T M : Type) where
  | append (entries : List (RaftEntry (LogId T) M))
  | truncate (logId : LogId T)
  | purge (logId : LogId T)

/-- The index behind an id, or the first one. -/
def nextIndex (logId : Option (LogId T)) : ℕ :=
  (logId.map fun logId => logId.index.toNat + 1).getD 0

/-- The entries of a log, in the order of their indexes. -/
def LogStore.entries (store : LogStore T M) : List (RaftEntry (LogId T) M) :=
  store.log.entries.map Prod.snd

/-- The entries that a call appends. -/
def LogCall.appended : LogCall T M → List (RaftEntry (LogId T) M)
  | .append entries => entries
  | _ => []

/-- The last entry that was appended at an index. -/
def lastAppended (calls : List (LogCall T M)) (index : UInt64) : Option (RaftEntry (LogId T) M) :=
  ((calls.flatMap LogCall.appended).filter fun entry => entry.logId.index = index).getLast?

/-- Whether an index has an entry after a call, given whether it had one before. -/
def LogCall.leaves (call : LogCall T M) (index : UInt64) (was : Bool) : Bool :=
  match call with
  | .append entries => was || entries.any fun entry => entry.logId.index = index
  | .truncate logId => was && decide (index < logId.index)
  | .purge logId => was && decide (logId.index < index)

/-- An entry was appended at an index, and has not been cut off since. -/
def isLive (calls : List (LogCall T M)) (index : UInt64) : Bool :=
  calls.foldl (fun was call => call.leaves index was) false

section

variable {calls : List (LogCall T M)} {index : UInt64}

theorem isLive_concat (call : LogCall T M) :
    isLive (calls ++ [call]) index = call.leaves index (isLive calls index) := by
  -- The calls before it decide first, and the last one has the last word.
  unfold isLive
  rw [List.foldl_append]
  rfl

theorem lastAppended_concat (call : LogCall T M) : lastAppended (calls ++ [call]) index =
    ((call.appended.filter fun entry => entry.logId.index = index).getLast?).or (lastAppended calls index) := by
  -- What the last call appends is behind everything that was appended before.
  unfold lastAppended
  rw [List.flatMap_append, List.filter_append, List.getLast?_append]
  simp

/-- The last log id is that of the last entry, if there is one. -/
theorem LogStore.lastLogId_eq (store : LogStore T M) : store.getLogState.lastLogId =
    (store.entries.getLast?.map fun entry => entry.logId).or store.lastPurged := by
  unfold getLogState entries
  rw [List.getLast?_map, Option.map_map]
  rfl

/-- An index at which an entry is has had one appended. -/
theorem appended_of_isLive (live : isLive calls index = true) : ∃ entry, lastAppended calls index = some entry := by
  -- Induction on the calls, from the last one back: only an append makes an index live.
  induction calls using List.reverseRecOn with
  | nil => cases live
  | append_singleton calls call ih =>
    rw [isLive_concat] at live
    rw [lastAppended_concat]
    cases call with
    | append entries =>
      cases tail : ((LogCall.append entries).appended.filter fun entry => entry.logId.index = index).getLast? with
      | some added => exact ⟨added, rfl⟩
      | none =>
        -- None of the new entries has the index, so that it was live before.
        have without := List.filter_eq_nil_iff.mp (List.getLast?_eq_none_iff.mp tail)
        rcases Bool.or_eq_true_iff.mp live with was | new
        · exact ih was
        · obtain ⟨added, among, named⟩ := List.any_eq_true.mp new
          exact absurd named (without added among)
    | truncate logId => exact ih (Bool.and_eq_true_iff.mp live).1
    | purge logId => exact ih (Bool.and_eq_true_iff.mp live).1

/-- An index below the greatest one has one behind it. -/
theorem index_succ (small : index.toNat < 2 ^ 64 - 1) : (index + 1).toNat = index.toNat + 1 := by
  -- Only the greatest index wraps around.
  rw [UInt64.toNat_add]
  show (index.toNat + 1) % 2 ^ 64 = _
  omega

/-- What is cut off and what stays are the entries, one after the other. -/
theorem LogStore.splitOff_entries (store : LogStore T M) (index : UInt64) :
    (store.log.splitOff index).1.entries.map Prod.snd ++ (store.log.splitOff index).2.entries.map Prod.snd =
      store.entries := by
  rw [← List.map_append, SortedMap.splitOff_append]
  rfl

/-- Entries whose indexes grow, and are behind those of the log, are put at its end. -/
theorem insert_all {log : SortedMap UInt64 (RaftEntry (LogId T) M)} {entries : List (RaftEntry (LogId T) M)}
    (behind : ∀ stored ∈ log.entries, ∀ entry ∈ entries, stored.1 < entry.logId.index)
    (grow : entries.Pairwise fun first second => first.logId.index < second.logId.index) :
    (entries.foldl (fun log entry => log.insert entry.logId.index entry) log).entries =
      log.entries ++ entries.map fun entry => (entry.logId.index, entry) := by
  -- Induction on the entries: each is inserted behind those that are there by then.
  induction entries generalizing log with
  | nil => simp
  | cons entry entries ih =>
    obtain ⟨least, rest⟩ := List.pairwise_cons.mp grow
    have placed : (log.insert entry.logId.index entry).entries = log.entries ++ [(entry.logId.index, entry)] :=
      insertEntry_last fun stored member => behind stored member entry List.mem_cons_self
    have above : ∀ stored ∈ (log.insert entry.logId.index entry).entries, ∀ other ∈ entries,
        stored.1 < other.logId.index := by
      intro stored member other among
      rw [placed] at member
      rcases List.mem_append.mp member with old | new
      · exact behind stored old other (List.mem_cons_of_mem _ among)
      · obtain rfl := List.mem_singleton.mp new
        exact least other among
    have later := ih above rest
    rw [List.foldl_cons, later, placed, List.append_assoc]
    rfl

end

variable [LinearOrder T]

/-- Ids are compared by their leaders first. -/
instance : LT (LogId T) where
  lt first second := first.leaderId < second.leaderId ∨
    first.leaderId = second.leaderId ∧ first.index < second.index

instance : DecidableLT (LogId T) := fun first second =>
  inferInstanceAs (Decidable (first.leaderId < second.leaderId ∨
    first.leaderId = second.leaderId ∧ first.index < second.index))

/-- Cut off an entry and what is in front of it. -/
def LogStore.purge (store : LogStore T M) (logId : LogId T) : LogStore T M where
  lastPurged := if store.lastPurged.all fun purged => purged < logId then some logId else store.lastPurged
  log := (store.log.splitOff (logId.index + 1)).2

/-- What a call makes of the log; none of them fails. -/
def LogStore.step (store : LogStore T M) (call : LogCall T M) : Option (LogStore T M) :=
  match call with
  | .append entries => some (store.append entries)
  | .truncate logId => some (store.truncate logId)
  | .purge logId => some (store.purge logId)

/-- Entries follow an id, and each other, without a gap, and their ids grow. -/
def LogContinues (last : Option (LogId T)) : List (RaftEntry (LogId T) M) → Prop
  | [] => True
  | entry :: entries => entry.logId.index.toNat = nextIndex last ∧ (∀ id ∈ last, id < entry.logId) ∧
    LogContinues (some entry.logId) entries

/-- An id is the last one of a snapshot: it stands where its index says among the ids that were purged and
those that stay. -/
structure LogStore.OnSnapshot (store : LogStore T M) (logId : LogId T) : Prop where
  purged : ∀ purged ∈ store.lastPurged, purged < logId ↔ purged.index < logId.index
  stays : ∀ entry ∈ store.entries, logId.index < entry.logId.index → logId < entry.logId

/-- What the caller of a log store keeps to. -/
def LogStore.Allows (store : LogStore T M) : LogCall T M → Prop
  | .append entries => LogContinues store.getLogState.lastLogId entries
  | .truncate logId => ∀ purged ∈ store.lastPurged, purged.index < logId.index
  | .purge logId => logId.index.toNat < 2 ^ 64 - 1 ∧
    ((∃ entry ∈ store.entries, entry.logId = logId) ∨ store.OnSnapshot logId)

/-- A log store represents what the calls have made of the log. -/
structure LogStore.Represents (calls : List (LogCall T M)) (store : LogStore T M) : Prop where
  live : ∀ index, index ∈ store.log.keys ↔ isLive calls index = true
  contiguous : store.log.keys.map UInt64.toNat = List.range' (nextIndex store.lastPurged)
    (nextIndex store.getLogState.lastLogId - nextIndex store.lastPurged)
  state : store.getLogState = ⟨store.lastPurged,
    ((store.log.keys.getLast?.bind (lastAppended calls)).map fun entry => entry.logId).or store.lastPurged⟩
  read : ∀ start end_, start.inverted end_ = false → ∃ entries, store.tryGetLogEntries start end_ = some entries ∧
    entries.map some = (store.log.keys.filter fun index => start.startsBy index && end_.endsFrom index).map
      (lastAppended calls)

section

variable {last : Option (LogId T)} {entries more : List (RaftEntry (LogId T) M)}

theorem LogId.before_trans {first second third : LogId T} (one : first < second) (two : second < third) :
    first < third := by
  rcases one with one | ⟨same, one⟩ <;> rcases two with two | ⟨again, two⟩
  · exact .inl (lt_trans one two)
  · exact .inl (again ▸ one)
  · exact .inl (same ▸ two)
  · exact .inr ⟨same.trans again, UInt64.lt_trans one two⟩

/-- Entries that follow the last one of others follow them. -/
theorem logContinues_append : LogContinues last (entries ++ more) ↔
    LogContinues last entries ∧ LogContinues ((entries.getLast?.map fun entry => entry.logId).or last) more := by
  -- Induction on the first part, whose last entry is what the second part has to follow.
  induction entries generalizing last with
  | nil => simp [LogContinues]
  | cons entry entries ih =>
    have onward : ((entry :: entries).getLast?.map fun entry => entry.logId).or last =
        (entries.getLast?.map fun entry => entry.logId).or (some entry.logId) := by
      rw [List.getLast?_cons]
      cases entries.getLast? <;> rfl
    rw [onward]
    simp only [List.cons_append, LogContinues, ih, and_assoc]

/-- Entries without a gap have the indexes of a range. -/
theorem LogContinues.indexes (follows : LogContinues last entries) :
    (entries.map fun entry => entry.logId.index.toNat) = List.range' (nextIndex last) entries.length := by
  -- By induction on the entries: the first has the next index, and the rest goes on from there.
  induction entries generalizing last with
  | nil => rfl
  | cons entry entries ih =>
    obtain ⟨first, _, rest⟩ := follows
    have later := ih rest
    have next : nextIndex (some entry.logId) = nextIndex last + 1 := congrArg (· + 1) first
    rw [List.map_cons, later, next, first, List.length_cons, List.range'_succ]

/-- They are in front of the id that comes next. -/
theorem LogContinues.nextIndex_eq (follows : LogContinues last entries) :
    nextIndex ((entries.getLast?.map fun entry => entry.logId).or last) = nextIndex last + entries.length := by
  induction entries generalizing last with
  | nil => rfl
  | cons entry entries ih =>
    obtain ⟨first, _, rest⟩ := follows
    have later := ih rest
    have next : nextIndex (some entry.logId) = nextIndex last + 1 := congrArg (· + 1) first
    rw [List.getLast?_cons, List.length_cons]
    rw [next] at later
    -- The last entry is that of the rest, or the first one if there is no rest.
    cases tail : entries.getLast? with
    | none =>
      rw [tail] at later
      have final : nextIndex (some entry.logId) = nextIndex last + 1 + entries.length := next ▸ later
      show nextIndex (some entry.logId) = _
      omega
    | some final =>
      rw [tail] at later
      have final : nextIndex (some final.logId) = nextIndex last + 1 + entries.length := later
      show nextIndex (some _) = _
      simp only [Option.getD_some]
      omega

/-- They are behind what they follow. -/
theorem LogContinues.behind (follows : LogContinues last entries) {entry : RaftEntry (LogId T) M}
    (member : entry ∈ entries) : nextIndex last ≤ entry.logId.index.toNat ∧ ∀ id ∈ last, id < entry.logId := by
  induction entries generalizing last with
  | nil => cases member
  | cons first entries ih =>
    obtain ⟨next, before, rest⟩ := follows
    -- A later entry is behind the first one, which is behind what it follows.
    rcases List.mem_cons.mp member with rfl | later
    · exact ⟨next.ge, before⟩
    · obtain ⟨above, order⟩ := ih rest later
      have beyond : first.logId.index.toNat + 1 ≤ entry.logId.index.toNat := above
      exact ⟨by omega, fun id there => LogId.before_trans (before id there) (order _ rfl)⟩

/-- Their indexes grow. -/
theorem LogContinues.pairwise (follows : LogContinues last entries) :
    entries.Pairwise fun first second => first.logId.index < second.logId.index := by
  -- By induction on the entries: all that follow lie behind the first.
  induction entries generalizing last with
  | nil => exact .nil
  | cons first entries ih =>
    obtain ⟨_, _, rest⟩ := follows
    refine List.pairwise_cons.mpr ⟨fun entry member => ?_, ih rest⟩
    exact UInt64.lt_iff_toNat_lt.mpr (rest.behind member).1

/-- Their ids are in the order of their indexes. -/
theorem LogContinues.ordered (follows : LogContinues last entries) {one other : RaftEntry (LogId T) M}
    (among : one ∈ entries) (member : other ∈ entries) (before : one.logId.index < other.logId.index) :
    one.logId < other.logId := by
  induction entries generalizing last with
  | nil => cases among
  | cons first entries ih =>
    obtain ⟨_, _, rest⟩ := follows
    rcases List.mem_cons.mp member with rfl | later
    · -- Nothing of the list is in front of its first entry.
      rcases List.mem_cons.mp among with rfl | among
      · exact absurd before (UInt64.lt_irrefl _)
      · have after := (rest.behind among).1
        exact absurd (UInt64.lt_iff_toNat_lt.mp before) (Nat.lt_asymm after)
    · rcases List.mem_cons.mp among with rfl | among
      · exact (rest.behind later).2 _ rfl
      · exact ih rest among later

end

/-- The entries follow the last purged one, and are what the calls have left. -/
structure LogStore.Sound (calls : List (LogCall T M)) (store : LogStore T M) : Prop where
  keyed : ∀ entry ∈ store.log.entries, entry.2.logId.index = entry.1
  follows : LogContinues store.lastPurged store.entries
  stored : ∀ index entry, (index, entry) ∈ store.log.entries ↔
    isLive calls index = true ∧ lastAppended calls index = some entry

section

variable {calls : List (LogCall T M)} {store : LogStore T M} {index : UInt64} {entry : RaftEntry (LogId T) M}

/-- The log has the appended entries at its end. -/
theorem LogStore.Sound.append_entries (sound : Sound calls store) {entries : List (RaftEntry (LogId T) M)}
    (allowed : LogContinues store.getLogState.lastLogId entries) :
    (store.append entries).log.entries =
        store.log.entries ++ entries.map (fun entry => (entry.logId.index, entry)) ∧
      ∀ stored ∈ store.log.entries, ∀ entry ∈ entries, stored.1 < entry.logId.index := by
  have behind (stored : UInt64 × RaftEntry (LogId T) M) (member : stored ∈ store.log.entries)
      (entry : RaftEntry (LogId T) M) (among : entry ∈ entries) : stored.1 < entry.logId.index := by
    -- A stored index is one of the range that ends where the new entries begin.
    have above := (allowed.behind among).1
    rw [store.lastLogId_eq, sound.follows.nextIndex_eq] at above
    have inside : stored.2.logId.index.toNat ∈ store.entries.map fun entry => entry.logId.index.toNat :=
      List.mem_map_of_mem (List.mem_map_of_mem member)
    rw [sound.follows.indexes, List.mem_range'_1] at inside
    have named := sound.keyed stored member
    rw [named] at inside
    exact UInt64.lt_iff_toNat_lt.mpr (by omega)
  exact ⟨insert_all behind allowed.pairwise, behind⟩

theorem LogStore.Sound.append (sound : Sound calls store) {entries : List (RaftEntry (LogId T) M)}
    (allowed : store.Allows (.append entries)) :
    Sound (calls ++ [.append entries]) (store.append entries) := by
  obtain ⟨placed, behind⟩ := sound.append_entries allowed
  have values : (store.append entries).entries = store.entries ++ entries := by
    unfold LogStore.entries
    rw [placed, List.map_append, List.map_map]
    exact congrArg _ (List.map_id _)
  refine ⟨fun stored member => ?_, ?_, fun index entry => ?_⟩
  · rw [placed] at member
    rcases List.mem_append.mp member with old | new
    · exact sound.keyed stored old
    · obtain ⟨entry, _, rfl⟩ := List.mem_map.mp new
      rfl
  · rw [values]
    -- The new entries follow the last one, which is what openraft promises.
    refine logContinues_append.mpr ⟨sound.follows, ?_⟩
    have last : LogContinues store.getLogState.lastLogId entries := allowed
    rw [store.lastLogId_eq] at last
    exact last
  · rw [placed, isLive_concat, lastAppended_concat, List.mem_append, sound.stored]
    have new : (index, entry) ∈ entries.map (fun entry => (entry.logId.index, entry)) ↔
        entry ∈ entries.filter fun entry => entry.logId.index = index := by
      simp only [List.mem_map, List.mem_filter, Prod.mk.injEq, decide_eq_true_eq]
      constructor
      · rintro ⟨_, among, named, rfl⟩
        exact ⟨among, named⟩
      · exact fun ⟨among, named⟩ => ⟨entry, among, named, rfl⟩
    show _ ↔ (isLive calls index || entries.any _) = true ∧
      (entries.filter fun entry => entry.logId.index = index).getLast?.or _ = _
    rw [new]
    cases tail : (entries.filter fun entry => entry.logId.index = index).getLast? with
    | none =>
      -- None of the new entries has the index.
      have without := List.getLast?_eq_none_iff.mp tail
      have none_ : entries.any (fun entry => entry.logId.index = index) = false := by
        rw [List.any_eq_false]
        intro added among named
        have member : added ∈ entries.filter fun entry => entry.logId.index = index :=
          List.mem_filter.mpr ⟨among, named⟩
        rw [without] at member
        cases member
      simp [without, none_]
    | some added =>
      -- Only one of them has it, and no old one.
      have there := List.mem_of_getLast? tail
      obtain ⟨among, named⟩ := List.mem_filter.mp there
      have some_ : entries.any (fun entry => entry.logId.index = index) = true :=
        List.any_eq_true.mpr ⟨added, among, named⟩
      have fresh : ¬ (isLive calls index = true ∧ lastAppended calls index = some entry) := by
        rw [← sound.stored]
        intro old
        have before := behind _ old added among
        rw [of_decide_eq_true named] at before
        exact UInt64.lt_irrefl _ before
      have single (other : RaftEntry (LogId T) M)
          (member : other ∈ entries.filter fun entry => entry.logId.index = index) : other = added := by
        obtain ⟨inside, same⟩ := List.mem_filter.mp member
        have distinct : (entries.map fun entry => entry.logId.index).Nodup :=
          List.pairwise_map.mpr (allowed.pairwise.imp fun grows => UInt64.ne_of_lt grows)
        exact List.inj_on_of_nodup_map distinct inside among
          ((of_decide_eq_true same).trans (of_decide_eq_true named).symm)
      rw [some_, Bool.or_true, Option.some_or]
      constructor
      · rintro (old | new)
        · exact absurd old fresh
        · exact ⟨rfl, (single entry new) ▸ rfl⟩
      · rintro ⟨_, same⟩
        obtain rfl := Option.some.inj same
        exact .inr there

theorem LogStore.Sound.truncate (sound : Sound calls store) (logId : LogId T) :
    Sound (calls ++ [.truncate logId]) (store.truncate logId) := by
  refine ⟨fun stored member => sound.keyed stored (List.mem_of_mem_filter member), ?_, fun index entry => ?_⟩
  · have whole := sound.follows
    -- What stays is the front of a log without a gap.
    rw [← store.splitOff_entries logId.index] at whole
    exact (logContinues_append.mp whole).1
  · rw [isLive_concat, lastAppended_concat]
    show (index, entry) ∈ store.log.entries.filter _ ↔
      (isLive calls index && decide (index < logId.index)) = true ∧ lastAppended calls index = some entry
    rw [List.mem_filter, sound.stored, Bool.and_eq_true, and_right_comm]

/-- The last purged id does not go back. -/
theorem LogStore.purge_monotone (store : LogStore T M) (logId : LogId T) :
    ∀ purged ∈ store.lastPurged, ∃ later ∈ (store.purge logId).lastPurged, purged = later ∨ purged < later := by
  intro purged there
  -- An id that is not further than the last purged one does not take its place.
  unfold purge
  rw [Option.mem_def.mp there]
  simp only [Option.all_some, decide_eq_true_eq]
  split
  · rename_i further
    exact ⟨logId, rfl, .inr further⟩
  · exact ⟨purged, rfl, .inl rfl⟩

/-- An id of the log stands there where its index says. -/
theorem LogStore.Sound.onSnapshot (sound : Sound calls store) (member : entry ∈ store.entries) :
    store.OnSnapshot entry.logId where
  purged purged there := by
    obtain ⟨above, order⟩ := sound.follows.behind member
    have beyond : nextIndex (some purged) ≤ entry.logId.index.toNat := Option.mem_def.mp there ▸ above
    exact ⟨fun _ => UInt64.lt_iff_toNat_lt.mpr beyond, fun _ => order purged there⟩
  stays _ other after := sound.follows.ordered member other after

/-- What a purge leaves follows the last purged id. -/
theorem LogStore.Sound.purge_follows (sound : Sound calls store) {logId : LogId T}
    (allowed : store.Allows (.purge logId)) :
    LogContinues (store.purge logId).lastPurged (store.purge logId).entries := by
  obtain ⟨small, known⟩ := allowed
  -- Either way the id stands where its index says.
  have snapshot : store.OnSnapshot logId := by
    rcases known with ⟨entry, member, rfl⟩ | snapshot
    · exact sound.onSnapshot member
    · exact snapshot
  have next := index_succ small
  have whole := sound.follows
  rw [← store.splitOff_entries (logId.index + 1)] at whole
  -- The log is what is cut off, and what is kept behind it.
  generalize cutShape : (store.log.splitOff (logId.index + 1)).1.entries.map Prod.snd = cut at whole
  generalize keptShape : (store.log.splitOff (logId.index + 1)).2.entries.map Prod.snd = kept at whole
  have parts : cut ++ kept = store.entries := by
    rw [← cutShape, ← keptShape]
    exact store.splitOff_entries _
  have low (entry : RaftEntry (LogId T) M) (member : entry ∈ cut) : entry.logId.index.toNat ≤ logId.index.toNat := by
    rw [← cutShape] at member
    obtain ⟨stored, among, rfl⟩ := List.mem_map.mp member
    obtain ⟨old, before⟩ := List.mem_filter.mp among
    have below := UInt64.lt_iff_toNat_lt.mp (of_decide_eq_true before)
    rw [sound.keyed stored old]
    omega
  have high (entry : RaftEntry (LogId T) M) (member : entry ∈ kept) :
      logId.index.toNat < entry.logId.index.toNat := by
    rw [← keptShape] at member
    obtain ⟨stored, among, rfl⟩ := List.mem_map.mp member
    obtain ⟨old, after⟩ := List.mem_filter.mp among
    have above := UInt64.not_lt.mp (of_decide_eq_true after)
    have above := UInt64.le_iff_toNat_le.mp above
    rw [sound.keyed stored old]
    omega
  show LogContinues (if store.lastPurged.all fun purged => purged < logId then some logId else store.lastPurged)
    ((store.log.splitOff (logId.index + 1)).2.entries.map Prod.snd)
  rw [keptShape]
  obtain ⟨_, rest⟩ := logContinues_append.mp whole
  split
  · rename_i further
    cases kept with
    | nil => trivial
    | cons first kept =>
      obtain ⟨joins, _, onward⟩ := rest
      have above := high first List.mem_cons_self
      have there : first ∈ store.entries := parts ▸ List.mem_append_right _ List.mem_cons_self
      -- What was purged or is cut off ends at the purged index, and the log has no gap.
      have reach : nextIndex ((cut.getLast?.map fun entry => entry.logId).or store.lastPurged) ≤
          logId.index.toNat + 1 := by
        cases tail : cut.getLast? with
        | some final => exact Nat.succ_le_succ (low final (List.mem_of_getLast? tail))
        | none =>
          cases before : store.lastPurged with
          | none => exact Nat.zero_le _
          | some purged =>
            rw [before] at further
            have order := (snapshot.purged purged before).mp (of_decide_eq_true further)
            exact Nat.succ_le_succ (UInt64.lt_iff_toNat_lt.mp order).le
      refine ⟨le_antisymm (joins.trans_le reach) above, fun id same => ?_, onward⟩
      obtain rfl := Option.some.inj same
      exact snapshot.stays first there (UInt64.lt_iff_toNat_lt.mpr above)
  · rename_i older
    -- Nothing is left in front of an id that is not behind the last purged one.
    obtain ⟨purged, before, back⟩ : ∃ purged, store.lastPurged = some purged ∧ ¬ purged < logId := by
      cases before : store.lastPurged with
      | none => simp [before] at older
      | some purged => exact ⟨purged, rfl, fun order => older (by simp [before, order])⟩
    have order : logId.index ≤ purged.index :=
      UInt64.not_lt.mp fun less => back ((snapshot.purged purged before).mpr less)
    have nothing : cut = [] := by
      refine List.eq_nil_iff_forall_not_mem.mpr fun entry member => ?_
      have above := (whole.behind (List.mem_append_left _ member)).1
      rw [before] at above
      have beyond : purged.index.toNat + 1 ≤ entry.logId.index.toNat := above
      have below := low entry member
      have ordered := UInt64.le_iff_toNat_le.mp order
      omega
    rw [nothing] at whole
    exact whole

theorem LogStore.Sound.purge (sound : Sound calls store) {logId : LogId T}
    (allowed : store.Allows (.purge logId)) : Sound (calls ++ [.purge logId]) (store.purge logId) := by
  refine ⟨fun stored member => sound.keyed stored (List.mem_of_mem_filter member), sound.purge_follows allowed,
    fun index entry => ?_⟩
  have next := index_succ allowed.1
  -- What is kept starts at the next index, so that it is everything behind the purged one.
  have behind : ¬ index < logId.index + 1 ↔ logId.index < index := by
    rw [UInt64.not_lt, UInt64.le_iff_toNat_le, UInt64.lt_iff_toNat_lt, next]
    exact Nat.succ_le_iff
  rw [isLive_concat, lastAppended_concat]
  show (index, entry) ∈ store.log.entries.filter _ ↔
    (isLive calls index && decide (logId.index < index)) = true ∧ lastAppended calls index = some entry
  rw [List.mem_filter, sound.stored, Bool.and_eq_true, and_right_comm]
  simp only [behind]

/-- Every call that is allowed keeps the log sound. -/
theorem LogStore.sound {trace : List (Transition (LogStore T M) (LogCall T M))}
    (run : Run LogStore.step LogStore.Allows .new trace store) : Sound (trace.map fun e => e.act) store := by
  -- Induction on the run, with one case for each call that changes the log.
  induction run with
  | nil => exact ⟨nofun, trivial, fun _ _ => ⟨nofun, fun live => Bool.noConfusion live.1⟩⟩
  | @snoc trace s t act _ allowed taken ih =>
    rw [List.map_append]
    cases act with
    | append entries =>
      obtain rfl := Option.some.inj taken
      exact ih.append allowed
    | truncate logId =>
      obtain rfl := Option.some.inj taken
      exact ih.truncate logId
    | purge logId =>
      obtain rfl := Option.some.inj taken
      exact ih.purge allowed

/-- A sound log represents what the calls have made of it. -/
theorem LogStore.Sound.representation (sound : Sound calls store) : store.Represents calls where
  live index := by
    constructor
    · intro there
      obtain ⟨stored, member, rfl⟩ := List.mem_map.mp there
      exact ((sound.stored _ _).mp member).1
    · intro live
      -- A live index has had an entry appended, which is still stored.
      obtain ⟨entry, last⟩ := appended_of_isLive live
      exact List.mem_map_of_mem ((sound.stored index entry).mpr ⟨live, last⟩)
  contiguous := by
    have same : store.log.keys.map UInt64.toNat = store.entries.map fun entry => entry.logId.index.toNat := by
      unfold SortedMap.keys LogStore.entries
      rw [List.map_map, List.map_map]
      exact List.map_congr_left fun stored member => congrArg UInt64.toNat (sound.keyed stored member).symm
    rw [same, store.lastLogId_eq, sound.follows.nextIndex_eq, sound.follows.indexes, Nat.add_sub_cancel_left]
  state := by
    unfold LogStore.getLogState SortedMap.keys
    rw [List.getLast?_map]
    cases last : store.log.entries.getLast? with
    | none => rfl
    | some stored =>
      have appended := ((sound.stored _ _).mp (List.mem_of_getLast? last)).2
      simp only [Option.map_some, Option.bind_some, appended]
  read start end_ proper := by
    refine ⟨_, by rw [LogStore.tryGetLogEntries, SortedMap.range, proper]; rfl, ?_⟩
    unfold SortedMap.keys
    rw [List.filter_map, List.map_map, List.map_map]
    refine List.map_congr_left fun stored member => ?_
    exact ((sound.stored _ _).mp (List.mem_of_mem_filter member)).2.symm

/-- In every run of allowed calls the log represents what they have made of it, and the last purged id does
not go back. -/
theorem LogStore.represents {trace : List (Transition (LogStore T M) (LogCall T M))}
    (run : Run LogStore.step LogStore.Allows .new trace store) :
    store.Represents (trace.map fun e => e.act) ∧
      ∀ e ∈ trace, ∀ purged ∈ e.pre.lastPurged, ∃ later ∈ e.post.lastPurged, purged = later ∨ purged < later := by
  -- Only a purge touches the last purged id.
  refine ⟨(LogStore.sound run).representation, fun e member purged there => ?_⟩
  obtain ⟨_, _, taken⟩ := run.of_mem member
  cases call : e.act with
  | append entries =>
    rw [call] at taken
    rw [← Option.some.inj taken]
    exact ⟨purged, there, .inl rfl⟩
  | truncate logId =>
    rw [call] at taken
    rw [← Option.some.inj taken]
    exact ⟨purged, there, .inl rfl⟩
  | purge logId =>
    rw [call] at taken
    rw [← Option.some.inj taken]
    exact e.pre.purge_monotone logId purged there

end

instance LogContinues.decidable (last : Option (LogId T)) (entries : List (RaftEntry (LogId T) M)) :
    Decidable (LogContinues last entries) :=
  match entries with
  | [] => .isTrue trivial
  | entry :: entries =>
    have := decidable (some entry.logId) entries
    inferInstanceAs (Decidable (entry.logId.index.toNat = nextIndex last ∧ (∀ id ∈ last, id < entry.logId) ∧ _))

instance (store : LogStore T M) (logId : LogId T) : Decidable (store.OnSnapshot logId) :=
  decidable_of_iff ((∀ purged ∈ store.lastPurged, purged < logId ↔ purged.index < logId.index) ∧
      ∀ entry ∈ store.entries, logId.index < entry.logId.index → logId < entry.logId)
    ⟨fun both => ⟨both.1, both.2⟩, fun snapshot => ⟨snapshot.purged, snapshot.stays⟩⟩

instance (store : LogStore T M) (call : LogCall T M) : Decidable (store.Allows call) :=
  match call with
  | .append entries => inferInstanceAs (Decidable (LogContinues store.getLogState.lastLogId entries))
  | .truncate logId => inferInstanceAs (Decidable (∀ purged ∈ store.lastPurged, purged.index < logId.index))
  | .purge logId => inferInstanceAs (Decidable (logId.index.toNat < 2 ^ 64 - 1 ∧
      ((∃ entry ∈ store.entries, entry.logId = logId) ∨ store.OnSnapshot logId)))

/-- An entry of the leader of some term. -/
def blankEntry (term : ℕ) (index : UInt64) : RaftEntry (LogId ℕ) Unit :=
  ⟨⟨term, index⟩, .blank⟩

/-- The log of a node that follows two leaders, and then installs a snapshot that is far ahead. -/
def sixCalls : List (LogCall ℕ Unit) :=
  [.append [blankEntry 1 0, blankEntry 1 1, blankEntry 1 2], .truncate ⟨1, 2⟩,
    .append [blankEntry 2 2, blankEntry 2 3], .purge ⟨1, 1⟩, .purge ⟨3, 9⟩,
    .append [blankEntry 3 10, blankEntry 3 11]]

theorem LogStore.represents_sixCalls :
    ∃ ran ∈ record LogStore.step .new sixCalls, ran.2.log.keys = [10, 11] ∧ ran.2.lastPurged = some ⟨3, 9⟩ ∧
      ran.2.Represents (ran.1.map fun e => e.act) ∧
      ∀ e ∈ ran.1, ∀ purged ∈ e.pre.lastPurged, ∃ later ∈ e.post.lastPurged, purged = later ∨ purged < later := by
  have recorded : ∃ ran ∈ record LogStore.step .new sixCalls,
      (∀ e ∈ ran.1, LogStore.Allows e.pre e.act) ∧ ran.2.log.keys = [10, 11] ∧
        ran.2.lastPurged = some ⟨3, 9⟩ := by
    decide +kernel
  obtain ⟨⟨trace, store⟩, ran, allowed, keys, purged⟩ := recorded
  have run := ((run_of_record .nil ran).strengthen allowed).mono fun _ _ both => both.2
  exact ⟨(trace, store), ran, keys, purged, LogStore.represents run⟩

/-- A range that starts behind its end is not read as one without indexes. -/
theorem LogStore.inverted_range :
    ¬ ∀ (trace : List (Transition (LogStore ℕ Unit) (LogCall ℕ Unit))) (store : LogStore ℕ Unit),
      Run LogStore.step LogStore.Allows .new trace store →
      ∀ start end_, ∃ entries, store.tryGetLogEntries start end_ = some entries ∧
        entries.map some = (store.log.keys.filter fun index => start.startsBy index && end_.endsFrom index).map
          (lastAppended (trace.map fun e => e.act)) := by
  intro always
  -- One entry is enough, as the range is looked at before the entries are.
  have allowed : LogStore.Allows .new (.append [blankEntry 1 0]) := by decide
  have run : Run LogStore.step LogStore.Allows .new _ (LogStore.new.append [blankEntry 1 0]) :=
    Run.nil.snoc allowed rfl
  obtain ⟨_, read, _⟩ := always _ _ run (.included 1) (.excluded 0)
  cases read

end Qaas
