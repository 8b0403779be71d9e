import Mathlib.Data.List.Basic
import Mathlib.Data.List.Infix

/-! Maps that are kept in the order of their keys. -/

namespace Ordered

variable {K V : Type*}

/-- A map, as the list of its entries in the order of their keys. -/
structure SortedMap (K V : Type*) [LT K] where
  entries : List (K × V)
  sorted : entries.Pairwise fun first second => first.1 < second.1

/-- One end of a range of keys. -/
inductive Bound (K : Type*) where
  | included (key : K)
  | excluded (key : K)
  | unbounded

section

variable [LT K] [LE K] [DecidableLT K] [DecidableLE K]

/-- A key is not in front of where a range starts. -/
def Bound.startsBy (start : Bound K) (key : K) : Bool :=
  match start with
  | .included first => first ≤ key
  | .excluded before => before < key
  | .unbounded => true

/-- A key is not behind where a range ends. -/
def Bound.endsFrom (end_ : Bound K) (key : K) : Bool :=
  match end_ with
  | .included last => key ≤ last
  | .excluded after => key < after
  | .unbounded => true

/-- The range starts behind its end, or excludes the one key at which it starts and ends. -/
def Bound.inverted (start end_ : Bound K) : Bool :=
  match start, end_ with
  | .excluded before, .excluded after => after ≤ before
  | .included first, .included last => last < first
  | .included first, .excluded after => after < first
  | .excluded before, .included last => last < before
  | _, _ => false

/-- The entries with a key in a range, in order; an inverted range panics. -/
def SortedMap.range (map : SortedMap K V) (start end_ : Bound K) : Option (List (K × V)) :=
  if start.inverted end_ then none
  else some (map.entries.filter fun entry => start.startsBy entry.1 && end_.endsFrom entry.1)

end

/-- The keys of a map, in order. -/
def SortedMap.keys [LT K] (map : SortedMap K V) : List K :=
  map.entries.map Prod.fst

/-- The entries of a map whose keys have a property. -/
def SortedMap.filter [LT K] (map : SortedMap K V) (p : K → Bool) : SortedMap K V :=
  ⟨map.entries.filter fun entry => p entry.1, map.sorted.filter _⟩

/-- The map with a function applied to every value. -/
def SortedMap.mapValues {W : Type*} [LT K] (map : SortedMap K V) (f : V → W) : SortedMap K W :=
  ⟨map.entries.map fun entry => (entry.1, f entry.2), List.pairwise_map.mpr map.sorted⟩

/-- The value of a key. -/
def SortedMap.get? [LT K] [BEq K] (map : SortedMap K V) (key : K) : Option V :=
  map.entries.lookup key

section

variable [LT K] [DecidableEq K]

/-- A key has a value exactly if it is one of the keys. -/
theorem SortedMap.get?_isSome {map : SortedMap K V} {key : K} : (map.get? key).isSome ↔ key ∈ map.keys := by
  unfold get? keys
  -- Along the entries, of which the lookup takes the first with the key.
  induction map.entries with
  | nil => simp
  | cons entry entries ih =>
    rw [List.lookup_cons, List.map_cons, List.mem_cons]
    by_cases same : key = entry.1
    · simp [same]
    · rw [beq_eq_false_iff_ne.mpr same, or_iff_right same]
      exact ih

/-- A filter on the keys leaves the values as they are. -/
theorem SortedMap.get?_filter (map : SortedMap K V) (p : K → Bool) (key : K) :
    (map.filter p).get? key = if p key then map.get? key else none := by
  show List.lookup key (map.entries.filter fun entry => p entry.1) = if p key then map.entries.lookup key else none
  induction map.entries with
  | nil => simp
  | cons entry entries ih =>
    rw [List.filter_cons, List.lookup_cons]
    by_cases same : key = entry.1
    · subst same
      -- The entry is the one looked for, and stays if its key has the property.
      cases passes : p entry.1
      · rw [passes] at ih
        exact ih
      · rw [if_pos rfl, List.lookup_cons, beq_self_eq_true, if_pos rfl]
    · -- Another key's entry is passed over, whether it stays or not.
      rw [beq_eq_false_iff_ne.mpr same]
      cases p entry.1
      · exact ih
      · rw [if_pos rfl, List.lookup_cons, beq_eq_false_iff_ne.mpr same]
        exact ih

end

section

variable [LT K] [DecidableLT K]

/-- Put an entry in its place, over the one that has its key. -/
def insertEntry (key : K) (value : V) : List (K × V) → List (K × V)
  | [] => [(key, value)]
  | entry :: entries =>
    if key < entry.1 then (key, value) :: entry :: entries
    else if entry.1 < key then entry :: insertEntry key value entries
    else (key, value) :: entries

variable [LE K] [Std.IsLinearOrder K] [Std.LawfulOrderLT K]

/-- An entry of the list after an insertion is the new one, or has another key. -/
theorem mem_insertEntry {key : K} {value : V} {entries : List (K × V)}
    (sorted : entries.Pairwise fun first second => first.1 < second.1) {entry : K × V} :
    entry ∈ insertEntry key value entries ↔ entry = (key, value) ∨ entry.1 ≠ key ∧ entry ∈ entries := by
  -- The induction follows the insertion, which stops at the first key that is not in front.
  induction entries with
  | nil => simp [insertEntry]
  | cons first entries ih =>
    obtain ⟨least, rest⟩ := List.pairwise_cons.mp sorted
    have inside := ih rest
    unfold insertEntry
    split
    · -- Every entry is behind the new one.
      grind
    · split
      · grind
      · -- The first entry has the key that is inserted.
        have same : first.1 = key := by grind
        grind

/-- An insertion keeps the order. -/
theorem insertEntry_sorted {key : K} {value : V} {entries : List (K × V)}
    (sorted : entries.Pairwise fun first second => first.1 < second.1) :
    (insertEntry key value entries).Pairwise fun first second => first.1 < second.1 := by
  induction entries with
  | nil => simp [insertEntry]
  | cons first entries ih =>
    obtain ⟨least, rest⟩ := List.pairwise_cons.mp sorted
    have inside := ih rest
    unfold insertEntry
    split
    · -- The new entry comes first, and the others are behind the first of them.
      refine List.pairwise_cons.mpr ⟨fun entry member => ?_, sorted⟩
      grind
    · split
      · -- The first entry stays first, also in front of the new one.
        refine List.pairwise_cons.mpr ⟨fun entry member => ?_, inside⟩
        rcases (mem_insertEntry rest).mp member with rfl | ⟨_, old⟩
        · assumption
        · exact least entry old
      · -- The new entry takes the place of the one with its key.
        refine List.pairwise_cons.mpr ⟨fun entry member => ?_, rest⟩
        have after := least entry member
        grind

/-- A key behind all others is inserted at the end. -/
theorem insertEntry_last {key : K} {value : V} {entries : List (K × V)}
    (behind : ∀ entry ∈ entries, entry.1 < key) :
    insertEntry key value entries = entries ++ [(key, value)] := by
  -- The insertion passes every entry.
  induction entries with
  | nil => rfl
  | cons first entries ih =>
    have before := behind first List.mem_cons_self
    have rest := ih fun entry member => behind entry (List.mem_cons_of_mem _ member)
    rw [insertEntry, if_neg (by grind), if_pos before, rest]
    rfl

/-- A map without entries. -/
def SortedMap.empty : SortedMap K V :=
  ⟨[], .nil⟩

/-- Store a value under a key, over the one that is there. -/
def SortedMap.insert (map : SortedMap K V) (key : K) (value : V) : SortedMap K V :=
  ⟨insertEntry key value map.entries, insertEntry_sorted map.sorted⟩

/-- Split a map in what is in front of a key, which stays, and the key with what is behind it. -/
def SortedMap.splitOff (map : SortedMap K V) (key : K) : SortedMap K V × SortedMap K V :=
  (⟨map.entries.filter fun entry => entry.1 < key, map.sorted.filter _⟩,
    ⟨map.entries.filter fun entry => ¬ entry.1 < key, map.sorted.filter _⟩)

theorem SortedMap.mem_insert {map : SortedMap K V} {key : K} {value : V} {entry : K × V} :
    entry ∈ (map.insert key value).entries ↔ entry = (key, value) ∨ entry.1 ≠ key ∧ entry ∈ map.entries :=
  mem_insertEntry map.sorted

/-- The two parts of a split map are what it was. -/
theorem SortedMap.splitOff_append (map : SortedMap K V) (key : K) :
    (map.splitOff key).1.entries ++ (map.splitOff key).2.entries = map.entries := by
  obtain ⟨entries, sorted⟩ := map
  show entries.filter _ ++ entries.filter _ = entries
  -- Along the order, up to the first entry that is not in front of the key.
  induction sorted with
  | nil => rfl
  | @cons first entries least sorted ih =>
    by_cases before : first.1 < key
    · simpa [before] using ih
    · -- No entry is in front of the key, if the first one is not.
      have behind (entry : K × V) (member : entry ∈ first :: entries) : ¬ entry.1 < key := by
        rcases List.mem_cons.mp member with rfl | later
        · exact before
        · have after := least entry later
          grind
      have none_ : (first :: entries).filter (fun entry => entry.1 < key) = [] :=
        List.filter_eq_nil_iff.mpr fun entry member => by simp [behind entry member]
      have all : (first :: entries).filter (fun entry => ¬ entry.1 < key) = first :: entries :=
        List.filter_eq_self.mpr fun entry member => by simp [behind entry member]
      rw [none_, all, List.nil_append]

end

end Ordered
