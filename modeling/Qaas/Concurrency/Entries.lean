import Mathlib.Algebra.BigOperators.Group.Finset.Basic
import Mathlib.Data.Finmap
import Qaas.Concurrency.Tally

/-! Finite maps: what a lookup finds after a change. -/

namespace Concurrency

variable {κ ν : Type*}

variable [DecidableEq κ]

/-- An entry that is left after an erasure was there before it. -/
theorem lookup_of_erase {entries : Finmap fun _ : κ => ν} {key other : κ}
    {value : ν} (found : (entries.erase other).lookup key = some value) :
    key ≠ other ∧ entries.lookup key = some value := by
  -- The erased key itself has no entry any more.
  by_cases same : key = other
  · subst same
    rw [Finmap.lookup_erase] at found
    cases found
  · exact ⟨same, by rwa [Finmap.lookup_erase_ne same] at found⟩

/-- An entry after an insertion is the inserted one, or was there before. -/
theorem lookup_of_insert {entries : Finmap fun _ : κ => ν} {key other : κ}
    {value inserted : ν} (found : (entries.insert other inserted).lookup key = some value) :
    (key = other ∧ value = inserted) ∨ (key ≠ other ∧ entries.lookup key = some value) := by
  -- Only the inserted key can have got another entry.
  by_cases same : key = other
  · subst same
    rw [Finmap.lookup_insert] at found
    exact .inl ⟨rfl, (Option.some.inj found).symm⟩
  · exact .inr ⟨same, by rwa [Finmap.lookup_insert_of_ne _ same] at found⟩

/-- Two maps that agree at a key still do so after one insertion into both. -/
theorem lookup_insert_congr {entries others : Finmap fun _ : κ => ν} {key inserted : κ} {value : ν}
    (same : entries.lookup key = others.lookup key) :
    (entries.insert inserted value).lookup key = (others.insert inserted value).lookup key := by
  by_cases own : key = inserted
  · subst own
    rw [Finmap.lookup_insert, Finmap.lookup_insert]
  · rw [Finmap.lookup_insert_of_ne _ own, Finmap.lookup_insert_of_ne _ own, same]

/-- Taking a list of keys out of a map leaves the others. -/
theorem lookup_foldl_erase (order : List κ)
    (entries : Finmap fun _ : κ => ν) (key : κ) :
    (order.foldl (fun entries key => entries.erase key) entries).lookup key =
      if key ∈ order then none else entries.lookup key := by
  -- The induction takes out one key after the other.
  induction order generalizing entries with
  | nil => simp
  | cons first rest ih =>
    rw [List.foldl_cons, ih]
    by_cases later : key ∈ rest
    · simp [later]
    · -- A key that does not come later is taken out now, or not at all.
      by_cases same : key = first
      · subst same
        simp [later]
      · simp [later, same]

/-- One for an entry that is there. -/
def present {α : Type*} (entry : Option α) : Nat :=
  entry.elim 0 fun _ => 1

@[simp] theorem present_none {α : Type*} : present (none : Option α) = 0 := rfl

@[simp] theorem present_some {α : Type*} (a : α) : present (some a) = 1 := rfl

/-- Taking a key out of a map changes only the presence of that key. -/
theorem present_erase (entries : Finmap fun _ : κ => ν) (other key : κ) :
    present ((entries.erase other).lookup key) = if other = key then 0 else present (entries.lookup key) := by
  -- The erased key is the only one that changes.
  by_cases same : other = key
  · subst same
    simp
  · rw [Finmap.lookup_erase_ne (fun equal => same equal.symm), if_neg same]

/-- Putting a key into a map changes only the presence of that key. -/
theorem present_insert (entries : Finmap fun _ : κ => ν) (other key : κ)
    (value : ν) :
    present ((entries.insert other value).lookup key) =
      if other = key then 1 else present (entries.lookup key) := by
  -- The inserted key is the only one that changes.
  by_cases same : other = key
  · subst same
    simp
  · rw [Finmap.lookup_insert_of_ne _ (fun equal => same equal.symm), if_neg same]

/-- Taking an entry out of a map takes its key away once. -/
theorem present_erase_found {entries : Finmap fun _ : κ => ν} {other : κ} {value : ν}
    (found : entries.lookup other = some value) (key : κ) :
    present ((entries.erase other).lookup key) + (if other = key then 1 else 0) =
      present (entries.lookup key) := by
  rw [present_erase]
  by_cases same : other = key
  · subst same
    simp [found]
  · simp [same]

/-- Replacing the entry of a key changes the presence of none. -/
theorem present_insert_found {entries : Finmap fun _ : κ => ν} {other : κ} {value : ν}
    (found : entries.lookup other = some value) (replacement : ν) (key : κ) :
    present ((entries.insert other replacement).lookup key) = present (entries.lookup key) := by
  rw [present_insert]
  by_cases same : other = key
  · subst same
    simp [found]
  · simp [same]

/-- No key is listed twice. -/
theorem count_keys (entries : Finmap fun _ : κ => ν) (key : κ) :
    (entries.entries.map Sigma.fst).count key = present (entries.lookup key) := by
  have nodup : (entries.entries.map Sigma.fst).Nodup := Multiset.nodup_keys.mpr entries.nodupKeys
  -- Without repetitions a key counts once or not at all.
  rw [Multiset.count_eq_of_nodup nodup]
  cases found : entries.lookup key with
  | none =>
    have absent : key ∉ entries := Finmap.lookup_eq_none.mp found
    exact if_neg absent
  | some value =>
    have member : key ∈ entries := Finmap.mem_of_lookup_eq_some found
    exact if_pos member

/-- The keys after an insertion. -/
theorem keys_insert (entries : Finmap fun _ : κ => ν) (key : κ) (value : ν) :
    (entries.insert key value).keys = insert key entries.keys := by
  ext other
  rw [Finset.mem_insert, Finmap.mem_keys, Finmap.mem_insert, Finmap.mem_keys]

/-- An entry that replaces another leaves the keys as they are. -/
theorem keys_insert_found {entries : Finmap fun _ : κ => ν} {key : κ} {value : ν} (inserted : ν)
    (found : entries.lookup key = some value) : (entries.insert key inserted).keys = entries.keys := by
  have present : key ∈ entries.keys := Finmap.mem_keys.mpr (Finmap.mem_of_lookup_eq_some found)
  rw [keys_insert, Finset.insert_eq_of_mem present]

/-- Taking a list of keys out of a map takes them out of its keys. -/
theorem keys_foldl_erase (order : List κ) (entries : Finmap fun _ : κ => ν) :
    (order.foldl (fun entries key => entries.erase key) entries).keys = entries.keys \ order.toFinset := by
  -- The induction takes out one key after the other.
  induction order generalizing entries with
  | nil => simp
  | cons first rest ih =>
    rw [List.foldl_cons, ih, Finmap.keys_erase, List.toFinset_cons, Finset.erase_sdiff_comm,
      ← Finset.sdiff_insert]

/-- An insertion trades the share of the entry that it replaces, if there is one, for the new one's. -/
theorem sum_insert (p : κ → Prop) [DecidablePred p] (f : ν → Nat) (entries : Finmap fun _ : κ => ν)
    {key : κ} (value : ν) (counts : p key) :
    (∑ other ∈ (entries.insert key value).keys.filter p,
        ((entries.insert key value).lookup other).elim 0 f) + (entries.lookup key).elim 0 f =
      (∑ other ∈ entries.keys.filter p, (entries.lookup other).elim 0 f) + f value := by
  have among : key ∈ insert key (entries.keys.filter p) := Finset.mem_insert_self ..
  -- Away from the key nothing changes.
  have others : ∀ other ∈ (entries.keys.filter p).erase key,
      ((entries.insert key value).lookup other).elim 0 f = (entries.lookup other).elim 0 f := by
    intro other member
    rw [Finmap.lookup_insert_of_ne _ (Finset.ne_of_mem_erase member)]
  have new := Finset.add_sum_erase _ (fun other => ((entries.insert key value).lookup other).elim 0 f) among
  have old := Finset.add_sum_erase _ (fun other => (entries.lookup other).elim 0 f) among
  rw [Finset.erase_insert_eq_erase, Finset.sum_congr rfl others] at new
  rw [Finset.erase_insert_eq_erase] at old
  have padded : ∑ other ∈ insert key (entries.keys.filter p), (entries.lookup other).elim 0 f =
      ∑ other ∈ entries.keys.filter p, (entries.lookup other).elim 0 f := by
    refine Finset.sum_insert_of_eq_zero_if_notMem fun absent => ?_
    have missing : key ∉ entries := fun present =>
      absent (Finset.mem_filter.mpr ⟨Finmap.mem_keys.mpr present, counts⟩)
    rw [Finmap.lookup_eq_none.mpr missing]
    rfl
  rw [keys_insert, Finset.filter_insert, if_pos counts, ← new, Finmap.lookup_insert, ← padded, ← old]
  show f value + _ + _ = _
  omega
end Concurrency
