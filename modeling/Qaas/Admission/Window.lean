import Mathlib.Algebra.Order.BigOperators.Group.List
import Mathlib.Algebra.Order.Group.Defs
import Mathlib.Data.List.Induction
import Mathlib.Tactic.Abel

/-! Weighted entries in time, and what a trailing window holds of them. -/

namespace SlidingWindow

variable {α τ M : Type*}

/-- Where a test once failed keeps failing, dropping from the front is filtering. -/
theorem dropWhile_eq_filter {p : α → Bool} {entries : List α}
    (closed : entries.Pairwise fun earlier later => p later = true → p earlier = true) :
    entries.dropWhile p = entries.filter fun a => !p a := by
  induction entries with
  | nil => rfl
  | cons first rest ih =>
    obtain ⟨head, tail⟩ := List.pairwise_cons.mp closed
    cases dropped : p first with
    | true => rw [List.dropWhile_cons_of_pos dropped, List.filter_cons_of_neg (by simp [dropped]), ih tail]
    | false =>
      -- The first entry that stays has only entries behind it that stay as well.
      have stays : ∀ a ∈ rest, (!p a) = true := by
        intro a member
        cases later : p a with
        | true => rw [head a member later] at dropped; cases dropped
        | false => rfl
      rw [List.dropWhile_cons_of_neg (by simp [dropped]), List.filter_cons_of_pos (by simp [dropped]),
        List.filter_eq_self.mpr stays]

variable [AddCommGroup τ] [LinearOrder τ]

/-- The entries in the window of a given width that ends at a given time. -/
def trailing (stamp : α → τ) (width now : τ) (entries : List α) : List α :=
  entries.filter fun a => now - width < stamp a ∧ stamp a ≤ now

/-- What the entries weigh together. -/
def total [AddMonoid M] (weight : α → M) (entries : List α) : M :=
  (entries.map weight).sum

variable {stamp : α → τ} {weight : α → M} {width : τ}

@[simp] theorem total_append [AddMonoid M] (left right : List α) :
    total weight (left ++ right) = total weight left + total weight right := by
  simp [total]

@[simp] theorem total_nil [AddMonoid M] : total weight [] = 0 := rfl

@[simp] theorem total_singleton [AddMonoid M] (a : α) : total weight [a] = weight a := by
  simp [total]

@[simp] theorem trailing_append (now : τ) (left right : List α) :
    trailing stamp width now (left ++ right) =
      trailing stamp width now left ++ trailing stamp width now right := by
  simp [trailing]

/-- Replacing one entry trades its weight for that of its replacement, if the others weigh what they did. -/
theorem total_set [AddCommMonoid M] {before after : α → M} {entries : List α} {i : Nat} {old : α} (new : α)
    (found : entries[i]? = some old)
    (others : ∀ j a, j ≠ i → entries[j]? = some a → after a = before a) :
    total after (entries.set i new) + before old = total before entries + after new := by
  -- The induction walks to the replaced entry.
  induction entries generalizing i with
  | nil => cases found
  | cons head rest ih =>
    cases i with
    | zero =>
      obtain rfl : head = old := Option.some.inj found
      have same : total after rest = total before rest := by
        unfold total
        congr 1
        refine List.map_congr_left fun a member => ?_
        obtain ⟨j, there⟩ := List.getElem?_of_mem member
        exact others (j + 1) a (by omega) there
      show after new + total after rest + before head = before head + total before rest + after new
      rw [same]
      abel
    | succ i =>
      have tail := ih found fun j a apart there => others (j + 1) a (by omega) there
      have front := others 0 head (by omega) rfl
      show after head + total after (rest.set i new) + before old = before head + total before rest + after new
      rw [front, add_assoc, tail, add_assoc]

variable [IsOrderedAddMonoid τ] [AddCommMonoid M] [PartialOrder M] [IsOrderedAddMonoid M]

/-- Fewer entries do not weigh more. -/
theorem total_mono {few all : List α} (nonneg : ∀ a ∈ all, 0 ≤ weight a) (among : few.Sublist all) :
    total weight few ≤ total weight all :=
  List.Sublist.sum_le_sum (among.map weight) fun _ weighed => by
    obtain ⟨a, member, rfl⟩ := List.mem_map.mp weighed
    exact nonneg a member

/-- When every entry with a weight fitted below a limit with the window that ended at it, every window does. -/
theorem total_trailing_le {limit : M} (room : 0 ≤ limit) {entries : List α}
    (nonneg : ∀ a ∈ entries, 0 ≤ weight a) (sorted : entries.Pairwise fun earlier later => stamp earlier ≤ stamp later)
    (fitted : ∀ before a after, entries = before ++ a :: after → weight a ≠ 0 →
      total weight (trailing stamp width (stamp a) before) + weight a ≤ limit) (now : τ) :
    total weight (trailing stamp width now entries) ≤ limit := by
  -- The entries come in one after the other, the latest at the end.
  induction entries using List.reverseRecOn with
  | nil => simpa [trailing] using room
  | append_singleton entries a ih =>
    obtain ⟨earlier, _, latest⟩ := List.pairwise_append.mp sorted
    have light : ∀ b ∈ entries, 0 ≤ weight b := fun b member => nonneg b (List.mem_append_left _ member)
    have before := ih light earlier fun first b rest shape =>
      fitted first b (rest ++ [a]) (by simp [shape])
    rw [trailing_append, total_append]
    by_cases inside : now - width < stamp a ∧ stamp a ≤ now
    · have own : trailing stamp width now [a] = [a] := by simp [trailing, inside]
      rw [own, total_singleton]
      by_cases zero : weight a = 0
      · rw [zero, add_zero]
        exact before
      · -- What this window holds besides the entry, the one ending at the entry held too.
        have among : (trailing stamp width now entries).Sublist (trailing stamp width (stamp a) entries) := by
          have narrower : trailing stamp width now entries =
              (trailing stamp width (stamp a) entries).filter fun b => now - width < stamp b ∧ stamp b ≤ now := by
            unfold trailing
            rw [List.filter_filter]
            refine List.filter_congr fun b member => ?_
            have order := latest b member a (by simp)
            have start : now - width < stamp b → stamp a - width < stamp b :=
              lt_of_le_of_lt (sub_le_sub_right inside.2 width)
            simp only [order, and_true, ← Bool.decide_and, decide_eq_decide]
            exact ⟨fun both => ⟨both, start both.1⟩, fun both => both.1⟩
          rw [narrower]
          exact List.filter_sublist
        calc total weight (trailing stamp width now entries) + weight a
            ≤ total weight (trailing stamp width (stamp a) entries) + weight a :=
              add_le_add_left (total_mono (fun b member => light b (List.mem_of_mem_filter member)) among) _
          _ ≤ limit := fitted entries a [] (by simp) zero
    · have none : trailing stamp width now [a] = [] := by simpa [trailing] using inside
      rw [none, total_nil, add_zero]
      exact before

end SlidingWindow
