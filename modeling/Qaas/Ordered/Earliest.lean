import Mathlib.Data.List.Basic
import Mathlib.Order.Lattice

/-! The earliest of the greatest items of a list, which a stable priority queue hands out. -/

namespace Ordered

variable {A B P : Type*} [LinearOrder P]

/-- An item is the earliest one of the highest level, and the rest are the others in their order. -/
def EarliestBest (level : A → P) (items : List A) (best : A) (rest : List A) : Prop :=
  ∃ before after, items = before ++ best :: after ∧ rest = before ++ after ∧
    (∀ item ∈ before, level item < level best) ∧ ∀ item ∈ after, level item ≤ level best

/-- An item that is no lower than what comes behind it has none behind it that is above all before
that one. -/
theorem EarliestBest.adjoins {level : A → P} {best other : A} {before middle after later : List A}
    (atMost : ∀ item ∈ after, level item ≤ level best)
    (below : ∀ item ∈ before ++ middle, level item < level other)
    (tail : best :: after = middle ++ other :: later) :
    middle = [] ∧ best = other ∧ after = later := by
  cases middle with
  | nil =>
    obtain ⟨rfl, rfl⟩ := List.cons.inj tail
    exact ⟨rfl, rfl, rfl⟩
  | cons item middle =>
    -- The one in front would be both below the other and no lower than it.
    obtain ⟨rfl, rfl⟩ := List.cons.inj tail
    have under := below best (by simp)
    have back := atMost other (by simp)
    exact absurd under (not_lt.mpr back)

/-- There is only one such item. -/
theorem EarliestBest.unique {level : A → P} {items rest others : List A} {best other : A}
    (first : EarliestBest level items best rest) (second : EarliestBest level items other others) :
    best = other ∧ rest = others := by
  obtain ⟨before, after, rfl, rfl, lower, atMost⟩ := first
  obtain ⟨earlier, later, same, rfl, below, most⟩ := second
  -- One of the two splits lies at or behind the other, and nothing fits between them.
  rcases List.append_eq_append_iff.mp same with ⟨middle, rfl, tail⟩ | ⟨middle, rfl, tail⟩
  · obtain ⟨rfl, rfl, rfl⟩ := adjoins atMost below tail
    exact ⟨rfl, by simp⟩
  · obtain ⟨rfl, rfl, rfl⟩ := adjoins most lower tail
    exact ⟨rfl, by simp⟩

/-- What is known of the items by their levels alone is kept when other data takes their place. -/
theorem EarliestBest.map (level : B → P) (view : A → B) {items rest : List A} {best : A}
    (first : EarliestBest (fun item => level (view item)) items best rest) :
    EarliestBest level (items.map view) (view best) (rest.map view) := by
  obtain ⟨before, after, rfl, rfl, lower, atMost⟩ := first
  refine ⟨before.map view, after.map view, by simp, by simp, fun item inside => ?_,
    fun item inside => ?_⟩
  · obtain ⟨source, listed, rfl⟩ := List.mem_map.mp inside
    exact lower source listed
  · obtain ⟨source, listed, rfl⟩ := List.mem_map.mp inside
    exact atMost source listed

/-- An item in front of the others is the best when none of them is of a higher level. -/
theorem EarliestBest.head {level : A → P} {best : A} {items : List A}
    (atMost : ∀ item ∈ items, level item ≤ level best) : EarliestBest level (best :: items) best items :=
  ⟨[], items, rfl, rfl, by simp, atMost⟩

/-- An item in front of the others is left when the best of them is of a higher level. -/
theorem EarliestBest.cons {level : A → P} {items rest : List A} {best item : A}
    (first : EarliestBest level items best rest) (lower : level item < level best) :
    EarliestBest level (item :: items) best (item :: rest) := by
  obtain ⟨before, after, rfl, rfl, below, atMost⟩ := first
  -- The item in front is one more of those of a lower level.
  refine ⟨item :: before, after, rfl, rfl, fun other inside => ?_, atMost⟩
  rcases List.mem_cons.mp inside with rfl | inside
  · exact lower
  · exact below other inside

/-- No item is of a higher level than the best. -/
theorem EarliestBest.level_le {level : A → P} {items rest : List A} {best item : A}
    (first : EarliestBest level items best rest) (inside : item ∈ items) : level item ≤ level best := by
  obtain ⟨before, after, rfl, rfl, below, atMost⟩ := first
  -- It comes before the best, is the best, or comes behind it.
  rcases List.mem_append.mp inside with earlier | later
  · exact (below item earlier).le
  · rcases List.mem_cons.mp later with rfl | later
    · exact le_rfl
    · exact atMost item later

/-- The rest are the items without the best. -/
theorem EarliestBest.sublist {level : A → P} {items rest : List A} {best : A}
    (first : EarliestBest level items best rest) : rest.Sublist items := by
  obtain ⟨before, after, rfl, rfl, -, -⟩ := first
  exact (List.sublist_cons_self best after).append_left before

/-- The items are the best and the rest. -/
theorem EarliestBest.perm {level : A → P} {items rest : List A} {best : A}
    (first : EarliestBest level items best rest) : items.Perm (best :: rest) := by
  obtain ⟨before, after, rfl, rfl, -, -⟩ := first
  exact List.perm_middle

/-- An order of the items from the highest level to the lowest, in which those of one level stay as
they were. -/
structure StableOrder (level : A → P) (items order : List A) : Prop where
  descending : order.Pairwise fun item other => level other ≤ level item
  stable : ∀ bound, order.filter (fun item => level item = bound) = items.filter fun item =>
    level item = bound

/-- An item is in the order exactly when it is one of the items. -/
theorem StableOrder.mem_iff {level : A → P} {items order : List A}
    (stable : StableOrder level items order) {item : A} : item ∈ order ↔ item ∈ items := by
  -- Each level has the same items, so the item's own has.
  have same := congrArg (item ∈ ·) (stable.stable (level item))
  simpa using same

/-- Nothing is in order. -/
theorem StableOrder.nil (level : A → P) : StableOrder level [] [] :=
  ⟨.nil, fun _ => rfl⟩

end Ordered
