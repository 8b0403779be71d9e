import Mathlib.Data.List.Induction
import Mathlib.Order.Lattice
import Mathlib.Order.Defs.LinearOrder
import Mathlib.Tactic.Cases

/-! Reading a numbered stream bit by bit, each time behind the highest number seen so far. -/

namespace Concurrency

variable {γ : Type*} {number : γ → Nat} {stream : List γ}

/-- The elements of a stream bear the numbers from one on. -/
def Numbered (number : γ → Nat) (stream : List γ) : Prop :=
  ∀ k x, (stream)[k]? = some x → number x = k + 1

/-- The highest number seen, and zero before the first. -/
def highest (number : γ → Nat) : List γ → Nat
  | [] => 0
  | x :: rest => max (number x) (highest number rest)

/-- An empty stream is numbered. -/
theorem Numbered.nil : Numbered number [] :=
  nofun

/-- The next element bears the next number. -/
theorem Numbered.snoc {x : γ} (numbered : Numbered number stream)
    (next : number x = stream.length + 1) : Numbered number (stream ++ [x]) := by
  intro k y found
  rcases Nat.lt_or_ge k stream.length with earlier | last
  · rw [List.getElem?_append_left earlier] at found
    exact numbered k y found
  · -- Behind the old elements there is only the new one.
    have bound := (List.getElem?_eq_some_iff.mp found).1
    rw [List.length_append, List.length_singleton] at bound
    obtain rfl : k = stream.length := by omega
    rw [List.getElem?_concat_length] at found
    cases found
    exact next

/-- What is left when the last element is taken away is numbered too. -/
theorem Numbered.of_snoc {x : γ} (numbered : Numbered number (stream ++ [x])) :
    Numbered number stream ∧ number x = stream.length + 1 := by
  -- Both facts are read off the positions they are about.
  constructor
  · intro k y found
    have within := (List.getElem?_eq_some_iff.mp found).1
    exact numbered k y (by rw [List.getElem?_append_left within]; exact found)
  · exact numbered stream.length x List.getElem?_concat_length

/-- The elements with a number above the cursor are the ones behind as many elements. -/
theorem Numbered.filter_eq_drop (numbered : Numbered number stream) (cursor : Nat) :
    (stream.filter fun x => decide (cursor < number x)) = stream.drop cursor := by
  induction stream using List.reverseRecOn with
  | nil => simp
  | append_singleton stream x ih =>
    obtain ⟨before, last⟩ := numbered.of_snoc
    rw [List.filter_append, ih before, List.drop_append]
    -- Whether the last element lies above the cursor is whether anything of it is left.
    by_cases above : cursor < stream.length + 1
    · have whole : cursor - stream.length = 0 := by omega
      simp [last, above, whole]
    · have past : 1 ≤ cursor - stream.length := by omega
      simp [last, above, List.drop_eq_nil_of_le, past]

/-- What has been seen in two parts has the higher of the two highest numbers. -/
theorem highest_append (first second : List γ) :
    highest number (first ++ second) = max (highest number first) (highest number second) := by
  -- The highest of the whole is the higher of the two parts' highest, one element at a time.
  induction first with
  | nil => simp [highest]
  | cons x rest ih =>
    rw [List.cons_append, highest, ih, highest]
    omega

/-- What is left behind a cursor ends with the number of the whole stream's length. -/
theorem Numbered.highest_drop (numbered : Numbered number stream) {cursor : Nat}
    (within : cursor < stream.length) : highest number (stream.drop cursor) = stream.length := by
  induction stream using List.reverseRecOn with
  | nil => cases within
  | append_singleton stream x ih =>
    obtain ⟨before, last⟩ := numbered.of_snoc
    rw [List.length_append, List.length_singleton] at within ⊢
    have split : (stream ++ [x]).drop cursor = stream.drop cursor ++ [x] :=
      List.drop_append_of_le_length (by omega)
    -- The last number tops whatever is left of the others.
    have lower : highest number (stream.drop cursor) ≤ stream.length := by
      rcases Nat.lt_or_ge cursor stream.length with short | past
      · exact (ih before short).le
      · rw [List.drop_eq_nil_of_le past]
        exact Nat.zero_le _
    rw [split, highest_append, highest, highest, last]
    omega

/-- Two readings of a stream, the second one behind the first, are one reading. -/
theorem take_drop_append_drop {low high : Nat} (ordered : low ≤ high) (within : high ≤ stream.length) :
    (stream.take high).drop low ++ stream.drop high = stream.drop low := by
  have split := congrArg (List.drop low) (List.take_append_drop high stream)
  rwa [List.drop_append_of_le_length (by rw [List.length_take]; omega)] at split

/-- Nothing has been left out of a stream exactly if its first element has not. -/
theorem drop_eq_self_iff {low : Nat} (nonempty : 0 < stream.length) :
    stream.drop low = stream ↔ low = 0 := by
  constructor
  · intro whole
    -- A stream that loses nothing keeps its length.
    have lengths := congrArg List.length whole
    rw [List.length_drop] at lengths
    omega
  · rintro rfl
    rfl

end Concurrency
