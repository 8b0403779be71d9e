import Mathlib.Data.List.Basic
import Mathlib.Data.List.Induction

/-! What a list of records leaves of a queue and of a value, read off the list itself. -/

namespace Histories

variable {A R V : Type}

/-- What one record does to a queue. -/
inductive QueueOp (A : Type)
  | push (item : A)
  | pop
  | keep

/-- Push at the back, or pop at the front; an empty queue stays empty. -/
def QueueOp.apply (queue : List A) : QueueOp A → List A
  | .push item => queue ++ [item]
  | .pop => queue.tail
  | .keep => queue

/-- The queue that a list of records leaves. -/
def queueAfter (op : R → QueueOp A) (records : List R) : List A :=
  records.foldl (fun queue record => (op record).apply queue) []

/-- How long that queue is. -/
def lengthAfter (op : R → QueueOp A) (records : List R) : Nat :=
  records.foldl (fun length record =>
    match op record with
    | .push _ => length + 1
    | .pop => length - 1
    | .keep => length) 0

/-- How often a list of records pops. -/
def pops (op : R → QueueOp A) (records : List R) : Nat :=
  records.countP fun record => match op record with
    | .pop => true
    | _ => false

variable {op : R → QueueOp A}

/-- One more record works on the queue left so far. -/
@[simp] theorem queueAfter_snoc (records : List R) (record : R) :
    queueAfter op (records ++ [record]) = (op record).apply (queueAfter op records) := by
  simp [queueAfter]

/-- The length is that of the queue. -/
theorem queueAfter_length (records : List R) :
    (queueAfter op records).length = lengthAfter op records := by
  induction records using List.reverseRecOn with
  | nil => rfl
  | append_singleton records record ih =>
    -- The last record changes both alike.
    rw [queueAfter_snoc, lengthAfter, List.foldl_append, List.foldl_cons, List.foldl_nil, ← lengthAfter, ← ih]
    cases op record with
    | push item => simp [QueueOp.apply]
    | pop => simp [QueueOp.apply]
    | keep => rfl

/-- One more record pops once more, or not. -/
@[simp] theorem pops_snoc (records : List R) (record : R) :
    pops op (records ++ [record]) = pops op records + match op record with
      | .pop => 1
      | _ => 0 := by
  cases done : op record with
  | pop => simp [pops, done]
  | push _ | keep => simp [pops, done]

/-- A record of a longer list is the new one, or stands where it stood before. -/
theorem snoc_eq_append_cons {records before after : List R} {last record : R} :
    records ++ [last] = before ++ record :: after ↔
      after = [] ∧ records = before ∧ last = record ∨
        ∃ rest, after = rest ++ [last] ∧ records = before ++ record :: rest := by
  constructor
  · intro same
    -- What follows the record is nothing, or ends with the new one.
    rcases List.eq_nil_or_concat after with rfl | ⟨rest, final, rfl⟩
    · obtain ⟨front, back⟩ := List.append_singleton_inj.mp same
      exact .inl ⟨rfl, front, back⟩
    · rw [List.concat_eq_append, ← List.cons_append, ← List.append_assoc] at same
      obtain ⟨front, back⟩ := List.append_singleton_inj.mp same
      exact .inr ⟨rest, by rw [back, List.concat_eq_append], front⟩
  · rintro (⟨rfl, rfl, rfl⟩ | ⟨rest, rfl, rfl⟩)
    · rfl
    · simp

/-- An item stands in a queue behind as many others as its push found there, less the pops since. -/
theorem queueAfter_getElem? {records : List R} {item : A} (position : Nat) :
    (queueAfter op records)[position]? = some item ↔
      ∃ before record after, records = before ++ record :: after ∧ op record = .push item ∧
        pops op after + position = lengthAfter op before := by
  -- A record at the end is the push itself, or follows it.
  induction records using List.reverseRecOn generalizing position with
  | nil => simp [queueAfter]
  | append_singleton records last ih =>
    have split : (∃ before record after, records ++ [last] = before ++ record :: after ∧
          op record = .push item ∧ pops op after + position = lengthAfter op before) ↔
        (op last = .push item ∧ position = lengthAfter op records) ∨
          ∃ before record after, records = before ++ record :: after ∧ op record = .push item ∧
            pops op (after ++ [last]) + position = lengthAfter op before := by
      simp only [snoc_eq_append_cons]
      constructor
      · rintro ⟨before, record, after, ⟨rfl, rfl, rfl⟩ | ⟨rest, rfl, rfl⟩, pushed, counted⟩
        · exact .inl ⟨pushed, by simpa [pops] using counted⟩
        · exact .inr ⟨before, record, rest, rfl, pushed, counted⟩
      · rintro (⟨pushed, counted⟩ | ⟨before, record, rest, rfl, pushed, counted⟩)
        · exact ⟨records, last, [], .inl ⟨rfl, rfl, rfl⟩, pushed, by simpa [pops] using counted⟩
        · exact ⟨before, record, _, .inr ⟨rest, rfl, rfl⟩, pushed, counted⟩
    rw [split, queueAfter_snoc]
    cases done : op last with
    | push other =>
      -- The new item stands at the end, and the others where they stood.
      simp only [QueueOp.apply, pops_snoc, done, Nat.add_zero, ← ih, ← queueAfter_length records]
      rcases Nat.lt_trichotomy position (queueAfter op records).length with inside | rfl | outside
      · simp [List.getElem?_append_left inside, Nat.ne_of_lt inside]
      · simp
      · have beyond : (queueAfter op records).length ≠ position := by omega
        simp [List.getElem?_append_right (Nat.le_of_lt outside), List.getElem?_eq_none (Nat.le_of_lt outside),
          Nat.sub_ne_zero_of_lt outside, beyond.symm]
    | pop =>
      -- Every item moves one place to the front.
      have shifted : (queueAfter op records).tail[position]? =
          (queueAfter op records)[position + 1]? := by
        cases queueAfter op records <;> rfl
      simp only [QueueOp.apply, shifted, ih, pops_snoc, done]
      simp [Nat.add_assoc, Nat.add_comm 1]
    | keep =>
      simp [QueueOp.apply, done, ih]

/-- An item still stands in a queue when the pops since its push did not reach it. -/
theorem mem_queueAfter {records : List R} {item : A} :
    item ∈ queueAfter op records ↔
      ∃ before record after, records = before ++ record :: after ∧ op record = .push item ∧
        pops op after ≤ lengthAfter op before := by
  rw [List.mem_iff_getElem?]
  simp only [queueAfter_getElem?]
  constructor
  · rintro ⟨position, before, record, after, same, pushed, counted⟩
    exact ⟨before, record, after, same, pushed, by omega⟩
  · rintro ⟨before, record, after, same, pushed, counted⟩
    -- Its position is what the pops have left of the queue in front of it.
    exact ⟨lengthAfter op before - pops op after, before, record, after, same, pushed, by omega⟩

/-- A value that each record sets, clears or leaves is set by the last record that does not leave
it. -/
theorem eq_some_iff_lastWrite (value : List R → Option V) (effect : List R → R → Option (Option V))
    (start : value [] = none)
    (step : ∀ records record,
      value (records ++ [record]) = (effect records record).getD (value records))
    (records : List R) (final : V) :
    value records = some final ↔
      ∃ before record after, records = before ++ record :: after ∧
        effect before record = some (some final) ∧
        ∀ middle later rest, after = middle ++ later :: rest →
          effect (before ++ record :: middle) later = none := by
  induction records using List.reverseRecOn with
  | nil => simp [start]
  | append_singleton records last ih =>
    rw [step]
    cases written : effect records last with
    | none =>
      -- The last record leaves the value as the others made it.
      rw [Option.getD_none, ih]
      constructor
      · rintro ⟨before, record, after, rfl, wrote, kept⟩
        refine ⟨before, record, after ++ [last], by simp, wrote, fun middle later rest same => ?_⟩
        rcases snoc_eq_append_cons.mp same with ⟨rfl, rfl, rfl⟩ | ⟨front, rfl, rfl⟩
        · exact written
        · exact kept middle later front rfl
      · rintro ⟨before, record, after, same, wrote, kept⟩
        rcases snoc_eq_append_cons.mp same with ⟨rfl, rfl, rfl⟩ | ⟨rest, rfl, rfl⟩
        · rw [written] at wrote
          cases wrote
        · refine ⟨before, record, rest, rfl, wrote, fun middle later front split => ?_⟩
          exact kept middle later (front ++ [last]) (by simp [split])
    | some outcome =>
      rw [Option.getD_some]
      constructor
      · rintro rfl
        exact ⟨records, last, [], rfl, written, by simp⟩
      · rintro ⟨before, record, after, same, wrote, kept⟩
        rcases snoc_eq_append_cons.mp same with ⟨rfl, rfl, rfl⟩ | ⟨rest, rfl, rfl⟩
        · exact Option.some.inj (written.symm.trans wrote)
        · -- A record before the last one is followed by one that does not leave the value.
          have left := kept rest last [] rfl
          rw [written] at left
          cases left

/-- Where the records before it make no difference to what a record does, none of those behind the
last write does anything. -/
theorem eq_some_iff_lastRecord (value : List R → Option V) (effect : R → Option (Option V))
    (start : value [] = none)
    (step : ∀ records record, value (records ++ [record]) = (effect record).getD (value records))
    (records : List R) (final : V) :
    value records = some final ↔
      ∃ before record after, records = before ++ record :: after ∧ effect record = some (some final) ∧
        ∀ later ∈ after, effect later = none := by
  rw [eq_some_iff_lastWrite value (fun _ => effect) start step]
  -- A record behind the write is one that has some before it and some behind it.
  have behind : ∀ after : List R, (∀ middle later rest, after = middle ++ later :: rest → effect later = none) ↔
      ∀ later ∈ after, effect later = none := by
    intro after
    constructor
    · intro kept later member
      obtain ⟨middle, rest, split⟩ := List.append_of_mem member
      exact kept middle later rest split
    · intro kept middle later rest split
      exact kept later (by simp [split])
  simp only [behind]

/-- Such a value is there exactly if some record sets it and no later one clears it. -/
theorem isSome_iff_notCleared (value : List R → Option V) (effect : List R → R → Option (Option V))
    (start : value [] = none)
    (step : ∀ records record,
      value (records ++ [record]) = (effect records record).getD (value records))
    (records : List R) :
    (value records).isSome ↔
      ∃ before record after, records = before ++ record :: after ∧
        (∃ written, effect before record = some (some written)) ∧
        ∀ middle later rest, after = middle ++ later :: rest →
          effect (before ++ record :: middle) later ≠ some none := by
  constructor
  · intro present
    -- After the last write nothing is cleared.
    obtain ⟨final, found⟩ := Option.isSome_iff_exists.mp present
    obtain ⟨before, record, after, same, wrote, kept⟩ :=
      (eq_some_iff_lastWrite value effect start step records final).mp found
    refine ⟨before, record, after, same, ⟨final, wrote⟩, fun middle later rest split => ?_⟩
    rw [kept middle later rest split]
    simp
  · intro written
    induction records using List.reverseRecOn with
    | nil => simp at written
    | append_singleton records last ih =>
      obtain ⟨before, record, after, same, ⟨first, wrote⟩, uncleared⟩ := written
      rw [step]
      rcases snoc_eq_append_cons.mp same with ⟨rfl, rfl, rfl⟩ | ⟨rest, rfl, rfl⟩
      · rw [wrote]
        rfl
      · have earlier := ih ⟨before, record, rest, rfl, ⟨first, wrote⟩, fun middle later front split =>
          uncleared middle later (front ++ [last]) (by simp [split])⟩
        -- The last record sets the value again, or leaves it.
        cases effected : effect (before ++ record :: rest) last with
        | none => exact earlier
        | some outcome =>
          cases outcome with
          | none => exact absurd effected (uncleared rest last [] rfl)
          | some again => rfl

end Histories
