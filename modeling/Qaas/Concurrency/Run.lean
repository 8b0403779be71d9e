import Mathlib.Data.List.Basic

/-! Runs of a transition system whose steps may be refused, or ruled out by a side condition. -/

namespace Concurrency

variable {σ α : Type*} {step : σ → α → Option σ} {ok : σ → α → Prop} {start : σ}

/-- One step of a run, with the states on both sides of it. -/
structure Transition (σ α : Type*) where
  pre : σ
  act : α
  post : σ

/-- The runs from a state, taking only steps that the side condition allows. -/
inductive Run (step : σ → α → Option σ) (ok : σ → α → Prop) (start : σ) :
    List (Transition σ α) → σ → Prop
  | nil : Run step ok start [] start
  | snoc {trace : List (Transition σ α)} {s t : σ} {act : α} :
      Run step ok start trace s → ok s act → step s act = some t →
      Run step ok start (trace ++ [⟨s, act, t⟩]) t

/-- A state some allowed run ends in. -/
def Reachable (step : σ → α → Option σ) (ok : σ → α → Prop) (start s : σ) : Prop :=
  ∃ trace, Run step ok start trace s

/-- What the start has and every allowed step keeps, every reached state has. -/
theorem Run.invariant {inv : σ → Prop} (initial : inv start)
    (keeps : ∀ s act t, ok s act → inv s → step s act = some t → inv t)
    {trace : List (Transition σ α)} {s : σ} (run : Run step ok start trace s) : inv s := by
  -- The run grows at its end, so the last step is the one still to be covered.
  induction run with
  | nil => exact initial
  | snoc _ allowed taken ih => exact keeps _ _ _ allowed ih taken

/-- An invariant may lean on one already established for the same runs. -/
theorem Run.invariant_of {base inv : σ → Prop} (initial : inv start)
    (known : ∀ {trace s}, Run step ok start trace s → base s)
    (keeps : ∀ s act t, ok s act → base s → base t → inv s → step s act = some t → inv t)
    {trace : List (Transition σ α)} {s : σ} (run : Run step ok start trace s) : inv s := by
  -- The run grows at its end, and both states of the last step have the base property.
  induction run with
  | nil => exact initial
  | snoc before allowed taken ih =>
    exact keeps _ _ _ allowed (known before) (known (before.snoc allowed taken)) ih taken

/-- A run under a stronger side condition is a run under a weaker one. -/
theorem Run.mono {weaker : σ → α → Prop} (implied : ∀ s act, ok s act → weaker s act)
    {trace : List (Transition σ α)} {s : σ} (run : Run step ok start trace s) :
    Run step weaker start trace s := by
  induction run with
  | nil => exact .nil
  | snoc _ allowed taken ih => exact ih.snoc (implied _ _ allowed) taken

/-- A side condition met by every step of a run may be added to it. -/
theorem Run.strengthen {extra : σ → α → Prop} {trace : List (Transition σ α)} {s : σ}
    (run : Run step ok start trace s) (met : ∀ e ∈ trace, extra e.pre e.act) :
    Run step (fun s act => ok s act ∧ extra s act) start trace s := by
  induction run with
  | nil => exact .nil
  | @snoc trace s t act _ allowed taken ih =>
    have earlier := ih fun e member => met e (List.mem_append_left _ member)
    exact earlier.snoc ⟨allowed, met ⟨s, act, t⟩ (by simp)⟩ taken

/-- Two runs, the second starting where the first ends, make one. -/
theorem Run.append {middle finish : σ} {first second : List (Transition σ α)}
    (left : Run step ok start first middle) (right : Run step ok middle second finish) :
    Run step ok start (first ++ second) finish := by
  induction right with
  | nil => simpa using left
  | snoc _ allowed taken ih => simpa [List.append_assoc] using ih.snoc allowed taken

/-- A run ends where it starts, or where its last step leads. -/
theorem Run.ended {trace : List (Transition σ α)} {s : σ} (run : Run step ok start trace s) :
    trace = [] ∨ ∃ e ∈ trace, e.post = s := by
  cases run with
  | nil => exact .inl rfl
  | snoc _ _ _ => exact .inr ⟨_, List.mem_append_right _ List.mem_cons_self, rfl⟩

/-- Every step of a run was taken from a state the run had reached, by an allowed action. -/
theorem Run.split {trace : List (Transition σ α)} {s : σ} (run : Run step ok start trace s)
    {before after : List (Transition σ α)} {e : Transition σ α}
    (shape : trace = before ++ e :: after) :
    Run step ok start before e.pre ∧ ok e.pre e.act ∧ step e.pre e.act = some e.post ∧
      Run step ok e.post after s := by
  induction run generalizing after with
  | nil => simp at shape
  | @snoc trace s t act earlier allowed taken ih =>
    -- Either the step looked for is the last one, or it lies in the part before it.
    rcases List.eq_nil_or_concat after with rfl | ⟨rest, last, rfl⟩
    · obtain ⟨rfl, same⟩ := List.append_inj' shape rfl
      obtain rfl : (⟨s, act, t⟩ : Transition σ α) = e := by simpa using same
      exact ⟨earlier, allowed, taken, .nil⟩
    · have regrouped : trace ++ [⟨s, act, t⟩] = (before ++ e :: rest) ++ [last] := by
        simpa using shape
      obtain ⟨whole, same⟩ := List.append_inj' regrouped rfl
      obtain rfl : (⟨s, act, t⟩ : Transition σ α) = last := by simpa using same
      obtain ⟨reached, met, moved, onward⟩ := ih whole
      exact ⟨reached, met, moved, by simpa using onward.snoc allowed taken⟩

/-- A run up to one of its steps, counted from its start, and that step. -/
theorem Run.take {trace : List (Transition σ α)} {s : σ} (run : Run step ok start trace s) {n : Nat}
    {e : Transition σ α} (taken : (trace)[n]? = some e) :
    Run step ok start (trace.take n) e.pre ∧ step e.pre e.act = some e.post := by
  obtain ⟨within, rfl⟩ := List.getElem?_eq_some_iff.mp taken
  have shape : trace = trace.take n ++ (trace)[n] :: trace.drop (n + 1) := by
    rw [← List.drop_eq_getElem_cons within, List.take_append_drop]
  obtain ⟨reached, _, moved, _⟩ := run.split shape
  exact ⟨reached, moved⟩

/-- A run behind one of its steps, counted from its start. -/
theorem Run.drop {trace : List (Transition σ α)} {s : σ} (run : Run step ok start trace s) {n : Nat}
    {e : Transition σ α} (taken : (trace)[n]? = some e) : Run step ok e.post (trace.drop (n + 1)) s := by
  obtain ⟨within, rfl⟩ := List.getElem?_eq_some_iff.mp taken
  have shape : trace = trace.take n ++ (trace)[n] :: trace.drop (n + 1) := by
    rw [← List.drop_eq_getElem_cons within, List.take_append_drop]
  obtain ⟨_, _, _, onward⟩ := run.split shape
  exact onward

/-- What a run does between two of its steps, counted from its start, is a run. -/
theorem Run.between {trace : List (Transition σ α)} {s : σ} (run : Run step ok start trace s)
    {m n : Nat} {e f : Transition σ α} (first : (trace)[m]? = some e) (second : (trace)[n]? = some f)
    (order : m < n) : Run step ok e.post ((trace.drop (m + 1)).take (n - (m + 1))) f.pre := by
  -- Behind the first step the second one has a smaller index.
  have placed : (trace.drop (m + 1))[n - (m + 1)]? = some f := by
    rw [List.getElem?_drop, show m + 1 + (n - (m + 1)) = n by omega, second]
  exact ((run.drop first).take placed).1

/-- What lies between two places of a list has a place between them. -/
theorem exists_of_mem_between {τ : Type*} {items : List τ} {m n : Nat} {t : τ}
    (member : t ∈ (items.drop (m + 1)).take (n - (m + 1))) : ∃ k, m < k ∧ k < n ∧ (items)[k]? = some t := by
  obtain ⟨k, there⟩ := List.mem_iff_getElem?.mp member
  rw [List.getElem?_take] at there
  split at there
  · rename_i bound
    rw [List.getElem?_drop] at there
    exact ⟨m + 1 + k, by omega, by omega, there⟩
  · cases there

/-- Every step of a run is a step of the system, taken from a reachable state. -/
theorem Run.of_mem {trace : List (Transition σ α)} {s : σ} (run : Run step ok start trace s)
    {e : Transition σ α} (member : e ∈ trace) :
    Reachable step ok start e.pre ∧ ok e.pre e.act ∧ step e.pre e.act = some e.post := by
  obtain ⟨before, after, shape⟩ := List.append_of_mem member
  obtain ⟨reached, allowed, taken, _⟩ := run.split shape
  exact ⟨⟨before, reached⟩, allowed, taken⟩

/-- Run a schedule of actions, stopping at one that is refused or not allowed. -/
def exec (step : σ → α → Option σ) (ok : σ → α → Prop) [∀ s act, Decidable (ok s act)] :
    σ → List α → Option σ
  | s, [] => some s
  | s, act :: rest => if ok s act then (step s act).bind fun t => exec step ok t rest else none

/-- A schedule that runs through reaches its final state by an allowed run. -/
theorem reachable_of_exec [∀ s act, Decidable (ok s act)] {acts : List α} {s t : σ}
    (reached : Reachable step ok start s) (ran : exec step ok s acts = some t) :
    Reachable step ok start t := by
  induction acts generalizing s with
  | nil =>
    obtain rfl : s = t := by simpa [exec] using ran
    exact reached
  | cons act rest ih =>
    simp only [exec] at ran
    split at ran
    · rename_i allowed
      obtain ⟨next, taken, onward⟩ := Option.bind_eq_some_iff.mp ran
      obtain ⟨trace, run⟩ := reached
      exact ih ⟨_, run.snoc allowed taken⟩ onward
    · cases ran

/-- A schedule that runs through to a state with some property shows that one can be reached. -/
theorem reaches_of_exec [∀ s act, Decidable (ok s act)] (acts : List α) (p : σ → Prop)
    (ran : ∃ t ∈ exec step ok start acts, p t) : ∃ t, Reachable step ok start t ∧ p t := by
  obtain ⟨t, ended, holds⟩ := ran
  exact ⟨t, reachable_of_exec ⟨[], .nil⟩ ended, holds⟩

/-- Run a schedule of actions and keep every state it passes, stopping at an action that is refused. -/
def record (step : σ → α → Option σ) : σ → List α → Option (List (Transition σ α) × σ)
  | s, [] => some ([], s)
  | s, act :: rest =>
    (step s act).bind fun t => (record step t rest).map fun (trace, last) => (⟨s, act, t⟩ :: trace, last)

/-- A schedule that runs through is a run with the recorded trace. -/
theorem run_of_record {acts : List α} {trace rest : List (Transition σ α)} {s t : σ}
    (run : Run step (fun _ _ => True) start trace s) (ran : record step s acts = some (rest, t)) :
    Run step (fun _ _ => True) start (trace ++ rest) t := by
  induction acts generalizing s trace rest with
  | nil =>
    obtain ⟨rfl, rfl⟩ : [] = rest ∧ s = t := by simpa [record] using ran
    simpa using run
  | cons act acts ih =>
    -- The first action extends the run, and the others go on from there.
    simp only [record] at ran
    obtain ⟨next, taken, onward⟩ := Option.bind_eq_some_iff.mp ran
    obtain ⟨⟨later, last⟩, followed, same⟩ := Option.map_eq_some_iff.mp onward
    obtain ⟨rfl, rfl⟩ : ⟨s, act, next⟩ :: later = rest ∧ last = t := by simpa using same
    have joined := ih (run.snoc trivial taken) followed
    rwa [List.append_assoc, List.singleton_append] at joined

end Concurrency
