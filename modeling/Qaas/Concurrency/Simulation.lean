import Qaas.Concurrency.Run

/-! Runs of one system seen as runs of another, through what its states and its actions stand for. -/

namespace Concurrency

variable {σ α τ β : Type*} {step : σ → α → Option σ} {ok : σ → α → Prop} {start : σ}
  {abstractStep : τ → β → Option τ} {abstractOk : τ → β → Prop}

/-- What a step amounts to: a step of the other system, or nothing that the other system shows. -/
def Matches (abstractStep : τ → β → Option τ) (abstractOk : τ → β → Prop) (before : τ) (label : Option β)
    (after : τ) : Prop :=
  match label with
  | some act => abstractOk before act ∧ abstractStep before act = some after
  | none => after = before

/-- The steps of a run that the other system shows, as its own. -/
def shown (abstraction : σ → τ) (label : σ → α → Option β) (trace : List (Transition σ α)) :
    List (Transition τ β) :=
  trace.filterMap fun e => (label e.pre e.act).map fun act => ⟨abstraction e.pre, act, abstraction e.post⟩

/-- If every allowed step amounts to one of the other system, every run is a run of the other
system. -/
theorem Run.simulated (abstraction : σ → τ) (label : σ → α → Option β) {inv : σ → Prop} (initial : inv start)
    (simulates : ∀ s act t, ok s act → inv s → step s act = some t →
      inv t ∧ Matches abstractStep abstractOk (abstraction s) (label s act) (abstraction t))
    {trace : List (Transition σ α)} {s : σ} (run : Run step ok start trace s) :
    inv s ∧ Run abstractStep abstractOk (abstraction start) (shown abstraction label trace) (abstraction s) := by
  -- The run grows at its end, by a step that the other system takes too, or does not notice.
  induction run with
  | nil => exact ⟨initial, .nil⟩
  | @snoc trace s t act _ allowed taken ih =>
    obtain ⟨kept, reached⟩ := ih
    obtain ⟨next, matched⟩ := simulates s act t allowed kept taken
    refine ⟨next, ?_⟩
    cases seen : label s act with
    | none =>
      rw [seen] at matched
      have same : abstraction t = abstraction s := matched
      simpa [shown, seen, same] using reached
    | some shownAct =>
      rw [seen] at matched
      obtain ⟨permitted, stepped⟩ := matched
      simpa [shown, seen] using reached.snoc permitted stepped

end Concurrency
