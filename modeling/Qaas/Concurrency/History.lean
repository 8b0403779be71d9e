import Qaas.Concurrency.Run

/-! Runs whose side condition looks back on the steps already taken. -/

namespace Concurrency

variable {σ α η : Type*} {step : σ → α → Option σ} {ok : σ → α → Prop} {start : σ}
  {allowed : η → Transition σ α → Prop} {remember : η → Transition σ α → η}

/-- Every step of a trace is allowed by what is remembered of the steps before it. -/
def Along (allowed : η → Transition σ α → Prop) (remember : η → Transition σ α → η) :
    η → List (Transition σ α) → Prop
  | _, [] => True
  | memory, e :: rest => allowed memory e ∧ Along allowed remember (remember memory e) rest

instance Along.decidable [∀ memory e, Decidable (allowed memory e)] :
    ∀ (memory : η) (trace : List (Transition σ α)), Decidable (Along allowed remember memory trace)
  | _, [] => inferInstanceAs (Decidable True)
  | memory, e :: rest =>
    have := Along.decidable (remember memory e) rest
    inferInstanceAs (Decidable (allowed memory e ∧ Along allowed remember (remember memory e) rest))

end Concurrency
