import Qaas.Concurrency.Pool
import Qaas.Concurrency.Run

/-! What a system can still come to: the states that some allowed steps lead to. -/

namespace Concurrency

variable {σ α τ β : Type*} {step : σ → α → Option σ} {ok : σ → α → Prop} {goal : σ → Prop} {s : σ}

/-- Some allowed steps lead from a state to one with a property. -/
def CanReach (step : σ → α → Option σ) (ok : σ → α → Prop) (goal : σ → Prop) (s : σ) : Prop :=
  ∃ trace t, Run step ok s trace t ∧ goal t

theorem CanReach.here (reached : goal s) : CanReach step ok goal s :=
  ⟨[], s, .nil, reached⟩

/-- What is reached after one more step is reached. -/
theorem CanReach.after {act : α} {t : σ} (taken : step s act = some t) (allowed : ok s act)
    (onward : CanReach step ok goal t) : CanReach step ok goal s := by
  obtain ⟨trace, last, run, reached⟩ := onward
  exact ⟨_, last, (Run.nil.snoc allowed taken).append run, reached⟩

/-- A goal may be reached by way of another. -/
theorem CanReach.trans {middle : σ → Prop} (first : CanReach step ok middle s)
    (second : ∀ t, middle t → CanReach step ok goal t) : CanReach step ok goal s := by
  obtain ⟨trace, t, run, between⟩ := first
  obtain ⟨rest, last, onward, reached⟩ := second t between
  exact ⟨trace ++ rest, last, run.append onward, reached⟩

/-- Where a state that lacks the goal can always come closer to it, the goal is reached. -/
theorem canReach_of_rank {ρ : Type*} [WellFoundedRelation ρ] (inv : σ → Prop) (rank : σ → ρ)
    (closer : ∀ s, inv s → goal s ∨
      CanReach step ok (fun t => inv t ∧ WellFoundedRelation.rel (rank t) (rank s)) s)
    (s : σ) (holds : inv s) : CanReach step ok goal s := by
  -- The induction is on the rank, along which the way to the goal is pieced together.
  rcases closer s holds with reached | nearer
  · exact .here reached
  · exact nearer.trans fun t ⟨kept, descends⟩ => canReach_of_rank inv rank closer t kept
termination_by rank s
decreasing_by exact descends

/-- What one task can come to by itself, the pool can come to while the other tasks stay as they are. -/
theorem CanReach.alone {move : β → σ × τ → Option (σ × τ)} {met : σ × τ → β → Prop} {ended : σ × τ → Prop}
    {poolStep : Pool σ τ → α → Option (Pool σ τ)} {poolOk : Pool σ τ → α → Prop} {i : Nat} (label : β → α)
    (steps : ∀ (pool : Pool σ τ) env, poolStep pool (label env) = pool.advance i fun shared task => move env (shared, task))
    {pool : Pool σ τ} {task : τ} (found : pool.tasks[i]? = some task)
    (allows : ∀ moved shared env, met (shared, moved) env →
      poolOk ⟨shared, pool.tasks.set i moved⟩ (label env))
    (reached : CanReach (fun state env => move env state) met ended (pool.shared, task)) :
    CanReach poolStep poolOk (fun next => ∃ shared moved, ended (shared, moved) ∧
      next = ⟨shared, pool.tasks.set i moved⟩) pool := by
  obtain ⟨trace, ⟨shared, moved⟩, run, reached⟩ := reached
  -- The run of the task grows at its end, and so does that of the pool.
  have lifted : ∃ trace, Run poolStep poolOk pool trace ⟨shared, pool.tasks.set i moved⟩ := by
    clear reached
    generalize last : (shared, moved) = state at run
    induction run generalizing shared moved with
    | nil =>
      obtain ⟨rfl, rfl⟩ := Prod.mk.inj last
      have same : (⟨pool.shared, pool.tasks.set i moved⟩ : Pool σ τ) = pool := by
        obtain ⟨bound, rfl⟩ := List.getElem?_eq_some_iff.mp found
        rw [List.set_getElem_self]
      rw [same]
      exact ⟨[], .nil⟩
    | @snoc _ before _ env _ allowed taken ih =>
      subst last
      obtain ⟨earlier, sofar⟩ := ih before.1 before.2 rfl
      refine ⟨_, sofar.snoc (allows before.2 before.1 env allowed) ?_⟩
      have bound := (List.getElem?_eq_some_iff.mp found).1
      rw [steps]
      exact Pool.advance_eq_some.mpr ⟨before.2, shared, moved, List.getElem?_set_self bound, taken, by rw [List.set_set]⟩
  obtain ⟨trace, run⟩ := lifted
  exact ⟨trace, _, run, shared, moved, reached, rfl⟩

end Concurrency
