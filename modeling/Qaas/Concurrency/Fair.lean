import Qaas.Concurrency.Run

/-! Runs without an end, and what they come to where no kind of action is passed over for ever. -/

namespace Concurrency

variable {σ α : Type*} {step : σ → α → Option σ} {start : σ}

/-- A run that never ends. -/
structure Endless (step : σ → α → Option σ) (start : σ) where
  state : ℕ → σ
  act : ℕ → α
  starts : state 0 = start
  follows : ∀ n, step (state n) (act n) = some (state (n + 1))

/-- An action of some kind is possible. -/
def Possible (step : σ → α → Option σ) (kind : α → Prop) (s : σ) : Prop :=
  ∃ act, kind act ∧ (step s act).isSome = true

/-- If actions of a kind are possible again and again, then they are taken again and again. -/
def Endless.Fair (run : Endless step start) (kind : α → Prop) : Prop :=
  (∀ n, ∃ m ≥ n, Possible step kind (run.state m)) → ∀ n, ∃ m ≥ n, kind (run.act m)

/-- Whenever the run is in one of these states, it is in one of those then or later. -/
def Endless.LeadsTo (run : Endless step start) (here there : σ → Prop) : Prop :=
  ∀ n, here (run.state n) → ∃ m ≥ n, there (run.state m)

variable {run : Endless step start} {here there : σ → Prop}

/-- The steps that a run takes up to some time are a run that ends there. -/
theorem Endless.upTo (run : Endless step start) (n : ℕ) : Run step (fun _ _ => True) start
    ((List.range n).map fun k => ⟨run.state k, run.act k, run.state (k + 1)⟩) (run.state n) := by
  induction n with
  | zero =>
    rw [run.starts]
    exact .nil
  | succ n ih =>
    rw [List.range_succ, List.map_append]
    exact ih.snoc trivial (run.follows n)

/-- Behind one step more, an endless run is an endless run. -/
def Endless.cons {act : α} {next : σ} (taken : step start act = some next) (rest : Endless step next) :
    Endless step start where
  state
    | 0 => start
    | n + 1 => rest.state n
  act
    | 0 => act
    | n + 1 => rest.act n
  starts := rfl
  follows
    | 0 => taken.trans (congrArg some rest.starts.symm)
    | n + 1 => rest.follows n

/-- A run can go on as an endless one does that starts where it ends. -/
theorem Run.prolonged {trace : List (Transition σ α)} {s : σ} (run : Run step (fun _ _ => True) start trace s)
    (rest : Endless step s) : ∃ whole : Endless step start, ∀ n, whole.state (trace.length + n) = rest.state n := by
  induction run with
  | nil => exact ⟨rest, fun n => by rw [List.length_nil, Nat.zero_add]⟩
  | snoc _ _ taken ih =>
    -- The last step of the run is the first of an endless one.
    obtain ⟨whole, same⟩ := ih (rest.cons taken)
    refine ⟨whole, fun n => ?_⟩
    rw [List.length_append, List.length_singleton, Nat.add_assoc, Nat.add_comm 1 n]
    exact same (n + 1)

/-- Actions that are impossible from some time on are not passed over. -/
theorem Endless.fair_of_impossible {kind : α → Prop} {n : ℕ}
    (never : ∀ m ≥ n, ¬ Possible step kind (run.state m)) : run.Fair kind := by
  intro again
  obtain ⟨m, later, able⟩ := again n
  exact absurd able (never m later)

/-- A state is left for another at the latest when an action of a kind is taken, if such actions are possible
as long as it is not left. -/
theorem Endless.leadsTo_of_fair {kind : α → Prop} (fair : run.Fair kind)
    (keeps : ∀ n, here (run.state n) → here (run.state (n + 1)) ∨ there (run.state (n + 1)))
    (helps : ∀ n, here (run.state n) → kind (run.act n) → there (run.state (n + 1)))
    (possible : ∀ n, (∀ m ≥ n, here (run.state m)) → ∃ m ≥ n, Possible step kind (run.state m)) :
    run.LeadsTo here there := by
  intro n now
  by_contra never
  have stays (m : ℕ) (later : m ≥ n) : here (run.state m) := by
    -- The run goes on in these states, since it never leaves them for those.
    induction later with
    | refl => exact now
    | @step m later ih =>
      rcases keeps m ih with still | left
      · exact still
      · exact absurd ⟨m + 1, Nat.le_succ_of_le later, left⟩ never
  have again (k : ℕ) : ∃ m ≥ k, Possible step kind (run.state m) := by
    obtain ⟨m, later, able⟩ := possible (max n k) fun m later => stays m (by omega)
    exact ⟨m, by omega, able⟩
  obtain ⟨m, later, taken⟩ := fair again n
  exact never ⟨m + 1, by omega, helps m (stays m later) taken⟩

/-- A run that comes closer as long as it has not come there comes there in the end, closeness being
well-founded. -/
theorem Endless.leadsTo_of_rank {ρ : Type*} [WellFoundedRelation ρ] (rank : σ → ρ)
    (closer : ∀ n, here (run.state n) → there (run.state n) ∨
      ∃ m ≥ n, here (run.state m) ∧ WellFoundedRelation.rel (rank (run.state m)) (rank (run.state n))) :
    run.LeadsTo here there := by
  have wf : WellFounded (WellFoundedRelation.rel : ρ → ρ → Prop) := WellFoundedRelation.wf
  have comes (r : ρ) : ∀ n, here (run.state n) → rank (run.state n) = r → ∃ m ≥ n, there (run.state m) := by
    -- The induction is on the rank, from any time on.
    induction r using wf.induction with
    | _ r ih =>
      intro n now ranked
      subst ranked
      rcases closer n now with reached | ⟨m, later, still, descends⟩
      · exact ⟨n, Nat.le_refl n, reached⟩
      · obtain ⟨last, latest, reached⟩ := ih _ descends m still rfl
        exact ⟨last, by omega, reached⟩
  exact fun n now => comes _ n now rfl

end Concurrency
