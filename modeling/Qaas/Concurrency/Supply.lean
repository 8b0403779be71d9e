import Mathlib.Order.Defs.LinearOrder
import Mathlib.Tactic.Cases

/-! Whether the wakeups of a shared resource suffice for those who wait for it, as a machine of counters. -/

namespace Concurrency

/-- Those who take from a shared resource, and the wakeups on their way to them. -/
structure Supply where
  -- What there is to take.
  available : Nat
  -- Those about to take it, if there is any left when they look.
  looking : Nat
  -- Those that found nothing, and look again only with a wakeup.
  waiting : Nat
  -- Those that have put something in, and have still to send a wakeup.
  telling : Nat
  -- A wakeup sent while nobody was registered.
  stored : Nat
  -- Wakeups that the ones they were sent to have not taken yet.
  sent : Nat

/-- The wakeups that somebody waiting will have. -/
def Supply.wakeups (supply : Supply) : Nat :=
  supply.telling + supply.stored + supply.sent

/-- What those about to look will leave over is matched by wakeups, as far as anybody waits for it. -/
def Supply.Covered (supply : Supply) : Prop :=
  min (supply.available - supply.looking) supply.waiting ≤ supply.wakeups

/-- One wakeup more than that. -/
def Supply.Spare (supply : Supply) : Prop :=
  min (supply.available - supply.looking) supply.waiting < supply.wakeups

instance (supply : Supply) : Decidable supply.Spare :=
  inferInstanceAs (Decidable (_ < _))

/-- What one task can do to the counters. -/
inductive Supply.Step (supply : Supply) : Supply → Prop
  | join : Supply.Step supply { supply with looking := supply.looking + 1 }
  | take (there : 0 < supply.available) (looks : 0 < supply.looking) :
      Supply.Step supply
        { supply with available := supply.available - 1, looking := supply.looking - 1 }
  | wait (empty : supply.available = 0) (looks : 0 < supply.looking) :
      Supply.Step supply
        { supply with looking := supply.looking - 1, waiting := supply.waiting + 1 }
  | leave (empty : supply.available = 0) (looks : 0 < supply.looking) :
      Supply.Step supply { supply with looking := supply.looking - 1 }
  | put {available : Nat} (one : available ≤ supply.available + 1) :
      Supply.Step supply { supply with available := available, telling := supply.telling + 1 }
  | store (tells : 0 < supply.telling) :
      Supply.Step supply
        { supply with telling := supply.telling - 1, stored := supply.stored + 1 }
  | send (tells : 0 < supply.telling) :
      Supply.Step supply { supply with telling := supply.telling - 1, sent := supply.sent + 1 }
  -- A wakeup is sent while another one is stored, and only one of the two is left.
  | merge (tells : 0 < supply.telling) (spare : supply.Spare) :
      Supply.Step supply { supply with telling := supply.telling - 1 }
  | collect (stored : 0 < supply.stored) (waits : 0 < supply.waiting) :
      Supply.Step supply { supply with
        stored := supply.stored - 1, waiting := supply.waiting - 1, looking := supply.looking + 1 }
  | wake (sent : 0 < supply.sent) (waits : 0 < supply.waiting) :
      Supply.Step supply { supply with
        sent := supply.sent - 1, waiting := supply.waiting - 1, looking := supply.looking + 1 }

/-- Every step leaves enough wakeups, also one that merges two where a spare one is left. -/
theorem Supply.Covered.step {supply next : Supply} (covered : supply.Covered)
    (step : supply.Step next) : next.Covered := by
  unfold Supply.Covered Supply.wakeups at covered ⊢
  cases step with
  | merge tells spare =>
    -- One of the wakeups is lost, and there was one too many.
    unfold Supply.Spare Supply.wakeups at spare
    simp only
    omega
  | put one =>
    -- One more to take comes with one more wakeup.
    simp only
    omega
  | take there looks =>
    -- Whoever takes one was about to look, so no more is left over than before.
    simp only
    omega
  | _ => simp only; omega

/-- When nobody moves and no wakeup is left, either nobody waits or there is nothing to take. -/
theorem Supply.Covered.at_rest {supply : Supply} (covered : supply.Covered)
    (unlooking : supply.looking = 0) (spent : supply.wakeups = 0) :
    supply.available = 0 ∨ supply.waiting = 0 := by
  unfold Supply.Covered at covered
  omega

end Concurrency
