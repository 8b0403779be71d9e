import Mathlib.Data.Nat.Cast.Order.Basic
import Qaas.Admission.Controller
import Qaas.Admission.Window

/-! A controller beside the complete history of what it has admitted. -/

namespace Qaas

open SlidingWindow

/-- Whether the request fits under both ceilings. -/
def AdmissionController.Fits (controller : AdmissionController) (now : Instant) (tokens : UInt64)
    (cost : ℚ) : Prop :=
  let used := sumEntries (controller.evicted now).entries
  (∀ limit ∈ controller.config.tokensPerWindow, saturatingAdd used.1 tokens ≤ limit) ∧
    ∀ ceiling ∈ controller.config.costCeilingPerWindow, used.2 + cost ≤ ceiling

instance AdmissionController.decidableFits (controller : AdmissionController) (now : Instant)
    (tokens : UInt64) (cost : ℚ) :
    Decidable (controller.Fits now tokens cost) :=
  inferInstanceAs (Decidable ((∀ limit ∈ controller.config.tokensPerWindow, _) ∧
    ∀ ceiling ∈ controller.config.costCeilingPerWindow, _))

/-- What a call records. -/
def AdmissionController.admits (controller : AdmissionController) (now : Instant) :
    AdmissionCall → Option UsageEntry
  | .tryAdmit tokens cost =>
    match (controller.tryAdmit now tokens cost).2 with
    | .admitted _ _ => some ⟨now, tokens, cost⟩
    | .denied _ _ => none
  | _ => none

/-- An admitted request, and whether some call since has found it as old as the window then was. -/
structure Admission where
  entry : UsageEntry
  lapsed : Bool

/-- A call finds an admitted request at its age. -/
def Admission.seen (window : Duration) (now : Instant) (admission : Admission) : Admission :=
  { admission with lapsed := admission.lapsed || window ≤ durationSince now admission.entry.at_ }

/-- A controller and everything it has ever admitted. -/
structure Budget where
  controller : AdmissionController
  ledger : List Admission

/-- One call on the controller at a time. -/
def Budget.step (budget : Budget) (timed : Instant × AdmissionCall) : Budget where
  controller := (budget.controller.call timed.1 timed.2).1
  ledger :=
    match timed.2 with
    | .setConfig _ => budget.ledger
    | call =>
      budget.ledger.map (.seen budget.controller.config.window timed.1) ++
        (budget.controller.admits timed.1 call).toList.map fun entry => ⟨entry, false⟩

/-- Calls on a new controller, one after the other. -/
def Budget.run (config : AdmissionConfig) (calls : List (Instant × AdmissionCall)) : Budget :=
  calls.foldl Budget.step ⟨.new config, []⟩

/-- Every request ever admitted. -/
def Budget.history (budget : Budget) : List UsageEntry :=
  budget.ledger.map Admission.entry

/-- The calls come at times that do not decrease. -/
def InOrder (calls : List (Instant × AdmissionCall)) : Prop :=
  calls.Pairwise fun earlier later => earlier.1 ≤ later.1

instance InOrder.decidable (calls : List (Instant × AdmissionCall)) : Decidable (InOrder calls) :=
  inferInstanceAs (Decidable (calls.Pairwise fun earlier later => earlier.1 ≤ later.1))

/-- Whether a call changes the configuration. -/
def AdmissionCall.reconfigures : AdmissionCall → Bool
  | .setConfig _ => true
  | _ => false

/-- An admission decision is an admission exactly when the request fits. -/
theorem AdmissionController.tryAdmit_eq (controller : AdmissionController) (now : Instant)
    (tokens : UInt64) (cost : ℚ) :
    (∃ reason wait, ¬ controller.Fits now tokens cost ∧
      controller.tryAdmit now tokens cost = (controller.evicted now, .denied reason wait)) ∨
    ∃ tokensRemaining costRemaining, controller.Fits now tokens cost ∧
      controller.tryAdmit now tokens cost =
        ({ controller.evicted now with
            entries := (controller.evicted now).entries ++ [⟨now, tokens, cost⟩] },
          .admitted tokensRemaining costRemaining) := by
  unfold tryAdmit Fits
  -- The two ceilings are tested one after the other.
  simp only [evicted_config]
  cases overTokens : controller.config.tokensPerWindow.filter fun limit =>
      limit < saturatingAdd (sumEntries (controller.evicted now).entries).1 tokens with
  | some limit =>
    obtain ⟨set, exceeded⟩ := Option.filter_eq_some_iff.mp overTokens
    refine .inl ⟨_, _, fun fits => ?_, rfl⟩
    exact absurd (fits.1 limit set) (UInt64.not_le.mpr (of_decide_eq_true exceeded))
  | none =>
    have tokensFit := Option.filter_eq_none_iff.mp overTokens
    cases overCost : controller.config.costCeilingPerWindow.filter fun ceiling =>
        ceiling < (sumEntries (controller.evicted now).entries).2 + cost with
    | some ceiling =>
      obtain ⟨set, exceeded⟩ := Option.filter_eq_some_iff.mp overCost
      refine .inl ⟨_, _, fun fits => ?_, rfl⟩
      exact absurd (fits.2 ceiling set) (not_le.mpr (of_decide_eq_true exceeded))
    | none =>
      have costFits := Option.filter_eq_none_iff.mp overCost
      refine .inr ⟨_, _, ⟨fun limit set => ?_, fun ceiling set => ?_⟩, rfl⟩
      · exact UInt64.not_lt.mp fun exceeded => tokensFit limit set (decide_eq_true exceeded)
      · exact not_lt.mp fun exceeded => costFits ceiling set (decide_eq_true exceeded)

/-- A request is admitted exactly when it fits. -/
theorem AdmissionController.admitted_iff {controller : AdmissionController} {now : Instant}
    {tokens : UInt64} {cost : ℚ} :
    (∃ tokensRemaining costRemaining,
      (controller.tryAdmit now tokens cost).2 = .admitted tokensRemaining costRemaining) ↔
    controller.Fits now tokens cost := by
  rcases controller.tryAdmit_eq now tokens cost with
    ⟨reason, wait, refused, decided⟩ | ⟨tokensRemaining, costRemaining, fits, decided⟩
  · simp [decided, refused]
  · simp [decided, fits]

/-- A request that fits is what its call records. -/
theorem AdmissionController.admits_tryAdmit (controller : AdmissionController) (now : Instant)
    (tokens : UInt64) (cost : ℚ) :
    controller.admits now (.tryAdmit tokens cost) =
      if controller.Fits now tokens cost then some ⟨now, tokens, cost⟩ else none := by
  rcases controller.tryAdmit_eq now tokens cost with
    ⟨reason, wait, refused, decided⟩ | ⟨tokensRemaining, costRemaining, fits, decided⟩
  · simp [admits, decided, refused]
  · simp [admits, decided, fits]

/-- A call that does not change the configuration evicts, and appends what it records. -/
theorem AdmissionController.call_eq {controller : AdmissionController} {now : Instant}
    {call : AdmissionCall} (keeps : call.reconfigures = false) :
    (controller.call now call).1 =
      { controller.evicted now with
        entries := (controller.evicted now).entries ++ (controller.admits now call).toList } := by
  -- Only an admission appends anything; a refused one only evicts.
  cases call with
  | tryAdmit tokens cost =>
    rcases controller.tryAdmit_eq now tokens cost with
      ⟨reason, wait, refused, decided⟩ | ⟨tokensRemaining, costRemaining, fits, decided⟩
    · simp only [call, admits, decided, Option.toList_none, List.append_nil]
    · simp only [call, admits, decided, Option.toList_some]
  | usage => simp only [call, AdmissionController.usage, admits, Option.toList_none, List.append_nil]
  | hasHeadroom =>
    simp only [call, AdmissionController.hasHeadroom, admits, Option.toList_none, List.append_nil]
  | setConfig config => cases keeps

/-- What a call records, it records as of now. -/
theorem AdmissionController.admits_at {controller : AdmissionController} {now : Instant}
    {call : AdmissionCall} {entry : UsageEntry} (admitted : controller.admits now call = some entry) :
    entry.at_ = now := by
  -- Only an admission records, with the time of the call.
  cases call with
  | tryAdmit tokens cost =>
    rw [admits_tryAdmit] at admitted
    split at admitted
    · obtain rfl := Option.some.inj admitted
      rfl
    · cases admitted
  | usage => cases admitted
  | hasHeadroom => cases admitted
  | setConfig config => cases admitted

/-- The calls of a run end with the last one. -/
theorem Budget.run_concat (config : AdmissionConfig) (calls : List (Instant × AdmissionCall))
    (timed : Instant × AdmissionCall) :
    Budget.run config (calls ++ [timed]) = (Budget.run config calls).step timed := by
  simp [run]

/-- A call that changes the configuration records nothing. -/
theorem Budget.step_setConfig (budget : Budget) (now : Instant) (config : AdmissionConfig) :
    budget.step (now, .setConfig config) = ⟨budget.controller.setConfig config, budget.ledger⟩ := rfl

/-- Any other call looks at every entry. -/
theorem Budget.step_ledger (budget : Budget) {now : Instant} {call : AdmissionCall}
    (keeps : call.reconfigures = false) :
    (budget.step (now, call)).ledger =
      budget.ledger.map (.seen budget.controller.config.window now) ++
        (budget.controller.admits now call).toList.map fun entry => ⟨entry, false⟩ := by
  cases call with
  | setConfig config => cases keeps
  | _ => rfl

/-- The history grows by what a call records. -/
theorem Budget.step_history (budget : Budget) (now : Instant) (call : AdmissionCall) :
    (budget.step (now, call)).history =
      budget.history ++ (budget.controller.admits now call).toList := by
  -- Marking an entry as lapsed leaves the entry; only a new one is added.
  cases keeps : call.reconfigures with
  | true =>
    cases call with
    | setConfig config => simp [history, step_setConfig, AdmissionController.admits]
    | _ => cases keeps
  | false =>
    have same : Admission.entry ∘ Admission.seen budget.controller.config.window now = Admission.entry :=
      rfl
    have fresh : Admission.entry ∘ (fun entry => ⟨entry, false⟩) = id := rfl
    rw [history, step_ledger budget keeps, List.map_append, List.map_map, same, List.map_map, fresh,
      List.map_id, history]

/-- The controller still has what no call has found too old, in the order of the history. -/
structure Budget.Sound (now : Instant) (budget : Budget) : Prop where
  sorted : budget.history.Pairwise fun earlier later => earlier.at_ ≤ later.at_
  past : ∀ entry ∈ budget.history, entry.at_ ≤ now
  kept : budget.controller.entries = (budget.ledger.filter fun a => !a.lapsed).map Admission.entry

/-- What an eviction leaves of sorted entries is what is younger than the window. -/
theorem evictExpired_eq {entries : List UsageEntry} {window : Duration} {now : Instant}
    (sorted : entries.Pairwise fun earlier later => earlier.at_ ≤ later.at_) :
    evictExpired entries window now = entries.filter fun entry => !decide (window ≤ durationSince now entry.at_) := by
  refine dropWhile_eq_filter (sorted.imp fun {earlier later} order expired => ?_)
  -- An earlier entry is at least as old.
  have older : durationSince now later.at_ ≤ durationSince now earlier.at_ :=
    max_le_max_right 0 (sub_le_sub_left order now)
  exact decide_eq_true ((of_decide_eq_true expired).trans older)

/-- What the controller has after an eviction. -/
theorem Budget.Sound.evicted {budget : Budget} {before : Instant} (sound : budget.Sound before)
    (now : Instant) :
    (budget.controller.evicted now).entries = (budget.ledger.filter fun a =>
      !(Admission.seen budget.controller.config.window now a).lapsed).map Admission.entry := by
  -- What the controller has is the part of the ledger that had not lapsed, and more may have lapsed now.
  have among : budget.controller.entries.Sublist budget.history := by
    rw [sound.kept]
    exact List.filter_sublist.map _
  rw [AdmissionController.evicted_entries, evictExpired_eq (sound.sorted.sublist among), sound.kept,
    List.filter_map, List.filter_filter]
  congr 1
  refine List.filter_congr fun a _ => ?_
  simp only [Admission.seen, Function.comp_apply, Bool.not_or, Bool.and_comm]

/-- A budget stays sound as time goes on. -/
theorem Budget.Sound.mono {budget : Budget} {before now : Instant} (sound : budget.Sound before)
    (later : before ≤ now) : budget.Sound now :=
  ⟨sound.sorted, fun entry member => (sound.past entry member).trans later, sound.kept⟩

/-- Every call keeps a budget sound. -/
theorem Budget.Sound.step {budget : Budget} {now : Instant} (sound : budget.Sound now)
    (call : AdmissionCall) : (budget.step (now, call)).Sound now := by
  have grown := budget.step_history now call
  refine ⟨?_, ?_, ?_⟩
  · rw [grown, List.pairwise_append]
    refine ⟨sound.sorted, ?_, ?_⟩
    · cases budget.controller.admits now call <;> simp
    · -- What is recorded now is not earlier than anything before.
      intro earlier member later last
      rw [AdmissionController.admits_at (Option.mem_toList.mp last)]
      exact sound.past earlier member
  · intro entry member
    rw [grown] at member
    rcases List.mem_append.mp member with before | last
    · exact sound.past entry before
    · exact (AdmissionController.admits_at (Option.mem_toList.mp last)).le
  · cases keeps : call.reconfigures with
    | true =>
      cases call with
      | setConfig config => exact sound.kept
      | _ => cases keeps
    | false =>
      show ((budget.controller.call now call).1).entries = _
      rw [step_ledger budget keeps, AdmissionController.call_eq keeps, sound.evicted now,
        List.filter_append, List.map_append, List.filter_map, List.map_map]
      cases budget.controller.admits now call <;> rfl

/-- A run whose calls are in order keeps its budget sound. -/
theorem Budget.sound_of_run {config : AdmissionConfig} {calls : List (Instant × AdmissionCall)}
    (ordered : InOrder calls) {now : Instant} (latest : ∀ timed ∈ calls, timed.1 ≤ now) :
    (Budget.run config calls).Sound now := by
  induction calls using List.reverseRecOn generalizing now with
  | nil => exact ⟨.nil, fun _ member => (List.not_mem_nil member).elim, rfl⟩
  | append_singleton calls timed ih =>
    obtain ⟨earlier, _, last⟩ := List.pairwise_append.mp ordered
    -- The last call comes at a time that none before it exceeds.
    have before := ih earlier fun first member => last first member timed (by simp)
    rw [run_concat]
    exact (before.step timed.2).mono (latest timed (by simp))

/-- An entry of the history was recorded by a call of the run. -/
theorem Budget.admitted_at {config : AdmissionConfig} {calls : List (Instant × AdmissionCall)}
    {before after : List UsageEntry} {entry : UsageEntry}
    (shape : (Budget.run config calls).history = before ++ entry :: after) :
    ∃ earlier call later, calls = earlier ++ (entry.at_, call) :: later ∧
      (Budget.run config earlier).history = before ∧
      (Budget.run config earlier).controller.admits entry.at_ call = some entry := by
  induction calls using List.reverseRecOn generalizing after with
  | nil => simp [run, history] at shape
  | append_singleton calls timed ih =>
    obtain ⟨now, call⟩ := timed
    rw [run_concat, step_history] at shape
    cases admitted : (Budget.run config calls).controller.admits now call with
    | none =>
      rw [admitted] at shape
      obtain ⟨earlier, other, later, rfl, rest⟩ := ih (by simpa using shape)
      exact ⟨earlier, other, later ++ [(now, call)], by simp, rest⟩
    | some recorded =>
      rw [admitted] at shape
      -- The entry is the one recorded last, or it was there before.
      rcases List.eq_nil_or_concat after with rfl | ⟨rest, last, rfl⟩
      · obtain ⟨same, own⟩ := List.append_inj' shape rfl
        obtain rfl : recorded = entry := by simpa using own
        obtain rfl := AdmissionController.admits_at admitted
        exact ⟨calls, call, [], rfl, same, admitted⟩
      · have regrouped : (Budget.run config calls).history ++ [recorded] =
            (before ++ entry :: rest) ++ [last] := by simpa using shape
        obtain ⟨whole, _⟩ := List.append_inj' regrouped rfl
        obtain ⟨earlier, other, later, rfl, rest⟩ := ih whole
        exact ⟨earlier, other, later ++ [(now, call)], by simp, rest⟩

end Qaas
