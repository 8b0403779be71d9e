import Qaas.Admission.History
import Qaas.Server.OneQueue

/-! What enqueues charge to the budget of their queue, and what they make for it. -/

namespace Qaas

open Concurrency SlidingWindow

variable {J : Type}

/-- Tokens, and dollars. -/
abbrev Usage := ℕ × ℚ

/-- What an enqueue is estimated at. -/
def EnqueueParams.estimate (params : EnqueueParams J) : Usage :=
  ((params.estimatedTokens.getD 0).toNat, params.estimatedCost.getD 0)

/-- What a call is estimated at. -/
def ToolCall.estimate : ToolCall J → Usage
  | .enqueue params _ => params.estimate
  | _ => 0

/-- What an entry of a budget records. -/
def UsageEntry.usage (entry : UsageEntry) : Usage :=
  (entry.tokens.toNat, entry.cost)

/-- What the budget of a queue has recorded. -/
def QueueView.recorded (view : QueueView) : Usage :=
  total UsageEntry.usage view.budget.entries

/-- No entry of the budget has aged out of its window. -/
def QueueView.Recent (view : QueueView) : Prop :=
  ∀ entry ∈ view.budget.entries, durationSince view.now entry.at_ < view.budget.config.window

instance QueueView.Recent.decidable (view : QueueView) : Decidable view.Recent :=
  inferInstanceAs (Decidable (∀ entry ∈ view.budget.entries, _))

/-- An enqueue that has been admitted, and is about to make its message. -/
def Stage.underWay : Stage J → Bool
  | .group _ (.reserve _ _) _ | .group _ (.appendEnqueue _ _) _ | .group _ (.pushPending _ _) _ => true
  | _ => false

/-- What a call has made, or is about to make, was estimated at. -/
def ToolTask.due (pending : List MessageId) (task : ToolTask J) : Usage :=
  if task.stage.underWay ∨ task.Created pending then task.call.estimate else 0

/-- What the calls that made a message were estimated at. -/
def ServerPool.created (caller : Caller) (queue : String) (pool : ServerPool J) : Usage :=
  total (fun task => if task.Created (pool.shared.view caller queue).pending then task.call.estimate else 0)
    pool.tasks

/-- The budget of the queue has recorded what the calls were estimated at that made a message or are on
their way to make it; once all have their answers, what those were that made one. -/
def ServerPool.Accounted (caller : Caller) (queue : String) (pool : ServerPool J) : Prop :=
  (pool.shared.view caller queue).recorded =
      total (ToolTask.due (pool.shared.view caller queue).pending) pool.tasks ∧
    (pool.Settled → (pool.shared.view caller queue).recorded = pool.created caller queue)

/-- An admitted enqueue makes no message: its key belongs to another, or its record cannot be written. -/
def Stage.wastes (env : ToolEnv) (keys : Dedup) : Stage J → Bool
  | .group _ (.reserve _ own) _ => (keys.lookup own).isSome
  | .group _ (.appendEnqueue _ _) _ => !env.group.outcome.acknowledged
  | _ => false

/-- What a step wastes of what its call was charged. -/
def ServerPool.wasted (caller : Caller) (queue : String) (pool : ServerPool J) : ServerAction J → Usage
  | .step i env => pool.tasks[i]?.elim 0 fun task =>
    if task.stage.wastes env (pool.shared.view caller queue).keys then task.call.estimate else 0
  | _ => 0

/-- A step after which no admitted enqueue is left without a message, unless it was estimated at nothing. -/
def ServerPool.Spares (caller : Caller) (queue : String) (pool : ServerPool J) : ServerAction J → Prop
  | .step i env => ∀ task ∈ pool.tasks[i]?,
    task.stage.wastes env (pool.shared.view caller queue).keys = true → task.call.estimate = 0
  | _ => True

instance ServerPool.Spares.decidable (caller : Caller) (queue : String) (pool : ServerPool J)
    (act : ServerAction J) : Decidable (pool.Spares caller queue act) :=
  match act with
  | .step i _ => inferInstanceAs (Decidable (∀ task ∈ pool.tasks[i]?, _))
  | .call _ _ | .timeout _ _ | .tick _ | .setWallClock _ => inferInstanceAs (Decidable True)

section

variable {services : Services} {env : ToolEnv} {caller : Caller} {queue : String}
  {params : EnqueueParams J} {newId : MessageId} {view after : QueueView} {current later : Stage J}

/-- Where nothing has aged out, nothing is evicted. -/
theorem QueueView.Recent.evicted (recent : view.Recent) : view.budget.evicted view.now = view.budget := by
  unfold AdmissionController.evicted evictExpired
  have kept : view.budget.entries.dropWhile (fun front =>
      view.budget.config.window ≤ durationSince view.now front.at_) = view.budget.entries := by
    cases shape : view.budget.entries with
    | nil => rfl
    | cons first rest =>
      -- The first entry is the oldest, and is young enough to stay.
      have young := recent first (by rw [shape]; exact List.mem_cons_self)
      rw [List.dropWhile_cons_of_neg (by simpa using young)]
  rw [kept]

/-- A decision of the budget records what it admits, and nothing else. -/
theorem QueueView.Recent.tryAdmit (recent : view.Recent) (tokens : UInt64) (cost : ℚ) :
    (∃ reason wait, view.budget.tryAdmit view.now tokens cost = (view.budget, .denied reason wait)) ∨
      ∃ tokensRemaining costRemaining, view.budget.tryAdmit view.now tokens cost =
        ({ view.budget with entries := view.budget.entries ++ [⟨view.now, tokens, cost⟩] },
          .admitted tokensRemaining costRemaining) := by
  rcases view.budget.tryAdmit_eq view.now tokens cost with
    ⟨reason, wait, _, decided⟩ | ⟨tokensRemaining, costRemaining, _, decided⟩
  · rw [recent.evicted] at decided
    exact .inl ⟨reason, wait, decided⟩
  · rw [recent.evicted] at decided
    exact .inr ⟨tokensRemaining, costRemaining, decided⟩

/-- An enqueue whose message is not there, and that is not about to make it, owes nothing. -/
theorem ToolTask.due_eq_zero {pending : List MessageId} (idle : current.underWay = false)
    (absent : newId ∉ pending) :
    (⟨caller, .enqueue params newId, current⟩ : ToolTask J).due pending = 0 := by
  refine if_neg fun owes => ?_
  rcases owes with way | ⟨id, named, there⟩
  · exact absurd (idle.symm.trans way) (by decide)
  · obtain rfl := Option.some.inj named
    exact absent there

/-- An enqueue that is about to make its message owes what it is estimated at. -/
theorem ToolTask.due_underWay {pending : List MessageId} (way : current.underWay = true) :
    (⟨caller, .enqueue params newId, current⟩ : ToolTask J).due pending = params.estimate :=
  if_pos (.inl way)

/-- Before it is admitted, an enqueue is not about to make its message. -/
theorem Stage.Prepares.idle (prepares : current.Prepares queue params) : current.underWay = false := by
  cases current with
  | group => cases prepares
  | _ => rfl

/-- Nor is one that waits to be admitted. -/
theorem Stage.Waits.idle (waits : current.Waits queue params) : current.underWay = false := by
  cases current with
  | group => cases waits
  | _ => rfl

/-- Nor is one that knows the id of its message. -/
theorem identified_idle (embedding : Option Embedding) (id : MessageId) (tokens : Option UInt64)
    (cost : Option ℚ) : (identified queue embedding id tokens cost : Stage J).underWay = false := by
  cases embedding <;> rfl

/-- A step of an enqueue charges what the enqueue then owes, but for what it wastes. -/
theorem EnqueueStep.charges (caller : Caller) (recent : view.Recent) (path : current.OnPath queue params newId)
    (unmade : current.Unmade → newId ∉ view.pending)
    (step : EnqueueStep services env queue params newId view current after later) :
    after.recorded + (⟨caller, .enqueue params newId, current⟩ : ToolTask J).due view.pending =
      view.recorded + (⟨caller, .enqueue params newId, later⟩ : ToolTask J).due after.pending +
        if current.wastes env view.keys then params.estimate else 0 := by
  have wastesNothing {stage : Stage J} (idle : stage.underWay = false) :
      stage.wastes env view.keys = false := by
    cases stage with
    | group queue pc use =>
      cases pc with
      | reserve | appendEnqueue => cases idle
      | _ => rfl
    | _ => rfl
  -- Where nothing is on the way before or after, what is owed depends on the messages that are there.
  have idles {stage : Stage J} {view' : QueueView} (before : current.underWay = false)
      (still : stage.underWay = false) (budget : view'.budget = view.budget)
      (pending : view'.pending = view.pending) :
      view'.recorded + (⟨caller, .enqueue params newId, current⟩ : ToolTask J).due view.pending =
        view.recorded + (⟨caller, .enqueue params newId, stage⟩ : ToolTask J).due view'.pending +
          if current.wastes env view.keys then params.estimate else 0 := by
    unfold QueueView.recorded ToolTask.due ToolTask.Created
    simp only [before, still, budget, pending, wastesNothing before, Bool.false_eq_true, if_false, add_zero]
  cases step with
  | refused before =>
    exact idles (before.elim Stage.Prepares.idle Stage.Waits.idle) rfl rfl rfl
  | prepares before prepared _ => exact idles before.idle prepared.idle rfl rfl
  | asks before _ _ => exact idles before.idle rfl rfl rfl
  | skips before _ waits => exact idles before.idle waits.idle rfl rfl
  | collapses _ _ => exact idles rfl rfl rfl rfl
  | misses _ _ waits => exact idles rfl waits.idle rfl rfl
  | proceeds before waits => exact idles before.idle waits.idle rfl rfl
  | released => exact idles rfl rfl rfl rfl
  | notified => exact idles rfl (identified_idle _ _ _ _) rfl rfl
  | remembers => exact idles rfl rfl rfl rfl
  -- A denial leaves the budget as it was.
  | @denied locals budget reason wait error decided =>
    rcases recent.tryAdmit (params.estimatedTokens.getD 0) (params.estimatedCost.getD 0) with
      ⟨_, _, same⟩ | ⟨_, _, same⟩ <;> rw [same] at decided
    · exact idles rfl rfl (Prod.mk.inj decided).1.symm rfl
    · cases (Prod.mk.inj decided).2
  -- An admission records the estimate, and from here on the call owes it.
  | @admitted locals budget tokens cost decided =>
    rcases recent.tryAdmit (params.estimatedTokens.getD 0) (params.estimatedCost.getD 0) with
      ⟨_, _, same⟩ | ⟨_, _, same⟩ <;> rw [same] at decided
    · cases (Prod.mk.inj decided).2
    · obtain rfl := (Prod.mk.inj decided).1
      have way : (Stage.group queue (Call.enqueue ⟨newId, params.payload, locals.key⟩).entry
          (.enqueue locals.embedding tokens cost) : Stage J).underWay = true := by
        cases locals.key <;> rfl
      rw [ToolTask.due_eq_zero rfl (unmade True.intro), ToolTask.due_underWay way]
      show total UsageEntry.usage (view.budget.entries ++ [_]) + 0 =
        total UsageEntry.usage view.budget.entries + params.estimate + 0
      rw [total_append, total_singleton]
      rfl
  -- The key is another's message: what was charged for this call is wasted.
  | @hit message key existing embedding tokens cost found =>
    rw [ToolTask.due_underWay rfl, ToolTask.due_eq_zero (identified_idle _ _ _ _) (unmade True.intro)]
    simp only [Stage.wastes, found, Option.isSome_some, if_true, add_zero]
  -- The message is still on its way.
  | @reserved message key keys use found =>
    rw [ToolTask.due_underWay rfl, ToolTask.due_underWay rfl]
    simp only [Stage.wastes, found, Option.isSome_none, Bool.false_eq_true, if_false, add_zero]
    rfl
  | written done_ =>
    rw [ToolTask.due_underWay rfl, ToolTask.due_underWay rfl]
    simp only [Stage.wastes, done_, Bool.not_true, Bool.false_eq_true, if_false, add_zero]
  -- The record could not be written, so the call ends without a message.
  | unwritten failed shape =>
    have idle : later.underWay = false := by
      rcases shape with ⟨_, _, rfl⟩ | ⟨_, rfl⟩ <;> rfl
    rw [ToolTask.due_underWay rfl, ToolTask.due_eq_zero idle (unmade True.intro)]
    simp only [Stage.wastes, failed, Bool.not_false, if_true, add_zero]
  | @pushed message use =>
    cases path with
    | prepares prepares => cases prepares
    | waits waits => cases waits
    | group vector key enqueues =>
      obtain rfl : message = _ := enqueues
      -- The message was on its way, and now is there.
      have made (use : GroupUse) : (⟨caller, .enqueue params newId, .group queue
          (.notifyOne (.message newId)) use⟩ : ToolTask J).due (view.pending ++ [newId]) = params.estimate :=
        if_pos (.inr ⟨newId, rfl, List.mem_append_right _ List.mem_cons_self⟩)
      rw [ToolTask.due_underWay rfl, made]
      exact (add_zero _).symm

end

section

variable {services : Services} {caller : Caller} {queue : String} {pool next : ServerPool J}
  {act : ServerAction J}

/-- Nothing is wasted exactly where no admitted enqueue is left without a message. -/
theorem ServerPool.spares_iff : pool.Spares caller queue act ↔ pool.wasted caller queue act = 0 := by
  cases act with
  | step i env =>
    show (∀ task ∈ pool.tasks[i]?, _) ↔ pool.tasks[i]?.elim 0 _ = 0
    cases found : pool.tasks[i]? with
    | none => exact ⟨fun _ => rfl, fun _ task there => by cases there⟩
    | some task =>
      show _ ↔ (if _ then task.call.estimate else 0) = 0
      constructor
      · intro spares
        split
        · rename_i wastes
          exact spares task rfl wastes
        · rfl
      · intro nothing other there wastes
        obtain rfl := Option.some.inj there
        rwa [if_pos wastes] at nothing
  | _ => exact ⟨fun _ => rfl, fun _ => True.intro⟩

/-- What holds of one share of two sums holds of the sums, if the other shares are the same. -/
theorem trade {M : Type} [AddCancelCommMonoid M] {before after share share' sum sum' extra : M}
    (own : after + share = before + share' + extra) (traded : sum' + share = sum + share') :
    after + sum = before + sum' + extra := by
  refine add_right_cancel (b := share) ?_
  calc after + sum + share
      = after + share + sum := by abel
    _ = before + extra + (sum + share') := by rw [own]; abel
    _ = before + sum' + extra + share := by rw [← traded]; abel

/-- A step charges what the calls then owe, but for what it wastes. -/
theorem EnqueuesStep.charges (enqueuing : pool.Enqueuing caller queue)
    (recent : (pool.shared.view caller queue).Recent)
    (step : EnqueuesStep services caller queue pool act next) :
    (next.shared.view caller queue).recorded +
        total (ToolTask.due (pool.shared.view caller queue).pending) pool.tasks =
      (pool.shared.view caller queue).recorded +
        total (ToolTask.due (next.shared.view caller queue).pending) next.tasks +
          pool.wasted caller queue act := by
  cases step with
  | @begins params newId absent _ =>
    have nothing : (⟨caller, .enqueue params newId, .authorize⟩ : ToolTask J).due
        (pool.shared.view caller queue).pending = 0 := ToolTask.due_eq_zero rfl absent
    show (pool.shared.view caller queue).recorded + _ = (pool.shared.view caller queue).recorded +
      total (ToolTask.due (pool.shared.view caller queue).pending) (pool.tasks ++ [_]) + 0
    rw [total_append, total_singleton, nothing, add_zero, add_zero]
  | @waits act server own same _ =>
    have wastesNothing : pool.wasted caller queue act = 0 := by
      cases act with
      | step => cases own
      | _ => rfl
    rw [wastesNothing, add_zero]
    show (server.view caller queue).recorded + _ = _ + total (ToolTask.due (server.view caller queue).pending) _
    rw [same]
    rfl
  | @moves i env params newId stage later server found path step =>
    have own := step.charges caller recent path fun unmade =>
      enqueuing.unmade _ (List.mem_of_getElem? found) unmade newId rfl
    -- What the other calls owe is the same, since the message that may be new is none of theirs.
    have others (j : Nat) (task : ToolTask J) (apart : j ≠ i) (there : pool.tasks[j]? = some task) :
        task.due (server.view caller queue).pending = task.due (pool.shared.view caller queue).pending := by
      have same := enqueuing.created_other found path step apart there
      unfold ToolTask.due
      simp only [same]
    have traded := total_set ⟨caller, .enqueue params newId, later⟩ found others
    have wastes : pool.wasted caller queue (.step i env) =
        if stage.wastes env (pool.shared.view caller queue).keys then params.estimate else 0 := by
      show pool.tasks[i]?.elim 0 _ = _
      rw [found]
      rfl
    rw [wastes]
    exact trade own traded

/-- All that the budget has recorded is owed or wasted. -/
theorem ServerPool.recorded_eq {server : Server J}
    (unused : (server.view caller queue).budget.entries = [])
    {trace : List (Transition (ServerPool J) (ServerAction J))}
    (run : Run (ServerPool.step services) (fun pool act => pool.OnQueue caller queue act ∧
      (pool.shared.view caller queue).Recent) ⟨server, []⟩ trace pool) :
    pool.Enqueuing caller queue ∧ (pool.shared.view caller queue).recorded =
      total (ToolTask.due (pool.shared.view caller queue).pending) pool.tasks +
        total (fun e => e.pre.wasted caller queue e.act) trace := by
  -- The run grows by one step at its end.
  induction run with
  | nil =>
    refine ⟨.start server, ?_⟩
    show total UsageEntry.usage (server.view caller queue).budget.entries = 0 + 0
    rw [unused, total_nil, add_zero]
  | @snoc trace pool next act _ allowed taken ih =>
    obtain ⟨enqueuing, recorded⟩ := ih
    obtain ⟨step, after⟩ := enqueuing.step allowed.1 taken
    refine ⟨after, ?_⟩
    have charged := step.charges enqueuing allowed.2
    rw [recorded] at charged
    rw [total_append, total_singleton]
    refine add_right_cancel (b := total (ToolTask.due (pool.shared.view caller queue).pending) pool.tasks) ?_
    rw [charged]
    abel

/-- Once all calls have their answers, what is owed is what they were estimated at that made a message. -/
theorem ServerPool.Settled.due (settled : pool.Settled) :
    total (ToolTask.due (pool.shared.view caller queue).pending) pool.tasks = pool.created caller queue := by
  unfold ServerPool.created total
  congr 1
  refine List.map_congr_left fun task member => ?_
  have idle : task.stage.underWay = false := by
    -- A call that is under way stands in the consumer group, and has no answer yet.
    have answered := settled task member
    cases shape : task.stage with
    | group => rw [shape] at answered; cases answered
    | _ => rfl
  unfold ToolTask.due
  simp only [idle, Bool.false_eq_true, false_or]

/-- In every run of enqueues on one queue, the budget records exactly what the calls were estimated at that
made a message, or are about to, as long as no admitted call with an estimate is left without one. -/
theorem ServerPool.charged_for_new_work {services : Services} {caller : Caller} {queue : String}
    {server : Server J} (unused : (server.view caller queue).budget.entries = [])
    {trace : List (Transition (ServerPool J) (ServerAction J))} {pool : ServerPool J}
    (run : Run (ServerPool.step services) (fun pool act => pool.OnQueue caller queue act ∧
      (pool.shared.view caller queue).Recent) ⟨server, []⟩ trace pool) :
    (∀ e ∈ trace, e.post.Accounted caller queue) ↔ ∀ e ∈ trace, e.pre.Spares caller queue e.act := by
  constructor
  · intro accounted e member
    obtain ⟨before, after, shape⟩ := List.append_of_mem member
    obtain ⟨reached, allowed, taken, _⟩ := run.split shape
    rw [spares_iff]
    -- Neither up to the step nor with it is there any waste; a cost may be negative, so both are needed.
    have earlier : total (fun e : Transition (ServerPool J) (ServerAction J) =>
        e.pre.wasted caller queue e.act) before = 0 := by
      rcases reached.ended with rfl | ⟨last, among, ended⟩
      · rfl
      · have upTo := (recorded_eq unused reached).2
        have before_ : last ∈ trace := by
          rw [shape]
          exact List.mem_append_left _ among
        rw [← ended, (accounted last before_).1] at upTo
        exact left_eq_add.mp upTo
    have upTo := (recorded_eq unused (reached.snoc allowed taken)).2
    rw [(accounted e member).1, total_append, total_singleton, earlier, zero_add] at upTo
    exact left_eq_add.mp upTo
  · intro spares e member
    obtain ⟨before, after, shape⟩ := List.append_of_mem member
    obtain ⟨reached, allowed, taken, _⟩ := run.split shape
    have upTo := (recorded_eq unused (reached.snoc allowed taken)).2
    -- No step up to here has wasted anything.
    have nothing : total (fun e : Transition (ServerPool J) (ServerAction J) =>
        e.pre.wasted caller queue e.act) (before ++ [⟨e.pre, e.act, e.post⟩]) = 0 := by
      refine List.sum_eq_zero fun wasted among => ?_
      obtain ⟨f, there, rfl⟩ := List.mem_map.mp among
      refine spares_iff.mp (spares f ?_)
      rw [shape]
      rcases List.mem_append.mp there with earlier | own
      · exact List.mem_append_left _ earlier
      · obtain rfl := List.mem_singleton.mp own
        exact List.mem_append_right _ List.mem_cons_self
    rw [nothing, add_zero] at upTo
    exact ⟨upTo, fun settled => upTo.trans settled.due⟩

end

/-- An enqueue of a payload under an idempotency key, estimated at some tokens. -/
def ToolCall.keyed (queue : String) (key : String) (tokens : UInt64) (newId : MessageId) : ToolCall Unit :=
  .enqueue
    { queue := some queue
      payload := ()
      idempotencyKey := some key
      estimatedTokens := some tokens
      estimatedCost := none
      embedding := none } newId

theorem ServerPool.charged_for_new_work_once :
    ∃ (trace : List (Transition (ServerPool Unit) (ServerAction Unit))) (pool : ServerPool Unit),
      pool.created none "orders" = (10, 0) ∧ (∀ e ∈ trace, e.pre.Spares none "orders" e.act) ∧
      ∀ e ∈ trace, e.post.Accounted none "orders" := by
  have reached : ∃ pool : ServerPool Unit, Reachable (ServerPool.step Services.alike)
      (fun pool act => (pool.OnQueue none "orders" act ∧ (pool.shared.view none "orders").Recent) ∧
        pool.Spares none "orders" act) ⟨untouched, []⟩ pool ∧ pool.created none "orders" = (10, 0) :=
    reaches_of_exec (.call none (.keyed "orders" "first" 10 ⟨0⟩) :: ServerAction.run 0 11) _
      (by decide +kernel)
  obtain ⟨pool, ⟨trace, run⟩, ten⟩ := reached
  have spares : ∀ e ∈ trace, e.pre.Spares none "orders" e.act := fun e member => (run.of_mem member).2.1.2
  exact ⟨trace, pool, ten, spares, (ServerPool.charged_for_new_work rfl
    (run.mono fun _ _ allowed => allowed.1)).mpr spares⟩

/-- A call begins only when all before it have their answers. -/
def ServerPool.InTurn (pool : ServerPool J) : ServerAction J → Prop
  | .call _ _ => pool.Settled
  | _ => True

instance ServerPool.InTurn.decidable (pool : ServerPool J) (act : ServerAction J) :
    Decidable (pool.InTurn act) :=
  match act with
  | .call _ _ => inferInstanceAs (Decidable pool.Settled)
  | .step _ _ | .timeout _ _ | .tick _ | .setWallClock _ => inferInstanceAs (Decidable True)

/-- An enqueue, and the same request once more when the first is done. -/
def repeated : List (ServerAction Unit) :=
  .call none (.keyed "orders" "first" 10 ⟨0⟩) :: ServerAction.run 0 11 ++
    .call none (.keyed "orders" "first" 10 ⟨1⟩) :: ServerAction.run 1 5

theorem ServerPool.charged_twice :
    ¬ ∀ (server : Server Unit) (caller : Caller) (queue : String)
        (trace : List (Transition (ServerPool Unit) (ServerAction Unit))) (pool : ServerPool Unit),
      (server.view caller queue).budget.entries = [] →
      Run (ServerPool.step Services.alike) (fun pool act => (pool.OnQueue caller queue act ∧
        (pool.shared.view caller queue).Recent) ∧ pool.InTurn act) ⟨server, []⟩ trace pool →
      pool.Settled → (pool.shared.view caller queue).recorded = pool.created caller queue := by
  intro always
  have reached : ∃ pool : ServerPool Unit, Reachable (ServerPool.step Services.alike)
      (fun pool act => (pool.OnQueue none "orders" act ∧ (pool.shared.view none "orders").Recent) ∧
        pool.InTurn act) ⟨untouched, []⟩ pool ∧
      pool.Settled ∧ (pool.shared.view none "orders").recorded = (20, 0) ∧
        pool.created none "orders" = (10, 0) :=
    reaches_of_exec repeated _ (by decide +kernel)
  obtain ⟨pool, ⟨trace, run⟩, settled, twenty, ten⟩ := reached
  -- The second request finds the key of the first, after it has been charged.
  have same := always untouched none "orders" trace pool rfl run settled
  rw [twenty, ten] at same
  exact absurd same (by decide +kernel)

end Qaas
