import Qaas.Server.Load

/-! The ceiling on a tenant's pending messages: it holds where the messages on their way are counted. -/

namespace Qaas

open Concurrency

variable {J : Type}

/-- What one call of a tenant has in its hands, and nothing for another caller's. -/
def ToolTask.share (tenant : TenantId) (part : Stage J → Nat) (task : ToolTask J) : Nat :=
  if task.caller = some tenant then part task.stage else 0

/-- The messages of a tenant that are pending, leased, delayed or in the middle of a failed delivery. -/
def ServerPool.unacknowledged (tenant : TenantId) (pool : ServerPool J) : Nat :=
  pool.shared.registry.held tenant + tally (ToolTask.share tenant Stage.failures) pool.tasks

/-- The messages of a tenant that are about to become pending. -/
def ServerPool.incoming (tenant : TenantId) (pool : ServerPool J) : Nat :=
  tally (ToolTask.share tenant Stage.incoming) pool.tasks

/-- A step that leaves a tenant's ceiling where it is. -/
def ServerPool.KeepsCeiling (tenant : TenantId) (maxPending : UInt64) (pool : ServerPool J) :
    ServerAction J → Prop
  | .step i _ => ∀ task ∈ pool.tasks[i]?, ∀ config ∈ task.stage.sets tenant,
      config.maxPendingMessages = some maxPending
  | _ => True

/-- A step that lets a message in only where all that are held or on their way leave room for it. -/
def ServerPool.Reserves (tenant : TenantId) (maxPending : UInt64) (pool : ServerPool J) :
    ServerAction J → Prop
  | .step i env => ∀ task ∈ pool.tasks[i]?, task.caller = some tenant → pool.shared.letsIn env task = true →
      pool.unacknowledged tenant + pool.incoming tenant < maxPending.toNat
  | _ => True

instance ServerPool.KeepsCeiling.decidable (tenant : TenantId) (maxPending : UInt64) (pool : ServerPool J)
    (act : ServerAction J) : Decidable (pool.KeepsCeiling tenant maxPending act) :=
  match act with
  | .step i _ => inferInstanceAs (Decidable (∀ task ∈ pool.tasks[i]?, _))
  | .call _ _ | .timeout _ _ | .tick _ | .setWallClock _ => inferInstanceAs (Decidable True)

instance ServerPool.Reserves.decidable (tenant : TenantId) (maxPending : UInt64) (pool : ServerPool J)
    (act : ServerAction J) : Decidable (pool.Reserves tenant maxPending act) :=
  match act with
  | .step i _ => inferInstanceAs (Decidable (∀ task ∈ pool.tasks[i]?, _))
  | .call _ _ | .timeout _ _ | .tick _ | .setWallClock _ => inferInstanceAs (Decidable True)

/-- A tenant keeps below its ceiling, with what is on its way, and only what this process has put there
is in its queues. -/
structure ServerPool.Within (dataDir : Location) (tenant : TenantId) (maxPending : UInt64)
    (pool : ServerPool J) : Prop where
  keyed : pool.Keyed dataDir
  ceiling : (pool.shared.registry.quota tenant).config.maxPendingMessages = some maxPending
  empty : ∀ queue, ValidName queue →
    (pool.shared.disk.wals (walPath dataDir (some tenant) queue)).records = []
  below : pool.unacknowledged tenant + pool.incoming tenant ≤ maxPending.toNat

/-- What is held and what is on its way, in one sum. -/
theorem ServerPool.load_eq (tenant : TenantId) (pool : ServerPool J) :
    pool.unacknowledged tenant + pool.incoming tenant =
      pool.shared.registry.held tenant + tally (ToolTask.share tenant Stage.load) pool.tasks := by
  -- The load of a call is what it has failed with and what is incoming.
  have same : ToolTask.share (J := J) tenant Stage.load =
      fun task => task.share tenant Stage.failures + task.share tenant Stage.incoming := by
    funext task
    unfold ToolTask.share
    split <;> rfl
  rw [same, tally_add]
  unfold unacknowledged incoming
  omega

section

variable {services : Services} {dataDir : Location} {tenant : TenantId} {maxPending : UInt64}
  {pool next : ServerPool J} {act : ServerAction J} {i : Nat} {task : ToolTask J} {server : Server J}
  {stage : Stage J}

/-- What a step of a call leaves as it is. -/
theorem ServerAction.kept {server next : Server J}
    (moved : act.move services server task = some (next, stage)) : server.Kept task.stage next := by
  cases act with
  | step j env => exact Server.move_kept moved
  | timeout j wrote => exact Server.timeout_kept moved
  | _ => cases moved

/-- The calls of others add no message to a tenant's queues. -/
theorem ServerPool.Keyed.held_others (keyed : pool.Keyed dataDir) (found : pool.tasks[i]? = some task)
    (foreign : task.caller ≠ some tenant)
    (moved : act.move services pool.shared task = some (server, stage)) :
    server.registry.held tenant = pool.shared.registry.held tenant := by
  have proper := keyed.proper task (List.mem_of_getElem? found)
  cases touched : task.stage.touches with
  | none =>
    have groups := (ServerAction.kept moved).groups touched
    unfold QueueRegistry.held QueueRegistry.matching
    rw [groups]
  | some queue =>
    -- The queue is one of the call's own caller.
    have own : task.caller = task.subject := proper.touches touched
    have confined : Confined task.subject fun server => act.move services server task :=
      ServerAction.confined proper act
    exact QueueRegistry.held_congr (confined.frame moved (some tenant) fun same => foreign (own.trans same.symm))

/-- A step of a call keeps the tenant below its ceiling. -/
theorem ServerPool.Within.move (within : pool.Within dataDir tenant maxPending)
    (kept : pool.KeepsCeiling tenant maxPending act) (reserves : pool.Reserves tenant maxPending act)
    (own : act.task = some i) (found : pool.tasks[i]? = some task)
    (moved : act.move services pool.shared task = some (server, stage))
    (keyed : ServerPool.Keyed dataDir ⟨server, pool.tasks.set i { task with stage }⟩) :
    ServerPool.Within dataDir tenant maxPending ⟨server, pool.tasks.set i { task with stage }⟩ := by
  have leaves := ServerAction.kept moved
  refine ⟨keyed, ?_, ?_, ?_⟩
  · -- The ceiling is the same, whether it is set again or not.
    show (server.registry.quota tenant).config.maxPendingMessages = some maxPending
    rw [leaves.config tenant]
    cases sets : task.stage.sets tenant with
    | none => exact within.ceiling
    | some config =>
      cases act with
      | step j env =>
        obtain rfl := Option.some.inj own
        exact kept task found config sets
      | timeout j wrote =>
        have group : task.stage.sets tenant = none := by
          obtain ⟨caller, call, current⟩ := task
          cases current <;> first | rfl | cases moved
        rw [group] at sets
        cases sets
      | _ => cases own
  · intro queue valid
    exact (leaves.disk _).trans (within.empty queue valid)
  · have before := within.below
    rw [ServerPool.load_eq] at before ⊢
    -- The load of the tenant changes by what its own call takes on or gives away.
    have traded := tally_set (ToolTask.share tenant Stage.load) { task with stage } found
    by_cases mine : task.caller = some tenant
    · simp only [ToolTask.share, if_pos mine] at traded
      have proper := within.keyed.proper task (List.mem_of_getElem? found)
      cases act with
      | step j env =>
        obtain rfl := Option.some.inj own
        have load := Server.move_load mine proper (by rw [within.ceiling]; exact Option.some_ne_none _)
          (fun queue valid => by rw [within.keyed.dataDir]; exact within.empty queue valid) moved
        -- A message is let in only where there is room for it.
        cases lets : pool.shared.letsIn env task with
        | false =>
          rw [lets, Bool.toNat_false] at load
          dsimp only at before ⊢
          omega
        | true =>
          have room := reserves task found mine lets
          rw [ServerPool.load_eq] at room
          rw [lets, Bool.toNat_true] at load
          dsimp only at before room ⊢
          omega
      | timeout j wrote =>
        have load := Server.timeout_load mine proper moved
        dsimp only at before ⊢
        omega
      | _ => cases own
    · have same := within.keyed.held_others found mine moved
      simp only [ToolTask.share, if_neg mine, Nat.add_zero] at traded
      dsimp only at before ⊢
      omega

/-- Every step that lets a message in only where there is room keeps the tenant below its ceiling. -/
theorem ServerPool.Within.step (within : pool.Within dataDir tenant maxPending)
    (kept : pool.KeepsCeiling tenant maxPending act) (reserves : pool.Reserves tenant maxPending act)
    (taken : pool.step services act = some next) : next.Within dataDir tenant maxPending := by
  have keyed := within.keyed.step taken
  cases own : act.task with
  | some i =>
    obtain ⟨task, server, stage, found, moved, rfl⟩ := (step_eq_some own).mp taken
    exact within.move kept reserves own found moved keyed
  | none =>
    cases act with
    | call caller call =>
      simp only [ServerPool.step] at taken
      split at taken
      · obtain rfl := Option.some.inj taken
        refine ⟨keyed, within.ceiling, within.empty, ?_⟩
        have before := within.below
        rw [ServerPool.load_eq] at before ⊢
        -- A new call has nothing on its way.
        have nothing : ToolTask.share tenant Stage.load (⟨caller, call, .authorize⟩ : ToolTask J) = 0 := by
          unfold ToolTask.share
          split <;> rfl
        simp only [Pool.spawn, tally_append, tally_cons, tally_nil, nothing]
        exact before
      · cases taken
    | tick elapsed =>
      obtain rfl := Option.some.inj taken
      exact ⟨keyed, within.ceiling, within.empty, within.below⟩
    | setWallClock wallClock =>
      obtain rfl := Option.some.inj taken
      exact ⟨keyed, within.ceiling, within.empty, within.below⟩
    | step j env => cases own
    | timeout j wrote => cases own

end

/-- A server on which a tenant has opened no queue yet, whose logs hold nothing of the tenant's, and
which has a ceiling on the tenant's pending messages. -/
structure Server.Limits (tenant : TenantId) (maxPending : UInt64) (server : Server J) : Prop where
  unopened : server.registry.groups = ∅
  ceiling : (server.registry.quota tenant).config.maxPendingMessages = some maxPending
  empty : ∀ queue, ValidName queue →
    (server.disk.wals (walPath server.registry.dataDir (some tenant) queue)).records = []

/-- Where a message is let in only while all that are held or on their way leave room for it, a tenant
never has more unacknowledged messages than it may. -/
theorem ServerPool.pending_ceiling {services : Services} {tenant : TenantId} {maxPending : UInt64}
    {server : Server J} {trace : List (Transition (ServerPool J) (ServerAction J))} {pool : ServerPool J}
    (limits : server.Limits tenant maxPending)
    (run : Run (ServerPool.step services) (fun pool act => pool.KeepsCeiling tenant maxPending act)
      ⟨server, []⟩ trace pool)
    (reserves : ∀ e ∈ trace, e.pre.Reserves tenant maxPending e.act) :
    pool.unacknowledged tenant ≤ maxPending.toNat := by
  -- With no queue open and no call made there is nothing to count.
  have start : ServerPool.Within server.registry.dataDir tenant maxPending (⟨server, []⟩ : ServerPool J) := by
    refine ⟨⟨fun _ member => (List.not_mem_nil member).elim, fun key member => ?_, rfl⟩, limits.ceiling,
      limits.empty, ?_⟩
    · rw [limits.unopened] at member
      exact (Finmap.notMem_empty member).elim
    · rw [ServerPool.load_eq]
      unfold QueueRegistry.held QueueRegistry.matching
      rw [limits.unopened]
      exact Nat.zero_le _
  have within : pool.Within server.registry.dataDir tenant maxPending :=
    (run.strengthen reserves).invariant start fun _ _ _ allowed within taken =>
      within.step allowed.1 allowed.2 taken
  have bound := within.below
  omega

/-- A server that allows a tenant one pending message. -/
def onePending : Server Unit :=
  let server : Server Unit := .new ["data"] {} .empty 0 ⟨0⟩
  server.withRegistry (server.registry.setQuota acme
    (.new { QuotaConfig.unlimited with maxPendingMessages := some 1 }))

theorem onePending_limits : onePending.Limits acme 1 :=
  ⟨rfl, by decide, fun _ _ => rfl⟩

/-- A step that counts the tenant's one queue. -/
def countOrders (task : Nat) : ServerAction Unit :=
  .step task { queues := [scopeKey (some acme) "orders"] }

/-- Two calls that put a message each on the tenant's queue, the second when the first is done. -/
def oneByOne : List (ServerAction Unit) :=
  [.call (some acme) (.plain "orders" () ⟨0⟩), .call (some acme) (.plain "orders" () ⟨1⟩)] ++
    ServerAction.run 0 8 ++ [countOrders 0] ++ ServerAction.run 0 5 ++
    ServerAction.run 1 4 ++ [countOrders 1] ++ ServerAction.run 1 1

theorem ServerPool.pending_ceiling_oneByOne :
    ∃ pool : ServerPool Unit, pool.unacknowledged acme = 1 ∧
      pool.unacknowledged acme ≤ (1 : UInt64).toNat := by
  have reached : ∃ pool : ServerPool Unit, Reachable (ServerPool.step Services.alike)
      (fun pool act => pool.KeepsCeiling acme 1 act ∧ pool.Reserves acme 1 act) ⟨onePending, []⟩ pool ∧
      pool.unacknowledged acme = 1 :=
    reaches_of_exec oneByOne _ (by decide +kernel)
  obtain ⟨pool, ⟨trace, run⟩, one⟩ := reached
  have calm := run.mono fun _ _ allowed => allowed.1
  exact ⟨pool, one, ServerPool.pending_ceiling onePending_limits calm fun e member => (run.of_mem member).2.1.2⟩

/-- Two calls of which both find the tenant below its ceiling before either puts its message there. -/
def bothBelow : List (ServerAction Unit) :=
  [.call (some acme) (.plain "orders" () ⟨0⟩), .call (some acme) (.plain "orders" () ⟨1⟩)] ++
    ServerAction.run 0 8 ++ [countOrders 0] ++ ServerAction.run 0 1 ++
    ServerAction.run 1 4 ++ [countOrders 1] ++ ServerAction.run 1 1 ++
    ServerAction.run 0 4 ++ ServerAction.run 1 4

theorem ServerPool.pending_exceeded :
    ¬ ∀ (server : Server Unit) (tenant : TenantId) (maxPending : UInt64)
        (trace : List (Transition (ServerPool Unit) (ServerAction Unit))) (pool : ServerPool Unit),
      server.Limits tenant maxPending →
      Run (ServerPool.step Services.alike) (fun pool act => pool.KeepsCeiling tenant maxPending act)
        ⟨server, []⟩ trace pool →
      (∀ task ∈ pool.tasks, task.caller = some tenant ∧ task.call.newId.isSome) →
      pool.unacknowledged tenant ≤ maxPending.toNat := by
  -- In the run that is computed both enqueues find the tenant below the ceiling.
  intro always
  have reached : ∃ pool : ServerPool Unit, Reachable (ServerPool.step Services.alike)
      (fun pool act => pool.KeepsCeiling acme 1 act) ⟨onePending, []⟩ pool ∧
      (∀ task ∈ pool.tasks, task.caller = some acme ∧ task.call.newId.isSome) ∧
      pool.unacknowledged acme = 2 :=
    reaches_of_exec bothBelow _ (by decide +kernel)
  obtain ⟨pool, ⟨trace, run⟩, own, two⟩ := reached
  have bounded := always onePending acme 1 trace pool onePending_limits run own
  rw [two] at bounded
  exact absurd bounded (by decide)

end Qaas
