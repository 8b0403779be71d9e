import Qaas.Concurrency.Reach
import Qaas.Server.Ranks

/-! No tool call is ever stuck: whatever the other calls are at, it can still be answered. -/

namespace Qaas

open Concurrency

variable {J : Type}

/-- Whoever has the lock on the groups is on the way to giving it back. -/
def ServerPool.Held (pool : ServerPool J) : Prop :=
  ∀ j, pool.shared.registry.opener = some j → ∃ task queue at_, pool.tasks[j]? = some task ∧
    task.stage = .get queue at_ ∧ at_ ≠ .lookup

/-- What the calls of a server need for each of them to go on. -/
structure ServerPool.Orderly (services : Services) (faulty : Nat → Prop) (pool : ServerPool J) : Prop where
  served : pool.Served services faulty
  standing : pool.Standing
  held : pool.Held
  ready : pool.All fun _ task => task.stage.Ready (· ∈ pool.shared.registry.groups)

section

variable {services : Services} {faulty : Nat → Prop} {pool next : ServerPool J} {act : ServerAction J}

/-- A holder of the lock that another call's step does not concern keeps it. -/
theorem ServerPool.Held.set {i : Nat} {task : ToolTask J} {server : Server J} {stage : Stage J} (held : pool.Held)
    (found : pool.tasks[i]? = some task) (elsewhere : task.stage.looksUp = none)
    (same : server.registry.opener = pool.shared.registry.opener) :
    ServerPool.Held ⟨server, pool.tasks.set i { task with stage }⟩ := by
  -- The holder is at a stage of `get`, so it is not the call that moves.
  intro j holder
  obtain ⟨other, queue, at_, there, getting, beyond⟩ := held j (same.symm.trans holder)
  refine ⟨other, queue, at_, ?_, getting, beyond⟩
  have apart : i ≠ j := by
    rintro rfl
    obtain rfl := Option.some.inj (found.symm.trans there)
    rw [getting] at elsewhere
    cases elsewhere
  exact (List.getElem?_set_ne apart).trans there

/-- The lock is given back, or taken by a call that goes on to give it back. -/
theorem ServerPool.Held.move {i : Nat} {env : ToolEnv} {task : ToolTask J} {server : Server J} {stage : Stage J}
    (held : pool.Held) (locked : pool.Locked) (found : pool.tasks[i]? = some task)
    (moved : pool.shared.move services i env task = some (server, stage)) :
    ServerPool.Held ⟨server, pool.tasks.set i { task with stage }⟩ := by
  -- Only a call in `get` takes the lock or gives it back.
  have kept := Server.move_kept moved
  obtain ⟨caller, call, current⟩ := task
  have bound := (List.getElem?_eq_some_iff.mp found).1
  cases current with
  | get queue at_ =>
    have own (later : GetStage) (on : stage = .get queue later) (beyond : later ≠ .lookup) {j : Nat}
        (holder : some i = some j) : ∃ task queue at_, (pool.tasks.set i ⟨caller, call, stage⟩)[j]? = some task ∧
          task.stage = .get queue at_ ∧ at_ ≠ .lookup := by
      obtain rfl := Option.some.inj holder
      exact ⟨_, queue, later, List.getElem?_set_self bound, on, beyond⟩
    -- At its lookup the lock is free; the call finds its queue, or takes the lock.
    by_cases first : at_ = .lookup
    · subst first
      have taken : pool.shared.getStep services i env ⟨caller, call, .get queue .lookup⟩ queue .lookup =
          some (server, stage) := moved
      rw [Server.getStep_lookup] at taken
      obtain ⟨free, taken⟩ := Option.ite_none_left_eq_some.mp taken
      split at taken
      · obtain ⟨rfl, rfl⟩ := Prod.mk.inj (Option.some.inj taken)
        intro j holder
        exact absurd (Option.isSome_iff_exists.mpr ⟨j, holder⟩) free
      · obtain ⟨rfl, rfl⟩ := Prod.mk.inj (Option.some.inj taken)
        intro j holder
        refine own _ rfl ?_ holder
        split <;> decide
    · -- Beyond it the call has the lock already, and keeps it until it returns.
      obtain ⟨registry, after, got, rfl, rfl⟩ := Server.getStep_eq_some moved
      have holds := (locked i _ found queue at_ rfl first).1
      intro j holder
      cases QueueRegistry.get_got got with
      | finds | begins => exact absurd rfl first
      | opens | fails => cases holder
      | passes => exact own _ rfl (by decide) (holds.symm.trans holder)
      | goesOn order =>
        refine own _ rfl ?_ (holds.symm.trans holder)
        rcases order with ⟨_, rfl⟩ | ⟨_, rfl⟩ <;> decide
  | _ => exact held.set found rfl (kept.opener rfl)

/-- A step of a call leaves it at a stage whose next step will find what it needs. -/
theorem Server.move_ready {self : Nat} {env : ToolEnv} {server after : Server J} {task : ToolTask J} {stage : Stage J}
    {inside : String → Prop} {failed : Prop} (serves : task.stage.Serves services failed task.call)
    (ready : task.stage.Ready inside) (listed : ∀ key ∈ server.registry.groups, inside key)
    (moved : server.move services self env task = some (after, stage)) : stage.Ready inside := by
  -- Coming nearer includes that; what remains are the operations with a deadline.
  cases timed : task.stage.timed with
  | false => exact (Server.move_nearer serves ready timed listed moved).2
  | true =>
    obtain ⟨caller, call, current⟩ := task
    cases current with
    | group queue pc use =>
      obtain ⟨_, _, _, _, _, _, rfl⟩ := Server.move_group services moved
      split
      · exact (ToolCall.resume_nearer pc).2
      · exact True.intro
    | _ => cases timed

/-- Every step of the server keeps its calls going. -/
theorem ServerPool.Orderly.step (orderly : pool.Orderly services faulty) (failed : ∀ i, act.Fails i → faulty i)
    (taken : pool.step services act = some next) : next.Orderly services faulty := by
  -- Two parts are invariants on their own; the lock and what a call needs go with the kind of step.
  have served := orderly.served.step failed taken
  have standing := orderly.standing.step taken
  have opened {server : Server J} {key : String} (kept : (pool.shared.registry.groups.lookup key).isSome →
      (server.registry.groups.lookup key).isSome) (member : key ∈ pool.shared.registry.groups) :
      key ∈ server.registry.groups :=
    Finmap.lookup_isSome.mp (kept (Finmap.lookup_isSome.mpr member))
  cases act with
  | call caller call =>
    obtain ⟨_, same⟩ := Option.ite_none_right_eq_some.mp taken
    obtain rfl := Option.some.inj same
    refine ⟨served, standing, fun j holder => ?_, fun j task there => ?_⟩
    · obtain ⟨task, queue, at_, found, getting⟩ := orderly.held j holder
      have bound := (List.getElem?_eq_some_iff.mp found).1
      exact ⟨task, queue, at_, (List.getElem?_append_left bound).trans found, getting⟩
    · rcases found_concat there with before | ⟨_, rfl⟩
      · exact orderly.ready j task before
      · exact True.intro
  -- Queues that are open stay open, so what the other calls need is still there.
  | step i env =>
    obtain ⟨task, server, stage, found, moved, rfl⟩ := (step_eq_some rfl).mp taken
    have moved : pool.shared.move services i env task = some (server, stage) := moved
    refine ⟨served, standing, orderly.held.move orderly.standing.locked found moved, fun j other there => ?_⟩
    have wide (key : String) : key ∈ pool.shared.registry.groups → key ∈ server.registry.groups :=
      opened (Server.move_keeps moved)
    rcases found_set found there with ⟨rfl, rfl⟩ | ⟨_, before⟩
    · exact Server.move_ready (orderly.served.serves j task found) ((orderly.ready j task found).mono wide) wide moved
    · exact (orderly.ready j other before).mono wide
  -- Whoever is timed out holds no lock, and its group is stored as it leaves it.
  | timeout i wrote =>
    obtain ⟨task, server, stage, found, given, rfl⟩ := (step_eq_some rfl).mp taken
    have kept := Server.timeout_kept given
    obtain ⟨queue, pc, deadline, group, group', _, at_, _, _, _, rfl, rfl⟩ := Server.timeout_eq_some given
    have ungot : task.stage.looksUp = none := by rw [at_]; rfl
    refine ⟨served, standing, orderly.held.set found ungot (kept.opener ungot), fun j other there => ?_⟩
    rcases found_set found there with ⟨rfl, rfl⟩ | ⟨_, before⟩
    · cases task.call <;> exact True.intro
    · refine (orderly.ready j other before).mono fun key member => ?_
      exact Finmap.mem_insert.mpr (.inr member)
  | tick elapsed | setWallClock wallClock =>
    obtain rfl := Option.some.inj taken
    exact ⟨served, standing, orderly.held, orderly.ready⟩

end

/-- The steps that need the lock on the groups. -/
def Stage.locks : Stage J → Bool
  | .get _ .lookup | .listPending _ _ | .quotaQueues _ _ _ => true
  | _ => false

section

variable {services : Services} {self : Nat} {server : Server J} {task : ToolTask J}

/-- A step of a call is possible where nothing fails. -/
def Server.Enables (services : Services) (self : Nat) (server : Server J) (task : ToolTask J) : Prop :=
  ∃ env : ToolEnv, env.failure = none ∧ env.group.outcome = .ok ∧ (server.move services self env task).isSome

/-- A step of `get` is possible, unless another call has the lock that it needs. -/
theorem Server.enables_get {caller : Caller} {call : ToolCall J} {queue : String} {at_ : GetStage}
    (free : at_ = .lookup → server.registry.opener = none) :
    server.Enables services self ⟨caller, call, .get queue at_⟩ := by
  let path := walPath server.registry.dataDir caller queue
  -- The dead letters are listed in some order.
  let letters := (DeadLetters.replay (server.disk.dlqs (dlqPath path)).records).keys.toList
  refine ⟨{ letters }, rfl, rfl, ?_⟩
  show (server.getStep services self { letters } ⟨caller, call, .get queue at_⟩ queue at_).isSome
  cases at_ with
  | lookup =>
    rw [Server.getStep_lookup, if_neg (by rw [free rfl]; decide)]
    split <;> rfl
  | ceiling =>
    rw [Server.getStep_ceiling]
    cases caller with
    | none => rfl
    | some tenant =>
      dsimp only
      split <;> rfl
  | createDir => rw [Server.getStep_createDir]; rfl
  | openWal => rw [Server.getStep_openWal]; rfl
  | openDlq =>
    rw [Server.getStep_openDlq]
    dsimp only
    rw [if_pos ⟨Finset.nodup_toList _, Finset.toList_toFinset _⟩]
    rfl

/-- A call whose queue is there, and that needs no lock that another has, can take its next step. -/
theorem Server.enables {failed : Prop} (serves : task.stage.Serves services failed task.call)
    (ready : task.stage.Ready (· ∈ server.registry.groups))
    (within : task.stage.Within (fun name => (server.registry.groups.lookup (scopeKey task.caller name)).isSome) True)
    (free : task.stage.locks = true → server.registry.opener = none) (untimed : task.stage.timed = false)
    (unanswered : task.stage.answer = none) : server.Enables services self task := by
  -- Nothing fails in the step that is given; where an order is chosen, any will do.
  obtain ⟨caller, call, current⟩ := task
  cases current with
  | get queue at_ =>
    refine Server.enables_get fun first => free ?_
    rw [first]
    rfl
  | authorize | pendingCeiling => exact ⟨{}, rfl, rfl, by cases caller <;> rfl⟩
  | listPending tenant use =>
    refine ⟨{ queues := (server.registry.matching tenant).toList }, rfl, rfl, ?_⟩
    unfold Server.move Server.onMatching
    dsimp only
    rw [if_neg (by rw [free rfl]; decide), if_pos ⟨Finset.nodup_toList _, Finset.toList_toFinset _⟩]
    rfl
  | quotaQueues tenant config requests =>
    refine ⟨{}, rfl, rfl, ?_⟩
    unfold Server.move Server.onMatching
    dsimp only
    rw [if_neg (by rw [free rfl]; decide)]
    rfl
  -- The queues to be counted were listed, and none is ever closed.
  | sumPending tenant use first rest total =>
    refine ⟨{}, rfl, rfl, ?_⟩
    unfold Server.move
    dsimp only
    rw [Option.isSome_map]
    exact Finmap.lookup_isSome.mpr (ready first List.mem_cons_self)
  | tryAdmit locals =>
    obtain ⟨params, newId, rfl, _⟩ := serves
    exact ⟨{}, rfl, rfl, rfl⟩
  | headroom queue =>
    obtain ⟨params, rfl, _⟩ := serves
    exact ⟨{}, rfl, rfl, rfl⟩
  -- An operation without a deadline never waits, so the group has a step for it.
  | group queue pc use =>
    obtain ⟨_, inner, runs, stands⟩ := serves
    obtain ⟨group, open_⟩ := Option.isSome_iff_exists.mp within
    have waitless : inner.waitless := by
      refine runs.waitless ?_
      rintro deadline rfl
      cases untimed
    refine ⟨{}, rfl, rfl, ?_⟩
    unfold Server.move Server.onGroup
    dsimp only
    rw [open_, Option.bind_some, Option.isSome_map, Option.isSome_map]
    exact ConsumerGroup.move_of_waitless stands.serves waitless stands.running
  | deadLetters queue =>
    obtain ⟨group, open_⟩ := Option.isSome_iff_exists.mp within
    refine ⟨{ letters := group.dlq.entries.keys.toList }, rfl, rfl, ?_⟩
    unfold Server.move Server.onGroup
    dsimp only
    rw [open_, Option.bind_some, if_pos ⟨Finset.nodup_toList _, Finset.toList_toFinset _⟩]
    rfl
  -- Only the operations that a tool runs come to this stage.
  | key key =>
    obtain ⟨keyCall, at_⟩ := key
    have runs : KeyTask.runs ⟨keyCall, at_⟩ = true := ready
    refine ⟨{}, rfl, rfl, ?_⟩
    unfold Server.move
    dsimp only
    rw [Option.isSome_map]
    cases keyCall with
    | mint => cases at_ <;> first | rfl | cases runs
    | revoke => cases at_ <;> first | rfl | cases runs
    | authenticate => cases runs
  | done answer => cases unanswered
  | _ => exact ⟨{}, rfl, rfl, rfl⟩

/-- So can one that runs an operation which cannot be dropped now. -/
theorem Server.enables_busy {caller : Caller} {call : ToolCall J} {queue : String} {pc : Pc J J} {use : GroupUse}
    (busy : pc.awaits = false) (running : ∀ result, pc ≠ .done result)
    (open_ : (server.registry.groups.lookup (scopeKey caller queue)).isSome) :
    server.Enables services self ⟨caller, call, .group queue pc use⟩ := by
  -- An operation that cannot be dropped has a step, whatever is written.
  obtain ⟨group, open_⟩ := Option.isSome_iff_exists.mp open_
  obtain ⟨group', later, stepped, _⟩ := ConsumerGroup.move_of_not_awaits busy running
  refine ⟨{}, rfl, rfl, ?_⟩
  unfold Server.move Server.onGroup
  dsimp only
  rw [open_, Option.bind_some, stepped]
  rfl

/-- After that step the operation has returned, or can be dropped. -/
theorem Server.move_busy {env : ToolEnv} {caller : Caller} {call : ToolCall J} {queue : String} {pc : Pc J J}
    {use : GroupUse} {next : Server J} {stage : Stage J} (busy : pc.awaits = false)
    (running : ∀ result, pc ≠ .done result)
    (moved : server.move services self env ⟨caller, call, .group queue pc use⟩ = some (next, stage)) :
    (∃ later, stage = .group queue later use ∧ later.awaits) ∨
      stage.phase < (Stage.group queue pc use : Stage J).phase := by
  -- The step is the one that is known, since it depends on nothing from outside.
  obtain ⟨group, _, later, _, step, _, rfl⟩ := Server.move_group services moved
  obtain ⟨_, _, stepped, ended⟩ := ConsumerGroup.move_of_not_awaits busy running
  obtain ⟨_, rfl⟩ := Prod.mk.inj (Option.some.inj ((stepped env.group).symm.trans step))
  split
  · exact .inr (ToolCall.resume_phase pc)
  · rename_i unfinished
    rcases ended with awaits | ⟨result, rfl⟩
    · exact .inl ⟨_, rfl, awaits⟩
    · exact absurd rfl (unfinished result)

end

/-- What brings a call to its answer: steps of its own, and of the call that has the lock on the groups, in which
nothing fails; time; and its deadline. -/
def ServerPool.Helps (i : Nat) (pool : ServerPool J) : ServerAction J → Prop
  | .step j env => (j = i ∨ pool.shared.registry.opener = some j) ∧ env.failure = none ∧ env.group.outcome = .ok
  | .timeout j wrote => j = i ∧ wrote = .failedEmpty
  | .tick _ => True
  | _ => False

/-- A call stands at a stage, the server being in order. -/
structure ServerPool.Stands (services : Services) (faulty : Nat → Prop) (i : Nat) (caller : Caller) (call : ToolCall J)
    (stage : Stage J) (pool : ServerPool J) : Prop where
  orderly : pool.Orderly services faulty
  found : pool.tasks[i]? = some ⟨caller, call, stage⟩

section

variable {services : Services} {faulty : Nat → Prop} {pool : ServerPool J} {i : Nat} {caller : Caller}
  {call : ToolCall J} {stage : Stage J}

/-- What helps a call does no harm to any. -/
theorem ServerPool.Helps.orderly {next : ServerPool J} {act : ServerAction J} (helps : pool.Helps i act)
    (orderly : pool.Orderly services faulty) (taken : pool.step services act = some next) :
    next.Orderly services faulty := by
  -- Nothing fails in such a step, so no call has anything new to be told of.
  refine orderly.step (fun k fails => ?_) taken
  cases act with
  | step j env =>
    obtain ⟨_, whole, written⟩ := helps
    rcases fails.2 with failed | failed
    · rw [whole] at failed
      cases failed
    · exact (AppendOutcome.ok_ne_failed written failed).elim
  | _ => exact fails.elim

/-- A call that can take its next step takes it. -/
theorem ServerPool.Orderly.steps {j : Nat} {task : ToolTask J} (orderly : pool.Orderly services faulty)
    (found : pool.tasks[j]? = some task) (helps : j = i ∨ pool.shared.registry.opener = some j)
    (enables : pool.shared.Enables services j task) : ∃ env server stage,
      pool.shared.move services j env task = some (server, stage) ∧ pool.Helps i (.step j env) ∧
      pool.step services (.step j env) = some ⟨server, pool.tasks.set j { task with stage }⟩ ∧
      ServerPool.Orderly services faulty ⟨server, pool.tasks.set j { task with stage }⟩ := by
  -- The step is one that helps, and such a step keeps the order.
  obtain ⟨env, whole, written, able⟩ := enables
  obtain ⟨⟨server, stage⟩, moved⟩ := Option.isSome_iff_exists.mp able
  have allowed : pool.Helps i (.step j env) := ⟨helps, whole, written⟩
  have taken : pool.step services (.step j env) = some ⟨server, pool.tasks.set j { task with stage }⟩ :=
    (ServerPool.step_eq_some rfl).mpr ⟨task, server, stage, found, moved, rfl⟩
  exact ⟨env, server, stage, moved, allowed, taken, allowed.orderly orderly taken⟩

/-- How far the call that has the lock still has to go, if one has. -/
def ServerPool.holderRank (pool : ServerPool J) : Nat × Nat :=
  ((pool.shared.registry.opener.bind fun j => pool.tasks[j]?).map fun task => task.stage.rank).getD (0, 0)

theorem ServerPool.holderRank_of_found {j : Nat} {task : ToolTask J} (opener : pool.shared.registry.opener = some j)
    (found : pool.tasks[j]? = some task) : pool.holderRank = task.stage.rank := by
  unfold holderRank
  rw [opener, Option.bind_some, found]
  rfl

/-- The call that has the lock goes on with it, or gives it back, and is nearer to that. -/
theorem ServerPool.holder_moves {j : Nat} {env : ToolEnv} {theirs : Caller} {other : ToolCall J} {queue : String}
    {at_ : GetStage} {server : Server J} {later : Stage J} (opener : pool.shared.registry.opener = some j)
    (found : pool.tasks[j]? = some ⟨theirs, other, .get queue at_⟩) (beyond : at_ ≠ .lookup)
    (moved : pool.shared.move services j env ⟨theirs, other, .get queue at_⟩ = some (server, later)) :
    (server.registry.opener = some j ∨ server.registry.opener = none) ∧
      Prod.Lex (· < ·) (· < ·)
        (ServerPool.holderRank ⟨server, pool.tasks.set j ⟨theirs, other, later⟩⟩) pool.holderRank := by
  -- Beyond the lookup no step but the last gives the lock back.
  have bound := (List.getElem?_eq_some_iff.mp found).1
  have keeps : server.registry.opener = some j ∨ server.registry.opener = none := by
    obtain ⟨registry, after, got, rfl, _⟩ := Server.getStep_eq_some moved
    cases QueueRegistry.get_got got with
    | finds | begins => exact absurd rfl beyond
    | passes | goesOn => exact .inl opener
    | fails | opens => exact .inr rfl
  refine ⟨keeps, ?_⟩
  rw [ServerPool.holderRank_of_found opener found]
  -- With the lock, the rank is that of the holder's next stage; without it there is nothing to go.
  rcases keeps with same | free
  · have still : (pool.tasks.set j ⟨theirs, other, later⟩)[j]? = some ⟨theirs, other, later⟩ :=
      List.getElem?_set_self bound
    rw [ServerPool.holderRank_of_found same still]
    exact (Server.getStep_nearer moved : later.Nearer (fun _ => True) _).1
  · have after : ServerPool.holderRank ⟨server, pool.tasks.set j ⟨theirs, other, later⟩⟩ = (0, 0) := by
      unfold holderRank
      rw [free]
      rfl
    rw [after]
    exact .left _ _ (show 0 < 11 by decide)

/-- Whoever has the lock on the groups gives it back, the other calls staying where they are. -/
theorem ServerPool.Orderly.frees (i : Nat) (orderly : pool.Orderly services faulty) :
    CanReach (ServerPool.step services) (ServerPool.Helps i) (fun next => next.Orderly services faulty ∧
      next.shared.registry.opener = none ∧
      ∀ k, pool.shared.registry.opener ≠ some k → next.tasks[k]? = pool.tasks[k]?) pool := by
  -- On the way the same call has the lock, or none has it any more.
  refine canReach_of_rank (fun next => next.Orderly services faulty ∧
    (∀ j, next.shared.registry.opener = some j → pool.shared.registry.opener = some j) ∧
    ∀ k, pool.shared.registry.opener ≠ some k → next.tasks[k]? = pool.tasks[k]?) ServerPool.holderRank ?_ pool
    ⟨orderly, fun _ opener => opener, fun _ _ => rfl⟩
  rintro next ⟨orderly, same, elsewhere⟩
  cases opener : next.shared.registry.opener with
  | none => exact .inl ⟨orderly, rfl, elsewhere⟩
  | some j =>
    right
    obtain ⟨⟨theirs, other, _⟩, queue, at_, found, rfl, beyond⟩ := orderly.held j opener
    obtain ⟨env, server, later, moved, allowed, taken, orderly⟩ := orderly.steps found (.inr opener)
      (Server.enables_get fun first => absurd first beyond)
    -- The holder goes on with the lock, or has given it back.
    obtain ⟨keeps, descends⟩ := ServerPool.holder_moves opener found beyond moved
    refine .after taken allowed (.here ⟨⟨orderly, fun k holder => ?_, fun k apart => ?_⟩, descends⟩)
    · rcases keeps with kept | free
      · obtain rfl := Option.some.inj (kept.symm.trans holder)
        exact same j opener
      · cases free.symm.trans holder
    · refine (List.getElem?_set_ne ?_).trans (elsewhere k apart)
      rintro rfl
      exact apart (same j opener)

/-- So a call that waits for the lock comes to find it free. -/
theorem ServerPool.Stands.frees (stands : pool.Stands services faulty i caller call stage)
    (elsewhere : pool.shared.registry.opener ≠ some i) :
    CanReach (ServerPool.step services) (ServerPool.Helps i) (fun next =>
      next.Stands services faulty i caller call stage ∧ next.shared.registry.opener = none) pool := by
  refine (stands.orderly.frees i).trans ?_
  rintro next ⟨orderly, free, same⟩
  exact .here ⟨⟨orderly, (same i elsewhere).trans stands.found⟩, free⟩

/-- A call has come nearer to its answer. -/
def ServerPool.Nears (services : Services) (faulty : Nat → Prop) (i : Nat) (caller : Caller) (call : ToolCall J)
    (from_ : Stage J) (pool : ServerPool J) : Prop :=
  ∃ stage, pool.Stands services faulty i caller call stage ∧ stage.Closer from_

/-- A call comes nearer to its answer where its next step needs no lock that another has. -/
theorem ServerPool.Stands.nears (stands : pool.Stands services faulty i caller call stage)
    (free : stage.locks = true → pool.shared.registry.opener = none) (untimed : stage.timed = false)
    (unanswered : stage.answer = none) :
    CanReach (ServerPool.step services) (ServerPool.Helps i) (ServerPool.Nears services faulty i caller call stage) pool := by
  -- The call takes the step that it can take.
  have serves := stands.orderly.served.serves i _ stands.found
  have ready := stands.orderly.ready i _ stands.found
  obtain ⟨env, server, later, moved, allowed, taken, orderly⟩ := stands.orderly.steps stands.found (.inl rfl)
    (Server.enables serves ready (stands.orderly.standing.within i _ stands.found) free untimed unanswered)
  have bound := (List.getElem?_eq_some_iff.mp stands.found).1
  exact .after taken allowed (.here ⟨later, ⟨orderly, List.getElem?_set_self bound⟩,
    (Server.move_nearer serves ready untimed (fun _ member => member) moved).1⟩)

/-- A call that can be dropped can be answered at its deadline. -/
theorem Server.timeout_of_awaits {server : Server J} {queue : String} {pc : Pc J J} {deadline : Instant}
    (open_ : (server.registry.groups.lookup (scopeKey caller queue)).isSome) (late : deadline ≤ server.now)
    (awaits : pc.awaits) : ∃ next, server.timeout i .failedEmpty ⟨caller, call, .group queue pc (.within deadline)⟩ =
      some (next, call.timedOut) := by
  -- The group lets go of an operation that waits, and the deadline has passed.
  obtain ⟨group, open_⟩ := Option.isSome_iff_exists.mp open_
  obtain ⟨dropped, left⟩ := Option.isSome_iff_exists.mp (ConsumerGroup.abandon_of_awaits awaits :
    (group.abandon i server.now server.wallClock .failedEmpty pc).isSome)
  refine ⟨server.withRegistry (server.registry.setGroup caller queue dropped.1), ?_⟩
  unfold Server.timeout
  refine Server.onGroup_eq_some.mpr ⟨group, dropped.1, open_, ?_, rfl⟩
  rw [if_pos late, left]
  rfl

theorem ToolCall.timedOut_phase (call : ToolCall J) : (call.timedOut : Stage J).phase < 2 := by
  cases call <;> exact Nat.zero_lt_two

/-- A call that can be dropped is answered at its deadline. -/
theorem ServerPool.Stands.expires {queue : String} {pc : Pc J J} {deadline : Instant}
    (stands : pool.Stands services faulty i caller call (.group queue pc (.within deadline)))
    (late : deadline ≤ pool.shared.now) (awaits : pc.awaits) {from_ : Stage J} (past : 2 ≤ from_.phase) :
    CanReach (ServerPool.step services) (ServerPool.Helps i) (ServerPool.Nears services faulty i caller call from_) pool := by
  -- The answer at the deadline is nearer than any stage of an operation.
  obtain ⟨server, given⟩ := Server.timeout_of_awaits (i := i)
    (stands.orderly.standing.within i _ stands.found) late awaits
  have taken : pool.step services (.timeout i .failedEmpty) = some _ :=
    (ServerPool.step_eq_some rfl).mpr ⟨_, _, _, stands.found, given, rfl⟩
  have allowed : pool.Helps i (.timeout i .failedEmpty) := ⟨rfl, rfl⟩
  have bound := (List.getElem?_eq_some_iff.mp stands.found).1
  exact .after taken allowed (.here ⟨_, ⟨allowed.orderly stands.orderly taken, List.getElem?_set_self bound⟩,
    .left _ _ (call.timedOut_phase.trans_le past)⟩)

/-- A call that runs an operation with a deadline comes nearer to its answer at the latest then. -/
theorem ServerPool.Stands.nears_timed {queue : String} {pc : Pc J J} {deadline : Instant}
    (stands : pool.Stands services faulty i caller call (.group queue pc (.within deadline))) :
    CanReach (ServerPool.step services) (ServerPool.Helps i)
      (ServerPool.Nears services faulty i caller call (.group queue pc (.within deadline))) pool := by
  let elapsed : { elapsed : Duration // 0 ≤ elapsed } := ⟨max (deadline - pool.shared.now) 0, le_max_right _ _⟩
  have late : deadline ≤ pool.shared.now + elapsed.val := sub_le_iff_le_add'.mp (le_max_left _ _)
  have allowed : pool.Helps i (.tick elapsed) := True.intro
  have orderly := allowed.orderly stands.orderly rfl
  refine .after rfl allowed ?_
  have waits : ServerPool.Stands services faulty i caller call (.group queue pc (.within deadline))
      { pool with shared := { pool.shared with now := pool.shared.now + elapsed.val } } := ⟨orderly, stands.found⟩
  cases awaits : pc.awaits with
  | true => exact waits.expires late awaits le_rfl
  | false =>
    -- It takes one step more, and has returned or can be dropped then.
    obtain ⟨_, inner, _, stops⟩ := orderly.served.serves i _ stands.found
    obtain ⟨env, server, stage, moved, allowed, taken, orderly⟩ := orderly.steps stands.found (.inl rfl)
      (Server.enables_busy awaits stops.running (orderly.standing.within i _ stands.found))
    have bound := (List.getElem?_eq_some_iff.mp stands.found).1
    refine .after taken allowed ?_
    rcases Server.move_busy awaits stops.running moved with ⟨later, rfl, awaits⟩ | nearer
    · refine ServerPool.Stands.expires ⟨orderly, List.getElem?_set_self bound⟩ ?_ awaits le_rfl
      show deadline ≤ server.now
      rw [(Server.move_still moved).now]
      exact late
    · exact .here ⟨stage, ⟨orderly, List.getElem?_set_self bound⟩, .left _ _ nearer⟩

/-- A call in a server that is in order can be answered, with what its tool promises. -/
theorem ServerPool.Stands.answerable (stands : pool.Stands services faulty i caller call stage) :
    CanReach (ServerPool.step services) (ServerPool.Helps i) (fun next => ∃ answer,
      next.tasks[i]? = some ⟨caller, call, .done answer⟩ ∧ call.Answers (faulty i) answer) pool := by
  refine canReach_of_rank (fun pool => ∃ stage, pool.Stands services faulty i caller call stage)
    (fun pool => (pool.tasks[i]?.map fun task => task.stage.rank).getD (0, 0)) ?_ pool ⟨stage, stands⟩
  rintro pool ⟨stage, stands⟩
  cases answered : stage.answer with
  | some answer =>
    obtain rfl := Stage.done_of_answer answered
    exact .inl ⟨answer, stands.found, stands.orderly.served.serves i _ stands.found⟩
  | none =>
    right
    -- It comes nearer by its own step, by its deadline, or once the lock is free.
    have nears : CanReach (ServerPool.step services) (ServerPool.Helps i)
        (ServerPool.Nears services faulty i caller call stage) pool := by
      cases timed : stage.timed with
      | true =>
        cases stage with
        | group queue pc use =>
          cases use with
          | within deadline => exact stands.nears_timed
          | _ => cases timed
        | _ => cases timed
      | false =>
        by_cases free : stage.locks = true → pool.shared.registry.opener = none
        · exact stands.nears free timed answered
        · -- Another call has the lock that this one waits for.
          refine (stands.frees fun own => free fun locks => ?_).trans fun next reached =>
            reached.1.nears (fun _ => reached.2) timed answered
          obtain ⟨holder, queue, at_, there, getting, beyond⟩ := stands.orderly.held i own
          obtain rfl := Option.some.inj (stands.found.symm.trans there)
          obtain rfl : stage = .get queue at_ := getting
          cases at_ with
          | lookup => exact absurd rfl beyond
          | _ => cases locks
    refine nears.trans ?_
    rintro next ⟨later, reached, nearer⟩
    refine .here ⟨⟨later, reached⟩, ?_⟩
    rw [stands.found, reached.found]
    exact nearer

/-- In every run the calls can go on. -/
theorem ServerPool.orderly_of_run {dataDir : Location} {keys : Log KeyRecord} {disk : Disk J} {now : Instant}
    {wallClock : Timestamp} {trace : List (Transition (ServerPool J) (ServerAction J))}
    (run : Run (ServerPool.step services) (fun _ _ => True)
      ⟨.new dataDir keys disk now wallClock, []⟩ trace pool) :
    pool.Orderly services fun i => ∃ e ∈ trace, e.act.Fails i := by
  -- In a new server no call has been made, and nobody has the lock.
  have start : ServerPool.Orderly services (fun i => ∃ e ∈ trace, e.act.Fails i)
      (⟨.new dataDir keys disk now wallClock, []⟩ : ServerPool J) :=
    { served := ⟨fun _ _ there => (nomatch there), fun _ _ found => (nomatch found)⟩
      standing := ServerPool.standing_of_run (.nil : Run (ServerPool.step services) (fun _ _ => True) _ _ _)
      held := fun _ holder => (nomatch holder)
      ready := fun _ _ there => (nomatch there) }
  -- What fails anywhere in the run is what may have failed so far.
  have told : Run (ServerPool.step services)
      (fun _ act => True ∧ ∀ i, act.Fails i → ∃ e ∈ trace, e.act.Fails i)
      ⟨.new dataDir keys disk now wallClock, []⟩ trace pool :=
    run.strengthen fun e member i fails => ⟨e, member, fails⟩
  exact told.invariant start fun _ _ _ allowed orderly taken => orderly.step allowed.2 taken

/-- A step of a call that runs no operation with a deadline brings it nearer to its answer, whatever fails in it. -/
theorem ServerPool.Orderly.closer {env : ToolEnv} {task : ToolTask J} {next : ServerPool J}
    (orderly : pool.Orderly services faulty) (found : pool.tasks[i]? = some task) (untimed : task.stage.timed = false)
    (taken : pool.step services (.step i env) = some next) :
    ∃ stage, next.tasks[i]? = some ⟨task.caller, task.call, stage⟩ ∧ stage.Closer task.stage := by
  -- The step is one of this call, so it leads to the stage that `move` gives.
  obtain ⟨same, server, stage, there, moved, rfl⟩ := (ServerPool.step_eq_some rfl).mp taken
  obtain rfl := Option.some.inj (found.symm.trans there)
  have bound := (List.getElem?_eq_some_iff.mp found).1
  exact ⟨stage, List.getElem?_set_self bound, (Server.move_nearer (orderly.served.serves i task found)
    (orderly.ready i task found) untimed (fun _ member => member) moved).1⟩

/-- In every reachable state each call that has been made can still be answered, with what its tool promises: it
takes only steps of its own and of the call that has the lock on the groups, in which nothing fails, and time. That
call gives the lock back while the others stay where they are. And whatever fails, a step of a call is nearer to its
answer in a well-founded order, unless it runs an operation with a deadline. -/
theorem ServerPool.finishes {dataDir : Location} {keys : Log KeyRecord} {disk : Disk J} {now : Instant}
    {wallClock : Timestamp} {trace : List (Transition (ServerPool J) (ServerAction J))} {task : ToolTask J}
    (run : Run (ServerPool.step services) (fun _ _ => True)
      ⟨.new dataDir keys disk now wallClock, []⟩ trace pool) (found : pool.tasks[i]? = some task) :
    CanReach (ServerPool.step services) (ServerPool.Helps i) (fun next => ∃ answer,
        next.tasks[i]? = some ⟨task.caller, task.call, .done answer⟩ ∧
          task.call.Answers (∃ e ∈ trace, e.act.Fails i) answer) pool ∧
      CanReach (ServerPool.step services) (ServerPool.Helps i) (fun next => next.shared.registry.opener = none ∧
        ∀ k, pool.shared.registry.opener ≠ some k → next.tasks[k]? = pool.tasks[k]?) pool ∧
      WellFounded (Stage.Closer : Stage J → Stage J → Prop) ∧
      (task.stage.timed = false → ∀ env next, pool.step services (.step i env) = some next →
        ∃ stage, next.tasks[i]? = some ⟨task.caller, task.call, stage⟩ ∧ stage.Closer task.stage) := by
  have orderly := ServerPool.orderly_of_run run
  exact ⟨ServerPool.Stands.answerable ⟨orderly, found⟩,
    (orderly.frees i).trans fun _ freed => .here freed.2,
    Stage.closer_wf, fun untimed _ _ taken => orderly.closer found untimed taken⟩

end

/-- A call has the lock on the groups, to open its queue, and another one waits for the lock. -/
def opensAndWaits : List (ServerAction Unit) :=
  .call none (.plain "orders" () ⟨0⟩) :: ServerAction.run 0 3 ++
    .call none (.claim ⟨"tasks", none⟩) :: ServerAction.run 1 1

/-- The second call can be answered nevertheless. -/
theorem ServerPool.finishes_waiting :
    ∃ ran ∈ record (ServerPool.step Services.alike) ⟨.new ["data"] {} .empty 0 ⟨0⟩, []⟩ opensAndWaits,
      ran.2.shared.registry.opener = some 0 ∧ ∃ task ∈ ran.2.tasks[1]?,
        CanReach (ServerPool.step Services.alike) (ServerPool.Helps 1) (fun next => ∃ answer,
            next.tasks[1]? = some ⟨task.caller, task.call, .done answer⟩ ∧
              task.call.Answers (∃ e ∈ ran.1, e.act.Fails 1) answer) ran.2 ∧
          CanReach (ServerPool.step Services.alike) (ServerPool.Helps 1) (fun next =>
            next.shared.registry.opener = none ∧
              ∀ k, ran.2.shared.registry.opener ≠ some k → next.tasks[k]? = ran.2.tasks[k]?) ran.2 ∧
          WellFounded (Stage.Closer : Stage Unit → Stage Unit → Prop) ∧
          (task.stage.timed = false → ∀ env next, ran.2.step Services.alike (.step 1 env) = some next →
            ∃ stage, next.tasks[1]? = some ⟨task.caller, task.call, stage⟩ ∧ stage.Closer task.stage) := by
  -- The run is computed, and the theorem is applied to it.
  have recorded :
      ∃ ran ∈ record (ServerPool.step Services.alike) ⟨.new ["data"] {} .empty 0 ⟨0⟩, []⟩ opensAndWaits,
        ran.2.shared.registry.opener = some 0 ∧ (ran.2.tasks[1]?).isSome := by
    decide +kernel
  obtain ⟨⟨trace, pool⟩, ran, holder, made⟩ := recorded
  obtain ⟨task, found⟩ := Option.isSome_iff_exists.mp made
  exact ⟨(trace, pool), ran, holder, task, found, ServerPool.finishes (run_of_record .nil ran) found⟩

end Qaas
