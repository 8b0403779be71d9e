import Qaas.Server.Enqueue

/-! Runs in which one caller enqueues on one queue, by any number of calls at once. -/

namespace Qaas

open Concurrency

variable {J : Type}

/-- An enqueue of the caller begins, with an id that is new to the queue, or goes on and keeps to the
queue; whatever else happens, no other call does. -/
def ServerPool.OnQueue (caller : Caller) (queue : String) (pool : ServerPool J) : ServerAction J → Prop
  | .call who call => who = caller ∧ ∃ id ∈ call.newId, id ∉ (pool.shared.view caller queue).pending
  | .step i _ => ∀ task ∈ pool.tasks[i]?, ∀ name ∈ task.stage.looksUp, name = queue
  | _ => True

instance ServerPool.OnQueue.decidable (caller : Caller) (queue : String) (pool : ServerPool J)
    (act : ServerAction J) : Decidable (pool.OnQueue caller queue act) :=
  match act with
  | .call _ call => inferInstanceAs (Decidable (_ ∧ ∃ id ∈ call.newId, _))
  | .step i _ => inferInstanceAs (Decidable (∀ task ∈ pool.tasks[i]?, _))
  | .timeout _ _ | .tick _ | .setWallClock _ => inferInstanceAs (Decidable True)

/-- An enqueue of the caller on the queue. -/
inductive ToolTask.Enqueues (caller : Caller) (queue : String) : ToolTask J → Prop
  | enqueues {params : EnqueueParams J} {newId : MessageId} {stage : Stage J} :
      stage.OnPath queue params newId → Enqueues caller queue ⟨caller, .enqueue params newId, stage⟩

/-- A call that has its answer. -/
def Stage.answered : Stage J → Bool
  | .done _ => true
  | _ => false

/-- Every call has its answer. -/
def ServerPool.Settled (pool : ServerPool J) : Prop :=
  ∀ task ∈ pool.tasks, task.stage.answered = true

instance ServerPool.Settled.decidable (pool : ServerPool J) : Decidable pool.Settled :=
  inferInstanceAs (Decidable (∀ task ∈ pool.tasks, _))

/-- An enqueue that may still make its message. -/
def Stage.Unmade : Stage J → Prop
  | .group _ (.releaseKey _ _ _) _ | .group _ (.notifyOne _) _ | .remember _ _ _ _ _ | .done _ => False
  | _ => True

/-- A call whose message is there. -/
def ToolTask.Created (pending : List MessageId) (task : ToolTask J) : Prop :=
  ∃ id ∈ task.call.newId, id ∈ pending

instance ToolTask.Created.decidable (pending : List MessageId) (task : ToolTask J) :
    Decidable (task.Created pending) :=
  inferInstanceAs (Decidable (∃ id ∈ task.call.newId, _))

/-- All calls are enqueues on the queue, whose messages have each its own id; the one that is about to
open the queue holds the lock on the groups. -/
structure ServerPool.Enqueuing (caller : Caller) (queue : String) (pool : ServerPool J) : Prop where
  each : ∀ task ∈ pool.tasks, task.Enqueues caller queue
  distinct : ∀ (i j : Nat) (task other : ToolTask J), i ≠ j → pool.tasks[i]? = some task →
    pool.tasks[j]? = some other → task.call.newId ≠ other.call.newId
  unmade : ∀ task ∈ pool.tasks, task.stage.Unmade → ∀ id ∈ task.call.newId,
    id ∉ (pool.shared.view caller queue).pending
  locked : pool.All fun i task => ∀ at_, task.stage = .get queue at_ → at_ ≠ .lookup →
    pool.shared.registry.opener = some i ∧
      pool.shared.registry.groups.lookup (scopeKey caller queue) = none

/-- What can happen in such a run. -/
inductive EnqueuesStep (services : Services) (caller : Caller) (queue : String) (pool : ServerPool J) :
    ServerAction J → ServerPool J → Prop
  | begins {params : EnqueueParams J} {newId : MessageId} :
      newId ∉ (pool.shared.view caller queue).pending →
      (∀ task ∈ pool.tasks, task.call.newId ≠ some newId) →
      EnqueuesStep services caller queue pool (.call caller (.enqueue params newId))
        (pool.spawn ⟨caller, .enqueue params newId, .authorize⟩)
  | moves {i : Nat} {env : ToolEnv} {params : EnqueueParams J} {newId : MessageId} {stage later : Stage J}
      {server : Server J} : pool.tasks[i]? = some ⟨caller, .enqueue params newId, stage⟩ →
      stage.OnPath queue params newId →
      EnqueueStep services env queue params newId (pool.shared.view caller queue) stage
        (server.view caller queue) later →
      EnqueuesStep services caller queue pool (.step i env)
        ⟨server, pool.tasks.set i ⟨caller, .enqueue params newId, later⟩⟩
  | waits {act : ServerAction J} {server : Server J} : act.task = none →
      server.view caller queue = { pool.shared.view caller queue with now := server.now } →
      pool.shared.now ≤ server.now → EnqueuesStep services caller queue pool act ⟨server, pool.tasks⟩

section

variable {services : Services} {env : ToolEnv} {queue : String} {params : EnqueueParams J}
  {newId : MessageId} {view after : QueueView} {current later : Stage J}

/-- Only the step that makes a message adds to the pending ones, and it adds its own. -/
theorem EnqueueStep.pending (path : current.OnPath queue params newId)
    (step : EnqueueStep services env queue params newId view current after later) :
    after.pending = view.pending ∧ (later.Unmade → current.Unmade) ∨
      after.pending = view.pending ++ [newId] ∧ current.Unmade ∧ ¬ later.Unmade := by
  cases step with
  -- The one step that makes a message, which is the call's own.
  | @pushed message use =>
    right
    cases path with
    | prepares prepares => cases prepares
    | waits waits => cases waits
    | group vector key enqueues =>
      obtain rfl : message = _ := enqueues
      exact ⟨rfl, True.intro, False.elim⟩
  | refused before =>
    exact .inl ⟨rfl, False.elim⟩
  | prepares before _ _ | asks before _ _ | skips before _ _ =>
    refine .inl ⟨rfl, fun _ => ?_⟩
    cases current with
    | authorize | route | get | admissionEntry | dedupEntry => exact True.intro
    | _ => cases before
  | proceeds before _ =>
    refine .inl ⟨rfl, fun _ => ?_⟩
    cases current with
    | pendingCeiling | tryAdmit | listPending | sumPending => exact True.intro
    | _ => cases before
  -- The call ends here, or its key is released; the pending messages are as they were.
  | unwritten failed shape => exact .inl ⟨rfl, fun _ => True.intro⟩
  | @hit message key existing embedding tokens cost found =>
    exact .inl ⟨rfl, fun _ => True.intro⟩
  | @notified id embedding tokens cost =>
    refine .inl ⟨rfl, ?_⟩
    cases embedding <;> exact False.elim
  | released => exact .inl ⟨rfl, False.elim⟩
  | remembers => exact .inl ⟨rfl, False.elim⟩
  | collapses _ _ | misses _ _ _ | admitted _ | denied _ | reserved _ | written _ =>
    exact .inl ⟨rfl, fun _ => True.intro⟩

/-- Only `get` itself goes on with `get` beyond the lookup. -/
theorem EnqueueStep.gets {name : String} {at_ : GetStage} (within : at_ ≠ .lookup)
    (step : EnqueueStep services env queue params newId view current after (.get name at_)) :
    ∃ before, current = .get queue before := by
  generalize same : (.get name at_ : Stage J) = later at step
  cases step with
  | prepares _ _ goes => exact goes name at_ same.symm within
  -- A call that waits to be admitted has its queue open.
  | skips _ _ waits | misses _ _ waits | proceeds _ waits =>
    subst same
    cases waits
  | unwritten _ shape =>
    rcases shape with ⟨_, _, shape⟩ | ⟨_, shape⟩ <;> rw [shape] at same <;> cases same
  | @hit message key existing embedding | @notified id embedding =>
    cases embedding <;> cases same
  | _ => cases same

/-- A call that has its answer takes no more steps. -/
theorem EnqueueStep.unanswered (step : EnqueueStep services env queue params newId view current after later) :
    current.answered = false := by
  cases step with
  | refused before =>
    cases current with
    | done => rcases before with before | before <;> cases before
    | _ => rfl
  | prepares before _ _ | asks before _ _ | skips before _ _ | proceeds before _ =>
    cases current with
    | done => cases before
    | _ => rfl
  | _ => rfl

/-- The clock stands still while a call takes a step. -/
theorem EnqueueStep.now (step : EnqueueStep services env queue params newId view current after later) :
    after.now = view.now := by
  cases step <;> rfl

end

section

variable {services : Services} {self : Nat} {env : ToolEnv} {server next : Server J} {caller : Caller}
  {queue : String} {params : EnqueueParams J} {newId : MessageId} {current stage : Stage J}

/-- A call goes on with `get` only where it has the lock, and nobody else has it before or after. -/
theorem Server.getStep_locked {at_ : GetStage}
    (holds : at_ ≠ .lookup → server.registry.opener = some self ∧
      server.registry.groups.lookup (scopeKey caller queue) = none)
    (moved : server.getStep services self env ⟨caller, .enqueue params newId, current⟩ queue at_ =
      some (next, stage)) :
    (∀ other, server.registry.opener = some other → other = self) ∧
      ∀ later, stage = .get queue later → later ≠ .lookup → next.registry.opener = some self ∧
        next.registry.groups.lookup (scopeKey caller queue) = none := by
  obtain ⟨registry, after, got, rfl, rfl⟩ := Server.getStep_eq_some moved
  -- Whoever is beyond the lookup has the lock.
  have held (within : at_ ≠ .lookup) : ∀ other, server.registry.opener = some other → other = self := by
    intro other same
    rw [(holds within).1] at same
    exact (Option.some.inj same).symm
  have opened {later : GetStage} (same : (ToolCall.enqueue params newId).opened services queue
      server.now server.wallClock = .get queue later) : later = .lookup := by
    rcases EnqueueParams.opened_arrives newId services server.now server.wallClock with
      ⟨_, first⟩ | ⟨error, failed⟩
    · exact first queue later same
    · rw [failed] at same
      cases same
  cases QueueRegistry.get_got got with
  -- The queue is open, and the lock was free to look.
  | finds free _ =>
    refine ⟨fun other same => ?_, fun later same within => absurd (opened same) within⟩
    rw [free] at same
    cases same
  -- The queue is not open, and the call takes the lock to open it.
  | begins free absent _ =>
    refine ⟨fun other same => ?_, fun _ _ _ => ⟨rfl, absent⟩⟩
    rw [free] at same
    cases same
  | passes _ _ => exact ⟨held (by decide), fun _ _ _ => holds (by decide)⟩
  | goesOn order =>
    have within : at_ ≠ .lookup := by
      rcases order with ⟨rfl, _⟩ | ⟨rfl, _⟩ <;> decide
    exact ⟨held within, fun _ _ _ => holds within⟩
  | fails within _ => exact ⟨held within, fun _ same _ => by cases same⟩
  -- The lock is given back, and the call goes on with the open queue.
  | opens => exact ⟨held (by decide), fun _ same within => absurd (opened same) within⟩

/-- An enqueue has no deadline. -/
theorem Stage.OnPath.untimed {wrote : AppendOutcome} (path : current.OnPath queue params newId) :
    server.timeout self wrote ⟨caller, .enqueue params newId, current⟩ = none := by
  cases path with
  | prepares prepares =>
    cases current with
    | group => cases prepares
    | _ => rfl
  | waits waits =>
    cases current with
    | group => cases waits
    | _ => rfl
  | _ => rfl

end

section

variable {services : Services} {caller : Caller} {queue : String} {pool next : ServerPool J}
  {act : ServerAction J}

/-- A step of one enqueue keeps all of them on the queue. -/
theorem ServerPool.Enqueuing.moves (enqueuing : pool.Enqueuing caller queue) {i : Nat} {env : ToolEnv}
    {params : EnqueueParams J} {newId : MessageId} {stage later : Stage J} {server : Server J}
    (found : pool.tasks[i]? = some ⟨caller, .enqueue params newId, stage⟩)
    (path : stage.OnPath queue params newId) (kept : ∀ name ∈ stage.looksUp, name = queue)
    (moved : pool.shared.move services i env ⟨caller, .enqueue params newId, stage⟩ = some (server, later)) :
    EnqueueStep services env queue params newId (pool.shared.view caller queue) stage
        (server.view caller queue) later ∧
      ServerPool.Enqueuing caller queue
        ⟨server, pool.tasks.set i ⟨caller, .enqueue params newId, later⟩⟩ := by
  have own : ∀ name at_, stage = .get name at_ → name = queue := by
    intro name at_ same
    subst same
    exact kept name rfl
  have holds := enqueuing.locked i _ found
  have step : EnqueueStep services env queue params newId (pool.shared.view caller queue) stage
      (server.view caller queue) later :=
    Server.move_enqueue path (fun at_ same within => (holds at_ same within).2) own moved
  refine ⟨step, fun task member => ?_, fun j k task other apart first second => ?_,
    fun task member unmade id named => ?_, fun j task there at_ same within => ?_⟩
  · rcases List.mem_or_eq_of_mem_set member with before | rfl
    · exact enqueuing.each task before
    · exact .enqueues (step.onPath path)
  · -- No call changes its id.
    rcases found_set found first with ⟨rfl, rfl⟩ | ⟨_, before⟩ <;>
      rcases found_set found second with ⟨rfl, rfl⟩ | ⟨_, after⟩
    · exact absurd rfl apart
    · exact enqueuing.distinct _ k ⟨caller, .enqueue params newId, stage⟩ other apart found after
    · exact enqueuing.distinct j _ task ⟨caller, .enqueue params newId, stage⟩ apart before found
    · exact enqueuing.distinct j k task other apart before after
  · obtain ⟨j, there⟩ := List.getElem?_of_mem member
    show id ∉ (server.view caller queue).pending
    rcases found_set found there with ⟨rfl, rfl⟩ | ⟨others, before⟩
    · rcases step.pending path with ⟨still, before⟩ | ⟨_, _, made⟩
      · rw [still]
        exact enqueuing.unmade _ (List.mem_of_getElem? found) (before unmade) id named
      · exact absurd unmade made
    · have absent := enqueuing.unmade task (List.mem_of_getElem? before) unmade id named
      rcases step.pending path with ⟨still, _⟩ | ⟨added, _, _⟩
      · rw [still]
        exact absent
      · -- The message that is added is another call's.
        rw [added]
        intro pending
        rcases List.mem_append.mp pending with earlier | new
        · exact absent earlier
        · obtain rfl := List.mem_singleton.mp new
          exact enqueuing.distinct j i task _ others before found named
  · -- A call that looks its queue up must have the lock, or take it.
    cases looking : stage.looksUp with
    | some name =>
      obtain rfl := kept name looking
      cases stage with
      | get name before =>
        obtain rfl := Option.some.inj looking
        obtain ⟨alone, after⟩ := Server.getStep_locked (holds before rfl) moved
        rcases found_set found there with ⟨rfl, rfl⟩ | ⟨others, earlier⟩
        · exact after at_ same within
        · have theirs := (enqueuing.locked j task earlier at_ same within).1
          exact absurd (alone j theirs) others
      | _ => cases looking
    | none =>
      have leaves := Server.move_kept moved
      rcases found_set found there with ⟨rfl, rfl⟩ | ⟨_, earlier⟩
      · dsimp only at same
        subst same
        obtain ⟨before, rfl⟩ := step.gets within
        cases looking
      · obtain ⟨holder, absent⟩ := enqueuing.locked j task earlier at_ same within
        exact ⟨(leaves.opener looking).trans holder, leaves.absent looking _ absent⟩

/-- Every step is one of those listed, and keeps the calls on the queue. -/
theorem ServerPool.Enqueuing.step (enqueuing : pool.Enqueuing caller queue)
    (kept : pool.OnQueue caller queue act) (taken : pool.step services act = some next) :
    EnqueuesStep services caller queue pool act next ∧ next.Enqueuing caller queue := by
  cases act with
  | call who call =>
    simp only [ServerPool.step] at taken
    split at taken
    · rename_i fresh
      obtain rfl := Option.some.inj taken
      obtain ⟨rfl, newId, named, absent⟩ := kept
      cases call with
      | enqueue params id =>
        obtain rfl := Option.some.inj named
        have others (task : ToolTask J) (member : task ∈ pool.tasks) : task.call.newId ≠ some id :=
          fresh task member id rfl
        refine ⟨.begins absent others, fun task member => ?_, fun i j task other apart first second => ?_,
          fun task member unmade given named => ?_, fun j task there at_ same within => ?_⟩
        · rcases List.mem_append.mp member with before | new
          · exact enqueuing.each task before
          · obtain rfl := List.mem_singleton.mp new
            exact .enqueues (.prepares True.intro)
        · -- At most one of the two is the new call.
          rcases found_concat first with before | ⟨rfl, rfl⟩ <;> rcases found_concat second with after | ⟨rfl, rfl⟩
          · exact enqueuing.distinct i j task other apart before after
          · exact others task (List.mem_of_getElem? before)
          · exact fun same => others other (List.mem_of_getElem? after) same.symm
          · exact absurd rfl apart
        · rcases List.mem_append.mp member with before | new
          · exact enqueuing.unmade task before unmade given named
          · obtain rfl := List.mem_singleton.mp new
            obtain rfl := Option.some.inj named
            exact absent
        · rcases found_concat there with before | ⟨rfl, rfl⟩
          · exact enqueuing.locked j task before at_ same within
          · cases same
      | _ => cases named
    · cases taken
  | step i env =>
    obtain ⟨task, server, later, found, moved, rfl⟩ := (step_eq_some rfl).mp taken
    obtain ⟨path⟩ := enqueuing.each task (List.mem_of_getElem? found)
    obtain ⟨step, after⟩ := enqueuing.moves found path (kept _ found) moved
    exact ⟨.moves found path step, after⟩
  | timeout i wrote =>
    obtain ⟨task, server, later, found, moved, rfl⟩ := (step_eq_some rfl).mp taken
    obtain ⟨path⟩ := enqueuing.each task (List.mem_of_getElem? found)
    -- Only claims and polls have a deadline.
    have refused := path.untimed.symm.trans moved
    cases refused
  | tick elapsed =>
    obtain rfl := Option.some.inj taken
    refine ⟨.waits rfl rfl ?_, enqueuing.each, enqueuing.distinct, enqueuing.unmade, enqueuing.locked⟩
    -- The clock goes on by no negative time.
    have later := elapsed.property
    show pool.shared.now ≤ pool.shared.now + elapsed.val
    linarith
  | setWallClock wallClock =>
    obtain rfl := Option.some.inj taken
    exact ⟨.waits rfl rfl le_rfl, enqueuing.each, enqueuing.distinct, enqueuing.unmade, enqueuing.locked⟩

/-- Where no call has begun, all calls are enqueues on the queue. -/
theorem ServerPool.Enqueuing.start (server : Server J) :
    ServerPool.Enqueuing caller queue (⟨server, []⟩ : ServerPool J) where
  each task member := by cases member
  distinct i j task other apart found := by cases found
  unmade task member := by cases member
  locked i task found := by cases found

/-- The step of one call makes no other call's message. -/
theorem ServerPool.Enqueuing.created_other (enqueuing : pool.Enqueuing caller queue) {i j : Nat}
    {env : ToolEnv} {params : EnqueueParams J} {newId : MessageId} {stage later : Stage J} {task : ToolTask J}
    {view after : QueueView} (found : pool.tasks[i]? = some ⟨caller, .enqueue params newId, stage⟩)
    (path : stage.OnPath queue params newId)
    (step : EnqueueStep services env queue params newId view stage after later) (apart : j ≠ i)
    (there : pool.tasks[j]? = some task) : task.Created after.pending ↔ task.Created view.pending := by
  rcases step.pending path with ⟨still, _⟩ | ⟨added, _, _⟩
  · rw [still]
  · rw [added]
    constructor
    · intro ⟨id, named, member⟩
      rcases List.mem_append.mp member with before | new
      · exact ⟨id, named, before⟩
      · obtain rfl := List.mem_singleton.mp new
        exact absurd named (enqueuing.distinct j i task _ apart there found)
    · intro ⟨id, named, member⟩
      exact ⟨id, named, List.mem_append_left _ member⟩

end

/-- A server on which no call has been made. -/
def untouched : Server Unit :=
  .new ["data"] {} .empty 0 ⟨0⟩

end Qaas
