import Qaas.Group.Exclusive
import Qaas.Group.Renaming
import Qaas.Server.Stages

/-! What the calls of a server do to one queue, as the operations of a group of its own. -/

namespace Qaas

open Concurrency

variable {J : Type}

/-- An operation that has not come to its end. -/
def Task.UnderWay {T V : Type} (task : Task T V) : Prop :=
  task.cancelled = false ∧ task.pc.finished = false

theorem Call.entry_unfinished {T V : Type} (call : Call T V) : call.entry.finished = false := by
  cases first : call.entry with
  | done result => exact absurd first (Call.entry_ne_done call result)
  | _ => rfl

/-- An operation stands at its first step. -/
def Call.Begins {T V : Type} (call : Call T V) (pc : Pc T V) : Prop :=
  pc = call.entry

/-- A group opened on what was found on disk, before any operation of this process. -/
def World.opened {T V : Type} (wal : Log (WalRecord T V)) (dlqWal : Log (DlqRecord T V))
    (order : List MessageId) (now : Instant) (wallClock : Timestamp) : World T V :=
  ⟨⟨.opened wal dlqWal visibilityTimeout .default order, now, wallClock⟩, []⟩

/-- A call takes this step of an operation of the queue with a key. -/
def ToolTask.StandsIn (key : String) (pc : Pc J J) (task : ToolTask J) : Prop :=
  ∃ queue use, scopeKey task.caller queue = key ∧ task.stage = .group queue pc use

/-- A run has seen a call in the group of this queue, with an operation for this use. -/
def ServerPool.Stood (trace : List (Transition (ServerPool J) (ServerAction J))) (i : Nat) (queue : String)
    (use : GroupUse) : Prop :=
  ∃ e ∈ trace, ∃ task pc, e.post.tasks[i]? = some task ∧ task.stage = .group queue pc use

/-- A longer run has seen what a shorter one has. -/
theorem ServerPool.Stood.append {trace : List (Transition (ServerPool J) (ServerAction J))} {i : Nat} {queue : String}
    {use : GroupUse} (stood : ServerPool.Stood trace i queue use)
    (more : List (Transition (ServerPool J) (ServerAction J))) : ServerPool.Stood (trace ++ more) i queue use := by
  obtain ⟨e, member, there⟩ := stood
  exact ⟨e, List.mem_append_left _ member, there⟩

/-- A call has run an operation of the queue with a key, where it has stood. -/
def ToolTask.Ran (services : Services) (stood : String → GroupUse → Prop) (key : String) (inner : Call J J)
    (task : ToolTask J) : Prop :=
  ∃ queue use, ValidName queue ∧ scopeKey task.caller queue = key ∧ task.call.Opens queue ∧ stood queue use ∧
    task.call.Runs services inner use ∧ task.stage.started = true

/-- An open queue of the server is the group of a world whose operations the calls of the server run: each
operation under way is that of one call, at the same step, and each answer is what one of them returned. -/
structure ServerPool.Projects (services : Services) (stood : Nat → String → GroupUse → Prop) (key : String)
    (pool : ServerPool J) (owner : Nat → Nat) (world : World J J) : Prop where
  group : pool.shared.registry.groups.lookup key = some (world.shared.group.rename owner)
  now : world.shared.now = pool.shared.now
  wallClock : world.shared.wallClock = pool.shared.wallClock
  seats : world.shared.group.changed.Seats world.Parked
  ran : ∀ j task, world.tasks[j]? = some task → ∃ call, pool.tasks[owner j]? = some call ∧
    call.Ran services (stood (owner j)) key task.call
  owned : ∀ j task, world.tasks[j]? = some task → task.UnderWay → ∃ call, pool.tasks[owner j]? = some call ∧
    call.StandsIn key task.pc
  carried : ∀ i call pc, pool.tasks[i]? = some call → call.StandsIn key pc →
    ∃ j task, world.tasks[j]? = some task ∧ task.UnderWay ∧ owner j = i
  alone : ∀ j k first second, world.tasks[j]? = some first → world.tasks[k]? = some second →
    first.UnderWay → second.UnderWay → owner j = owner k → j = k
  told : ∀ i call queue, pool.tasks[i]? = some call → call.stage.worked = true → call.call.Opens queue →
    call.stage.About queue → scopeKey call.caller queue = key →
      ∃ j task result, world.tasks[j]? = some task ∧ owner j = i ∧ task.cancelled = false ∧
        task.pc = .done result ∧ call.stage.Shows result

section

variable {services : Services} {stood : Nat → String → GroupUse → Prop} {key : String} {pool : ServerPool J}
  {owner : Nat → Nat} {world : World J J}
  {i : Nat} {caller : Caller} {call : ToolCall J} {before stage : Stage J} {server : Server J}

/-- A call that stands in a queue's group stands at one step. -/
theorem ToolTask.StandsIn.unique {first second : Pc J J} {task : ToolTask J} (left : task.StandsIn key first)
    (right : task.StandsIn key second) : first = second := by
  obtain ⟨_, _, _, here⟩ := left
  obtain ⟨_, _, _, there⟩ := right
  obtain ⟨_, same, _⟩ := Stage.group.inj (here.symm.trans there)
  exact same

/-- What a call has run stays so as the call goes on. -/
theorem ToolTask.Ran.onward {seen : String → GroupUse → Prop} {inner : Call J J}
    (ran : ToolTask.Ran services seen key inner ⟨caller, call, before⟩)
    (started : before.started = true → stage.started = true) :
    ToolTask.Ran services seen key inner ⟨caller, call, stage⟩ := by
  obtain ⟨queue, use, valid, same, opens, been, runs, begun⟩ := ran
  exact ⟨queue, use, valid, same, opens, been, runs, started begun⟩

/-- What was seen of the calls may be more. -/
theorem ServerPool.Projects.mono {seen : Nat → String → GroupUse → Prop}
    (projects : pool.Projects services stood key owner world)
    (wider : ∀ i queue use, stood i queue use → seen i queue use) : pool.Projects services seen key owner world :=
  { projects with
    ran := fun j task there => by
      obtain ⟨call, here, queue, use, valid, same, opens, been, runs, begun⟩ := projects.ran j task there
      exact ⟨call, here, queue, use, valid, same, opens, wider _ queue use been, runs, begun⟩ }

/-- A step of a call that is outside the queue's group before and after is nothing to the queue. -/
theorem ServerPool.Projects.pass (projects : pool.Projects services stood key owner world)
    (found : pool.tasks[i]? = some ⟨caller, call, before⟩)
    (group : server.registry.groups.lookup key = pool.shared.registry.groups.lookup key)
    (now : server.now = pool.shared.now) (wallClock : server.wallClock = pool.shared.wallClock)
    (out : ∀ pc, ¬ ToolTask.StandsIn key pc ⟨caller, call, before⟩)
    (stays : ∀ pc, ¬ ToolTask.StandsIn key pc ⟨caller, call, stage⟩)
    (started : before.started = true → stage.started = true)
    (tells : ∀ queue, stage.worked = true → call.Opens queue → stage.About queue → scopeKey caller queue = key →
      before.worked = true ∧ before.About queue ∧ ∀ result, before.Shows result → stage.Shows result) :
    ServerPool.Projects services stood key ⟨server, pool.tasks.set i ⟨caller, call, stage⟩⟩ owner world := by
  have within := (List.getElem?_eq_some_iff.mp found).1
  -- Every other call is where it was.
  have other {n : Nat} (apart : n ≠ i) : (pool.tasks.set i ⟨caller, call, stage⟩)[n]? = pool.tasks[n]? :=
    List.getElem?_set_ne fun same => apart same.symm
  refine
    { group := group.trans projects.group
      now := projects.now.trans now.symm
      wallClock := projects.wallClock.trans wallClock.symm
      seats := projects.seats
      alone := projects.alone
      ran := fun j task there => ?_
      owned := fun j task there underWay => ?_
      carried := fun n there pc at_ stands => ?_
      told := fun n there queue at_ worked opens about same => ?_ }
  · obtain ⟨there, at_, ran⟩ := projects.ran j task there
    by_cases own : owner j = i
    · rw [own] at at_ ran ⊢
      obtain rfl := Option.some.inj (found.symm.trans at_)
      exact ⟨_, List.getElem?_set_self within, ran.onward started⟩
    · exact ⟨there, (other own).trans at_, ran⟩
  · obtain ⟨there, at_, stands⟩ := projects.owned j task there underWay
    by_cases own : owner j = i
    · rw [own] at at_
      obtain rfl := Option.some.inj (found.symm.trans at_)
      exact absurd stands (out _)
    · exact ⟨there, (other own).trans at_, stands⟩
  · rcases found_set found at_ with ⟨rfl, rfl⟩ | ⟨_, earlier⟩
    · exact absurd stands (stays pc)
    · exact projects.carried n there pc earlier stands
  · rcases found_set found at_ with ⟨rfl, rfl⟩ | ⟨_, earlier⟩
    · obtain ⟨worked, about, shows⟩ := tells queue worked opens about same
      obtain ⟨j, task, result, here, owns, alive, done, shown⟩ :=
        projects.told n _ queue found worked opens about same
      exact ⟨j, task, result, here, owns, alive, done, shows result shown⟩
    · exact projects.told n there queue earlier worked opens about same

/-- A call that begins an operation of the queue's group begins one of the world's. -/
theorem ServerPool.Projects.start (projects : pool.Projects services stood key owner world)
    (found : pool.tasks[i]? = some ⟨caller, call, before⟩)
    (group : server.registry.groups.lookup key = pool.shared.registry.groups.lookup key)
    (now : server.now = pool.shared.now) (wallClock : server.wallClock = pool.shared.wallClock)
    (out : ∀ pc, ¬ ToolTask.StandsIn key pc ⟨caller, call, before⟩) {queue : String} {inner : Call J J}
    {use : GroupUse} (valid : ValidName queue) (same : scopeKey caller queue = key) (opens : call.Opens queue)
    (been : stood i queue use) (runs : call.Runs services inner use) :
    ServerPool.Projects services stood key ⟨server, pool.tasks.set i ⟨caller, call, .group queue inner.entry use⟩⟩
      (Function.update owner world.tasks.length i) (world.spawn ⟨inner, inner.entry, false⟩) := by
  have within := (List.getElem?_eq_some_iff.mp found).1
  have other {n : Nat} (apart : n ≠ i) :
      (pool.tasks.set i ⟨caller, call, .group queue inner.entry use⟩)[n]? = pool.tasks[n]? :=
    List.getElem?_set_ne fun same => apart same.symm
  -- The operations that there are keep their owners.
  have earlier {j : Nat} {task : Task J J} (there : world.tasks[j]? = some task) :
      Function.update owner world.tasks.length i j = owner j :=
    Function.update_of_ne (List.getElem?_eq_some_iff.mp there).1.ne _ _
  have standing : ToolTask.StandsIn key inner.entry ⟨caller, call, .group queue inner.entry use⟩ :=
    ⟨queue, use, same, rfl⟩
  -- The call had no other operation under way.
  have single {j : Nat} {task : Task J J} (there : world.tasks[j]? = some task) (underWay : task.UnderWay) :
      owner j ≠ i := by
    intro own
    obtain ⟨there, at_, stands⟩ := projects.owned j task there underWay
    rw [own] at at_
    obtain rfl := Option.some.inj (found.symm.trans at_)
    exact out _ stands
  refine
    { group := ?_
      now := projects.now.trans now.symm
      wallClock := projects.wallClock.trans wallClock.symm
      seats := projects.seats.congr fun j => (parked_spawn j).symm
      ran := fun j task there => ?_
      owned := fun j task there underWay => ?_
      carried := fun n there pc at_ stands => ?_
      alone := fun j k first second left right leftWay rightWay owners => ?_
      told := fun n there name at_ worked named about same => ?_ }
  · rw [group, projects.group]
    refine congrArg some (ConsumerGroup.rename_congr fun j seated => ?_)
    obtain ⟨task, there, _⟩ := (projects.seats.mem_iff j).mp seated
    exact (earlier there).symm
  · rcases found_concat there with old | ⟨rfl, rfl⟩
    · obtain ⟨there, at_, ran⟩ := projects.ran j task old
      rw [earlier old]
      by_cases own : owner j = i
      · rw [own] at at_ ran ⊢
        obtain rfl := Option.some.inj (found.symm.trans at_)
        exact ⟨_, List.getElem?_set_self within, ran.onward fun _ => rfl⟩
      · exact ⟨there, (other own).trans at_, ran⟩
    · rw [Function.update_self]
      exact ⟨_, List.getElem?_set_self within, queue, use, valid, same, opens, been, runs, rfl⟩
  · rcases found_concat there with old | ⟨rfl, rfl⟩
    · obtain ⟨there, at_, stands⟩ := projects.owned j task old underWay
      rw [earlier old]
      exact ⟨there, (other (single old underWay)).trans at_, stands⟩
    · rw [Function.update_self]
      exact ⟨_, List.getElem?_set_self within, standing⟩
  · rcases found_set found at_ with ⟨rfl, rfl⟩ | ⟨_, before⟩
    · exact ⟨_, _, List.getElem?_concat_length, ⟨rfl, Call.entry_unfinished inner⟩, Function.update_self ..⟩
    · obtain ⟨j, task, here, underWay, owns⟩ := projects.carried n there pc before stands
      have bound := (List.getElem?_eq_some_iff.mp here).1
      exact ⟨j, task, (List.getElem?_append_left bound).trans here, underWay, (earlier here).trans owns⟩
  · rcases found_concat left with old | ⟨rfl, rfl⟩ <;> rcases found_concat right with older | ⟨rfl, rfl⟩
    · rw [earlier old, earlier older] at owners
      exact projects.alone j k first second old older leftWay rightWay owners
    · -- The new operation shares its owner with no other that is under way.
      rw [earlier old, Function.update_self] at owners
      exact absurd owners (single old leftWay)
    · rw [earlier older, Function.update_self] at owners
      exact absurd owners.symm (single older rightWay)
    · rfl
  · rcases found_set found at_ with ⟨rfl, rfl⟩ | ⟨_, before⟩
    · cases worked
    · obtain ⟨j, task, result, here, owns, alive, done, shown⟩ :=
        projects.told n there name before worked named about same
      have bound := (List.getElem?_eq_some_iff.mp here).1
      exact ⟨j, task, result, (List.getElem?_append_left bound).trans here, (earlier here).trans owns, alive, done,
        shown⟩

/-- A step of an operation, or the end of one that is dropped, is one of the world's. -/
theorem ServerPool.Projects.replace (projects : pool.Projects services stood key owner world)
    {queue : String} {pc : Pc J J} {use : GroupUse}
    (found : pool.tasks[i]? = some ⟨caller, call, .group queue pc use⟩)
    (now : server.now = pool.shared.now) (wallClock : server.wallClock = pool.shared.wallClock)
    {j : Nat} {task : Task J J} (later : Task J J) {group : ConsumerGroup J J} (here : world.tasks[j]? = some task)
    (underWay : task.UnderWay) (owns : owner j = i) (same : later.call = task.call)
    (stored : server.registry.groups.lookup key = some (group.rename owner))
    (seats : group.changed.Seats
      (World.Parked ⟨{ world.shared with group := group }, world.tasks.set j later⟩))
    (started : stage.started = true)
    (goes : (later.UnderWay ∧ ToolTask.StandsIn key later.pc ⟨caller, call, stage⟩) ∨
      (¬ later.UnderWay ∧ ∀ pc, ¬ ToolTask.StandsIn key pc ⟨caller, call, stage⟩))
    (tells : ∀ name, stage.worked = true → call.Opens name → stage.About name → scopeKey caller name = key →
      later.cancelled = false ∧ ∃ result, later.pc = .done result ∧ stage.Shows result) :
    ServerPool.Projects services stood key ⟨server, pool.tasks.set i ⟨caller, call, stage⟩⟩ owner
      ⟨{ world.shared with group := group }, world.tasks.set j later⟩ := by
  have within := (List.getElem?_eq_some_iff.mp found).1
  have bound := (List.getElem?_eq_some_iff.mp here).1
  have other {n : Nat} (apart : n ≠ i) : (pool.tasks.set i ⟨caller, call, stage⟩)[n]? = pool.tasks[n]? :=
    List.getElem?_set_ne fun same => apart same.symm
  have elsewhere {k : Nat} (apart : k ≠ j) : (world.tasks.set j later)[k]? = world.tasks[k]? :=
    List.getElem?_set_ne fun same => apart same.symm
  refine
    { group := stored
      now := projects.now.trans now.symm
      wallClock := projects.wallClock.trans wallClock.symm
      seats
      ran := fun k there at_ => ?_
      owned := fun k there at_ goesOn => ?_
      carried := fun n there pc at_ stands => ?_
      alone := fun k l first second left right leftWay rightWay owners => ?_
      told := fun n there name at_ worked named about same => ?_ }
  · -- The operation is still the call's, and the other operations are still their calls'.
    have ran : ∃ there', pool.tasks[owner k]? = some there' ∧ there'.Ran services (stood (owner k)) key there.call := by
      rcases found_set here at_ with ⟨rfl, rfl⟩ | ⟨_, before⟩
      · rw [same]
        exact projects.ran k task here
      · exact projects.ran k there before
    obtain ⟨there', at', ran⟩ := ran
    by_cases own : owner k = i
    · rw [own] at at' ran ⊢
      obtain rfl := Option.some.inj (found.symm.trans at')
      exact ⟨_, List.getElem?_set_self within, ran.onward fun _ => started⟩
    · exact ⟨there', (other own).trans at', ran⟩
  · rcases found_set here at_ with ⟨rfl, rfl⟩ | ⟨apart, before⟩
    · rcases goes with ⟨_, stands⟩ | ⟨ended, _⟩
      · rw [owns]
        exact ⟨_, List.getElem?_set_self within, stands⟩
      · exact absurd goesOn ended
    · obtain ⟨there', at', stands⟩ := projects.owned k there before goesOn
      have own : owner k ≠ i := fun own =>
        apart (projects.alone k j there task before here goesOn underWay (own.trans owns.symm))
      exact ⟨there', (other own).trans at', stands⟩
  · rcases found_set found at_ with ⟨rfl, rfl⟩ | ⟨apart, before⟩
    · rcases goes with ⟨goesOn, _⟩ | ⟨_, out⟩
      · exact ⟨j, later, List.getElem?_set_self bound, goesOn, owns⟩
      · exact absurd stands (out pc)
    · obtain ⟨k, there', at', goesOn, own⟩ := projects.carried n there pc before stands
      have distinct : k ≠ j := fun same => apart (own.symm.trans ((congrArg owner same).trans owns))
      exact ⟨k, there', (elsewhere distinct).trans at', goesOn, own⟩
  · -- Two operations with one owner were both under way before.
    have earlier {m : Nat} {there : Task J J} (at_ : (world.tasks.set j later)[m]? = some there)
        (goesOn : there.UnderWay) : ∃ there', world.tasks[m]? = some there' ∧ there'.UnderWay := by
      rcases found_set here at_ with ⟨rfl, rfl⟩ | ⟨_, before⟩
      · exact ⟨task, here, underWay⟩
      · exact ⟨there, before, goesOn⟩
    obtain ⟨first', left', leftWay'⟩ := earlier left leftWay
    obtain ⟨second', right', rightWay'⟩ := earlier right rightWay
    exact projects.alone k l first' second' left' right' leftWay' rightWay' owners
  · rcases found_set found at_ with ⟨rfl, rfl⟩ | ⟨apart, before⟩
    · obtain ⟨alive, result, done, shown⟩ := tells name worked named about same
      exact ⟨j, later, result, List.getElem?_set_self bound, owns, alive, done, shown⟩
    · obtain ⟨k, there', result, at', own, alive, done, shown⟩ :=
        projects.told n there name before worked named about same
      have distinct : k ≠ j := fun same => apart (own.symm.trans ((congrArg owner same).trans owns))
      exact ⟨k, there', result, (elsewhere distinct).trans at', own, alive, done, shown⟩

/-- No two operations that wait in line belong to one call. -/
theorem ServerPool.Projects.lone (projects : pool.Projects services stood key owner world) {j : Nat} {task : Task J J}
    (here : world.tasks[j]? = some task) (underWay : task.UnderWay) :
    Lone owner world.shared.group.changed.seats j := by
  -- Two operations of one call would be under way, which is so for none.
  intro k seated same
  obtain ⟨other, there, alive, waiting⟩ := (projects.seats.mem_iff k).mp seated
  have unfinished : other.pc.finished = false := by
    cases at_ : other.pc with
    | done => rw [at_] at waiting; cases waiting
    | _ => rfl
  exact projects.alone k j other task there here ⟨alive, unfinished⟩ underWay same

/-- The operation of the world that a call runs stands at the same step. -/
theorem ServerPool.Projects.standing (projects : pool.Projects services stood key owner world) {queue : String}
    {pc : Pc J J} {use : GroupUse} (found : pool.tasks[i]? = some ⟨caller, call, .group queue pc use⟩)
    (same : scopeKey caller queue = key) :
    ∃ j task, world.tasks[j]? = some task ∧ task.UnderWay ∧ owner j = i ∧ task.pc = pc := by
  -- The call is carried by some operation, and this one stands where its owner does.
  have stands : ToolTask.StandsIn key pc ⟨caller, call, .group queue pc use⟩ := ⟨queue, use, same, rfl⟩
  obtain ⟨j, task, here, underWay, owns⟩ := projects.carried i _ pc found stands
  obtain ⟨there, at_, stands'⟩ := projects.owned j task here underWay
  rw [owns] at at_
  obtain rfl := Option.some.inj (found.symm.trans at_)
  exact ⟨j, task, here, underWay, owns, stands'.unique stands⟩

/-- A call that leaves a queue's group is at no step of it. -/
theorem ToolTask.not_standsIn {caller : Caller} {call : ToolCall J} {stage : Stage J}
    (ungrouped : ∀ queue pc use, stage ≠ .group queue pc use) (pc : Pc J J) :
    ¬ ToolTask.StandsIn key pc ⟨caller, call, stage⟩ :=
  fun ⟨queue, use, _, same⟩ => ungrouped queue pc use same

/-- An operation that can take a step takes it in the world. -/
theorem World.step_of_move {j : Nat} {task : Task J J} {env : StepEnv} {group : ConsumerGroup J J} {pc : Pc J J}
    (here : world.tasks[j]? = some task) (alive : task.cancelled = false)
    (moved : world.shared.group.move j world.shared.now world.shared.wallClock env task.pc = some (group, pc)) :
    world.step (.step j env) =
      some ⟨{ world.shared with group := group }, world.tasks.set j { task with pc := pc }⟩ := by
  unfold World.step
  refine Pool.advance_eq_some.mpr ⟨task, _, _, here, ?_, rfl⟩
  simp [Runtime.advance, alive, moved]

/-- An operation that can be dropped is dropped in the world. -/
theorem World.step_of_abandon {j : Nat} {task : Task J J} {wrote : AppendOutcome} {group : ConsumerGroup J J}
    {pc : Pc J J} (here : world.tasks[j]? = some task) (alive : task.cancelled = false)
    (dropped : world.shared.group.abandon j world.shared.now world.shared.wallClock wrote task.pc =
      some (group, pc)) :
    world.step (.drop j wrote) = some ⟨{ world.shared with group := group },
      world.tasks.set j { task with pc := pc, cancelled := true }⟩ := by
  unfold World.step
  refine Pool.advance_eq_some.mpr ⟨task, _, _, here, ?_, rfl⟩
  simp [Runtime.abandon, alive, dropped]

/-- An open queue's group has come to be what it is by a run of its own in this process. -/
def ServerPool.Traced (services : Services) (stood : Nat → String → GroupUse → Prop) (key : String)
    (start : World J J) (pool : ServerPool J) : Prop :=
  ∃ owner trace world, Run World.step InProcess start trace world ∧ pool.Projects services stood key owner world

variable {start : World J J}

/-- The id that an operation makes a message under is the one that its call generates. -/
theorem ToolCall.Runs.newId {inner : Call J J} {use : GroupUse} {id : MessageId} (runs : call.Runs services inner use)
    (made : inner.newId = some id) : call.newId = some id := by
  unfold ToolCall.Runs at runs
  split at runs
  case h_1 =>
    obtain ⟨_, _, rfl⟩ := runs
    exact made
  case h_12 => exact runs.elim
  -- No other operation makes a message.
  case h_2 => subst runs; cases made
  case h_3 => obtain ⟨_, rfl⟩ := runs; cases made
  case h_8 => obtain ⟨_, _, rfl⟩ := runs; cases made
  case h_9 => obtain ⟨_, _, _, rfl⟩ := runs; cases made
  all_goals
    obtain ⟨_, _, rfl⟩ := runs
    cases made

/-- A call that stays out of the group of an open queue, or comes to begin an operation there. -/
theorem ServerPool.Traced.arrive (traced : pool.Traced services stood key start)
    (distinct : ∀ (j k : Nat) (first second : ToolTask J) id, pool.tasks[j]? = some first →
      pool.tasks[k]? = some second → first.call.newId = some id → second.call.newId = some id → j = k)
    (found : pool.tasks[i]? = some ⟨caller, call, before⟩)
    (ungrouped : ∀ queue pc use, before ≠ .group queue pc use)
    (group : server.registry.groups.lookup key = pool.shared.registry.groups.lookup key)
    (now : server.now = pool.shared.now) (wallClock : server.wallClock = pool.shared.wallClock)
    (started : before.started = true → stage.started = true ∧ ∀ queue pc use, stage ≠ .group queue pc use)
    (begins : ∀ queue pc use, stage = .group queue pc use → ValidName queue ∧ call.Opens queue ∧
      stood i queue use ∧ ∃ inner, call.Runs services inner use ∧ inner.Begins pc)
    (tells : ∀ queue, stage.worked = true → call.Opens queue → stage.About queue → scopeKey caller queue = key →
      before.worked = true ∧ before.About queue ∧ ∀ result, before.Shows result → stage.Shows result) :
    ServerPool.Traced services stood key start ⟨server, pool.tasks.set i ⟨caller, call, stage⟩⟩ := by
  obtain ⟨owner, trace, world, run, projects⟩ := traced
  have out : ∀ pc, ¬ ToolTask.StandsIn key pc ⟨caller, call, before⟩ := ToolTask.not_standsIn ungrouped
  by_cases arrives : ∃ queue pc use, stage = .group queue pc use ∧ scopeKey caller queue = key
  · obtain ⟨queue, pc, use, rfl, same⟩ := arrives
    obtain ⟨valid, opens, been, inner, runs, rfl⟩ := begins queue pc use rfl
    -- The id of a new message has been in no operation yet, since only this call generates it.
    have fresh : world.Fresh inner := by
      intro task member id made taken
      obtain ⟨j, here⟩ := List.getElem?_of_mem member
      obtain ⟨there, at_, _, _, _, _, _, _, theirs, begun⟩ := projects.ran j task here
      have own := distinct _ _ _ _ id at_ found (theirs.newId taken) (runs.newId made)
      rw [own] at at_
      obtain rfl := Option.some.inj (found.symm.trans at_)
      exact (started begun).2 queue _ use rfl
    have inProcess : InProcess world (.call inner) := fun _ same => by cases same
    have spawned : world.step (.call inner) = some (world.spawn ⟨inner, inner.entry, false⟩) := if_pos fresh
    exact ⟨_, _, _, run.snoc inProcess spawned,
      projects.start found group now wallClock out valid same opens been runs⟩
  · refine ⟨owner, trace, world, run, projects.pass found group now wallClock out (fun pc stands => ?_)
      (fun begun => (started begun).1) tells⟩
    obtain ⟨queue, use, same, at_⟩ := stands
    exact arrives ⟨queue, pc, use, at_, same⟩

/-- A step that a call takes in a queue's group is the step of the world's operation. -/
theorem ServerPool.Projects.advance (projects : pool.Projects services stood key owner world) {queue : String}
    {pc pc' : Pc J J} {use : GroupUse} {env : StepEnv} {group group' : ConsumerGroup J J}
    (found : pool.tasks[i]? = some ⟨caller, call, .group queue pc use⟩) (same : scopeKey caller queue = key)
    (opened : pool.shared.registry.groups.lookup key = some group)
    (moved : group.move i pool.shared.now pool.shared.wallClock env pc = some (group', pc')) :
    ∃ j task later, world.tasks[j]? = some task ∧ task.UnderWay ∧ owner j = i ∧
      world.step (.step j env) =
        some ⟨{ world.shared with group := later }, world.tasks.set j { task with pc := pc' }⟩ ∧
      group' = later.rename owner ∧ later.changed.Seats (World.Parked
        ⟨{ world.shared with group := later }, world.tasks.set j { task with pc := pc' }⟩) := by
  -- The operation takes its step on the group of the world, whose seats have other names.
  obtain ⟨j, task, here, underWay, rfl, rfl⟩ := projects.standing found same
  obtain rfl := Option.some.inj (projects.group.symm.trans opened)
  rw [ConsumerGroup.move_rename _ _ (projects.lone here underWay), ← projects.now, ← projects.wallClock] at moved
  obtain ⟨⟨later, _⟩, stepped, renames⟩ := Option.map_eq_some_iff.mp moved
  obtain ⟨rfl, rfl⟩ := Prod.mk.inj renames
  exact ⟨j, task, later, here, underWay, rfl, World.step_of_move here underWay.1 stepped, rfl,
    seats_of_move projects.seats here underWay.1 stepped⟩

/-- A step of a call in the group of an open queue. -/
theorem ServerPool.Traced.act (traced : pool.Traced services stood key start) {queue : String} {pc : Pc J J}
    {use : GroupUse} {env : ToolEnv}
    (found : pool.tasks[i]? = some ⟨caller, call, .group queue pc use⟩) (valid : ValidName queue)
    (same : scopeKey caller queue = key) (opens : call.Opens queue) {inner : Call J J} (runs : call.Runs services inner use)
    (been : ∀ queue pc use, stage = .group queue pc use → stood i queue use)
    (moved : pool.shared.move services i env ⟨caller, call, .group queue pc use⟩ = some (server, stage)) :
    ServerPool.Traced services stood key start ⟨server, pool.tasks.set i ⟨caller, call, stage⟩⟩ := by
  obtain ⟨owner, trace, world, run, projects⟩ := traced
  have still := Server.move_still moved
  obtain ⟨group, group', pc', opened, step, rfl, resumes⟩ := Server.move_group services moved
  rw [same] at opened
  obtain ⟨j, task, later, here, underWay, owns, taken, rfl, seats⟩ := projects.advance found same opened step
  have stored : (pool.shared.withRegistry
      (pool.shared.registry.setGroup caller queue (later.rename owner))).registry.groups.lookup key =
        some (later.rename owner) := by
    show (pool.shared.registry.groups.insert _ _).lookup key = _
    rw [same, Finmap.lookup_insert]
  have inProcess : InProcess world (.step j env.group) := fun _ same => by cases same
  have goesOn := run.snoc inProcess taken
  -- Whatever the call goes on to, once its operation has returned.
  have returns (result : Result J J) (next : Stage J) (returned : pc' = .done result) (started : next.started = true)
      (ungrouped : ∀ queue pc use, next ≠ .group queue pc use) (shows : next.worked = true → next.Shows result) :
      ServerPool.Projects services stood key ⟨_, pool.tasks.set i ⟨caller, call, next⟩⟩ owner _ :=
    projects.replace found still.now still.wallClock { task with pc := pc' } here underWay owns rfl stored seats
      started (.inr ⟨fun ended => (by subst returned; cases ended.2), ToolTask.not_standsIn ungrouped⟩)
      fun _ worked _ _ _ => ⟨underWay.1, result, returned, shows worked⟩
  by_cases finished : ∃ result, pc' = .done result
  · obtain ⟨result, rfl⟩ := finished
    dsimp only at resumes
    by_cases again : ∃ name pc later, stage = .group name pc later
    · -- The triage of a transient failure goes on with a second operation of the same group.
      obtain ⟨name, pc, last, rfl⟩ := again
      obtain ⟨rfl, rfl, params, id, rfl, rfl, transient, rfl⟩ := ToolCall.resume_group resumes
      have between := returns result (.done (.error (.internalError ""))) rfl rfl (fun _ _ _ same => by cases same)
        fun worked => by cases worked
      have within := (List.getElem?_eq_some_iff.mp found).1
      set midway : World J J := ⟨{ world.shared with group := later }, world.tasks.set j { task with pc := .done result }⟩
      have next := between.start (List.getElem?_set_self within) rfl rfl rfl
        (ToolTask.not_standsIn fun _ _ _ same => by cases same) valid same opens (been _ _ _ rfl)
        (show ToolCall.Runs services (.reprocessDeadLetter id) (.triageDeadLetter params) .plain from
          ⟨transient, id, runs.1, rfl⟩)
      rw [List.set_set] at next
      have fresh : midway.Fresh (.reprocessDeadLetter id) := fun _ _ _ made => by cases made
      have inProcess : InProcess midway (.call (.reprocessDeadLetter id)) := fun _ same => by cases same
      have spawned : midway.step (.call (.reprocessDeadLetter id)) =
        some (midway.spawn ⟨.reprocessDeadLetter id, Call.entry (.reprocessDeadLetter id), false⟩) := if_pos fresh
      exact ⟨_, _, _, goesOn.snoc inProcess spawned, next⟩
    · subst resumes
      exact ⟨owner, _, _, goesOn, returns result _ rfl ToolCall.resume_started
        (fun name pc later same => again ⟨name, pc, later, same⟩) ToolCall.resume_shows⟩
  · -- The operation goes on.
    have unfinished : pc'.finished = false := by
      cases ended : pc' with
      | done result => exact absurd ⟨result, ended⟩ finished
      | _ => rfl
    have stays : stage = .group queue pc' use := by
      cases ended : pc' with
      | done result => exact absurd ⟨result, ended⟩ finished
      | _ => rw [ended] at resumes; exact resumes.symm
    subst stays
    exact ⟨owner, _, _, goesOn, projects.replace found still.now still.wallClock { task with pc := pc' } here underWay
      owns rfl stored seats rfl (.inl ⟨⟨underWay.1, unfinished⟩, queue, use, same, rfl⟩)
      fun _ worked => by cases worked⟩

/-- A call whose deadline passes is answered without an operation's result. -/
theorem ToolCall.timedOut_silent (call : ToolCall J) :
    (call.timedOut : Stage J).started = true ∧ (call.timedOut : Stage J).worked = false ∧
      ∀ queue pc use, (call.timedOut : Stage J) ≠ .group queue pc use := by
  cases call <;> exact ⟨rfl, rfl, fun _ _ _ same => by cases same⟩

/-- A call whose deadline passes drops its operation in the world. -/
theorem ServerPool.Traced.drop (traced : pool.Traced services stood key start) {queue : String} {pc pc' : Pc J J}
    {use : GroupUse} {wrote : AppendOutcome} {group group' : ConsumerGroup J J}
    (found : pool.tasks[i]? = some ⟨caller, call, .group queue pc use⟩) (same : scopeKey caller queue = key)
    (opened : pool.shared.registry.groups.lookup key = some group)
    (dropped : group.abandon i pool.shared.now pool.shared.wallClock wrote pc = some (group', pc')) :
    ServerPool.Traced services stood key start
      ⟨pool.shared.withRegistry (pool.shared.registry.setGroup caller queue group'),
        pool.tasks.set i ⟨caller, call, call.timedOut⟩⟩ := by
  -- The operation is dropped in the world, and the group that is left is the one with the names changed.
  obtain ⟨owner, trace, world, run, projects⟩ := traced
  obtain ⟨j, task, here, underWay, rfl, rfl⟩ := projects.standing found same
  obtain rfl := Option.some.inj (projects.group.symm.trans opened)
  rw [ConsumerGroup.abandon_rename _ _ (projects.lone here underWay), ← projects.now, ← projects.wallClock] at dropped
  obtain ⟨⟨later, last⟩, left, renames⟩ := Option.map_eq_some_iff.mp dropped
  obtain ⟨rfl, rfl⟩ := Prod.mk.inj renames
  have stored : (pool.shared.withRegistry
      (pool.shared.registry.setGroup caller queue (later.rename owner))).registry.groups.lookup key =
        some (later.rename owner) := by
    show (pool.shared.registry.groups.insert _ _).lookup key = _
    rw [same, Finmap.lookup_insert]
  have still : pool.shared.Still (pool.shared.withRegistry
      (pool.shared.registry.setGroup caller queue (later.rename owner))) := .of_registry rfl
  obtain ⟨started, silent, ungrouped⟩ := ToolCall.timedOut_silent call
  have inProcess : InProcess world (.drop j wrote) := fun _ same => by cases same
  refine ⟨owner, _, _, run.snoc inProcess (World.step_of_abandon here underWay.1 left),
    projects.replace found still.now still.wallClock { task with pc := last, cancelled := true } here underWay rfl rfl stored
      (seats_of_abandon projects.seats here underWay.1 left) started
      (.inr ⟨fun ended => (by cases ended.1), ToolTask.not_standsIn ungrouped⟩) fun _ worked => ?_⟩
  rw [silent] at worked
  cases worked

/-- A step of a call in the group of another queue. -/
theorem ServerPool.Traced.elsewhere (traced : pool.Traced services stood key start) {queue : String} {pc : Pc J J}
    {use : GroupUse} {group' : ConsumerGroup J J}
    (found : pool.tasks[i]? = some ⟨caller, call, .group queue pc use⟩) (other : scopeKey caller queue ≠ key)
    (within : stage.started = true) (grouped : ∀ name pc use, stage = .group name pc use → name = queue)
    (about : ∀ name, stage.worked = true → call.Opens name → stage.About name → name = queue) :
    ServerPool.Traced services stood key start
      ⟨pool.shared.withRegistry (pool.shared.registry.setGroup caller queue group'),
        pool.tasks.set i ⟨caller, call, stage⟩⟩ := by
  -- The run of this group goes on unchanged, since the other group is stored under another name.
  obtain ⟨owner, trace, world, run, projects⟩ := traced
  have still : pool.shared.Still (pool.shared.withRegistry (pool.shared.registry.setGroup caller queue group')) :=
    .of_registry rfl
  refine ⟨owner, trace, world, run, projects.pass found ?_ still.now still.wallClock (fun pc stands => ?_) (fun pc stands => ?_)
    (fun _ => within) fun name worked opens told same => ?_⟩
  · show (pool.shared.registry.groups.insert _ _).lookup key = _
    rw [Finmap.lookup_insert_of_ne _ other.symm]
  · obtain ⟨name, _, same, at_⟩ := stands
    obtain ⟨rfl, _, _⟩ := Stage.group.inj at_
    exact other same
  · obtain ⟨name, _, same, at_⟩ := stands
    obtain rfl := grouped _ _ _ at_
    exact other same
  · obtain rfl := about name worked opens told
    exact absurd same other

/-- A call that is made, and has not begun. -/
theorem ServerPool.Traced.spawn (traced : pool.Traced services stood key start) :
    ServerPool.Traced services stood key start (pool.spawn ⟨caller, call, .authorize⟩) := by
  -- The new call is in no group, so all that holds of the others still does.
  obtain ⟨owner, trace, world, run, projects⟩ := traced
  have earlier {n : Nat} {there : ToolTask J} (at_ : pool.tasks[n]? = some there) :
      (pool.spawn ⟨caller, call, .authorize⟩).tasks[n]? = some there :=
    (List.getElem?_append_left (List.getElem?_eq_some_iff.mp at_).1).trans at_
  refine ⟨owner, trace, world, run,
    { group := projects.group
      now := projects.now
      wallClock := projects.wallClock
      seats := projects.seats
      alone := projects.alone
      ran := fun j task here => ?_
      owned := fun j task here underWay => ?_
      carried := fun n there pc at_ stands => ?_
      told := fun n there name at_ worked named about same => ?_ }⟩
  · obtain ⟨there, at_, ran⟩ := projects.ran j task here
    exact ⟨there, earlier at_, ran⟩
  · obtain ⟨there, at_, stands⟩ := projects.owned j task here underWay
    exact ⟨there, earlier at_, stands⟩
  · rcases found_concat at_ with before | ⟨rfl, rfl⟩
    · exact projects.carried n there pc before stands
    · exact absurd stands (ToolTask.not_standsIn (fun _ _ _ same => by cases same) pc)
  · rcases found_concat at_ with before | ⟨rfl, rfl⟩
    · exact projects.told n there name before worked named about same
    · cases worked

/-- The clocks of the world are those of the server. -/
theorem ServerPool.Traced.tick (traced : pool.Traced services stood key start)
    (elapsed : { elapsed : Duration // 0 ≤ elapsed }) :
    ServerPool.Traced services stood key start
      { pool with shared := { pool.shared with now := pool.shared.now + elapsed.val } } := by
  obtain ⟨owner, trace, world, run, projects⟩ := traced
  have inProcess : InProcess world (.tick elapsed) := fun _ same => by cases same
  have now : world.shared.now + elapsed.val = pool.shared.now + elapsed.val := by rw [projects.now]
  exact ⟨owner, _, _, run.snoc inProcess rfl, { projects with now := now }⟩

theorem ServerPool.Traced.setWallClock (traced : pool.Traced services stood key start) (wallClock : Timestamp) :
    ServerPool.Traced services stood key start { pool with shared := { pool.shared with wallClock } } := by
  obtain ⟨owner, trace, world, run, projects⟩ := traced
  have inProcess : InProcess world (.setWallClock wallClock) := fun _ same => by cases same
  exact ⟨owner, _, _, run.snoc inProcess rfl, { projects with wallClock := rfl }⟩

end

/-- What a queue was opened as: the group that the logs of its files, as the server found them, open as. -/
def Server.OpensAs (origin : Server J) (key : String) (start : World J J) : Prop :=
  ∃ caller queue order at_ wallClock, ValidName queue ∧ scopeKey caller queue = key ∧ origin.now ≤ at_ ∧
    (DeadLetters.replay
      (origin.disk.dlqs (dlqPath (walPath origin.registry.dataDir caller queue))).records).Iterates order ∧
    start = .opened (origin.disk.wals (walPath origin.registry.dataDir caller queue))
      (origin.disk.dlqs (dlqPath (walPath origin.registry.dataDir caller queue))) order at_ wallClock

/-- Every open queue has come to be what it is by a run of its own, and no answer tells of another. -/
structure ServerPool.Projected (services : Services) (stood : Nat → String → GroupUse → Prop) (origin : Server J)
    (pool : ServerPool J) : Prop where
  later : origin.now ≤ pool.shared.now
  dataDir : pool.shared.registry.dataDir = origin.registry.dataDir
  wals : ∀ location, (pool.shared.disk.wals location).records = (origin.disk.wals location).records
  dlqs : ∀ location, (pool.shared.disk.dlqs location).records = (origin.disk.dlqs location).records
  answered : ∀ (i : Nat) (task : ToolTask J) name, pool.tasks[i]? = some task → task.stage.worked = true → task.call.Opens name →
    task.stage.About name → (pool.shared.registry.groups.lookup (scopeKey task.caller name)).isSome
  worlds : ∀ key, (pool.shared.registry.groups.lookup key).isSome →
    ∃ start, origin.OpensAs key start ∧ pool.Traced services stood key start

section

variable {services : Services} {stood : Nat → String → GroupUse → Prop} {origin server : Server J}
  {pool next : ServerPool J} {act : ServerAction J} {i : Nat} {env : ToolEnv} {caller : Caller} {call : ToolCall J} {before stage : Stage J}

/-- A group that is opened is what the logs say, whatever a failed opening has cut off them before. -/
theorem ConsumerGroup.opened_congr {wal wal' : Log (WalRecord J J)} {dlq dlq' : Log (DlqRecord J J)}
    (main : wal.records = wal'.records) (dead : dlq.records = dlq'.records) (visibilityTimeout : Duration)
    (retryPolicy : RetryPolicy) (order : List MessageId) :
    ConsumerGroup.opened wal dlq visibilityTimeout retryPolicy order =
      .opened wal' dlq' visibilityTimeout retryPolicy order := by
  simp only [ConsumerGroup.opened, DeadLetterQueue.opened, Log.reopen, main, dead]

/-- A queue that is opened begins a run of its own, in which no call has a part yet. -/
theorem ServerPool.Projected.begin (projected : pool.Projected services stood origin) (standing : pool.Standing)
    {queue : String} (valid : ValidName queue) (absent : pool.shared.registry.groups.lookup (scopeKey caller queue) = none)
    (still : pool.shared.Still server)
    (opened : server.registry.groups.lookup (scopeKey caller queue) =
      some (pool.shared.openGroup caller queue env.letters))
    (iterates : (DeadLetters.replay (pool.shared.disk.dlqs
      (dlqPath (walPath pool.shared.registry.dataDir caller queue))).records).Iterates env.letters) :
    ∃ start, origin.OpensAs (scopeKey caller queue) start ∧
      ServerPool.Traced services stood (scopeKey caller queue) start ⟨server, pool.tasks⟩ := by
  refine ⟨_, ⟨caller, queue, env.letters, server.now, server.wallClock, valid, rfl, ?_, ?_, rfl⟩,
    fun _ => 0, [], _, .nil, ?_⟩
  · rw [still.now]
    exact projected.later
  · rw [← projected.dataDir, ← projected.dlqs]
    exact iterates
  · exact
      { group := by
          rw [opened]
          refine congrArg some ?_
          rw [Server.openGroup, projected.dataDir]
          -- Nobody is in line yet to be renamed.
          exact (ConsumerGroup.opened_congr (projected.wals _) (projected.dlqs _) _ _ _).trans rfl
        now := rfl
        wallClock := rfl
        seats := ⟨List.nodup_nil, fun j => by simp [World.opened, World.Parked, ConsumerGroup.opened, Notify.seats],
          nofun⟩
        ran := fun _ _ there => (nomatch there)
        owned := fun _ _ there => (nomatch there)
        carried := fun n there pc at_ stands => by
          -- Whoever runs an operation of a queue has it open.
          obtain ⟨name, use, same, inGroup⟩ := stands
          have within := standing.within n there at_
          dsimp only at within
          rw [inGroup] at within
          have open_ : (pool.shared.registry.groups.lookup (scopeKey there.caller name)).isSome := within
          rw [same, absent] at open_
          cases open_
        alone := fun _ _ _ _ there => (nomatch there)
        told := fun n there name at_ worked named about same => by
          have open_ := projected.answered n there name at_ worked named about
          rw [same, absent] at open_
          cases open_ }

/-- A call at a step of an operation has come to a queue that it may open, with an operation of its own. -/
theorem ServerPool.Served.running (served : pool.Served services fun _ => True) {queue : String} {pc : Pc J J}
    {use : GroupUse} (found : pool.tasks[i]? = some ⟨caller, call, .group queue pc use⟩) :
    call.Opens queue ∧ ∃ inner, call.Runs services inner use := by
  obtain ⟨opens, inner, runs, _⟩ := served.serves i _ found
  exact ⟨opens, inner, runs⟩

/-- A step of a call outside a group does to an open queue what that queue's own run shows. -/
theorem ServerPool.Served.arrive {key : String} {start : World J J} (served : pool.Served services fun _ => True)
    (distinct : ∀ (j k : Nat) (first second : ToolTask J) id, pool.tasks[j]? = some first →
      pool.tasks[k]? = some second → first.call.newId = some id → second.call.newId = some id → j = k)
    (found : pool.tasks[i]? = some ⟨caller, call, before⟩)
    (proper : ToolTask.Proper ⟨caller, call, before⟩) (ungrouped : ∀ queue pc use, before ≠ .group queue pc use)
    (been : ∀ queue pc use, stage = .group queue pc use → stood i queue use)
    (moved : pool.shared.move services i env ⟨caller, call, before⟩ = some (server, stage)) {from_ : Server J}
    (traced : ServerPool.Traced services stood key start ⟨from_, pool.tasks⟩)
    (group : server.registry.groups.lookup key = from_.registry.groups.lookup key)
    (now : server.now = from_.now) (wallClock : server.wallClock = from_.wallClock) :
    ServerPool.Traced services stood key start ⟨server, pool.tasks.set i ⟨caller, call, stage⟩⟩ := by
  -- What the call goes on to fits it, and can only be the beginning of an operation.
  have begins (inner : Call J J) : inner.Begins inner.entry := rfl
  have fits : stage.Fits services Call.Begins True call :=
    Server.move_fits begins ungrouped (served.serves i _ found) (fun _ => True.intro) moved
  refine traced.arrive distinct found ungrouped group now wallClock (fun started => ?_) (fun queue pc use same => ?_)
    fun queue worked _ about _ => Server.move_tells ungrouped moved worked about
  · exact ⟨Server.move_started started moved, Server.move_ungrouped started ungrouped moved⟩
  · have own := proper.move moved
    rw [same] at fits own
    obtain ⟨opens, inner, runs, first⟩ := fits
    exact ⟨own.2, opens, been queue pc use same, inner, runs, first⟩

/-- The queue that a call has told of is open. -/
theorem ServerPool.Projected.move_answered (projected : pool.Projected services stood origin) (standing : pool.Standing)
    (served : pool.Served services fun _ => True) (found : pool.tasks[i]? = some ⟨caller, call, before⟩)
    (moved : pool.shared.move services i env ⟨caller, call, before⟩ = some (server, stage)) {name : String}
    (worked : stage.worked = true) (opens : call.Opens name) (about : stage.About name) :
    (server.registry.groups.lookup (scopeKey caller name)).isSome := by
  -- What an operation returns is told of its own queue, and the rest was told before.
  cases Server.moved_of_move moved with
  | operates => cases worked
  | returns =>
    rw [ToolCall.resume_about (served.running found).1 opens worked about]
    exact Server.move_keeps moved (standing.within _ _ found)
  | _ =>
    obtain ⟨worked, about, _⟩ := Server.move_tells (fun _ _ _ same => by cases same) moved worked about
    exact Server.move_keeps moved (projected.answered _ ⟨caller, call, _⟩ name found worked opens about)

/-- A step of an operation shows in the run of its own queue, and in no other. -/
theorem ServerPool.Projected.move_group (projected : pool.Projected services stood origin)
    (served : pool.Served services fun _ => True) {queue : String} {pc : Pc J J} {use : GroupUse}
    (proper : ToolTask.Proper ⟨caller, call, .group queue pc use⟩)
    (found : pool.tasks[i]? = some ⟨caller, call, .group queue pc use⟩)
    (been : ∀ queue pc use, stage = .group queue pc use → stood i queue use)
    (moved : pool.shared.move services i env ⟨caller, call, .group queue pc use⟩ = some (server, stage)) {key : String}
    (open_ : (server.registry.groups.lookup key).isSome) :
    ∃ start, origin.OpensAs key start ∧
      ServerPool.Traced services stood key start ⟨server, pool.tasks.set i ⟨caller, call, stage⟩⟩ := by
  obtain ⟨opens, inner, runs⟩ := served.running found
  obtain ⟨group, group', pc', opened, _, replaced, resumes⟩ := Server.move_group services moved
  by_cases own : scopeKey caller queue = key
  · subst own
    obtain ⟨start, as, traced⟩ := projected.worlds _ (by rw [opened]; rfl)
    exact ⟨start, as, traced.act found proper.2 rfl opens runs been moved⟩
  · -- The group of the other queue stays as it is.
    subst replaced
    have before : (pool.shared.registry.groups.lookup key).isSome := by
      have there : ((pool.shared.registry.groups.insert (scopeKey caller queue) group').lookup key).isSome := open_
      rwa [Finmap.lookup_insert_of_ne _ (Ne.symm own)] at there
    obtain ⟨start, as, traced⟩ := projected.worlds key before
    have started : stage.started = true := Server.move_started rfl moved
    refine ⟨start, as, traced.elsewhere found own started (fun name pc use same => ?_)
      fun name worked named about => ?_⟩
    · subst resumes
      split at same
      · exact (ToolCall.resume_group same).1
      · exact (Stage.group.inj same).1.symm
    · subst resumes
      split at worked
      · exact ToolCall.resume_about opens named worked about
      · cases worked

/-- A step outside a group shows in the runs of the queues that are open as the beginning or the end of an
operation, and the queue that is opened by it begins a run of its own. -/
theorem ServerPool.Projected.move_ungrouped (projected : pool.Projected services stood origin)
    (standing : pool.Standing) (served : pool.Served services fun _ => True)
    (proper : ToolTask.Proper ⟨caller, call, before⟩) (ungrouped : ∀ queue pc use, before ≠ .group queue pc use)
    (found : pool.tasks[i]? = some ⟨caller, call, before⟩)
    (been : ∀ queue pc use, stage = .group queue pc use → stood i queue use)
    (moved : pool.shared.move services i env ⟨caller, call, before⟩ = some (server, stage)) {key : String}
    (open_ : (server.registry.groups.lookup key).isSome) :
    ∃ start, origin.OpensAs key start ∧
      ServerPool.Traced services stood key start ⟨server, pool.tasks.set i ⟨caller, call, stage⟩⟩ := by
  have still := Server.move_still moved
  -- The run of a queue that was open goes on.
  have goesOn (same : server.registry.groups.lookup key = pool.shared.registry.groups.lookup key) :
      ∃ start, origin.OpensAs key start ∧
        ServerPool.Traced services stood key start ⟨server, pool.tasks.set i ⟨caller, call, stage⟩⟩ := by
    obtain ⟨start, as, traced⟩ := projected.worlds key (same ▸ open_)
    exact ⟨start, as, served.arrive standing.distinct found proper ungrouped been moved traced same still.now
      still.wallClock⟩
  rcases Server.move_opens ungrouped moved with kept | ⟨queue, opening, added⟩
  · exact goesOn (by rw [kept])
  · by_cases own : key = scopeKey caller queue
    · -- The queue that is opened was not open, since the call held the lock.
      obtain ⟨_, absent⟩ := standing.locked i _ found queue .openDlq opening (by decide)
      subst own
      obtain rfl : before = .get queue .openDlq := opening
      obtain ⟨iterates, _⟩ := Option.ite_none_right_eq_some.mp moved
      obtain ⟨start, as, traced⟩ := projected.begin standing proper.2 absent still
        (by rw [added, Finmap.lookup_insert]) (iterates rfl)
      exact ⟨start, as, served.arrive standing.distinct found proper ungrouped been moved traced rfl rfl rfl⟩
    · exact goesOn (by rw [added, Finmap.lookup_insert_of_ne _ own])

/-- Every step of a call is one of those. -/
theorem ServerPool.Projected.move (projected : pool.Projected services stood origin) (standing : pool.Standing)
    (served : pool.Served services fun _ => True) (proper : ToolTask.Proper ⟨caller, call, before⟩)
    (found : pool.tasks[i]? = some ⟨caller, call, before⟩)
    (been : ∀ queue pc use, stage = .group queue pc use → stood i queue use)
    (moved : pool.shared.move services i env ⟨caller, call, before⟩ = some (server, stage)) :
    ServerPool.Projected services stood origin ⟨server, pool.tasks.set i ⟨caller, call, stage⟩⟩ := by
  have still := Server.move_still moved
  refine
    { later := still.now ▸ projected.later
      dataDir := still.dataDir.trans projected.dataDir
      wals := fun location => (still.wals location).trans (projected.wals location)
      dlqs := fun location => (still.dlqs location).trans (projected.dlqs location)
      answered := fun j task name there worked opens about => ?_
      worlds := fun key open_ => ?_ }
  · rcases found_set found there with ⟨rfl, rfl⟩ | ⟨_, earlier⟩
    · exact projected.move_answered standing served found moved worked opens about
    · exact Server.move_keeps moved (projected.answered j task name earlier worked opens about)
  · -- The operations of groups are apart.
    by_cases grouped : ∃ queue pc use, before = .group queue pc use
    · obtain ⟨queue, pc, use, rfl⟩ := grouped
      exact projected.move_group served proper found been moved open_
    · exact projected.move_ungrouped standing served proper (fun queue pc use same => grouped ⟨queue, pc, use, same⟩)
        found been moved open_

/-- A step of the server is one of each open queue's own run, or nothing to it. -/
theorem ServerPool.Projected.step (projected : pool.Projected services stood origin) (standing : pool.Standing)
    (served : pool.Served services fun _ => True) (proper : ∀ task ∈ pool.tasks, task.Proper)
    (been : ∀ i task queue pc use, next.tasks[i]? = some task → task.stage = .group queue pc use → stood i queue use)
    (taken : pool.step services act = some next) : next.Projected services stood origin := by
  -- A call that begins is in no group; a step has been treated; time passes in every world at once.
  cases act with
  | call caller call =>
    simp only [ServerPool.step] at taken
    split at taken
    case isFalse => cases taken
    obtain rfl := Option.some.inj taken
    refine
      { later := projected.later
        dataDir := projected.dataDir
        wals := projected.wals
        dlqs := projected.dlqs
        answered := fun i task name there worked opens about => ?_
        worlds := fun key open_ => ?_ }
    · rcases found_concat there with before | ⟨rfl, rfl⟩
      · exact projected.answered i task name before worked opens about
      · cases worked
    · obtain ⟨start, as, traced⟩ := projected.worlds key open_
      exact ⟨start, as, traced.spawn⟩
  | step i env =>
    obtain ⟨⟨caller, call, before⟩, server, stage, found, moved, rfl⟩ := (step_eq_some rfl).mp taken
    have within := (List.getElem?_eq_some_iff.mp found).1
    exact projected.move standing served (proper _ (List.mem_of_getElem? found)) found
      (fun queue pc use same => been i _ queue pc use (List.getElem?_set_self within) same) moved
  -- Of the open groups only that of the call is touched.
  | timeout i wrote =>
    obtain ⟨⟨caller, call, before⟩, server, stage, found, given, rfl⟩ := (step_eq_some rfl).mp taken
    obtain ⟨queue, pc, deadline, group, group', pc', at_, opened, _, dropped, rfl, rfl⟩ :=
      Server.timeout_eq_some given
    obtain rfl : before = .group queue pc (.within deadline) := at_
    obtain ⟨started, silent, ungrouped⟩ := ToolCall.timedOut_silent call
    have keeps {key : String} (open_ : (pool.shared.registry.groups.lookup key).isSome) :
        ((pool.shared.registry.groups.insert (scopeKey caller queue) group').lookup key).isSome := by
      by_cases own : key = scopeKey caller queue
      · rw [own, Finmap.lookup_insert]
        rfl
      · rwa [Finmap.lookup_insert_of_ne _ own]
    refine
      { later := projected.later
        dataDir := projected.dataDir
        wals := projected.wals
        dlqs := projected.dlqs
        answered := fun j task name there worked opens about => ?_
        worlds := fun key open_ => ?_ }
    · rcases found_set found there with ⟨rfl, rfl⟩ | ⟨_, earlier⟩
      · -- A call that is dropped at its deadline tells nothing.
        rw [silent] at worked
        cases worked
      · exact keeps (projected.answered j task name earlier worked opens about)
    · by_cases own : scopeKey caller queue = key
      · -- In the run of its queue the operation is dropped.
        obtain ⟨start, as, traced⟩ := projected.worlds key (by rw [← own, opened]; rfl)
        exact ⟨start, as, traced.drop found own (own ▸ opened) dropped⟩
      · have before : (pool.shared.registry.groups.lookup key).isSome := by
          have there : ((pool.shared.registry.groups.insert (scopeKey caller queue) group').lookup key).isSome := open_
          rwa [Finmap.lookup_insert_of_ne _ (Ne.symm own)] at there
        obtain ⟨start, as, traced⟩ := projected.worlds key before
        refine ⟨start, as, traced.elsewhere found own started (fun name pc use same => absurd same (ungrouped _ _ _))
          fun name worked => ?_⟩
        rw [silent] at worked
        cases worked
  | tick elapsed =>
    obtain rfl := Option.some.inj taken
    exact
      { projected with
        later := projected.later.trans (le_add_of_nonneg_right elapsed.property)
        worlds := fun key open_ => by
          obtain ⟨start, as, traced⟩ := projected.worlds key open_
          exact ⟨start, as, traced.tick elapsed⟩ }
  | setWallClock wallClock =>
    obtain rfl := Option.some.inj taken
    exact
      { projected with
        worlds := fun key open_ => by
          obtain ⟨start, as, traced⟩ := projected.worlds key open_
          exact ⟨start, as, traced.setWallClock wallClock⟩ }

/-- What was seen of the calls may be more. -/
theorem ServerPool.Projected.mono {seen : Nat → String → GroupUse → Prop}
    (projected : pool.Projected services stood origin)
    (wider : ∀ i queue use, stood i queue use → seen i queue use) : pool.Projected services seen origin :=
  { projected with
    worlds := fun key open_ => by
      obtain ⟨start, as, owner, trace, world, run, projects⟩ := projected.worlds key open_
      exact ⟨start, as, owner, trace, world, run, projects.mono wider⟩ }

/-- The calls stand where they can, and each open queue has run as a group of its own. -/
structure ServerPool.Sorted (services : Services) (stood : Nat → String → GroupUse → Prop) (origin : Server J)
    (pool : ServerPool J) : Prop where
  keyed : pool.Keyed origin.registry.dataDir
  served : pool.Served services fun _ => True
  standing : pool.Standing
  projected : pool.Projected services stood origin

/-- In every run of the server the calls stand so, and the queues have run so. -/
theorem ServerPool.sorted_of_run {dataDir : Location} {keys : Log KeyRecord} {disk : Disk J} {now : Instant}
    {wallClock : Timestamp} {trace : List (Transition (ServerPool J) (ServerAction J))}
    (run : Run (ServerPool.step services) (fun _ _ => True)
      ⟨.new dataDir keys disk now wallClock, []⟩ trace pool) :
    pool.Sorted services (ServerPool.Stood trace) (.new dataDir keys disk now wallClock) := by
  -- Step by step, as each step may be the first one that sees a call in a queue's group.
  induction run with
  | nil =>
    have blank : Run (ServerPool.step services) (fun _ _ => True)
      (⟨.new dataDir keys disk now wallClock, []⟩ : ServerPool J) [] ⟨.new dataDir keys disk now wallClock, []⟩ := .nil
    exact
      { keyed := ⟨List.forall_mem_nil _, fun _ member => (Finmap.notMem_empty member).elim, rfl⟩
        served := ⟨fun _ _ there => (nomatch there), fun _ _ found => (nomatch found)⟩
        standing := standing_of_run blank
        projected :=
          { later := le_rfl
            dataDir := rfl
            wals := fun _ => rfl
            dlqs := fun _ => rfl
            answered := fun _ _ _ there => (nomatch there)
            worlds := fun key open_ => by cases open_ } }
  | @snoc trace pool next act _ _ taken sorted =>
    -- Where a call stands now, the last step has seen it.
    have been (i : Nat) (task : ToolTask J) (queue : String) (pc : Pc J J) (use : GroupUse)
        (there : next.tasks[i]? = some task) (stands : task.stage = .group queue pc use) :
        ServerPool.Stood (trace ++ [⟨pool, act, next⟩]) i queue use :=
      ⟨⟨pool, act, next⟩, by simp, task, pc, there, stands⟩
    exact
      { keyed := sorted.keyed.step taken
        served := sorted.served.step (fun _ _ => True.intro) taken
        standing := sorted.standing.step taken
        projected := (sorted.projected.mono fun _ _ _ stood => stood.append _).step sorted.standing sorted.served sorted.keyed.proper been taken }

/--
Each open queue of a server is a consumer group of its own.

Whatever the calls of all callers do, the group has been opened on the logs that the server found, and has
come to what it is by a run of its operations in this process, each of them run by one call.
What the calls answer of the queue is what these operations returned.
-/
theorem ServerPool.projects {dataDir : Location} {keys : Log KeyRecord} {disk : Disk J} {now : Instant}
    {wallClock : Timestamp} {trace : List (Transition (ServerPool J) (ServerAction J))}
    (run : Run (ServerPool.step services) (fun _ _ => True)
      ⟨.new dataDir keys disk now wallClock, []⟩ trace pool) :
    ∀ key group, pool.shared.registry.groups.lookup key = some group →
      ∃ start, Server.OpensAs (.new dataDir keys disk now wallClock) key start ∧
        ∃ owner steps world, Run World.step InProcess start steps world ∧
          pool.Projects services (ServerPool.Stood trace) key owner world := by
  intro key group opened
  exact (ServerPool.sorted_of_run run).projected.worlds key (by rw [opened]; rfl)

end

/-- A message is enqueued on a queue that the server has yet to open, and a claim of it is under way. -/
def opensAndClaims : List (ServerAction Unit) :=
  .call none (.plain "orders" () ⟨0⟩) :: ServerAction.run 0 8 ++
    .call none (.claim ⟨"orders", none⟩) :: ServerAction.run 1 3

theorem ServerPool.projects_orders :
    ∃ ran ∈ record (ServerPool.step Services.alike) ⟨.new ["data"] {} .empty 0 ⟨0⟩, []⟩ opensAndClaims,
      ∃ group, ran.2.shared.registry.groups.lookup (scopeKey none "orders") = some group ∧
        ∃ start, Server.OpensAs (.new ["data"] {} .empty 0 ⟨0⟩) (scopeKey none "orders") start ∧
          ∃ owner steps world, Run World.step InProcess start steps world ∧
            ran.2.Projects Services.alike (ServerPool.Stood ran.1) (scopeKey none "orders") owner world := by
  -- The run is computed, and the queue found open at its end.
  have recorded :
      ∃ ran ∈ record (ServerPool.step Services.alike) ⟨.new ["data"] {} .empty 0 ⟨0⟩, []⟩ opensAndClaims,
        (ran.2.shared.registry.groups.lookup (scopeKey none "orders")).isSome = true := by
    decide +kernel
  obtain ⟨⟨trace, pool⟩, ran, opened⟩ := recorded
  obtain ⟨group, found⟩ := Option.isSome_iff_exists.mp opened
  exact ⟨(trace, pool), ran, group, found, ServerPool.projects (run_of_record .nil ran) _ group found⟩

end Qaas
