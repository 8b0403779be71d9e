import Mathlib.Algebra.Order.Archimedean.Basic
import Qaas.Concurrency.Fair
import Qaas.Server.Progress

/-! Every tool call is answered in the end, if every call gets its turns and time goes on. -/

namespace Qaas

open Concurrency

variable {J : Type} {services : Services}

/-- A call takes a step of its own. -/
def ServerAction.StepsOf (i : Nat) : ServerAction J → Prop
  | .step j _ => j = i
  | _ => False

/-- A call is dropped at its deadline. -/
def ServerAction.TimesOut (i : Nat) : ServerAction J → Prop
  | .timeout j _ => j = i
  | _ => False

/-- No call is passed over for ever that could take a step, or be dropped at its deadline; and time goes on. -/
structure ServerPool.Fair {start : ServerPool J} (run : Endless (ServerPool.step services) start) : Prop where
  turns : ∀ i, run.Fair (ServerAction.StepsOf i)
  deadlines : ∀ i, run.Fair (ServerAction.TimesOut i)
  time : ∀ instant, ∃ n, instant ≤ (run.state n).shared.now

section

variable {pool next : ServerPool J} {act : ServerAction J} {i : Nat}

theorem ServerAction.StepsOf.task (own : act.StepsOf i) : act.task = some i := by
  cases act with
  | step j env => exact congrArg some own
  | _ => cases own

theorem ServerAction.TimesOut.task (own : act.TimesOut i) : act.task = some i := by
  cases act with
  | timeout j wrote => exact congrArg some own
  | _ => cases own

variable {task : ToolTask J}

/-- A call that a step concerns goes on to where the step leads it. -/
theorem ServerPool.step_own (taken : pool.step services act = some next) (found : pool.tasks[i]? = some task)
    (own : act.task = some i) : ∃ server stage, act.move services pool.shared task = some (server, stage) ∧
      next = ⟨server, pool.tasks.set i { task with stage }⟩ ∧ next.tasks[i]? = some { task with stage } := by
  obtain ⟨other, server, stage, there, moved, rfl⟩ := (ServerPool.step_eq_some own).mp taken
  obtain rfl := Option.some.inj (there.symm.trans found)
  exact ⟨server, stage, moved, rfl, List.getElem?_set_self (List.getElem?_eq_some_iff.mp found).1⟩

/-- Every other call stays where it is. -/
theorem ServerPool.step_other (taken : pool.step services act = some next) (found : pool.tasks[i]? = some task)
    (other : act.task ≠ some i) : next.tasks[i]? = some task := by
  -- A step sets at most the stage of one call, and a new call comes last.
  cases by_ : act.task with
  | some j =>
    obtain ⟨_, _, _, _, _, rfl⟩ := (ServerPool.step_eq_some by_).mp taken
    have apart : j ≠ i := by
      rintro rfl
      exact other by_
    exact (List.getElem?_set_ne apart).trans found
  | none =>
    cases act with
    | call caller call =>
      obtain ⟨_, same⟩ := Option.ite_none_right_eq_some.mp taken
      obtain rfl := Option.some.inj same
      exact (List.getElem?_append_left (List.getElem?_eq_some_iff.mp found).1).trans found
    | step | timeout => cases by_
    | tick | setWallClock =>
      obtain rfl := Option.some.inj taken
      exact found

/-- The clock does not go back. -/
theorem ServerPool.now_le (taken : pool.step services act = some next) : pool.shared.now ≤ next.shared.now := by
  -- Only a tick moves the clock, and no tick is negative.
  cases act with
  | call caller call =>
    obtain ⟨_, same⟩ := Option.ite_none_right_eq_some.mp taken
    obtain rfl := Option.some.inj same
    exact le_rfl
  | step i env =>
    obtain ⟨task, server, stage, _, moved, rfl⟩ := (ServerPool.step_eq_some rfl).mp taken
    exact (Server.move_still (moved : pool.shared.move services i env task = _)).now.ge
  | timeout i wrote =>
    obtain ⟨task, server, stage, _, given, rfl⟩ := (ServerPool.step_eq_some rfl).mp taken
    obtain ⟨_, _, _, _, _, _, _, _, _, _, rfl, _⟩ := Server.timeout_eq_some given
    exact le_rfl
  | tick elapsed =>
    obtain rfl := Option.some.inj taken
    exact le_add_of_nonneg_right elapsed.2
  | setWallClock wallClock =>
    obtain rfl := Option.some.inj taken
    exact le_rfl

/-- A call that runs no operation with a deadline is not dropped. -/
theorem ServerAction.move_untimed {server : Server J} {stage : Stage J} (untimed : task.stage.timed = false)
    (own : act.task = some i) (moved : act.move services pool.shared task = some (server, stage)) :
    ∃ env, pool.shared.move services i env task = some (server, stage) := by
  -- The step is the call's own, or the end of it at its deadline, which it does not have.
  cases act with
  | step j env =>
    obtain rfl := Option.some.inj own
    exact ⟨env, moved⟩
  | timeout j wrote =>
    obtain ⟨_, _, _, _, _, _, at_, _⟩ := Server.timeout_eq_some moved
    rw [at_] at untimed
    cases untimed
  | _ => cases moved

/-- A step that a call can take when nothing fails can be taken. -/
theorem Server.Enables.possible (enables : pool.shared.Enables services i task)
    (found : pool.tasks[i]? = some task) : Possible (ServerPool.step services) (ServerAction.StepsOf i) pool := by
  -- Where nothing fails the step can be taken.
  obtain ⟨env, _, _, able⟩ := enables
  obtain ⟨⟨server, stage⟩, moved⟩ := Option.isSome_iff_exists.mp able
  have taken : pool.step services (.step i env) = some _ :=
    (ServerPool.step_eq_some rfl).mpr ⟨task, server, stage, found, moved, rfl⟩
  exact ⟨.step i env, rfl, by rw [taken]; rfl⟩

end

section

variable {dataDir : Location} {keys : Log KeyRecord} {disk : Disk J} {now : Instant} {wallClock : Timestamp}
  {run : Endless (ServerPool.step services) (⟨.new dataDir keys disk now wallClock, []⟩ : ServerPool J)}

/-- The calls can go on at all times. -/
theorem ServerPool.orderly_upTo
    (run : Endless (ServerPool.step services) (⟨.new dataDir keys disk now wallClock, []⟩ : ServerPool J)) (n : Nat) :
    (run.state n).Orderly services fun i => ∃ k < n, (run.act k).Fails i := by
  have orderly := ServerPool.orderly_of_run (run.upTo n)
  simpa using orderly

/-- Time only goes on. -/
theorem ServerPool.now_mono {n m : Nat} (order : n ≤ m) : (run.state n).shared.now ≤ (run.state m).shared.now :=
  monotone_nat_of_le_succ (f := fun n => (run.state n).shared.now)
    (fun n => ServerPool.now_le (run.follows n)) order

/-- What a step of its own makes of a call in any case comes about, if such a step is possible as long as the call
stays where it is. -/
theorem ServerPool.Fair.turn (fair : ServerPool.Fair run) {i : Nat} {task : ToolTask J} {there : ServerPool J → Prop}
    (goes : ∀ n, (run.state n).tasks[i]? = some task → (run.act n).task = some i → there (run.state (n + 1)))
    (possible : ∀ n, (∀ m ≥ n, (run.state m).tasks[i]? = some task) →
      ∃ m ≥ n, Possible (ServerPool.step services) (ServerAction.StepsOf i) (run.state m)) :
    run.LeadsTo (fun pool => pool.tasks[i]? = some task) there := by
  refine run.leadsTo_of_fair (fair.turns i) (fun n found => ?_) (fun n found own => goes n found own.task) possible
  by_cases own : (run.act n).task = some i
  · exact .inr (goes n found own)
  · exact .inl (ServerPool.step_other (run.follows n) found own)

/-- The lock on the groups is given back again and again. -/
theorem ServerPool.Fair.frees (fair : ServerPool.Fair run) :
    run.LeadsTo (fun _ => True) fun pool => pool.shared.registry.opener = none := by
  refine Endless.leadsTo_of_rank ServerPool.holderRank fun n _ => ?_
  cases opener : (run.state n).shared.registry.opener with
  | none => exact .inl rfl
  | some j =>
    right
    obtain ⟨⟨theirs, other, _⟩, queue, at_, found, rfl, beyond⟩ := (orderly_upTo run n).held j opener
    have before := ServerPool.holderRank_of_found opener found
    -- The holder gets its turn, and has the lock as long as it stands there.
    have descends : run.LeadsTo (fun pool => pool.tasks[j]? = some ⟨theirs, other, .get queue at_⟩)
        fun pool => Prod.Lex (· < ·) (· < ·) pool.holderRank (run.state n).holderRank := by
      refine fair.turn (fun m found own => ?_) fun m still => ⟨m, le_rfl, ?_⟩
      · have opener := ((orderly_upTo run m).standing.locked j _ found queue at_ rfl beyond).1
        obtain ⟨server, stage, moved, next, _⟩ := ServerPool.step_own (run.follows m) found own
        obtain ⟨env, moved⟩ := ServerAction.move_untimed rfl own moved
        rw [next, before, ← ServerPool.holderRank_of_found opener found]
        exact (ServerPool.holder_moves opener found beyond moved).2
      · exact (Server.enables_get fun first => absurd first beyond).possible (still m le_rfl)
    obtain ⟨m, later, nearer⟩ := descends n found
    exact ⟨m, later, True.intro, nearer⟩

/-- A call that runs no operation with a deadline comes nearer to its answer. -/
theorem ServerPool.Fair.nears (fair : ServerPool.Fair run) {i : Nat} {caller : Caller} {call : ToolCall J}
    {stage : Stage J} (untimed : stage.timed = false) (unanswered : stage.answer = none) :
    run.LeadsTo (fun pool => pool.tasks[i]? = some ⟨caller, call, stage⟩) fun pool =>
      ∃ later, pool.tasks[i]? = some ⟨caller, call, later⟩ ∧ Prod.Lex (· < ·) (· < ·) later.rank stage.rank := by
  refine fair.turn (fun n found own => ?_) fun n still => ?_
  · obtain ⟨server, later, moved, _, there⟩ := ServerPool.step_own (run.follows n) found own
    obtain ⟨env, moved⟩ := ServerAction.move_untimed untimed own moved
    have orderly := orderly_upTo run n
    exact ⟨later, there, (Server.move_nearer (orderly.served.serves i _ found) (orderly.ready i _ found) untimed
      (fun _ member => member) moved).1⟩
  · -- Its step is possible at the latest when the lock on the groups is given back.
    obtain ⟨m, later, free⟩ := fair.frees n True.intro
    have found := still m later
    have orderly := orderly_upTo run m
    exact ⟨m, later, (Server.enables (orderly.served.serves i _ found) (orderly.ready i _ found)
      (orderly.standing.within i _ found) (fun _ => free) untimed unanswered).possible found⟩

/-- What a call's own step makes of an operation with a deadline: it goes on, or is over. -/
theorem ServerAction.move_timed {act : ServerAction J} {server next : Server J} {caller : Caller} {call : ToolCall J}
    {queue : String} {pc : Pc J J} {deadline : Instant} {stage : Stage J}
    (moved : act.move services server ⟨caller, call, .group queue pc (.within deadline)⟩ = some (next, stage)) :
    (∃ pc', stage = .group queue pc' (.within deadline) ∧
      (pc.awaits = false → (∀ result, pc ≠ .done result) → pc'.awaits = true)) ∨ stage.phase < 2 := by
  -- The stage after the step is past the operation, or is the operation at another point.
  cases act with
  | step i env =>
    have moved : server.move services i env ⟨caller, call, .group queue pc (.within deadline)⟩ =
        some (next, stage) := moved
    by_cases over_ : stage.phase < 2
    · exact .inr over_
    · obtain ⟨_, _, later, _, _, _, same⟩ := Server.move_group services moved
      have goesOn : ∃ pc', stage = .group queue pc' (.within deadline) := by
        split at same
        · subst same
          exact absurd (ToolCall.resume_phase pc) over_
        · exact ⟨_, same.symm⟩
      obtain ⟨pc', rfl⟩ := goesOn
      refine .inl ⟨pc', rfl, fun busy running => ?_⟩
      rcases Server.move_busy busy running moved with ⟨_, same, awaits⟩ | nearer
      · obtain ⟨_, rfl, _⟩ := Stage.group.inj same
        exact awaits
      · exact absurd nearer over_
  | timeout i wrote =>
    have given : server.timeout i wrote ⟨caller, call, .group queue pc (.within deadline)⟩ = some (next, stage) := moved
    obtain ⟨_, _, _, _, _, _, _, _, _, _, _, rfl⟩ := Server.timeout_eq_some given
    exact .inr call.timedOut_phase
  | _ => cases moved

section

variable {pool next : ServerPool J} {act : ServerAction J} {i : Nat}

/-- In the server, too, a call's own step takes such an operation on, or past its end. -/
theorem ServerPool.Orderly.moves_timed {faulty : Nat → Prop} {caller : Caller} {call : ToolCall J} {queue : String}
    {pc : Pc J J} {deadline : Instant} (orderly : pool.Orderly services faulty)
    (taken : pool.step services act = some next)
    (found : pool.tasks[i]? = some ⟨caller, call, .group queue pc (.within deadline)⟩) (own : act.task = some i) :
    ∃ later, next.tasks[i]? = some ⟨caller, call, later⟩ ∧
      ((∃ pc', later = .group queue pc' (.within deadline) ∧ (pc.awaits = false → pc'.awaits = true)) ∨
        later.phase < 2) := by
  obtain ⟨server, later, moved, _, there⟩ := ServerPool.step_own taken found own
  obtain ⟨_, inner, _, stops⟩ := orderly.served.serves i _ found
  refine ⟨later, there, (ServerAction.move_timed moved).imp_left fun ⟨pc', same, awaits⟩ => ⟨pc', same, ?_⟩⟩
  exact fun busy => awaits busy stops.running

/-- A call that is dropped at its deadline has its operation behind it. -/
theorem ServerPool.drops {task : ToolTask J} (taken : pool.step services act = some next)
    (found : pool.tasks[i]? = some task) (dropped : act.TimesOut i) :
    ∃ later, next.tasks[i]? = some ⟨task.caller, task.call, later⟩ ∧ later.phase < 2 := by
  -- The answer at the deadline is what the step leads to.
  obtain ⟨server, later, moved, _, there⟩ := ServerPool.step_own taken found dropped.task
  refine ⟨later, there, ?_⟩
  cases act with
  | timeout j wrote =>
    obtain ⟨_, _, _, _, _, _, _, _, _, _, _, rfl⟩ := Server.timeout_eq_some moved
    exact task.call.timedOut_phase
  | _ => cases dropped

end

section

variable {i : Nat} {caller : Caller} {call : ToolCall J} {queue : String} {deadline : Instant}

/-- An operation with a deadline comes to where it can be dropped, or to its end. -/
theorem ServerPool.Fair.awaits (fair : ServerPool.Fair run) {pc : Pc J J} :
    run.LeadsTo (fun pool => pool.tasks[i]? = some ⟨caller, call, .group queue pc (.within deadline)⟩) fun pool =>
      ∃ later, pool.tasks[i]? = some ⟨caller, call, later⟩ ∧
        ((∃ pc', later = .group queue pc' (.within deadline) ∧ pc'.awaits = true) ∨ later.phase < 2) := by
  cases awaits : pc.awaits with
  | true => exact fun n found => ⟨n, le_rfl, _, found, .inl ⟨pc, rfl, awaits⟩⟩
  | false =>
    -- One step of its own is enough.
    refine fair.turn (fun n found own => ?_) fun n still => ?_
    · obtain ⟨later, there, goes⟩ := (orderly_upTo run n).moves_timed (run.follows n) found own
      exact ⟨later, there, goes.imp_left fun ⟨pc', same, drops⟩ => ⟨pc', same, drops awaits⟩⟩
    · have found := still n le_rfl
      have orderly := orderly_upTo run n
      obtain ⟨_, inner, _, stops⟩ := orderly.served.serves i _ found
      exact ⟨n, le_rfl,
        (Server.enables_busy awaits stops.running (orderly.standing.within i _ found)).possible found⟩

/-- A call that runs an operation with a deadline has it behind it in the end, at the latest after the deadline. -/
theorem ServerPool.Fair.nears_timed (fair : ServerPool.Fair run) :
    run.LeadsTo (fun pool => ∃ pc, pool.tasks[i]? = some ⟨caller, call, .group queue pc (.within deadline)⟩)
      fun pool => ∃ later, pool.tasks[i]? = some ⟨caller, call, later⟩ ∧ later.phase < 2 := by
  refine run.leadsTo_of_fair (fair.deadlines i) ?_ ?_ fun n still => ?_
  · rintro m ⟨pc, found⟩
    by_cases own : (run.act m).task = some i
    · obtain ⟨later, there, ⟨pc', rfl, _⟩ | past⟩ := (orderly_upTo run m).moves_timed (run.follows m) found own
      · exact .inl ⟨pc', there⟩
      · exact .inr ⟨later, there, past⟩
    · exact .inl ⟨pc, ServerPool.step_other (run.follows m) found own⟩
  · rintro m ⟨pc, found⟩ dropped
    exact ServerPool.drops (run.follows m) found dropped
  · -- Once the deadline has passed, the call can be dropped as soon as its operation can.
    obtain ⟨k, late⟩ := fair.time deadline
    obtain ⟨pc, found⟩ := still (max n k) (le_max_left n k)
    obtain ⟨m, order, later, there, ends⟩ := fair.awaits (max n k) found
    obtain ⟨pc', found⟩ := still m ((le_max_left n k).trans order)
    obtain rfl : later = .group queue pc' (.within deadline) := by
      exact congrArg ToolTask.stage (Option.some.inj (there.symm.trans found))
    rcases ends with ⟨_, same, awaits⟩ | past
    · obtain ⟨_, rfl, _⟩ := Stage.group.inj same
      have passed := late.trans (ServerPool.now_mono ((le_max_right n k).trans order))
      obtain ⟨server, given⟩ : ∃ server, (run.state m).shared.timeout i .failedEmpty
          ⟨caller, call, .group queue _ (.within deadline)⟩ = some (server, call.timedOut) :=
        Server.timeout_of_awaits ((orderly_upTo run m).standing.within i _ found) passed awaits
      have taken : (run.state m).step services (.timeout i .failedEmpty) = some _ :=
        (ServerPool.step_eq_some rfl).mpr ⟨_, _, _, found, given, rfl⟩
      exact ⟨m, (le_max_left n k).trans order, .timeout i .failedEmpty, rfl, by rw [taken]; rfl⟩
    · exact absurd past (lt_irrefl 2)

end

/-- Every call in a fair run is answered in the end, with what its tool promises. -/
theorem ServerPool.answered_of_fair (fair : ServerPool.Fair run) {n i : Nat} {task : ToolTask J}
    (found : (run.state n).tasks[i]? = some task) : ∃ m ≥ n, ∃ answer,
      (run.state m).tasks[i]? = some ⟨task.caller, task.call, .done answer⟩ ∧
        task.call.Answers (∃ k < m, (run.act k).Fails i) answer := by
  -- As long as the call is unanswered it comes to a stage that is nearer, and that cannot go on for ever.
  have comes : run.LeadsTo (fun pool => ∃ stage, pool.tasks[i]? = some ⟨task.caller, task.call, stage⟩)
      fun pool => ∃ answer, pool.tasks[i]? = some ⟨task.caller, task.call, .done answer⟩ := by
    refine Endless.leadsTo_of_rank (fun pool => (pool.tasks[i]?.map fun task => task.stage.rank).getD (0, 0))
      fun n ⟨stage, found⟩ => ?_
    cases answered : stage.answer with
    | some answer =>
      obtain rfl := Stage.done_of_answer answered
      exact .inl ⟨answer, found⟩
    | none =>
      right
      have nears : ∃ m ≥ n, ∃ later, (run.state m).tasks[i]? = some ⟨task.caller, task.call, later⟩ ∧
          Prod.Lex (· < ·) (· < ·) later.rank stage.rank := by
        -- An operation with a deadline may wait, but not beyond it.
        cases timed : stage.timed with
        | false => exact fair.nears timed answered n found
        | true =>
          cases stage with
          | group queue pc use =>
            cases use with
            | within deadline =>
              obtain ⟨m, order, later, there, near⟩ := fair.nears_timed n ⟨pc, found⟩
              exact ⟨m, order, later, there, .left _ _ near⟩
            | _ => cases timed
          | _ => cases timed
      obtain ⟨m, order, later, there, nearer⟩ := nears
      refine ⟨m, order, ⟨later, there⟩, ?_⟩
      rw [there, found]
      exact nearer
  obtain ⟨m, order, answer, answered⟩ := comes n ⟨task.stage, found⟩
  exact ⟨m, order, answer, answered, (orderly_upTo run m).served.serves i _ answered⟩

end

/-- A call that takes a step of its own, or is dropped, has not been answered. -/
theorem ServerAction.move_unanswered {act : ServerAction J} {server : Server J} {task : ToolTask J}
    {after : Server J × Stage J} (moved : act.move services server task = some after) : task.stage.answer = none := by
  obtain ⟨caller, call, current⟩ := task
  cases current with
  | done answer => cases act <;> cases moved
  | _ => rfl

/-- A run in which all calls have been answered at some time, and none is made any more, is fair if time goes on. -/
theorem ServerPool.fair_of_answered {start : ServerPool J} {run : Endless (ServerPool.step services) start} {n : Nat}
    (answered : ∀ m ≥ n, ∀ task ∈ (run.state m).tasks, task.stage.answer.isSome)
    (time : ∀ instant, ∃ n, instant ≤ (run.state n).shared.now) : ServerPool.Fair run := by
  -- A call that has been answered has no step left, so none is passed over.
  have impossible {kind : ServerAction J → Prop} {i : Nat} (own : ∀ act, kind act → act.task = some i) :
      ∀ m ≥ n, ¬ Possible (ServerPool.step services) kind (run.state m) := by
    rintro m later ⟨act, of_kind, able⟩
    obtain ⟨next, taken⟩ := Option.isSome_iff_exists.mp able
    obtain ⟨task, _, _, found, moved, _⟩ := (ServerPool.step_eq_some (own act of_kind)).mp taken
    have over_ := answered m later task (List.mem_of_getElem? found)
    rw [ServerAction.move_unanswered moved] at over_
    cases over_
  exact
    { turns := fun i => Endless.fair_of_impossible (impossible (i := i) fun _ => ServerAction.StepsOf.task)
      deadlines := fun i => Endless.fair_of_impossible (impossible (i := i) fun _ => ServerAction.TimesOut.task)
      time }

/-- A second is a time that can pass. -/
theorem aSecond_nonneg : (0 : Duration) ≤ 1 := zero_le_one

/-- A second passes. -/
def ServerAction.second : ServerAction J :=
  .tick ⟨1, aSecond_nonneg⟩

/-- Nothing happens any more but that time goes on. -/
def ServerPool.idle (services : Services) (pool : ServerPool J) : Endless (ServerPool.step services) pool where
  state n := { pool with shared := { pool.shared with now := pool.shared.now + n } }
  act _ := .second
  starts := by rw [Nat.cast_zero, add_zero]
  follows n := by
    rw [Nat.cast_succ, ← add_assoc]
    rfl

/-- The call that has the lock is answered; the other one gets its queue then, waits for a message there, and is
dropped at its deadline. -/
def answeredAndDropped : List (ServerAction Unit) :=
  ServerAction.run 0 7 ++ ServerAction.run 1 8 ++ List.replicate 5 .second ++ [.timeout 1 .failedEmpty]

theorem ServerPool.answered_of_fair_waiting :
    ∃ run : Endless (ServerPool.step Services.alike) (⟨.new ["data"] {} .empty 0 ⟨0⟩, []⟩ : ServerPool Unit),
      ServerPool.Fair run ∧ ∃ n, (run.state n).shared.registry.opener = some 0 ∧
        ∃ task ∈ (run.state n).tasks[1]?, ∃ m ≥ n, ∃ answer,
          (run.state m).tasks[1]? = some ⟨task.caller, task.call, .done answer⟩ ∧
            task.call.Answers (∃ k < m, (run.act k).Fails 1) answer := by
  have recorded :
      ∃ ran ∈ record (ServerPool.step Services.alike) ⟨.new ["data"] {} .empty 0 ⟨0⟩, []⟩ opensAndWaits,
        ran.2.shared.registry.opener = some 0 ∧ (ran.2.tasks[1]?).isSome ∧
        ∃ over_ ∈ record (ServerPool.step Services.alike) ran.2 answeredAndDropped,
          ∀ task ∈ over_.2.tasks, task.stage.answer.isSome := by
    decide +kernel
  obtain ⟨⟨trace, pool⟩, ran, holder, made, ⟨rest, last⟩, went, answered⟩ := recorded
  have waits : Run _ _ _ trace pool := run_of_record .nil ran
  have ends : Run _ _ pool rest last := run_of_record .nil went
  -- When both calls have been answered, only time goes on.
  obtain ⟨onward, after⟩ := ends.prolonged (ServerPool.idle Services.alike last)
  obtain ⟨run, first⟩ := waits.prolonged onward
  have settled (k : Nat) : run.state (trace.length + (rest.length + k)) =
      (ServerPool.idle Services.alike last).state k := (first _).trans (after k)
  have fair : ServerPool.Fair run := by
    refine ServerPool.fair_of_answered (n := trace.length + rest.length) (fun m later => ?_) fun instant => ?_
    · obtain ⟨k, rfl⟩ := Nat.exists_eq_add_of_le later
      rw [Nat.add_assoc, settled]
      exact answered
    · obtain ⟨k, enough⟩ := exists_nat_ge (instant - last.shared.now)
      refine ⟨trace.length + (rest.length + k), ?_⟩
      rw [settled]
      exact sub_le_iff_le_add'.mp enough
  have here : run.state trace.length = pool := (first 0).trans onward.starts
  obtain ⟨task, found⟩ := Option.isSome_iff_exists.mp made
  rw [← here] at holder found
  exact ⟨run, fair, trace.length, holder, task, found, ServerPool.answered_of_fair fair found⟩

end Qaas
