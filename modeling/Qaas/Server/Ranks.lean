import Qaas.Group.Progress
import Qaas.Server.Stages

/-! How far a tool call still has to go: each step of its own brings it nearer to its answer. -/

namespace Qaas

open Concurrency

variable {J : Type}

/-- Which part of its way a call is on; the parts count down to the answer. -/
def Stage.phase : Stage J → Nat
  | .authorize => 13
  | .route _ => 12
  | .get _ _ => 11
  | .admissionEntry _ _ => 10
  | .dedupEntry _ _ | .quotaConfig _ => 9
  | .nearest _ _ | .quotaRequests _ _ => 8
  | .pendingCeiling _ | .quotaQueues _ _ _ => 7
  | .listPending _ _ => 6
  | .sumPending _ _ _ _ _ => 5
  | .tryAdmit _ | .headroom _ => 4
  -- A triage may run a second operation.
  | .group _ _ (.annotate _) => 3
  | .group _ _ _ | .admissionConfig _ | .insertRoute _ _ => 2
  | .done _ => 0
  | _ => 1

/-- How many steps `get` has at most still to take. -/
def GetStage.left : GetStage → Nat
  | .lookup => 4
  | .ceiling => 3
  | .createDir => 2
  | .openWal => 1
  | .openDlq => 0

/-- How many steps an operation of the API keys has at most still to take, but the last. -/
def KeyStage.left : KeyStage → Nat
  | .begun => 2
  | .found => 1
  | _ => 0

/-- How far a call is on its part of the way. -/
def Stage.left : Stage J → Nat
  | .get _ at_ => at_.left
  | .sumPending _ _ _ rest _ => rest.length
  | .group _ pc _ => pc.togo
  | .key task => task.stage.left
  | _ => 0

/-- How far a call still has to go. -/
def Stage.rank (stage : Stage J) : Nat × Nat :=
  (stage.phase, stage.left)

/-- An operation of the API keys that a tool runs, and that has a step to take. -/
def KeyTask.runs (task : KeyTask) : Bool :=
  match task.call, task.stage with
  | .mint _ _ _, .begun | .mint _ _ _, .logged => true
  | .revoke _, .begun | .revoke _, .found | .revoke _, .logged => true
  | _, _ => false

/-- What the next step of a call needs to find, beside its queue. -/
def Stage.Ready (inside : String → Prop) : Stage J → Prop
  | .sumPending _ _ first rest _ => ∀ one ∈ first :: rest, inside one
  | .key task => task.runs
  | _ => True

/-- A stage on a part of the way that is near enough, where the next step will find what it needs. -/
def Stage.Below (inside : String → Prop) (bound : Nat) (stage : Stage J) : Prop :=
  stage.phase ≤ bound ∧ stage.Ready inside

/-- A stage is nearer to the answer than another. -/
def Stage.Closer (stage from_ : Stage J) : Prop :=
  Prod.Lex (· < ·) (· < ·) stage.rank from_.rank

/-- A call cannot come nearer to its answer without end. -/
theorem Stage.closer_wf : WellFounded (Stage.Closer : Stage J → Stage J → Prop) :=
  -- The order on the stages is that on their ranks, and the ranks are pairs of numbers.
  InvImage.wf Stage.rank (wellFounded_lt.prod_lex wellFounded_lt)

/-- A stage is nearer to the answer than another, and the next step will find what it needs. -/
def Stage.Nearer (inside : String → Prop) (stage from_ : Stage J) : Prop :=
  stage.Closer from_ ∧ stage.Ready inside

/-- An operation that a call runs until a deadline. -/
def Stage.timed : Stage J → Bool
  | .group _ _ (.within _) => true
  | _ => false

section

variable {inside : String → Prop} {bound : Nat} {call : ToolCall J} {queue : String}

theorem Stage.Ready.mono {wider : String → Prop} {stage : Stage J} (ready : stage.Ready inside)
    (wide : ∀ name, inside name → wider name) : stage.Ready wider := by
  cases stage with
  | sumPending => exact fun one member => wide one (ready one member)
  | _ => exact ready

theorem Stage.below_error (error : ErrorData) : (Stage.done (.error error) : Stage J).Below inside bound :=
  ⟨Nat.zero_le _, True.intro⟩

theorem Stage.Below.proceed {A : Type} {value : Except ErrorData A} {next : A → Stage J}
    (below : ∀ given, (next given).Below inside bound) : (Qaas.proceed value next).Below inside bound := by
  cases value with
  | ok given => exact below given
  | error error => exact Stage.below_error error

theorem getQueue_below (name : String) (near : 11 ≤ bound) : (getQueue name : Stage J).Below inside bound :=
  .proceed fun _ => ⟨near, True.intro⟩

/-- An authorized call has its way before it. -/
theorem ToolCall.start_below (caller : Caller) (call : ToolCall J) : (call.start caller).Below inside 12 := by
  -- A call is refused, or begins on a part of the way after the authorization.
  cases call with
  | enqueue params newId =>
    refine .proceed fun embedding => ?_
    -- A routed enqueue has the routing before it.
    cases params.queue with
    | some queue => exact getQueue_below queue (by decide)
    | none =>
      cases embedding with
      | some vector => exact ⟨le_rfl, True.intro⟩
      | none => exact Stage.below_error _
  | configureAdmission params => exact .proceed fun _ => ⟨show 1 ≤ 12 by decide, True.intro⟩
  | admissionStatus params => exact .proceed fun _ => ⟨show 2 ≤ 12 by decide, True.intro⟩
  | configureRoute params => exact .proceed fun _ => .proceed fun _ => ⟨show 2 ≤ 12 by decide, True.intro⟩
  -- A tenant is refused what is the operator's.
  | createApiKey params first second =>
    cases caller with
    | some tenant => exact Stage.below_error _
    | none => exact .proceed fun _ => ⟨show 1 ≤ 12 by decide, rfl⟩
  | revokeApiKey params =>
    cases caller with
    | some tenant => exact Stage.below_error _
    | none => exact ⟨show 1 ≤ 12 by decide, rfl⟩
  | configureTenantQuota params =>
    cases caller with
    | some tenant => exact Stage.below_error _
    | none => exact .proceed fun _ => ⟨show 1 ≤ 12 by decide, True.intro⟩
  | tenantQuotaStatus params =>
    obtain ⟨tenantId⟩ := params
    cases caller with
    | some tenant => exact ⟨show 9 ≤ 12 by decide, True.intro⟩
    | none =>
      cases tenantId with
      | none => exact Stage.below_error _
      | some named => exact .proceed fun _ => ⟨show 9 ≤ 12 by decide, True.intro⟩
  | _ => exact getQueue_below _ (by decide)

/-- A call that has its queue open is past the opening. -/
theorem ToolCall.opened_below (services : Services) (now : Instant) (wallClock : Timestamp) (call : ToolCall J) :
    (call.opened services queue now wallClock).Below inside 10 := by
  -- An enqueue has its admission before it, a triage two operations, the others one.
  cases call with
  | enqueue => exact .proceed fun _ => ⟨le_rfl, True.intro⟩
  | triageDeadLetter => exact .proceed fun _ => ⟨show 3 ≤ 10 by decide, True.intro⟩
  | ack | nack | checkpoint | publishPartialResult | streamPartialResults | reprocessDeadLetter | purgeDeadLetter =>
    exact .proceed fun _ => ⟨show 2 ≤ 10 by decide, True.intro⟩
  | claim => exact ⟨show 4 ≤ 10 by decide, True.intro⟩
  | listDeadLetters => exact ⟨show 1 ≤ 10 by decide, True.intro⟩
  | _ => exact Stage.below_error _

theorem Enqueueing.fresh_below (locals : Enqueueing) (caller : Caller) (near : 7 ≤ bound) :
    (locals.fresh caller : Stage J).Below inside bound := by
  cases caller with
  | some tenant => exact ⟨near, True.intro⟩
  | none => exact ⟨(show 4 ≤ 7 by decide).trans near, True.intro⟩

theorem ToolCall.checkKey_below (caller : Caller) (embedding : Option Embedding) (near : 8 ≤ bound) (call : ToolCall J) :
    (call.checkKey caller queue embedding).Below inside bound := by
  -- With an embedding there are similar messages to look for.
  cases call with
  | enqueue params newId =>
    refine .proceed fun key => ?_
    cases embedding with
    | some vector => exact ⟨near, True.intro⟩
    | none => exact Enqueueing.fresh_below _ caller ((show 7 ≤ 8 by decide).trans near)
  | _ => exact Stage.below_error _

theorem PendingUse.counted_below (use : PendingUse) (tenant : TenantId) (current : UInt64) :
    (use.counted tenant current : Stage J).Below inside 4 := by
  -- An enqueue goes on to the ceilings; a report is complete.
  cases use with
  | ceiling locals maxPending =>
    unfold PendingUse.counted
    dsimp only
    split
    · exact Stage.below_error _
    · exact ⟨le_rfl, True.intro⟩
  | status config requests queues => exact ⟨Nat.zero_le _, True.intro⟩

/-- The next part of the way is nearer to the answer. -/
theorem Stage.Nearer.across {stage from_ : Stage J} (past : stage.phase < from_.phase) (ready : stage.Ready inside) :
    stage.Nearer inside from_ :=
  ⟨.left _ _ past, ready⟩

/-- So is what comes later on the same part. -/
theorem Stage.Nearer.along {stage from_ : Stage J} (same : stage.phase = from_.phase) (later : stage.left < from_.left)
    (ready : stage.Ready inside) : stage.Nearer inside from_ :=
  ⟨Prod.lex_def.mpr (.inr ⟨same, later⟩), ready⟩

theorem Stage.Below.nearer {stage from_ : Stage J} (below : stage.Below inside bound) (past : bound < from_.phase) :
    stage.Nearer inside from_ :=
  .across (below.1.trans_lt past) below.2

/-- The count goes on to the next queue, or is complete. -/
theorem sumNext_nearer {from_ : Stage J} {tenant : TenantId} {use : PendingUse} {total : UInt64} {rest : List String}
    (open_ : ∀ one ∈ rest, inside one) (past : 5 < from_.phase ∨ 5 = from_.phase ∧ rest.length ≤ from_.left) :
    (sumNext tenant use total rest : Stage J).Nearer inside from_ := by
  -- With a queue left the list has become shorter, or the count has only begun.
  cases rest with
  | nil => exact (PendingUse.counted_below use tenant total).nearer (by omega)
  | cons first rest =>
    rcases past with past | ⟨same, length⟩
    · exact .across past open_
    · exact .along same length open_

/-- A call that has come to its queue's group finds what it needs. -/
theorem Stage.ready_of_started {stage : Stage J} (started : stage.started = true) : stage.Ready inside := by
  cases stage with
  | group | remember | forget | done => exact True.intro
  | _ => cases started

/-- What a call goes on with after an operation is on a later part of the way. -/
theorem ToolCall.resume_phase {failure : Option String} {use : GroupUse} {result : Result J J} (pc : Pc J J) :
    (call.resume queue failure use result).phase < (Stage.group queue pc use : Stage J).phase := by
  have started : (call.resume queue failure use result).started = true := ToolCall.resume_started
  have near : 2 ≤ (Stage.group queue pc use : Stage J).phase := by cases use <;> simp [Stage.phase]
  cases resumed : call.resume queue failure use result with
  | group name later again =>
    -- Only a triage goes on with another operation.
    obtain ⟨_, rfl, _, id, _, rfl, _⟩ := ToolCall.resume_group resumed
    exact (show 2 < 3 by decide)
  | remember | forget => exact (show 1 < 2 by decide).trans_le near
  | done => exact (show 0 < 2 by decide).trans_le near
  | _ =>
    rw [resumed] at started
    cases started

/-- So it is nearer to the answer. -/
theorem ToolCall.resume_nearer {failure : Option String} {use : GroupUse} {result : Result J J} (pc : Pc J J) :
    (call.resume queue failure use result).Nearer inside (.group queue pc use) :=
  .across (ToolCall.resume_phase pc) (Stage.ready_of_started ToolCall.resume_started)

/-- An operation that a call runs without a deadline never waits for another. -/
theorem ToolCall.Runs.waitless {services : Services} {inner : Call J J} {use : GroupUse}
    (runs : call.Runs services inner use) (untimed : ∀ deadline, use ≠ .within deadline) : inner.waitless := by
  -- Only a claim or a stream with a deadline waits; each other use goes with its tools.
  cases use with
  | within deadline => exact absurd rfl (untimed deadline)
  | enqueue embedding tokens cost =>
    cases call with
    | enqueue =>
      obtain ⟨_, _, rfl⟩ := runs
      rfl
    | _ => cases runs
  | ack id =>
    cases call with
    | ack =>
      obtain ⟨_, rfl⟩ := runs
      rfl
    | _ => cases runs
  | annotate id =>
    cases call with
    | triageDeadLetter =>
      obtain ⟨_, _, rfl⟩ := runs
      rfl
    | _ => cases runs
  | plain =>
    cases call with
    | triageDeadLetter =>
      obtain ⟨_, _, _, rfl⟩ := runs
      rfl
    | nack | checkpoint | publishPartialResult | reprocessDeadLetter | purgeDeadLetter =>
      obtain ⟨_, _, rfl⟩ := runs
      rfl
    | _ => cases runs

end

section

variable {services : Services} {self : Nat} {env : ToolEnv} {server next : Server J} {task : ToolTask J}
  {stage : Stage J} {inside : String → Prop}

/-- An operation of the API keys goes on to its next step, or to the answer. -/
theorem ApiKeyStore.toolStep_nearer {store after : ApiKeyStore} {key : KeyTask} (runs : key.runs)
    (stepped : store.toolStep services env key = some (after, stage)) :
    stage.Nearer inside (.key key) := by
  -- An answer ends the call, whatever it says.
  have ended (answer : Except ErrorData (ToolResult J)) :
      (Stage.done answer : Stage J).Nearer inside (.key key) := .across Nat.zero_lt_one True.intro
  cases ApiKeyStore.toolStep_moved stepped with
  | refuses | creates | revokes => exact ended _
  | goesOn taken unended =>
    -- An operation that has not ended has its record logged next, or has found the key to revoke.
    obtain ⟨call, at_⟩ := key
    cases call with
    | mint first second tenant =>
      cases at_ with
      | begun =>
        obtain ⟨_, same⟩ := Prod.mk.inj (Option.some.inj taken)
        obtain rfl := (KeyTask.mk.inj same).2
        exact .along rfl (show 0 < 2 by decide) rfl
      | logged =>
        obtain ⟨_, same⟩ := Prod.mk.inj (Option.some.inj taken)
        obtain rfl := (KeyTask.mk.inj same).2
        cases (unended _ rfl).choose_spec
      | _ => cases runs
    | revoke rawKey =>
      cases at_ with
      | begun =>
        obtain ⟨_, same⟩ := Prod.mk.inj (Option.some.inj taken)
        obtain rfl := (KeyTask.mk.inj same).2
        by_cases valid : (store.keys.lookup (hashKey services.sha256 (KeyCall.revoke rawKey).rawKey)).isSome
        · rw [if_pos valid]
          exact .along rfl (show 1 < 2 by decide) rfl
        · cases (unended _ (if_neg valid)).choose_spec
      | found =>
        obtain ⟨_, same⟩ := Prod.mk.inj (Option.some.inj taken)
        obtain rfl := (KeyTask.mk.inj same).2
        exact .along rfl (show 0 < 1 by decide) rfl
      | logged =>
        obtain ⟨_, same⟩ := Prod.mk.inj (Option.some.inj taken)
        obtain rfl := (KeyTask.mk.inj same).2
        cases (unended _ rfl).choose_spec
      | _ => cases runs
    | authenticate => cases runs

/-- A step of `get` leads on in the opening of the queue, or out of it. -/
theorem Server.getStep_nearer {queue : String} {at_ : GetStage}
    (moved : server.getStep services self env task queue at_ = some (next, stage)) :
    stage.Nearer inside (.get queue at_) := by
  -- What a call goes on with after `get` is past it.
  have opened : ∀ stage, stage = task.call.opened services queue server.now server.wallClock →
      stage.Nearer inside (.get queue at_) := by
    rintro _ rfl
    exact (ToolCall.opened_below services _ _ task.call).nearer (show 10 < 11 by decide)
  by_cases first : at_ = .lookup
  · subst first
    rw [Server.getStep_lookup] at moved
    obtain ⟨_, found⟩ := Option.ite_none_left_eq_some.mp moved
    split at found
    · exact opened _ (Prod.mk.inj (Option.some.inj found)).2.symm
    · obtain ⟨_, rfl⟩ := Prod.mk.inj (Option.some.inj found)
      -- A tenant's queue has the ceiling before it.
      split
      · exact .along rfl (show 3 < 4 by decide) True.intro
      · exact .along rfl (show 2 < 4 by decide) True.intro
  · obtain ⟨registry, after, got, rfl, rfl⟩ := Server.getStep_eq_some moved
    cases QueueRegistry.get_got got with
    | finds | begins => exact absurd rfl first
    | opens => exact opened _ rfl
    | fails => exact (Stage.below_error _).nearer (show 10 < 11 by decide)
    | passes => exact .along rfl (show 2 < 3 by decide) True.intro
    | @goesOn _ later order =>
      rcases order with ⟨rfl, rfl⟩ | ⟨rfl, rfl⟩
      · exact .along rfl (show 1 < 2 by decide) True.intro
      · exact .along rfl (show 0 < 1 by decide) True.intro

/-- A step of a call, which may be any but one of an operation with a deadline, brings it nearer to its answer,
and what the step after needs is there. -/
theorem Server.move_nearer {faulty : Prop} (serves : task.stage.Serves services faulty task.call)
    (ready : task.stage.Ready inside) (untimed : task.stage.timed = false)
    (listed : ∀ key ∈ server.registry.groups, inside key)
    (moved : server.move services self env task = some (next, stage)) :
    stage.Nearer inside task.stage := by
  -- Most ways on lead to a later part of the way; three stay on theirs, one step further.
  obtain ⟨caller, call, current⟩ := task
  cases Server.moved_of_move moved with
  | gets stepped => exact Server.getStep_nearer stepped
  | managesKey stepped => exact ApiKeyStore.toolStep_nearer ready stepped
  | @operates _ _ _ use _ _ _ step =>
    -- The operation has fewer steps left.
    obtain ⟨_, inner, runs, stands⟩ := serves
    refine .along (by cases use <;> rfl) ((move_moved step).togo stands.serves (runs.waitless ?_)) True.intro
    rintro deadline rfl
    cases untimed
  | returns => exact ToolCall.resume_nearer _
  -- From here on each case compares the numbers of two parts of the way.
  | trusts | allows => exact (ToolCall.start_below caller call).nearer (show 12 < 13 by decide)
  | refuses => exact (Stage.below_error _).nearer (show 12 < 13 by decide)
  | routes => exact (getQueue_below _ le_rfl).nearer (show 11 < 12 by decide)
  | strays => exact (Stage.below_error _).nearer (show 11 < 12 by decide)
  | compares => exact .across (show 9 < 10 by decide) True.intro
  | skips => exact (ToolCall.checkKey_below caller none le_rfl call).nearer (show 8 < 10 by decide)
  | checksKey => exact (ToolCall.checkKey_below caller _ le_rfl call).nearer (show 8 < 9 by decide)
  | collapses => exact .across (show 0 < 8 by decide) True.intro
  | misses => exact (Enqueueing.fresh_below _ caller le_rfl).nearer (show 7 < 8 by decide)
  -- The messages of a tenant are counted only where it has a ceiling.
  | limited => exact .across (show 6 < 7 by decide) True.intro
  | uncounted | unlimited => exact .across (show 4 < 7 by decide) True.intro
  -- The queues that are listed are open, and the count goes through them.
  | lists keys =>
    refine sumNext_nearer (fun one member => listed one ?_) (.inl (show 5 < 6 by decide))
    have within := List.mem_toFinset.mpr member
    rw [keys] at within
    exact Finmap.mem_keys.mp (Finset.mem_filter.mp within).1
  -- On this part one queue fewer is left each time.
  | counts => exact sumNext_nearer (fun one member => ready one (List.mem_cons_of_mem _ member)) (.inr ⟨rfl, le_rfl⟩)
  | admits => exact .across (show 2 < 4 by decide) True.intro
  | denies => exact (Stage.below_error _).nearer (show 2 < 4 by decide)
  | claims => exact .across (show 2 < 4 by decide) True.intro
  | throttles => exact .across (show 0 < 4 by decide) True.intro
  | readsQuota => exact .across (show 8 < 9 by decide) True.intro
  | readsRequests => exact .across (show 7 < 8 by decide) True.intro
  | countsQueues => exact .across (show 6 < 7 by decide) True.intro
  | readsAdmission | insertsRoute => exact .across (show 1 < 2 by decide) True.intro
  | _ => exact .across (show 0 < 1 by decide) True.intro

end

end Qaas
