import Qaas.Server.Answers

/-! Where the calls of a server stand: which queues they use, and which answers an operation is behind. -/

namespace Qaas

open Concurrency

variable {J : Type}

/-- Whether a call has come to what it does with a queue's group. -/
def Stage.started : Stage J → Bool
  | .group _ _ _ | .remember _ _ _ _ _ | .forget _ _ | .done _ => true
  | _ => false

/-- Whether an answer tells what an operation of a group has returned. -/
def ToolResult.worked : ToolResult J → Bool
  | .enqueued result => !result.deduplicated
  | .claimed result => result.available
  | .acked _ | .nacked _ | .checkpointed _ | .published _ _ | .triaged _ _ | .reprocessed _ | .purged _ => true
  -- A stream whose deadline passes is answered as an active one without chunks.
  | .streamed active chunks => !(active && chunks.isEmpty)
  | _ => false

/-- What an operation has returned where a call is answered so. -/
def ToolResult.Shows : ToolResult J → Result J J → Prop
  | .enqueued result, .message id => result.messageId = id.display
  | .claimed result, .claimed granted => Qaas.claimed granted = Stage.done (.ok (.claimed result))
  | .acked found, .answered answer | .nacked found, .answered answer => found = answer
  | .checkpointed found, .answered answer | .reprocessed found, .answered answer => found = answer
  | .purged found, .answered answer => found = answer
  | .published _ sequence, .published answer => sequence = answer
  | .streamed active chunks, .polled (.chunks answer) => active = true ∧ chunks = answer
  | .streamed active _, .polled .notActive => active = false
  -- What is not annotated, or permanent, is not reprocessed; else reprocessing has the last word.
  | .triaged annotated again, .answered answer => annotated = answer ∧ again = false ∨ annotated = true ∧ again = answer
  | _, _ => False

/-- Whether a call goes on with, or tells, what an operation of a group has returned. -/
def Stage.worked : Stage J → Bool
  | .remember _ _ _ _ _ | .forget _ _ => true
  | .done (.ok answer) => answer.worked
  | _ => false

/-- What an operation has returned where a call goes on so. -/
def Stage.Shows : Stage J → Result J J → Prop
  | .remember _ id _ _ _, .message other => id = other
  | .forget _ _, .answered answer => answer = true
  | .done (.ok answer), result => answer.Shows result
  | _, _ => False

/-- The queue that an enqueue leaves to its embedding is named by its answer. -/
def Stage.About (queue : String) : Stage J → Prop
  | .remember named _ _ _ _ => named = queue
  | .done (.ok (.enqueued result)) => result.queue = queue
  | _ => True

/-- An enqueue whose tenant's messages are counted uses its queue. -/
def PendingUse.Within (inside : String → Prop) : PendingUse → Prop
  | .ceiling locals _ => inside locals.queue
  | .status _ _ _ => True

/-- The queues that an unanswered call uses, and whether it is beyond the lookup of one. -/
def Stage.Within (inside : String → Prop) (beyond : Prop) : Stage J → Prop
  | .get _ .lookup => True
  | .get _ _ => beyond
  | .admissionEntry queue _ | .dedupEntry queue _ | .group queue _ _ | .headroom queue => inside queue
  | .deadLetters queue | .remember queue _ _ _ _ | .forget queue _ => inside queue
  | .nearest locals _ | .pendingCeiling locals | .tryAdmit locals => inside locals.queue
  | .listPending _ use | .sumPending _ use _ _ _ => use.Within inside
  | _ => True

section

variable {inside : String → Prop} {beyond allowed : Prop} {call : ToolCall J} {queue : String}

theorem Stage.Within.mono {wider : String → Prop} {stage : Stage J} (within : stage.Within inside beyond)
    (wide : ∀ name, inside name → wider name) : stage.Within wider beyond := by
  -- Each stage uses at most one queue; only the two that count carry theirs in the use of the count.
  cases stage with
  | listPending tenant use | sumPending tenant use =>
    cases use with
    | ceiling locals maxPending => exact wide _ within
    | status => exact True.intro
  | get queue at_ => cases at_ <;> exact within
  | admissionEntry | dedupEntry | group | headroom | deadLetters | remember | forget => exact wide _ within
  | nearest | pendingCeiling | tryAdmit => exact wide _ within
  | _ => exact True.intro

/-- Whether an answer tells of messages that the call has not worked on itself. -/
def Stage.recalls : Stage J → Bool
  | .done (.ok (.deadLetters _)) => true
  | .done (.ok (.enqueued result)) => result.deduplicated
  | _ => false

/-- Whether a call looks at the messages of others. -/
def Stage.consults : Stage J → Bool
  | .nearest _ _ | .deadLetters _ => true
  | _ => false

/-- A stage that uses only such queues, that no operation has led to, and that tells of the messages of others
only if that is allowed. -/
def Stage.Onward (inside : String → Prop) (beyond allowed : Prop) (stage : Stage J) : Prop :=
  stage.Within inside beyond ∧ stage.worked = false ∧ (stage.recalls = true → allowed)

theorem Stage.onward_error (error : ErrorData) : (Stage.done (.error error) : Stage J).Onward inside beyond allowed :=
  ⟨True.intro, rfl, nofun⟩

theorem Stage.Onward.proceed {A : Type} {value : Except ErrorData A} {next : A → Stage J}
    (onward : ∀ given, (next given).Onward inside beyond allowed) : (Qaas.proceed value next).Onward inside beyond allowed := by
  cases value with
  | ok given => exact onward given
  | error error => exact Stage.onward_error error

theorem getQueue_onward (name : String) : (getQueue name : Stage J).Onward inside beyond allowed :=
  .proceed fun _ => ⟨True.intro, rfl, nofun⟩

/-- An authorized call has used no queue yet. -/
theorem ToolCall.start_onward (caller : Caller) (call : ToolCall J) : (call.start caller).Onward inside beyond allowed := by
  -- What a call begins with uses no queue, and an error tells of no operation.
  cases call with
  | enqueue params newId =>
    refine .proceed fun embedding => ?_
    -- Without a queue of its own the enqueue is routed first.
    cases params.queue with
    | some queue => exact getQueue_onward queue
    | none => cases embedding <;> exact ⟨True.intro, rfl, nofun⟩
  | configureAdmission params | admissionStatus params => exact .proceed fun _ => ⟨True.intro, rfl, nofun⟩
  | configureRoute params => exact .proceed fun _ => .proceed fun _ => ⟨True.intro, rfl, nofun⟩
  -- The rest is the operator's, or about a tenant.
  | createApiKey params first second =>
    cases caller with
    | some tenant => exact Stage.onward_error _
    | none => exact .proceed fun _ => ⟨True.intro, rfl, nofun⟩
  | revokeApiKey params => cases caller <;> exact ⟨True.intro, rfl, nofun⟩
  | configureTenantQuota params =>
    cases caller with
    | some tenant => exact Stage.onward_error _
    | none => exact .proceed fun _ => ⟨True.intro, rfl, nofun⟩
  | tenantQuotaStatus params =>
    obtain ⟨tenantId⟩ := params
    cases caller with
    | some tenant => exact ⟨True.intro, rfl, nofun⟩
    | none =>
      cases tenantId with
      | none => exact Stage.onward_error _
      | some named => exact .proceed fun _ => ⟨True.intro, rfl, nofun⟩
  | _ => exact getQueue_onward _

/-- A call that has its queue open uses that queue. -/
theorem ToolCall.opened_onward (open_ : inside queue) (services : Services) (now : Instant) (wallClock : Timestamp)
    (call : ToolCall J) : (call.opened services queue now wallClock).Onward inside beyond allowed := by
  -- A bad id ends the call; otherwise it goes on with the queue that it has found.
  cases call with
  | enqueue | ack | nack | checkpoint | publishPartialResult | streamPartialResults | triageDeadLetter
  | reprocessDeadLetter | purgeDeadLetter => exact .proceed fun _ => ⟨open_, rfl, nofun⟩
  | claim | listDeadLetters => exact ⟨open_, rfl, nofun⟩
  | _ => exact Stage.onward_error _

theorem Enqueueing.fresh_onward {locals : Enqueueing} (open_ : inside locals.queue) (caller : Caller) :
    (locals.fresh caller : Stage J).Onward inside beyond allowed := by
  cases caller <;> exact ⟨open_, rfl, nofun⟩

theorem ToolCall.checkKey_onward (open_ : inside queue) (caller : Caller) (embedding : Option Embedding)
    (call : ToolCall J) : (call.checkKey caller queue embedding).Onward inside beyond allowed := by
  -- Only an enqueue has a key, and it goes on with its own queue.
  cases call with
  | enqueue params newId =>
    refine .proceed fun key => ?_
    cases embedding with
    | some vector => exact ⟨open_, rfl, nofun⟩
    | none =>
      show (Enqueueing.fresh ⟨queue, none, key⟩ caller : Stage J).Onward inside beyond allowed
      exact Enqueueing.fresh_onward open_ caller
  | _ => exact Stage.onward_error _

theorem PendingUse.counted_onward {use : PendingUse} {tenant : TenantId} {current : UInt64}
    (within : use.Within inside) :
    (use.counted tenant current : Stage J).Onward inside beyond allowed := by
  -- The count is for an enqueue, which is refused or goes on, or for a report.
  cases use with
  | ceiling locals maxPending =>
    unfold PendingUse.counted
    dsimp only
    split
    · exact Stage.onward_error _
    · exact ⟨within, rfl, nofun⟩
  | status config requests queues => exact ⟨True.intro, rfl, nofun⟩

theorem sumNext_onward {use : PendingUse} {tenant : TenantId} {total : UInt64} {rest : List String}
    (within : use.Within inside) :
    (sumNext tenant use total rest : Stage J).Onward inside beyond allowed := by
  cases rest with
  | nil => exact PendingUse.counted_onward within
  | cons key rest => exact ⟨within, rfl, nofun⟩

end

section

variable {services : Services} {call : ToolCall J} {queue : String} {failure : Option String} {use : GroupUse}
  {result : Result J J}

/-- A call that has done with an operation of a group looks at nothing else first. -/
theorem ToolCall.resume_started : (call.resume queue failure use result).started = true := by
  -- Only the case of a triage branches once more.
  unfold ToolCall.resume
  split
  case h_12 =>
    split <;> rfl
  all_goals rfl

/-- What a call goes on with after an operation tells of no other messages. -/
theorem ToolCall.resume_recalls : (call.resume queue failure use result).recalls = false := by
  -- None of these stages lists dead letters or tells of a duplicate.
  unfold ToolCall.resume
  split
  case h_12 =>
    split <;> rfl
  all_goals rfl

/-- Where a call goes on with what an operation has returned, it shows that. -/
theorem ToolCall.resume_shows (worked : (call.resume queue failure use result).worked = true) :
    (call.resume queue failure use result).Shows result := by
  unfold ToolCall.resume at worked ⊢
  split at worked
  case h_11 => exact .inl ⟨rfl, rfl⟩
  case h_12 =>
    -- A triage that is answered at once has only annotated the dead letter.
    split at worked
    · cases worked
    · exact .inl ⟨rfl, rfl⟩
  case h_13 => exact .inr ⟨rfl, rfl⟩
  all_goals first | exact rfl | exact ⟨rfl, rfl⟩ | cases worked

/-- What a call goes on with is about the queue of the operation. -/
theorem ToolCall.resume_about {name : String} (opens : call.Opens queue) (named : call.Opens name)
    (worked : (call.resume queue failure use result).worked = true)
    (about : (call.resume queue failure use result).About name) : name = queue := by
  cases call with
  | enqueue params newId =>
    -- The answer of an enqueue names the queue.
    cases use with
    | enqueue embedding tokens cost =>
      cases result with
      | message id => cases embedding <;> exact about.symm
      | _ => cases embedding <;> cases worked
    | _ => cases worked
  | configureAdmission | admissionStatus | configureRoute | createApiKey | revokeApiKey | configureTenantQuota
  | tenantQuotaStatus => exact opens.elim
  | _ => exact named.symm.trans opens

/-- A call goes on with a second operation only where it triages a failure that is transient. -/
theorem ToolCall.resume_group {name : String} {pc : Pc J J} {later : GroupUse}
    (resumed : call.resume queue failure use result = .group name pc later) :
    name = queue ∧ later = .plain ∧ ∃ params id, call = .triageDeadLetter params ∧ use = .annotate id ∧
      params.classification = .transient ∧ pc = (Call.reprocessDeadLetter id).entry := by
  unfold ToolCall.resume at resumed
  split at resumed
  case h_12 params id =>
    split at resumed
    · rename_i verdict
      obtain ⟨rfl, rfl, rfl⟩ := Stage.group.inj resumed
      exact ⟨rfl, rfl, params, id, rfl, rfl, verdict, rfl⟩
    · cases resumed
  all_goals cases resumed

end

/-- What no step of a call changes: the clocks, where the data are, and the records that the disk holds. -/
structure Server.Still (server next : Server J) : Prop where
  now : next.now = server.now
  wallClock : next.wallClock = server.wallClock
  dataDir : next.registry.dataDir = server.registry.dataDir
  wals : ∀ location, (next.disk.wals location).records = (server.disk.wals location).records
  dlqs : ∀ location, (next.disk.dlqs location).records = (server.disk.dlqs location).records

theorem Server.Still.of_registry {server : Server J} {registry : QueueRegistry (ConsumerGroup J J)}
    (dataDir : registry.dataDir = server.registry.dataDir) : server.Still (server.withRegistry registry) :=
  ⟨rfl, rfl, dataDir, fun _ => rfl, fun _ => rfl⟩

/-- Opening a log may cut it, but no record of it away. -/
theorem Disk.cut_records (disk : Disk J) (path location : Location) (at_ : GetStage) :
    ((disk.cut path at_).wals location).records = (disk.wals location).records ∧
      ((disk.cut path at_).dlqs location).records = (disk.dlqs location).records := by
  -- A cut ends the log after its last whole record; no log but the one at the path is touched.
  cases at_ with
  | openWal =>
    refine ⟨?_, rfl⟩
    simp only [Disk.cut, Function.update_apply]
    split
    · rename_i same
      rw [same]
      rfl
    · rfl
  | openDlq =>
    refine ⟨rfl, ?_⟩
    simp only [Disk.cut, Function.update_apply]
    split
    · rename_i same
      rw [same]
      rfl
    · rfl
  | _ => exact ⟨rfl, rfl⟩

section

variable {services : Services} {self : Nat} {env : ToolEnv} {server next : Server J} {task : ToolTask J}
  {stage : Stage J}

theorem Server.getStep_still {queue : String} {at_ : GetStage}
    (moved : server.getStep services self env task queue at_ = some (next, stage)) : server.Still next := by
  -- The steps of `get` change the registry, and cut the logs that they open.
  obtain ⟨registry, after, got, rfl, _⟩ := Server.getStep_eq_some moved
  have located : registry.dataDir = server.registry.dataDir := by
    cases QueueRegistry.get_got got <;> rfl
  have kept (location : Location) := Disk.cut_records server.disk
    (walPath server.registry.dataDir task.caller queue) location at_
  refine ⟨rfl, rfl, located, fun location => ?_, fun location => ?_⟩
  · dsimp only
    split
    · rfl
    · exact (kept location).1
  · dsimp only
    split
    · rfl
    · exact (kept location).2

/-- No step of a call changes them. -/
theorem Server.move_still (moved : server.move services self env task = some (next, stage)) :
    server.Still next := by
  -- The keys are apart from the registry, and a step of `get` leaves both alone.
  obtain ⟨caller, call, current⟩ := task
  cases Server.moved_of_move moved with
  | gets stepped => exact Server.getStep_still stepped
  | managesKey => exact ⟨rfl, rfl, rfl, fun _ => rfl, fun _ => rfl⟩
  | _ => exact .of_registry rfl

/-- A step of a call that has not come to its queue's group leads to a stage that uses only the queues
used before, or the one that is open now. -/
theorem Server.move_onward {inside : String → Prop} {beyond allowed : Prop} (unstarted : task.stage.started = false)
    (within : task.stage.Within inside beyond) (looks : task.stage.looksUp.isSome → beyond)
    (consults : task.stage.consults = true → allowed)
    (opens : ∀ name, (next.registry.groups.lookup (scopeKey task.caller name)).isSome → inside name)
    (moved : server.move services self env task = some (next, stage)) : stage.Onward inside beyond allowed := by
  -- One case for each way on before the group; those that need their queue were given it with `within`.
  obtain ⟨caller, call, current⟩ := task
  cases Server.moved_of_move moved with
  | operates | returns | remembers | forgets => cases unstarted
  | @gets queue _ _ _ stepped =>
    obtain ⟨registry, after, got, rfl, rfl⟩ := Server.getStep_eq_some stepped
    -- A queue is found or opened in this very step, or the call stays behind the lookup.
    cases QueueRegistry.get_got got with
    | finds _ found => exact ToolCall.opened_onward (opens queue (by rw [withRegistry, found]; rfl)) _ _ _ call
    | opens =>
      refine ToolCall.opened_onward (opens queue ?_) _ _ _ call
      simp [withRegistry, QueueRegistry.setGroup, QueueRegistry.setOpener]
    | fails => exact Stage.onward_error _
    | @begins later => cases later <;> exact ⟨by first | exact True.intro | exact looks rfl, rfl, nofun⟩
    | passes => exact ⟨looks rfl, rfl, nofun⟩
    | @goesOn _ later order =>
      rcases order with ⟨_, rfl⟩ | ⟨_, rfl⟩ <;> exact ⟨looks rfl, rfl, nofun⟩
  | trusts | allows => exact ToolCall.start_onward caller call
  | refuses | strays | denies => exact Stage.onward_error _
  | routes => exact getQueue_onward _
  | skips | checksKey => exact ToolCall.checkKey_onward within caller _ call
  | misses => exact Enqueueing.fresh_onward within caller
  | lists | counts => exact sumNext_onward within
  -- A similar message and the dead letters are the others', and these stages consult them.
  | collapses | listsLetters => exact ⟨True.intro, rfl, fun _ => consults rfl⟩
  | managesKey stepped =>
    cases ApiKeyStore.toolStep_moved stepped with
    | refuses => exact Stage.onward_error _
    | creates | revokes | goesOn => exact ⟨True.intro, rfl, nofun⟩
  | compares | uncounted | limited | unlimited | admits | claims => exact ⟨within, rfl, nofun⟩
  | _ => exact ⟨True.intro, rfl, nofun⟩

/-- A call that has come to its queue's group goes on to nothing else. -/
theorem Server.move_started (started : task.stage.started = true)
    (moved : server.move services self env task = some (next, stage)) : stage.started = true := by
  -- The group leads on in the operation or out of it; what comes after it only ends the call.
  obtain ⟨caller, call, current⟩ := task
  cases Server.moved_of_move moved with
  | returns => exact ToolCall.resume_started
  | operates | remembers | forgets => rfl
  | _ => cases started

theorem Stage.within_true (stage : Stage J) : stage.Within (fun _ => True) True := by
  cases stage with
  | get queue at_ => cases at_ <;> exact True.intro
  | listPending tenant use | sumPending tenant use => cases use <;> exact True.intro
  | _ => exact True.intro

/-- What a call outside a group tells of an operation, it has known before. -/
theorem Server.move_tells (ungrouped : ∀ queue pc use, task.stage ≠ .group queue pc use)
    (moved : server.move services self env task = some (next, stage)) (worked : stage.worked = true) {queue : String}
    (about : stage.About queue) :
    task.stage.worked = true ∧ task.stage.About queue ∧ ∀ result, task.stage.Shows result → stage.Shows result := by
  -- Only what follows an operation can tell of it; everything before the group is silent.
  by_cases started : task.stage.started
  · obtain ⟨caller, call, current⟩ := task
    cases Server.moved_of_move moved with
    | remembers =>
      refine ⟨rfl, about, fun result shows => ?_⟩
      cases result with
      | message other => exact congrArg MessageId.display shows
      | _ => exact shows.elim
    | forgets =>
      refine ⟨rfl, True.intro, fun result shows => ?_⟩
      cases result with
      | answered answer => exact shows.symm
      | _ => exact shows.elim
    | operates | returns => exact absurd rfl (ungrouped _ _ _)
    | _ => cases started
  · have silent := (Server.move_onward (by simpa using started) task.stage.within_true (fun _ => True.intro)
      (fun _ => True.intro) (fun _ _ => True.intro) moved).2.1
    rw [silent] at worked
    cases worked

/-- An answer that tells of the messages of others comes of looking at them. -/
theorem Server.move_recalls (moved : server.move services self env task = some (next, stage))
    (recalls : stage.recalls = true) : task.stage.consults = true := by
  -- After an operation nothing tells of other messages; before it only two stages look at them.
  by_cases started : task.stage.started
  · obtain ⟨caller, call, current⟩ := task
    cases Server.moved_of_move moved with
    | returns =>
      rw [ToolCall.resume_recalls] at recalls
      cases recalls
    | operates | remembers | forgets => cases recalls
    | _ => cases started
  · exact (Server.move_onward (by simpa using started) task.stage.within_true (fun _ => True.intro)
      id (fun _ _ => True.intro) moved).2.2 recalls

/-- A call that has done with its queue's group runs no operation of it again. -/
theorem Server.move_ungrouped (started : task.stage.started = true)
    (ungrouped : ∀ queue pc use, task.stage ≠ .group queue pc use)
    (moved : server.move services self env task = some (next, stage)) :
    ∀ queue pc use, stage ≠ .group queue pc use := by
  -- What follows an operation answers the call.
  obtain ⟨caller, call, current⟩ := task
  cases Server.moved_of_move moved with
  | remembers | forgets => exact fun _ _ _ same => by cases same
  | operates | returns => exact absurd rfl (ungrouped _ _ _)
  | _ => cases started

/-- A step of a call outside a group leaves the open groups, or opens one more. -/
theorem Server.move_opens (ungrouped : ∀ queue pc use, task.stage ≠ .group queue pc use)
    (moved : server.move services self env task = some (next, stage)) :
    next.registry.groups = server.registry.groups ∨
      ∃ queue, task.stage = .get queue .openDlq ∧ next.registry.groups = server.registry.groups.insert
        (scopeKey task.caller queue) (server.openGroup task.caller queue env.letters) := by
  obtain ⟨caller, call, current⟩ := task
  cases Server.moved_of_move moved with
  | @gets queue _ _ _ stepped =>
    obtain ⟨registry, after, got, rfl, _⟩ := Server.getStep_eq_some stepped
    cases QueueRegistry.get_got got with
    | opens => exact .inr ⟨queue, rfl, rfl⟩
    | _ => exact .inl rfl
  | @listsLetters queue _ found =>
    -- The group is stored as it was read.
    refine .inl (Finmap.ext_lookup fun key => ?_)
    show (server.registry.groups.insert _ _).lookup key = _
    by_cases own : key = scopeKey caller queue
    · subst own
      rw [Finmap.lookup_insert, found]
    · rw [Finmap.lookup_insert_of_ne _ own]
  | operates | returns => exact absurd rfl (ungrouped _ _ _)
  | _ => exact .inl rfl

end

/-- Whoever is beyond the lookup of a queue holds the lock on the groups, and the queue is not open. -/
def ServerPool.Locked (pool : ServerPool J) : Prop :=
  pool.All fun i task => ∀ queue at_, task.stage = .get queue at_ → at_ ≠ .lookup →
    pool.shared.registry.opener = some i ∧
      pool.shared.registry.groups.lookup (scopeKey task.caller queue) = none

section

variable {services : Services} {pool next : ServerPool J} {act : ServerAction J}

/-- A call that leaves `get` never comes back behind the lookup. -/
theorem Stage.Onward.lookup {inside : String → Prop} {allowed : Prop} {stage : Stage J}
    (onward : stage.Onward inside False allowed)
    {queue : String} {at_ : GetStage} (looking : stage = .get queue at_) : at_ = .lookup := by
  subst looking
  cases at_ with
  | lookup => rfl
  | _ => exact onward.1.elim

/-- The lock goes from one call to the next. -/
theorem ServerPool.Locked.move {i : Nat} {env : ToolEnv} {task : ToolTask J} {server : Server J} {stage : Stage J}
    (locked : pool.Locked) (found : pool.tasks[i]? = some task)
    (moved : pool.shared.move services i env task = some (server, stage)) :
    ServerPool.Locked ⟨server, pool.tasks.set i { task with stage }⟩ := by
  intro j other there queue at_ looking beyond
  have kept := Server.move_kept moved
  cases looks : task.stage.looksUp with
  | none =>
    rcases found_set found there with ⟨rfl, rfl⟩ | ⟨_, before⟩
    · -- The call itself is only about to look its queue up.
      refine absurd ?_ beyond
      by_cases started : task.stage.started
      · have later := Server.move_started started moved
        rw [show stage = _ from looking] at later
        cases later
      · refine (show stage.Onward (fun _ => True) False True from Server.move_onward (by simpa using started) ?_
          (fun named => ?_) (fun _ => True.intro) (fun _ _ => True.intro) moved).lookup looking
        · cases here : task.stage with
          | get => rw [here] at looks; cases looks
          | listPending tenant use | sumPending tenant use => cases use <;> exact True.intro
          | _ => exact True.intro
        · rw [looks] at named
          cases named
    · obtain ⟨holder, absent⟩ := locked j other before queue at_ looking beyond
      exact ⟨(kept.opener looks).trans holder, kept.absent looks _ absent⟩
  | some name =>
    obtain ⟨caller, call, current⟩ := task
    cases current with
    | get name before =>
      have held := locked i _ found name before rfl
      obtain ⟨registry, after, got, rfl, rfl⟩ := Server.getStep_eq_some moved
      have opened_lookup {open_ : String} {later : GetStage} (same : call.opened services open_ pool.shared.now
          pool.shared.wallClock = .get queue later) : later = .lookup :=
        (show (call.opened services open_ _ _).Onward (fun _ => True) False True from
          ToolCall.opened_onward True.intro services _ _ call).lookup same
      rcases found_set found there with ⟨rfl, rfl⟩ | ⟨others, earlier⟩
      · -- The call goes on with the lock, or has given it back.
        cases QueueRegistry.get_got got with
        | finds => exact absurd (opened_lookup looking) beyond
        | opens => exact absurd (opened_lookup looking) beyond
        | fails => cases looking
        | begins _ absent =>
          obtain ⟨rfl, rfl⟩ := Stage.get.inj looking
          exact ⟨rfl, absent⟩
        | passes =>
          obtain ⟨rfl, rfl⟩ := Stage.get.inj looking
          exact held (by decide)
        | goesOn order =>
          obtain ⟨rfl, rfl⟩ := Stage.get.inj looking
          refine held ?_
          rcases order with ⟨rfl, _⟩ | ⟨rfl, _⟩ <;> decide
      · -- Another call beyond its lookup would have the lock at the same time.
        have theirs := (locked j other earlier queue at_ looking beyond).1
        exfalso
        by_cases first : before = .lookup
        · subst first
          cases QueueRegistry.get_got got with
          | finds free => rw [free] at theirs; cases theirs
          | begins free => rw [free] at theirs; cases theirs
          | goesOn order => rcases order with ⟨same, _⟩ | ⟨same, _⟩ <;> cases same
          | fails within => exact within rfl
        · rw [(held first).1] at theirs
          exact others (Option.some.inj theirs).symm
    | _ => cases looks

/-- A queue that is open stays open. -/
theorem Server.move_keeps {self : Nat} {env : ToolEnv} {server after : Server J} {task : ToolTask J} {stage : Stage J}
    {key : String} (moved : server.move services self env task = some (after, stage))
    (open_ : (server.registry.groups.lookup key).isSome) : (after.registry.groups.lookup key).isSome := by
  -- A group is stored over its old self, or a new one is added.
  have inserted {other : String} {group : ConsumerGroup J J} :
      ((server.registry.groups.insert other group).lookup key).isSome := by
    by_cases own : key = other
    · subst own
      rw [Finmap.lookup_insert]
      rfl
    · rwa [Finmap.lookup_insert_of_ne _ own]
  by_cases grouped : ∃ queue pc use, task.stage = .group queue pc use
  · obtain ⟨caller, call, current⟩ := task
    obtain ⟨queue, pc, use, rfl⟩ := grouped
    obtain ⟨_, _, _, _, _, rfl, _⟩ := Server.move_group services moved
    exact inserted
  · rcases Server.move_opens (fun queue pc use same => grouped ⟨queue, pc, use, same⟩) moved with
      same | ⟨queue, _, opened⟩
    · rwa [same]
    · rw [opened]
      exact inserted

/-- A call goes on with its open queue. -/
theorem ToolCall.resume_within {inside : String → Prop} {call : ToolCall J} {queue : String}
    {failure : Option String} {use : GroupUse} {result : Result J J} (open_ : inside queue) :
    (call.resume queue failure use result).Within inside True := by
  -- Only a triage branches once more, and it stays with its queue.
  unfold ToolCall.resume
  split
  case h_12 =>
    split
    · exact open_
    · exact True.intro
  all_goals first | exact open_ | exact True.intro

/-- Each call uses queues that are open, or waits for its turn to open one; no two generate one id. -/
structure ServerPool.Standing (pool : ServerPool J) : Prop where
  locked : pool.Locked
  within : pool.All fun _ task => task.stage.Within
    (fun name => (pool.shared.registry.groups.lookup (scopeKey task.caller name)).isSome) True
  distinct : ∀ (i j : Nat) (first second : ToolTask J) id, pool.tasks[i]? = some first → pool.tasks[j]? = some second →
    first.call.newId = some id → second.call.newId = some id → i = j

/-- A call's id stays its own. -/
theorem ServerPool.Standing.distinct_set {i : Nat} {task : ToolTask J} {stage : Stage J}
    (standing : pool.Standing) (found : pool.tasks[i]? = some task) :
    ∀ (j k : Nat) (first second : ToolTask J) id, (pool.tasks.set i { task with stage })[j]? = some first →
      (pool.tasks.set i { task with stage })[k]? = some second → first.call.newId = some id →
        second.call.newId = some id → j = k := by
  -- The step changes a stage, and no id.
  intro j k first second id left right own other
  have named {n : Nat} {here : ToolTask J} (there : (pool.tasks.set i { task with stage })[n]? = some here)
      (id_ : here.call.newId = some id) : ∃ before, pool.tasks[n]? = some before ∧ before.call.newId = some id := by
    rcases found_set found there with ⟨rfl, rfl⟩ | ⟨_, before⟩
    · exact ⟨task, found, id_⟩
    · exact ⟨here, before, id_⟩
  obtain ⟨_, first, firstId⟩ := named left own
  obtain ⟨_, second, secondId⟩ := named right other
  exact standing.distinct j k _ _ id first second firstId secondId

/-- A step keeps the calls in their places. -/
theorem ServerPool.Standing.step (standing : pool.Standing) (taken : pool.step services act = some next) :
    next.Standing := by
  cases act with
  | call caller call =>
    simp only [ServerPool.step] at taken
    split at taken
    · rename_i fresh
      obtain rfl := Option.some.inj taken
      refine ⟨fun j task there => ?_, fun j task there => ?_, fun j k first second id left right own other => ?_⟩
      · rcases found_concat there with before | ⟨rfl, rfl⟩
        · exact standing.locked j task before
        · exact fun _ _ looking => by cases looking
      · rcases found_concat there with before | ⟨rfl, rfl⟩
        · exact standing.within j task before
        · exact True.intro
      · -- The new call generates an id that no other call has.
        rcases found_concat left with before | ⟨rfl, rfl⟩ <;> rcases found_concat right with after | ⟨rfl, rfl⟩
        · exact standing.distinct j k first second id before after own other
        · exact absurd own (fresh first (List.mem_of_getElem? before) id other)
        · exact absurd other (fresh second (List.mem_of_getElem? after) id own)
        · rfl
    · cases taken
  | step i env =>
    obtain ⟨task, server, stage, found, moved, rfl⟩ := (step_eq_some rfl).mp taken
    have moved : pool.shared.move services i env task = some (server, stage) := moved
    refine ⟨standing.locked.move found moved, fun j other there => ?_, standing.distinct_set found⟩
    rcases found_set found there with ⟨rfl, rfl⟩ | ⟨_, before⟩
    · by_cases started : task.stage.started
      · -- A call that has come to its queue's group goes on with it.
        have open_ := standing.within _ task found
        obtain ⟨caller, call, current⟩ := task
        cases Server.moved_of_move moved with
        | returns => exact ToolCall.resume_within (Server.move_keeps moved open_)
        | operates => exact Server.move_keeps moved open_
        | remembers | forgets => exact True.intro
        | _ => cases started
      · refine (Server.move_onward (by simpa using started) ((standing.within _ task found).mono fun name => ?_)
          (fun _ => True.intro) (fun _ => True.intro) (fun name open_ => open_) moved).1
        exact Server.move_keeps moved
    · exact (standing.within j other before).mono fun name => Server.move_keeps moved
  | timeout i wrote =>
    obtain ⟨task, server, stage, found, given, rfl⟩ := (step_eq_some rfl).mp taken
    have kept := Server.timeout_kept given
    obtain ⟨queue, pc, deadline, group, group', _, at_, opened, _, _, rfl, ended⟩ := Server.timeout_eq_some given
    -- A call that is dropped was in a group, and is answered.
    have ungot : task.stage.looksUp = none := by rw [at_]; rfl
    have dropped : ∃ answer, stage = .done answer := by
      cases named : task.call <;> rw [named] at ended <;> exact ⟨_, ended.symm⟩
    obtain ⟨answer, rfl⟩ := dropped
    refine ⟨fun j other there => ?_, fun j other there => ?_,
      standing.distinct_set found⟩
    · rcases found_set found there with ⟨rfl, rfl⟩ | ⟨_, before⟩
      · exact fun _ _ looking => by cases looking
      · intro name at_ looking beyond
        obtain ⟨holder, absent⟩ := standing.locked j other before name at_ looking beyond
        exact ⟨(kept.opener ungot).trans holder, kept.absent ungot _ absent⟩
    · rcases found_set found there with ⟨rfl, rfl⟩ | ⟨_, before⟩
      · exact True.intro
      · refine (standing.within j other before).mono fun name open_ => ?_
        show ((pool.shared.registry.groups.insert _ _).lookup _).isSome
        by_cases own : scopeKey other.caller name = scopeKey task.caller queue
        · rw [own, Finmap.lookup_insert]
          rfl
        · rwa [Finmap.lookup_insert_of_ne _ own]
  | tick elapsed | setWallClock wallClock =>
    obtain rfl := Option.some.inj taken
    exact ⟨standing.locked, standing.within, standing.distinct⟩

/-- In every run the calls are in their places. -/
theorem ServerPool.standing_of_run {server : Server J} {trace : List (Transition (ServerPool J) (ServerAction J))}
    (run : Run (ServerPool.step services) (fun _ _ => True) ⟨server, []⟩ trace pool) : pool.Standing := by
  have start : ServerPool.Standing (⟨server, []⟩ : ServerPool J) :=
    ⟨fun _ _ found => (nomatch found), fun _ _ found => (nomatch found), fun _ _ _ _ _ found => (nomatch found)⟩
  exact run.invariant start fun _ _ _ _ standing taken => standing.step taken

end

end Qaas
