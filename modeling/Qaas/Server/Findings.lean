import Qaas.Server.Stages

/-! Where the answers of a server are from: each tells what a step of its own call has found. -/

namespace Qaas

open Concurrency

variable {J : Type}

/-- What a call finds by a step. -/
inductive Finding (J : Type) where
  /-- An operation of a queue's group has returned. -/
  | returned (queue : String) (inner : Call J J) (result : Result J J)
  /-- A queue remembers a task that is similar enough. -/
  | similar (queue : String) (id : MessageId) (similarity : ℚ)
  /-- The dead letters of a queue. -/
  | letters (queue : String) (summaries : List (DeadLetterSummary J))
  /-- An operation of the API keys has returned. -/
  | keys (call : KeyCall) (result : KeyResult)

/-- What a call finds by its next step. -/
def Server.Finds (services : Services) (self : Nat) (env : ToolEnv) (server : Server J) (task : ToolTask J) :
    Finding J → Prop
  | .returned queue inner result =>
    ∃ pc use group group', task.stage = .group queue pc use ∧ task.call.Runs services inner use ∧
      pc.serves inner ∧ server.registry.groups.lookup (scopeKey task.caller queue) = some group ∧
      group.move self server.now server.wallClock env.group pc = some (group', .done result)
  | .similar queue id similarity =>
    ∃ locals embedding, task.stage = .nearest locals embedding ∧ locals.queue = queue ∧
      dedupSimilarityThreshold ≤ similarity ∧
      ((server.registry.dedupOf task.caller queue).nearest services.score env.rankId server.now embedding).2 =
        some (id, similarity)
  | .letters queue summaries =>
    task.stage = .deadLetters queue ∧ ∃ group,
      server.registry.groups.lookup (scopeKey task.caller queue) = some group ∧
      group.dlq.entries.Iterates env.letters ∧
      summaries = (env.letters.filterMap group.dlq.entries.lookup).map DeadLetter.summary
  | .keys call result =>
    ∃ key store later, task.stage = .key key ∧ key.call = call ∧
      server.apiKeys.move services.sha256 key = some (store, later) ∧ later.stage = .returned result

/-- In a run, a step of this call has found this. -/
def ServerPool.Found (services : Services) (trace : List (Transition (ServerPool J) (ServerAction J))) (i : Nat)
    (finding : Finding J) : Prop :=
  ∃ e ∈ trace, ∃ env task, e.act = .step i env ∧ e.pre.tasks[i]? = some task ∧
    e.pre.shared.Finds services i env task finding

/-- An answer tells what its call has found: the identifiers, queue and booleans are those that the operation
returned which the arguments of the call name. -/
def ToolCall.Tells (services : Services) (found : Finding J → Prop) (call : ToolCall J) (answer : ToolResult J) :
    Prop :=
  match call, answer with
  | .enqueue params newId, .enqueued result =>
    if result.deduplicated then
      ∃ id similarity, found (.similar result.queue id similarity) ∧ result.messageId = id.display ∧
        result.similarity = some similarity
    else
      ∃ key id, params.key = .ok key ∧ result.messageId = id.display ∧
        found (.returned result.queue (.enqueue ⟨newId, params.payload, key⟩) (.message id))
  | .claim params, .claimed result =>
    result.available = true → ∃ claim, found (.returned params.queue .claim (.claimed claim)) ∧
      claimed claim = Stage.done (.ok (.claimed result))
  | .ack params, .acked acked =>
    ∃ id, services.readId params.messageId = some id ∧
      found (.returned params.queue (.ack id ⟨params.leaseToken⟩) (.answered acked))
  | .nack params, .nacked nacked =>
    ∃ id, services.readId params.messageId = some id ∧
      found (.returned params.queue (.nack id ⟨params.leaseToken⟩ params.reason) (.answered nacked))
  | .checkpoint params, .checkpointed stored =>
    ∃ id, services.readId params.messageId = some id ∧
      found (.returned params.queue (.checkpoint id ⟨params.leaseToken⟩ params.state) (.answered stored))
  | .publishPartialResult params, .published _ sequence =>
    ∃ id, services.readId params.messageId = some id ∧
      found (.returned params.queue
        (.publishPartialResult id ⟨params.leaseToken⟩ params.data (params.isFinal.getD false)) (.published sequence))
  | .streamPartialResults params, .streamed active chunks =>
    -- A stream whose deadline passes is answered as an active one without chunks.
    active = true ∧ chunks = [] ∨ ∃ id, services.readId params.messageId = some id ∧
      found (.returned params.queue (.partialResultsSince id (params.afterSequence.getD 0))
        (.polled (if active then .chunks chunks else .notActive)))
  | .listDeadLetters params, .deadLetters summaries => found (.letters params.queue summaries)
  | .triageDeadLetter params, .triaged annotated reprocessed =>
    ∃ id, services.readId params.messageId = some id ∧
      (∃ triagedAt, found (.returned params.queue
        (.annotateDeadLetter id ⟨params.classification, params.reason, triagedAt⟩) (.answered annotated))) ∧
      -- Only what is annotated as transient is reprocessed.
      if annotated = true ∧ params.classification = .transient then
        found (.returned params.queue (.reprocessDeadLetter id) (.answered reprocessed))
      else reprocessed = false
  | .reprocessDeadLetter params, .reprocessed again =>
    ∃ id, services.readId params.messageId = some id ∧
      found (.returned params.queue (.reprocessDeadLetter id) (.answered again))
  | .purgeDeadLetter params, .purged purged =>
    ∃ id, services.readId params.messageId = some id ∧
      found (.returned params.queue (.purgeDeadLetter id) (.answered purged))
  | .createApiKey params first second, .keyCreated apiKey _ =>
    ∃ tenant : TenantId, tenant.asStr = params.tenantId ∧ found (.keys (.mint first second tenant) (.minted apiKey))
  | .revokeApiKey params, .keyRevoked revoked => found (.keys (.revoke params.apiKey) (.revoked revoked))
  | _, _ => True

/-- What is told where a call stands: an answer, or what it has been told by an operation and goes on with. -/
def Stage.Tells (services : Services) (found : Finding J → Prop) (call : ToolCall J) : Stage J → Prop
  | .remember queue id _ _ _ =>
    ∃ params newId key, call = .enqueue params newId ∧ params.key = .ok key ∧
      found (.returned queue (.enqueue ⟨newId, params.payload, key⟩) (.message id))
  | .forget queue _ =>
    ∃ params id, call = .ack params ∧ params.queue = queue ∧ services.readId params.messageId = some id ∧
      found (.returned queue (.ack id ⟨params.leaseToken⟩) (.answered true))
  | .group queue _ .plain =>
    -- A triage that reprocesses a dead letter has annotated it.
    ∀ params, call = .triageDeadLetter params → ∃ id triagedAt, services.readId params.messageId = some id ∧
      found (.returned queue (.annotateDeadLetter id ⟨params.classification, params.reason, triagedAt⟩) (.answered true))
  | .done (.ok answer) => call.Tells services found answer
  | _ => True

section

variable {services : Services} {found : Finding J → Prop} {call : ToolCall J} {queue : String}

/-- An argument that is refused ends the call, and what is accepted is gone on with. -/
theorem Stage.Tells.proceed {A : Type} {value : Except ErrorData A} {next : A → Stage J}
    (tells : ∀ given, (next given).Tells services found call) : (Qaas.proceed value next).Tells services found call := by
  cases value with
  | ok given => exact tells given
  | error error => exact True.intro

theorem getQueue_tells (name : String) : (getQueue name : Stage J).Tells services found call :=
  .proceed fun _ => True.intro

/-- An authorized call has been told nothing. -/
theorem ToolCall.start_tells (caller : Caller) (call : ToolCall J) : (call.start caller).Tells services found call := by
  -- A call that begins has found nothing, and an error tells of nothing.
  cases call with
  | enqueue params newId =>
    refine .proceed fun embedding => ?_
    -- A routed enqueue looks for its route first.
    cases params.queue with
    | some queue => exact getQueue_tells queue
    | none => cases embedding <;> exact True.intro
  | configureAdmission params | admissionStatus params => exact .proceed fun _ => True.intro
  | configureRoute params => exact .proceed fun _ => .proceed fun _ => True.intro
  -- The tools that manage keys and quotas tell what they have done when they have done it.
  | createApiKey params first second =>
    cases caller with
    | some tenant => exact True.intro
    | none => exact .proceed fun _ => True.intro
  | revokeApiKey params => cases caller <;> exact True.intro
  | configureTenantQuota params =>
    cases caller with
    | some tenant => exact True.intro
    | none => exact .proceed fun _ => True.intro
  | tenantQuotaStatus params =>
    obtain ⟨tenantId⟩ := params
    cases caller with
    | some tenant => exact True.intro
    | none =>
      cases tenantId with
      | none => exact True.intro
      | some named => exact .proceed fun _ => True.intro
  | _ => exact getQueue_tells _

/-- A call that has its queue open begins an operation there, or looks further, and has been told nothing. -/
theorem ToolCall.opened_tells (now : Instant) (wallClock : Timestamp) (call : ToolCall J) :
    (call.opened services queue now wallClock).Tells services found call := by
  cases call with
  | nack | checkpoint | publishPartialResult | reprocessDeadLetter | purgeDeadLetter =>
    -- None of these is a triage.
    exact .proceed fun _ => fun _ same => by cases same
  | enqueue | ack | streamPartialResults | triageDeadLetter => exact .proceed fun _ => True.intro
  | _ => exact True.intro

theorem Enqueueing.fresh_tells (locals : Enqueueing) (caller : Caller) :
    (locals.fresh caller : Stage J).Tells services found call := by
  cases caller <;> exact True.intro

theorem ToolCall.checkKey_tells (caller : Caller) (embedding : Option Embedding) (call : ToolCall J) :
    (call.checkKey caller queue embedding).Tells services found call := by
  -- An enqueue has more to check, and has been told nothing yet.
  cases call with
  | enqueue params newId =>
    refine .proceed fun key => ?_
    cases embedding with
    | some vector => exact True.intro
    | none => exact Enqueueing.fresh_tells ⟨queue, none, key⟩ caller
  | _ => exact True.intro

/-- The status of a tenant's quota is no finding. -/
theorem PendingUse.counted_tells {use : PendingUse} {tenant : TenantId} {current : UInt64}
    (serves : use.Serves call) : (use.counted tenant current : Stage J).Tells services found call := by
  -- A ceiling lets the call go on or refuses it; a report serves only the tool that asks for it.
  cases use with
  | ceiling locals maxPending =>
    unfold PendingUse.counted
    dsimp only
    split <;> exact True.intro
  | status config requests queues =>
    obtain ⟨params, rfl⟩ := serves
    exact True.intro

theorem sumNext_tells {use : PendingUse} {tenant : TenantId} {total : UInt64} {rest : List String}
    (serves : use.Serves call) : (sumNext tenant use total rest : Stage J).Tells services found call := by
  cases rest with
  | nil => exact PendingUse.counted_tells serves
  | cons key rest => exact True.intro

/-- What an operation of a call returns is what the call answers, or goes on with. -/
theorem ToolCall.resume_tells {failure : Option String} {pc : Pc J J} {use : GroupUse} {inner : Call J J}
    {result : Result J J} (opens : call.Opens queue) (runs : call.Runs services inner use)
    (before : (Stage.group queue pc use).Tells services found call) (returned : found (.returned queue inner result)) :
    (call.resume queue failure use result).Tells services found call := by
  -- For each pair of a call and a use that go together, the operation is known.
  cases call with
  | enqueue params newId =>
    cases use with
    | enqueue embedding tokens cost =>
      obtain ⟨key, valid, rfl⟩ := runs
      cases result with
      | message id =>
        cases embedding with
        | some embedding => exact ⟨params, newId, key, rfl, valid, returned⟩
        | none => exact ⟨key, id, valid, rfl, returned⟩
      | _ => cases embedding <;> exact True.intro
    | _ => exact runs.elim
  | claim params =>
    cases use with
    | within deadline =>
      obtain rfl := runs
      obtain rfl := opens
      cases result with
      | claimed granted => exact fun _ => ⟨granted, returned, rfl⟩
      | _ => exact True.intro
    | _ => exact runs.elim
  -- An `ack` that is accepted is answered once the embedding is forgotten.
  | ack params =>
    cases use with
    | ack id =>
      obtain ⟨read, rfl⟩ := runs
      obtain rfl := opens
      cases result with
      | answered found =>
        cases found with
        | true => exact ⟨params, id, rfl, rfl, read, returned⟩
        | false => exact ⟨id, read, returned⟩
      | _ => exact True.intro
    | _ => exact runs.elim
  | nack params | checkpoint params | reprocessDeadLetter params | purgeDeadLetter params =>
    cases use with
    | plain =>
      obtain ⟨id, read, rfl⟩ := runs
      obtain rfl := opens
      cases result with
      | answered found => exact ⟨id, read, returned⟩
      | _ => exact True.intro
    | _ => exact runs.elim
  | publishPartialResult params =>
    cases use with
    | plain =>
      obtain ⟨id, read, rfl⟩ := runs
      obtain rfl := opens
      cases result with
      | published sequence => exact ⟨id, read, returned⟩
      | _ => exact True.intro
    | _ => exact runs.elim
  | streamPartialResults params =>
    cases use with
    | within deadline =>
      obtain ⟨id, read, rfl⟩ := runs
      obtain rfl := opens
      cases result with
      | polled poll => cases poll <;> exact .inr ⟨id, read, returned⟩
      | _ => exact True.intro
    | _ => exact runs.elim
  -- A triage annotates first, and then reprocesses what is transient.
  | triageDeadLetter params =>
    cases use with
    | annotate id =>
      obtain ⟨read, triagedAt, rfl⟩ := runs
      obtain rfl := opens
      cases result with
      | answered found =>
        cases found with
        | false => exact ⟨id, read, ⟨triagedAt, returned⟩, by simp⟩
        | true =>
          unfold ToolCall.resume
          dsimp only
          cases verdict : params.classification with
          | transient =>
            -- What the annotation returned is kept for the answer.
            rintro _ ⟨⟩
            exact ⟨id, triagedAt, read, verdict ▸ returned⟩
          | permanent => exact ⟨id, read, ⟨triagedAt, returned⟩, by simp [verdict]⟩
      | _ => exact True.intro
    | plain =>
      obtain ⟨transient, id, read, rfl⟩ := runs
      obtain rfl := opens
      obtain ⟨other, triagedAt, same, annotated⟩ := before params rfl
      obtain rfl := Option.some.inj (same.symm.trans read)
      cases result with
      | answered found =>
        refine ⟨other, read, ⟨triagedAt, annotated⟩, ?_⟩
        rw [if_pos ⟨rfl, transient⟩]
        exact returned
      | _ => exact True.intro
    | _ => exact runs.elim
  | _ => cases use <;> exact runs.elim

end

section

variable {services : Services} {found : Finding J → Prop} {self : Nat} {env : ToolEnv} {server next : Server J}
  {task : ToolTask J} {stage : Stage J}

/-- A step of an operation of the API keys goes on with it, or answers what it returns. -/
theorem ApiKeyStore.toolStep_tells {call : ToolCall J} {store after : ApiKeyStore} {key : KeyTask}
    (own : call.keyCall = some key.call)
    (finds : ∀ store' later result, store.move services.sha256 key = some (store', later) →
      later.stage = .returned result → found (.keys key.call result))
    (stepped : store.toolStep services env key = some (after, stage)) : stage.Tells services found call := by
  -- The two answers are what the last step of a mint or of a revocation returns.
  cases ApiKeyStore.toolStep_moved stepped with
  | refuses | goesOn => exact True.intro
  | @creates store' first second tenant minted taken =>
    obtain ⟨params, rfl, named⟩ := ToolCall.of_keyCall_mint (own.trans (congrArg some minted))
    exact ⟨tenant, named, minted ▸ finds store' _ _ taken rfl⟩
  | @revokes store' rawKey removed revoked taken =>
    obtain ⟨params, rfl, rfl⟩ := ToolCall.of_keyCall_revoke (own.trans (congrArg some revoked))
    have answers := finds store' _ _ taken rfl
    rw [revoked] at answers
    exact answers

/-- A step of an operation of a group goes on with it, or tells what it returns. -/
theorem Server.group_told {come : Call J J → Pc J J → Prop} {faulty : Prop} {caller : Caller} {call : ToolCall J}
    {queue : String} {pc : Pc J J} {use : GroupUse} (serves : ∀ inner pc, come inner pc → pc.serves inner)
    (fits : (Stage.group queue pc use).Fits services come faulty call)
    (told : (Stage.group queue pc use).Tells services found call)
    (finds : ∀ finding, server.Finds services self env ⟨caller, call, .group queue pc use⟩ finding → found finding)
    (moved : server.move services self env ⟨caller, call, .group queue pc use⟩ = some (next, stage)) :
    stage.Tells services found call := by
  obtain ⟨opens, inner, runs, came⟩ := fits
  obtain ⟨group, group', pc', there, step, _, rfl⟩ := Server.move_group services moved
  split
  · rename_i result
    exact ToolCall.resume_tells opens runs told
      (finds _ ⟨pc, use, group, group', rfl, runs, serves inner pc came, there, step⟩)
  · -- The operation goes on, and what the call was told before stands.
    cases use <;> exact told

/-- A step of a call tells what has been found, if what it finds counts as found. -/
theorem Server.move_told {come : Call J J → Pc J J → Prop} {faulty : Prop}
    (serves : ∀ inner pc, come inner pc → pc.serves inner)
    (fits : task.stage.Fits services come faulty task.call) (told : task.stage.Tells services found task.call)
    (finds : ∀ finding, server.Finds services self env task finding → found finding)
    (moved : server.move services self env task = some (next, stage)) : stage.Tells services found task.call := by
  -- Most stages only decide where the call goes on, and tell nothing.
  obtain ⟨caller, call, current⟩ := task
  cases Server.moved_of_move moved with
  | operates | returns => exact Server.group_told serves fits told finds moved
  | gets stepped =>
    obtain ⟨registry, after, got, _, rfl⟩ := Server.getStep_eq_some stepped
    cases after with
    | stage later => exact True.intro
    | returned result =>
      cases result with
      | ok group => exact ToolCall.opened_tells _ _ call
      | error error => exact True.intro
  | trusts | allows => exact ToolCall.start_tells caller call
  | routes => exact getQueue_tells _
  | skips | checksKey => exact ToolCall.checkKey_tells caller _ call
  -- A similar message, once it is found, is the answer.
  | @collapses locals embedding existingId similarity nearest close =>
    obtain ⟨params, newId, rfl, _⟩ := fits
    exact ⟨existingId, similarity, finds _ ⟨locals, embedding, rfl, rfl, close, nearest⟩, rfl, rfl⟩
  | misses =>
    obtain ⟨params, newId, rfl, _⟩ := fits
    exact Enqueueing.fresh_tells _ caller
  | lists | counts => exact sumNext_tells fits
  | throttles own =>
    obtain rfl := own
    exact fun available => by cases available
  -- What the enqueue returned has been kept, and is answered now.
  | remembers =>
    obtain ⟨params, newId, key, rfl, valid, returned⟩ := told
    exact ⟨key, _, valid, rfl, returned⟩
  -- So has been what the `ack` returned.
  | forgets =>
    obtain ⟨params, _, rfl, rfl, read, returned⟩ := told
    exact ⟨_, read, returned⟩
  -- The list is read here.
  | @listsLetters _ group there iterates =>
    obtain ⟨params, rfl, rfl⟩ := fits
    exact finds _ ⟨rfl, group, there, iterates, rfl⟩
  | @managesKey key _ _ stepped =>
    exact ApiKeyStore.toolStep_tells fits
      (fun store' later result taken returned => finds _ ⟨key, store', later, rfl, rfl, taken, returned⟩) stepped
  -- What is set or reported of a configuration is no finding.
  | setsAdmission | setsQuota =>
    obtain rfl := fits
    exact True.intro
  | reportsAdmission | reportsRoutes =>
    obtain ⟨params, rfl⟩ := fits
    exact True.intro
  | _ => exact True.intro

/-- A call whose deadline passes tells nothing of an operation. -/
theorem ToolCall.timedOut_tells (call : ToolCall J) : (call.timedOut : Stage J).Tells services found call := by
  cases call with
  | streamPartialResults params => exact .inl ⟨rfl, rfl⟩
  | claim params => exact fun available => by cases available
  | _ => exact True.intro

end

section

variable {services : Services} {pool next : ServerPool J} {act : ServerAction J}

/-- Every call stands where it can, and tells what has been found. -/
structure ServerPool.Told (services : Services) (found : Nat → Finding J → Prop) (pool : ServerPool J) : Prop where
  served : pool.Served services fun _ => True
  tells : ∀ i (task : ToolTask J), pool.tasks[i]? = some task → task.stage.Tells services (found i) task.call

/-- Every step of the server leaves each call telling what has been found. -/
theorem ServerPool.Told.step {found : Nat → Finding J → Prop} (told : pool.Told services found)
    (finds : ∀ i env task finding, act = .step i env → pool.tasks[i]? = some task →
      pool.shared.Finds services i env task finding → found i finding)
    (taken : pool.step services act = some next) : next.Told services found := by
  -- Where the calls can stand is an invariant of its own; what the other calls tell stays.
  refine ⟨told.served.step (fun _ _ => True.intro) taken, ?_⟩
  cases act with
  | call caller call =>
    obtain ⟨_, same⟩ := Option.ite_none_right_eq_some.mp taken
    obtain rfl := Option.some.inj same
    intro j task there
    rcases found_concat there with before | ⟨_, rfl⟩
    · exact told.tells j task before
    · exact True.intro
  | step i env =>
    obtain ⟨task, server, stage, there, moved, rfl⟩ := (step_eq_some rfl).mp taken
    intro j later here
    rcases found_set there here with ⟨rfl, rfl⟩ | ⟨_, before⟩
    · have onward : stage.Tells services (found j) task.call :=
        Server.move_told (fun _ _ stands => Call.StandsAt.serves stands) (told.served.serves j task there) (told.tells j task there)
          (fun finding finding_ => finds j env task finding rfl there finding_) moved
      exact onward
    · exact told.tells j later before
  | timeout i wrote =>
    obtain ⟨task, server, stage, there, given, rfl⟩ := (step_eq_some rfl).mp taken
    obtain ⟨_, _, _, _, _, _, _, _, _, _, _, rfl⟩ := Server.timeout_eq_some given
    intro j later here
    rcases found_set there here with ⟨rfl, rfl⟩ | ⟨_, before⟩
    · have onward : (task.call.timedOut : Stage J).Tells services (found j) task.call := task.call.timedOut_tells
      exact onward
    · exact told.tells j later before
  | tick elapsed | setWallClock wallClock =>
    obtain rfl := Option.some.inj taken
    exact told.tells

/-- In every run each call tells what its own steps have found. -/
theorem ServerPool.told_of_run {dataDir : Location} {keys : Log KeyRecord} {disk : Disk J} {now : Instant}
    {wallClock : Timestamp} {trace : List (Transition (ServerPool J) (ServerAction J))}
    (run : Run (ServerPool.step services) (fun _ _ => True)
      ⟨.new dataDir keys disk now wallClock, []⟩ trace pool) :
    pool.Told services (ServerPool.Found services trace) := by
  -- What any step of the whole run finds counts as found from the start.
  have finding : Run (ServerPool.step services)
      (fun before act => True ∧ ∀ i env task finding, act = .step i env → before.tasks[i]? = some task →
        before.shared.Finds services i env task finding → ServerPool.Found services trace i finding)
      ⟨.new dataDir keys disk now wallClock, []⟩ trace pool :=
    run.strengthen fun e member i env task finding same there finds => ⟨e, member, env, task, same, there, finds⟩
  have start : ServerPool.Told services (ServerPool.Found services trace)
      (⟨.new dataDir keys disk now wallClock, []⟩ : ServerPool J) :=
    ⟨⟨fun _ _ there => (nomatch there), fun _ _ found => (nomatch found)⟩, fun _ _ there => (nomatch there)⟩
  exact finding.invariant start fun _ _ _ allowed told taken => told.step allowed.2 taken

/-- Every call that ends has been answered what its tool promises, or with an error, which is one of the
server's own only if a step of this very call has met a failure of the file system. What the tool's answer
tells is what a step of this very call has found. -/
theorem ServerPool.answers {dataDir : Location} {keys : Log KeyRecord} {disk : Disk J} {now : Instant}
    {wallClock : Timestamp} {trace : List (Transition (ServerPool J) (ServerAction J))}
    (run : Run (ServerPool.step services) (fun _ _ => True)
      ⟨.new dataDir keys disk now wallClock, []⟩ trace pool) :
    ∀ i (task : ToolTask J) answer, pool.tasks[i]? = some task → task.stage = .done answer →
      task.call.Answers (∃ e ∈ trace, e.act.Fails i) answer ∧
        ∀ given, answer = .ok given → task.call.Tells services (ServerPool.Found services trace i) given := by
  -- Both are known of the stage at which the call ends.
  intro i task answer found ended
  have serves := (ServerPool.served_of_run run).serves i task found
  have tells := (ServerPool.told_of_run run).tells i task found
  rw [ended] at serves tells
  refine ⟨serves, fun given same => ?_⟩
  subst same
  exact tells

end

/-- A message is enqueued, and the record of a second one gets into its file only in part. -/
def failsToWrite : List (ServerAction Unit) :=
  .call none (.plain "orders" () ⟨0⟩) :: ServerAction.run 0 10 ++
    .call none (.plain "orders" () ⟨1⟩) :: ServerAction.run 1 4 ++
    [.step 1 { group := { outcome := .failedTorn }, failure := some "disk full" }]

/-- The answer that tells of the first of the two. -/
def firstEnqueued : ToolResult Unit :=
  .enqueued
    { messageId := MessageId.display ⟨0⟩
      queue := "orders"
      deduplicated := false
      similarity := none
      tokensRemaining := none
      costRemaining := none }

theorem ServerPool.answers_failed :
    ∃ ran ∈ record (ServerPool.step Services.alike) ⟨.new ["data"] {} .empty 0 ⟨0⟩, []⟩ failsToWrite,
      (∃ task ∈ ran.2.tasks[0]?, task.stage.answer = some (.ok firstEnqueued) ∧
        task.call.Tells Services.alike (ServerPool.Found Services.alike ran.1 0) firstEnqueued) ∧
      (∃ task ∈ ran.2.tasks[1]?, task.stage.answer = some (.error (.internalError "disk full"))) ∧
        ∃ e ∈ ran.1, e.act.Fails 1 := by
  -- The run is computed; the theorem then tells of the answers in it.
  have recorded :
      ∃ ran ∈ record (ServerPool.step Services.alike) ⟨.new ["data"] {} .empty 0 ⟨0⟩, []⟩ failsToWrite,
        (∃ task ∈ ran.2.tasks[0]?, task.stage.answer = some (.ok firstEnqueued)) ∧
        ∃ task ∈ ran.2.tasks[1]?, task.stage.answer = some (.error (.internalError "disk full")) := by
    decide +kernel
  obtain ⟨⟨trace, pool⟩, ran, ⟨first, there, told⟩, second, found, answered⟩ := recorded
  have run := run_of_record .nil ran
  exact ⟨(trace, pool), ran,
    ⟨first, there, told, (ServerPool.answers run 0 first _ there (Stage.done_of_answer told)).2 _ rfl⟩,
    ⟨second, found, answered⟩,
    (ServerPool.answers run 1 second _ found (Stage.done_of_answer answered)).1 rfl⟩

end Qaas
