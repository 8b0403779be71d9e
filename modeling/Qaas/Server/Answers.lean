import Qaas.Group.Sound
import Qaas.Server.Authority
import Qaas.Server.Load

/-! Every call runs the operations that its arguments name, and its tool answers it. -/

namespace Qaas

open Concurrency

variable {T V J : Type}

/-- What an operation of a group can return; where nothing may fail, none does. -/
def Call.Returns (faulty : Prop) : Call T V → Result T V → Prop
  | .enqueue _, .message _ | .claim, .claimed _ | .publishPartialResult _ _ _ _, .published _
  | .partialResultsSince _ _, .polled _ => True
  | .ack _ _, .answered _ | .nack _ _ _, .answered _ | .checkpoint _ _ _, .answered _ => True
  | .annotateDeadLetter _ _, .answered _ | .reprocessDeadLetter _, .answered _
  | .purgeDeadLetter _, .answered _ => True
  -- What neither writes nor waits for a write cannot fail, and a claim goes on after an error.
  | .claim, .ioError | .publishPartialResult _ _ _ _, .ioError | .partialResultsSince _ _, .ioError => False
  | _, .ioError => faulty
  | _, _ => False

/-- An operation that is only going to release its key, and to report an error. -/
def Pc.doomed : Pc T V → Bool
  | .releaseKey _ _ .ioError => true
  | _ => false

/-- An operation that is doomed has failed to write its record. -/
theorem Moved.doomed {now : Instant} {wallClock : Timestamp} {env : StepEnv}
    {group group' : ConsumerGroup T V} {pc next : Pc T V}
    (moved : Moved now wallClock env group pc group' next) (doomed : next.doomed = true) :
    env.outcome.acknowledged = false := by
  -- Only a failed enqueue gives its key back to report an error; a purge gives its own back after success.
  have resolves (caller : ResolveCaller T V) :
      caller.next.doomed = false ∧ caller.failed.doomed = false := by
    cases caller with
    | nack => exact ⟨rfl, rfl⟩
    | reclaim rest => cases rest <;> exact ⟨rfl, rfl⟩
  cases moved with
  | enqueueFailed failed => exact failed
  | quiet changed quiet => cases quiet <;> cases doomed
  | retried | deadLetteredWritten => rw [(resolves _).1] at doomed; cases doomed
  | exhaustedFailed | deadLetteredFailed => rw [(resolves _).2] at doomed; cases doomed
  | @removeWritten deadLetter caller synced =>
    cases caller with
    | reprocess => cases doomed
    | purge =>
      unfold TakeCaller.next at doomed
      -- The key that a purge releases goes with an answer, not with an error.
      cases carried : deadLetter.idempotencyKey <;> rw [carried] at doomed <;> cases doomed
  | _ => cases doomed

/-- An operation that ends returns what is its own, or an error if a write of it has failed. -/
theorem Moved.returned {faulty : Prop} {now : Instant} {wallClock : Timestamp} {env : StepEnv}
    {group group' : ConsumerGroup T V} {call : Call T V} {pc next : Pc T V} {result : Result T V}
    (moved : Moved now wallClock env group pc group' next) (ended : next = .done result)
    (serves : pc.serves call) (failed : env.outcome.acknowledged = false → faulty) (doomed : pc.doomed = true → faulty) :
    call.Returns faulty result := by
  -- The steps that end an operation fix both its call, by what the operation serves, and the result.
  cases moved with
  | quiet changed quiet =>
    cases quiet with
    | notifyOne result =>
      obtain rfl := Pc.done.inj ended
      -- Four operations end by waking somebody up.
      rcases serves with ⟨_, rfl, rfl⟩ | ⟨_, rfl, rfl⟩ | ⟨_, _, _, rfl, rfl⟩ | ⟨_, rfl, rfl⟩ <;> trivial
    | notifyPublished sequence =>
      obtain rfl := Pc.done.inj ended
      obtain ⟨_, _, _, _, rfl⟩ := serves
      trivial
    | nackStale | checkStale | storeStale | publishStale | polled | entryMissing =>
      obtain rfl := Pc.done.inj ended
      obtain rfl := serves
      trivial
    | takeMissing id caller =>
      obtain rfl := Pc.done.inj ended
      cases caller <;> obtain rfl := serves <;> trivial
    | _ => cases ended
  | reserveHit found =>
    obtain rfl := Pc.done.inj ended
    obtain ⟨rfl, _⟩ := serves
    trivial
  | @enqueueFailed message caller unsynced =>
    unfold releaseThenFail at ended
    split at ended
    · cases ended
    · obtain rfl := Pc.done.inj ended
      cases caller <;> obtain rfl := serves <;> exact failed unsynced
  -- A key is given back after a failed enqueue, or at the end of a purge.
  | releaseKey =>
    obtain rfl := Pc.done.inj ended
    rcases serves with ⟨message, caller, own, _, _, rfl⟩ | ⟨rfl, rfl⟩
    · cases caller <;> obtain rfl := own <;> exact doomed rfl
    · trivial
  | @retried _ caller | @deadLetteredWritten _ caller =>
    match caller with
    | .nack | .reclaim [] | .reclaim (_ :: _) => cases ended
  -- A sweep goes on where a `nack` reports the error.
  | @exhaustedFailed _ caller _ unsynced | @deadLetteredFailed _ caller unsynced =>
    match caller with
    | .nack =>
      obtain rfl := Pc.done.inj ended
      obtain ⟨_, _, rfl⟩ := serves
      exact failed unsynced
    | .reclaim [] | .reclaim (_ :: _) => cases ended
  | ackStale stale | checkpointStored active | verdictStored found =>
    obtain rfl := Pc.done.inj ended
    obtain rfl := serves
    trivial
  | ackWritten synced =>
    obtain rfl := Pc.done.inj ended
    obtain ⟨_, rfl⟩ := serves
    trivial
  | ackFailed unsynced =>
    obtain rfl := Pc.done.inj ended
    obtain ⟨_, rfl⟩ := serves
    exact failed unsynced
  | checkpointFailed unsynced | annotateFailed unsynced =>
    obtain rfl := Pc.done.inj ended
    obtain rfl := serves
    exact failed unsynced
  | @removeWritten deadLetter caller synced =>
    cases caller with
    | reprocess => cases ended
    | purge =>
      unfold TakeCaller.next at ended
      cases carried : deadLetter.idempotencyKey with
      | some key =>
        rw [carried] at ended
        cases ended
      | none =>
        rw [carried] at ended
        obtain rfl := Pc.done.inj ended
        obtain rfl := serves
        trivial
  | @removeFailed _ caller unsynced =>
    obtain rfl := Pc.done.inj ended
    cases caller <;> obtain rfl := serves <;> exact failed unsynced
  | _ => cases ended

/-- The queues that a call can come to open: the one that it names, or any if it leaves that to its
embedding. -/
def ToolCall.Opens (queue : String) : ToolCall J → Prop
  | .enqueue params _ => ∀ named ∈ params.queue, named = queue
  | .claim params => params.queue = queue
  | .ack params => params.queue = queue
  | .nack params => params.queue = queue
  | .checkpoint params => params.queue = queue
  | .publishPartialResult params => params.queue = queue
  | .streamPartialResults params => params.queue = queue
  | .listDeadLetters params => params.queue = queue
  | .triageDeadLetter params => params.queue = queue
  | .reprocessDeadLetter params => params.queue = queue
  | .purgeDeadLetter params => params.queue = queue
  | _ => False

/-- The operations that a call runs in its queue's group, each with what the call's arguments name. -/
def ToolCall.Runs (services : Services) (inner : Call J J) : ToolCall J → GroupUse → Prop
  | .enqueue params newId, .enqueue _ _ _ =>
    ∃ key, params.key = .ok key ∧ inner = .enqueue ⟨newId, params.payload, key⟩
  | .claim _, .within _ => inner = .claim
  | .ack params, .ack id =>
    services.readId params.messageId = some id ∧ inner = .ack id ⟨params.leaseToken⟩
  | .nack params, .plain =>
    ∃ id, services.readId params.messageId = some id ∧ inner = .nack id ⟨params.leaseToken⟩ params.reason
  | .checkpoint params, .plain =>
    ∃ id, services.readId params.messageId = some id ∧
      inner = .checkpoint id ⟨params.leaseToken⟩ params.state
  | .publishPartialResult params, .plain =>
    ∃ id, services.readId params.messageId = some id ∧
      inner = .publishPartialResult id ⟨params.leaseToken⟩ params.data (params.isFinal.getD false)
  | .streamPartialResults params, .within _ =>
    ∃ id, services.readId params.messageId = some id ∧
      inner = .partialResultsSince id (params.afterSequence.getD 0)
  | .triageDeadLetter params, .annotate id =>
    services.readId params.messageId = some id ∧
      ∃ triagedAt, inner = .annotateDeadLetter id ⟨params.classification, params.reason, triagedAt⟩
  | .triageDeadLetter params, .plain =>
    params.classification = .transient ∧
      ∃ id, services.readId params.messageId = some id ∧ inner = .reprocessDeadLetter id
  | .reprocessDeadLetter params, .plain =>
    ∃ id, services.readId params.messageId = some id ∧ inner = .reprocessDeadLetter id
  | .purgeDeadLetter params, .plain =>
    ∃ id, services.readId params.messageId = some id ∧ inner = .purgeDeadLetter id
  | _, _ => False

/-- What a call is answered with: what its tool promises, or an error, which is the server's own only if
something has failed. -/
def ToolCall.Answers (faulty : Prop) (call : ToolCall J) (answer : Except ErrorData (ToolResult J)) : Prop :=
  match call, answer with
  | _, .error error => error.code = .internalError → faulty
  | .enqueue params _, .ok (.enqueued result) =>
    (∀ named ∈ params.queue, named = result.queue) ∧ result.deduplicated = result.similarity.isSome
  | .claim _, .ok (.claimed result) =>
    result.messageId.isSome = result.available ∧ result.leaseToken.isSome = result.available ∧
      result.payload.isSome = result.available ∧ (result.throttled = true → result.available = false)
  | .publishPartialResult _, .ok (.published published sequence) => published = sequence.isSome
  | .streamPartialResults _, .ok (.streamed active chunks) => active = false → chunks = []
  | .triageDeadLetter params, .ok (.triaged annotated reprocessed) =>
    reprocessed = true → annotated = true ∧ params.classification = .transient
  | .createApiKey params first second, .ok (.keyCreated apiKey tenantId) =>
    apiKey = generateRawKey first second ∧ tenantId = params.tenantId
  | .ack _, .ok (.acked _) | .nack _, .ok (.nacked _) | .checkpoint _, .ok (.checkpointed _) => True
  | .configureAdmission _, .ok (.admissionConfigured _) => True
  | .admissionStatus _, .ok (.admissionReported _) | .configureRoute _, .ok (.routed _) => True
  | .listDeadLetters _, .ok (.deadLetters _) | .reprocessDeadLetter _, .ok (.reprocessed _) => True
  | .purgeDeadLetter _, .ok (.purged _) | .revokeApiKey _, .ok (.keyRevoked _) => True
  | .configureTenantQuota _, .ok (.quotaConfigured _) | .tenantQuotaStatus _, .ok (.quotaReported _) => True
  | _, _ => False

/-- A call has come to a queue by way of an enqueue. -/
def ToolCall.Enqueues (queue : String) (call : ToolCall J) : Prop :=
  ∃ params newId, call = .enqueue params newId ∧ ∀ named ∈ params.queue, named = queue

/-- The local variables are those of an enqueue. -/
def Enqueueing.Serves (call : ToolCall J) (locals : Enqueueing) : Prop :=
  ∃ params newId, call = .enqueue params newId ∧ (∀ named ∈ params.queue, named = locals.queue) ∧
    params.key = .ok locals.key

/-- What a count of pending messages is for is the call's own. -/
def PendingUse.Serves (call : ToolCall J) : PendingUse → Prop
  | .ceiling locals _ => locals.Serves call
  | .status _ _ _ => ∃ params, call = .tenantQuotaStatus params

/-- The calls that can stand at a stage, and what its local variables say about them; how far an
operation of theirs can have come is left open. -/
def Stage.Fits (services : Services) (come : Call J J → Pc J J → Prop) (faulty : Prop) (call : ToolCall J) :
    Stage J → Prop
  | .authorize => True
  | .route _ => ∃ params newId, call = .enqueue params newId ∧ params.queue = none
  | .get queue _ => call.Opens queue
  | .admissionEntry queue _ | .dedupEntry queue _ | .remember queue _ _ _ _ => call.Enqueues queue
  | .nearest locals _ | .pendingCeiling locals | .tryAdmit locals => locals.Serves call
  | .listPending _ use | .sumPending _ use _ _ _ => use.Serves call
  | .group queue pc use => call.Opens queue ∧ ∃ inner, call.Runs services inner use ∧ come inner pc
  | .headroom queue => ∃ params, call = .claim params ∧ params.queue = queue
  | .forget _ _ => ∃ params, call = .ack params
  | .setAdmission params => call = .configureAdmission params
  | .admissionConfig _ | .admissionUsage _ _ => ∃ params, call = .admissionStatus params
  | .insertRoute _ _ | .routeKeys => ∃ params, call = .configureRoute params
  | .deadLetters queue => ∃ params, call = .listDeadLetters params ∧ params.queue = queue
  | .key task => call.keyCall = some task.call
  | .setQuota _ params => call = .configureTenantQuota params
  | .quotaConfig _ | .quotaRequests _ _ | .quotaQueues _ _ _ => ∃ params, call = .tenantQuotaStatus params
  | .done answer => call.Answers faulty answer

/-- An operation stands at a step of its own, and is doomed only if something has failed. -/
structure Call.StandsAt (faulty : Prop) (call : Call T V) (pc : Pc T V) : Prop where
  running : ∀ result, pc ≠ .done result
  doomed : pc.doomed = true → faulty
  serves : pc.serves call

/-- An operation begins at a step of its own, with nothing wrong. -/
theorem Call.standsAt_entry (faulty : Prop) (call : Call T V) : call.StandsAt faulty call.entry := by
  -- An enqueue begins with its reservation or its record, never with a release.
  refine ⟨fun result => Call.entry_ne_done call result, fun doomed => ?_, Call.entry_serves call⟩
  cases call with
  | enqueue message =>
    unfold Call.entry at doomed
    cases keyed : message.idempotencyKey <;> simp [keyed, Pc.doomed] at doomed
  | _ => cases doomed

/-- The calls that can stand at a stage, with each operation at a step of its own. -/
abbrev Stage.Serves (services : Services) (faulty : Prop) (call : ToolCall J) (stage : Stage J) : Prop :=
  stage.Fits services (Call.StandsAt faulty) faulty call

section

variable {services : Services} {come : Call J J → Pc J J → Prop} {faulty : Prop} {call : ToolCall J}

theorem Stage.Fits.proceed {A : Type} {value : Except ErrorData A} {next : A → Stage J}
    (mild : ∀ error, value = .error error → error.code ≠ .internalError)
    (serves : ∀ given, value = .ok given → (next given).Fits services come faulty call) :
    (Qaas.proceed value next).Fits services come faulty call := by
  cases value with
  | ok given => exact serves given rfl
  | error error => exact fun internal => absurd internal (mild error rfl)

theorem validateQueueName_mild {name : String} (error : ErrorData)
    (refused : validateQueueName name = .error error) : error.code ≠ .internalError := by
  -- What is wrong with a name is the caller's doing.
  unfold validateQueueName at refused
  split at refused
  · cases refused
  · obtain rfl := Except.error.inj refused
    exact fun internal => by cases internal

theorem validEmbedding_mild {values : List (Option ℚ)} (error : ErrorData)
    (refused : validEmbedding values = .error error) : error.code ≠ .internalError := by
  -- So is what is wrong with a vector.
  unfold validEmbedding at refused
  split at refused
  · cases refused
  · obtain rfl := Except.error.inj refused
    exact fun internal => by cases internal

theorem validTenant_mild {value : String} (error : ErrorData)
    (refused : validTenant value = .error error) : error.code ≠ .internalError := by
  -- And with the identifier of a tenant.
  unfold validTenant at refused
  split at refused
  · cases refused
  · obtain rfl := Except.error.inj refused
    exact fun internal => by cases internal

theorem parseMessageId_mild {value : String} (error : ErrorData)
    (refused : parseMessageId services value = .error error) : error.code ≠ .internalError := by
  -- And with the id of a message.
  unfold parseMessageId at refused
  split at refused
  · cases refused
  · obtain rfl := Except.error.inj refused
    exact fun internal => by cases internal

theorem EnqueueParams.vector_mild {params : EnqueueParams J} (error : ErrorData)
    (refused : params.vector = .error error) : error.code ≠ .internalError := by
  -- A call without an embedding has none that could be refused.
  unfold EnqueueParams.vector at refused
  split at refused
  · rename_i values _
    cases valid : validEmbedding values with
    | ok embedding =>
      rw [valid] at refused
      cases refused
    | error other =>
      rw [valid] at refused
      obtain rfl := Except.error.inj refused
      exact validEmbedding_mild other valid
  · cases refused

theorem EnqueueParams.key_mild {params : EnqueueParams J} (error : ErrorData)
    (refused : params.key = .error error) : error.code ≠ .internalError := by
  -- Only an empty key is refused.
  unfold EnqueueParams.key at refused
  split at refused
  · split at refused
    · cases refused
    · obtain rfl := Except.error.inj refused
      exact fun internal => by cases internal
  · cases refused

theorem parseMessageId_ok {value : String} {id : MessageId} (read : parseMessageId services value = .ok id) :
    services.readId value = some id := by
  -- Reading the text is all that the check does.
  unfold parseMessageId at read
  split at read
  · rename_i found
    exact Except.ok.inj read ▸ found
  · cases read

theorem Stage.Fits.getQueue {name : String} (opens : call.Opens name) :
    (Qaas.getQueue name : Stage J).Fits services come faulty call :=
  .proceed validateQueueName_mild fun _ _ => opens

/-- Once it is authorized, a call goes on to what its arguments name. -/
theorem ToolCall.start_fits (caller : Caller) (call : ToolCall J) :
    (call.start caller).Fits services come faulty call := by
  -- What a call starts with is known from the call; where its arguments are refused the caller is told so.
  have refused {tool : String} : (Stage.done (.error (stdioOnly tool)) : Stage J).Fits services come faulty call :=
    fun internal => by cases internal
  cases call with
  | claim | ack | nack | checkpoint | publishPartialResult | streamPartialResults | listDeadLetters
  | triageDeadLetter | reprocessDeadLetter | purgeDeadLetter => exact .getQueue rfl
  | enqueue params newId =>
    refine .proceed EnqueueParams.vector_mild fun embedding _ => ?_
    -- Without a queue of its own the call is routed by its embedding.
    cases named : params.queue with
    | some queue => exact .getQueue fun other same => Option.some.inj (same.symm.trans named)
    | none =>
      cases embedding with
      | some embedding => exact ⟨params, newId, rfl, named⟩
      | none => exact fun internal => by cases internal
  | configureAdmission params => exact .proceed validateQueueName_mild fun _ _ => rfl
  | admissionStatus params => exact .proceed validateQueueName_mild fun _ _ => ⟨params, rfl⟩
  | configureRoute params =>
    exact .proceed validateQueueName_mild fun _ _ => .proceed validEmbedding_mild fun _ _ => ⟨params, rfl⟩
  -- The tools that manage keys and quotas are for the operator only.
  | createApiKey params first second =>
    cases caller with
    | some tenant => exact refused
    | none =>
      refine .proceed validTenant_mild fun tenant valid => ?_
      show (validTenant params.tenantId).toOption.map (KeyCall.mint first second) = some _
      rw [valid]
      rfl
  | revokeApiKey params =>
    cases caller with
    | some tenant => exact refused
    | none => exact rfl
  | configureTenantQuota params =>
    cases caller with
    | some tenant => exact refused
    | none => exact .proceed validTenant_mild fun _ _ => rfl
  | tenantQuotaStatus params =>
    obtain ⟨tenantId⟩ := params
    cases caller with
    | some tenant => exact ⟨_, rfl⟩
    | none =>
      cases tenantId with
      | none => exact fun internal => by cases internal
      | some named => exact .proceed validTenant_mild fun _ _ => ⟨_, rfl⟩

/-- An operation that a call runs begins at its first step. -/
theorem Stage.Fits.runGroup (begins : ∀ inner : Call J J, come inner inner.entry)
    {queue : String}
    {inner : Call J J} {use : GroupUse} (opens : call.Opens queue) (runs : call.Runs services inner use) :
    (Qaas.runGroup queue inner use : Stage J).Fits services come faulty call :=
  ⟨opens, inner, runs, begins inner⟩

/-- With its queue open, a call goes on to that queue. -/
theorem ToolCall.opened_fits (begins : ∀ inner : Call J J, come inner inner.entry)
    {queue : String} (opens : call.Opens queue) (now : Instant)
    (wallClock : Timestamp) : (call.opened services queue now wallClock).Fits services come faulty call := by
  -- The ids in a call are read before its operation begins.
  cases call with
  | enqueue params newId =>
    exact .proceed EnqueueParams.vector_mild fun _ _ => ⟨params, newId, rfl, opens⟩
  | claim params => exact ⟨params, rfl, opens⟩
  | listDeadLetters params => exact ⟨params, rfl, opens⟩
  | ack params =>
    exact .proceed parseMessageId_mild fun _ read => .runGroup begins opens ⟨parseMessageId_ok read, rfl⟩
  | nack | checkpoint | publishPartialResult | streamPartialResults | reprocessDeadLetter
  | purgeDeadLetter =>
    exact .proceed parseMessageId_mild fun id read => .runGroup begins opens ⟨id, parseMessageId_ok read, rfl⟩
  | triageDeadLetter params =>
    exact .proceed parseMessageId_mild fun id read => .runGroup begins opens ⟨parseMessageId_ok read, _, rfl⟩
  | _ => exact opens.elim

theorem Enqueueing.Serves.fresh {locals : Enqueueing} (serves : locals.Serves call) (caller : Caller) :
    (locals.fresh caller : Stage J).Fits services come faulty call := by
  unfold Enqueueing.fresh
  split <;> exact serves

theorem ToolCall.Enqueues.checkKey {queue : String} (enqueues : call.Enqueues queue) (caller : Caller)
    (embedding : Option Embedding) :
    (call.checkKey caller queue embedding).Fits services come faulty call := by
  -- With the key valid, all that an enqueue carries along is known.
  obtain ⟨params, newId, rfl, named⟩ := enqueues
  refine .proceed EnqueueParams.key_mild fun key valid => ?_
  have serves (embedding : Option Embedding) :
      Enqueueing.Serves (.enqueue params newId) ⟨queue, embedding, key⟩ := ⟨params, newId, rfl, named, valid⟩
  cases embedding with
  | some vector => exact serves _
  | none => exact (serves none).fresh caller

theorem PendingUse.Serves.counted {use : PendingUse} (serves : use.Serves call) (tenant : TenantId)
    (current : UInt64) : (use.counted tenant current : Stage J).Fits services come faulty call := by
  -- The count is for the ceiling of an enqueue, or for a report.
  cases use with
  | ceiling locals maxPending =>
    unfold PendingUse.counted
    dsimp only
    split
    · exact fun internal => by cases internal
    · exact serves
  | status config requests queues =>
    obtain ⟨params, rfl⟩ := serves
    exact True.intro

theorem PendingUse.Serves.sumNext {use : PendingUse} (serves : use.Serves call) (tenant : TenantId)
    (total : UInt64) (keys : List String) :
    (Qaas.sumNext tenant use total keys : Stage J).Fits services come faulty call := by
  cases keys with
  | nil => exact serves.counted tenant total
  | cons key rest => exact serves

/-- An operation that fails makes its call fail, on the server's side. -/
theorem Stage.Fits.failed {error : String} (failed : faulty) :
    (Stage.done (.error (ioErrorToMcp error)) : Stage J).Fits services come faulty call :=
  fun _ => failed

/-- What an operation of a call returns is made into what the call's tool promises. -/
theorem ToolCall.resume_fits (begins : ∀ inner : Call J J, come inner inner.entry)
    {queue : String} {failure : Option String} {use : GroupUse} {inner : Call J J}
    {result : Result J J} (opens : call.Opens queue) (runs : call.Runs services inner use)
    (returns : inner.Returns faulty result) :
    (call.resume queue failure use result).Fits services come faulty call := by
  -- For each pair of a call and a use that go together, the operation is known, and so is its result.
  cases call with
  | enqueue params newId =>
    cases use with
    | enqueue embedding tokens cost =>
      obtain ⟨key, _, rfl⟩ := runs
      cases result with
      | message id =>
        cases embedding with
        | some embedding => exact ⟨params, newId, rfl, opens⟩
        | none => exact ⟨opens, rfl⟩
      | ioError => cases embedding <;> exact .failed returns
      | _ => exact returns.elim
    | _ => exact runs.elim
  -- A claim returns a message, or goes on waiting until its deadline.
  | claim params =>
    cases use with
    | within deadline =>
      obtain rfl := runs
      cases result with
      | claimed granted => exact ⟨rfl, rfl, rfl, fun throttled => by cases throttled⟩
      | _ => exact returns.elim
    | _ => exact runs.elim
  | ack params =>
    cases use with
    | ack id =>
      obtain ⟨_, rfl⟩ := runs
      cases result with
      | answered found =>
        cases found with
        | true => exact ⟨params, rfl⟩
        | false => exact True.intro
      | ioError => exact .failed returns
      | _ => exact returns.elim
    | _ => exact runs.elim
  | nack params | checkpoint params | reprocessDeadLetter params | purgeDeadLetter params =>
    cases use with
    | plain =>
      obtain ⟨_, _, rfl⟩ := runs
      cases result with
      | answered found => exact True.intro
      | ioError => exact .failed returns
      | _ => exact returns.elim
    | _ => exact runs.elim
  | publishPartialResult params =>
    cases use with
    | plain =>
      obtain ⟨_, _, rfl⟩ := runs
      cases result with
      | published sequence => exact rfl
      | _ => exact returns.elim
    | _ => exact runs.elim
  | streamPartialResults params =>
    cases use with
    | within deadline =>
      obtain ⟨_, _, rfl⟩ := runs
      cases result with
      | polled poll =>
        cases poll with
        | chunks chunks => exact fun inactive => by cases inactive
        | notActive => exact fun _ => rfl
      | _ => exact returns.elim
    | _ => exact runs.elim
  -- A triage annotates first, and then reprocesses what is transient.
  | triageDeadLetter params =>
    cases use with
    | annotate id =>
      obtain ⟨read, _, rfl⟩ := runs
      cases result with
      | answered found =>
        cases found with
        | false => exact fun reprocessed => by cases reprocessed
        | true =>
          -- A transient failure is reprocessed next.
          unfold ToolCall.resume
          dsimp only
          cases verdict : params.classification with
          | transient => exact .runGroup begins opens ⟨verdict, id, read, rfl⟩
          | permanent => exact fun reprocessed => by cases reprocessed
      | ioError => exact .failed returns
      | _ => exact returns.elim
    | plain =>
      obtain ⟨transient, _, _, rfl⟩ := runs
      cases result with
      | answered found => exact fun _ => ⟨rfl, transient⟩
      | ioError => exact .failed returns
      | _ => exact returns.elim
    | _ => exact runs.elim
  | _ => cases use <;> exact runs.elim

/-- A call whose deadline passes is answered as its tool promises. -/
theorem ToolCall.timedOut_fits {inner : Call J J} {deadline : Instant}
    (runs : call.Runs services inner (.within deadline)) :
    (call.timedOut : Stage J).Fits services come faulty call := by
  cases call with
  | claim params => exact ⟨rfl, rfl, rfl, fun _ => rfl⟩
  | streamPartialResults params => exact fun inactive => by cases inactive
  | _ => exact runs.elim

theorem asStr_of_validTenant {value : String} {tenant : TenantId} (valid : validTenant value = .ok tenant) :
    tenant.asStr = value := by
  -- A valid identifier is kept as it was given.
  unfold validTenant at valid
  cases named : TenantId.new value with
  | ok other =>
    rw [named] at valid
    obtain rfl := Except.ok.inj valid
    exact TenantId.new_eq_ok.mp named
  | error error =>
    rw [named] at valid
    cases valid

/-- The tenant of a key is the one that its call names. -/
theorem ToolCall.of_keyCall_mint {first second : BitVec 128} {tenant : TenantId}
    (own : call.keyCall = some (.mint first second tenant)) :
    ∃ params, call = .createApiKey params first second ∧ tenant.asStr = params.tenantId := by
  -- Only one tool mints, and only for a tenant whose identifier is valid.
  cases call with
  | createApiKey params a b =>
    cases valid : validTenant params.tenantId with
    | error error =>
      have own : (validTenant params.tenantId).toOption.map (KeyCall.mint a b) = some _ := own
      rw [valid] at own
      cases own
    | ok named =>
      have own : (validTenant params.tenantId).toOption.map (KeyCall.mint a b) = some _ := own
      rw [valid] at own
      obtain ⟨rfl, rfl, rfl⟩ := KeyCall.mint.inj (Option.some.inj own)
      exact ⟨params, rfl, asStr_of_validTenant valid⟩
  | revokeApiKey params => cases own
  | _ => cases own

/-- Only one tool runs a revocation. -/
theorem ToolCall.of_keyCall_revoke {rawKey : String} (own : call.keyCall = some (.revoke rawKey)) :
    ∃ params, call = .revokeApiKey params ∧ params.apiKey = rawKey := by
  -- The other tool that manages keys mints.
  cases call with
  | revokeApiKey params => exact ⟨params, rfl, KeyCall.revoke.inj (Option.some.inj own)⟩
  | createApiKey params first second =>
    obtain ⟨tenant, _, same⟩ := Option.map_eq_some_iff.mp own
    cases same
  | _ => cases own

/-- A step of an operation of the API keys goes on with it, or answers its call. -/
theorem ApiKeyStore.toolStep_fits {env : ToolEnv} {store next : ApiKeyStore} {key : KeyTask}
    {stage : Stage J} (own : call.keyCall = some key.call) (failed : env.group.outcome.acknowledged = false → faulty)
    (stepped : store.toolStep services env key = some (next, stage)) :
    stage.Fits services come faulty call := by
  -- An error is the server's own here, and the write has failed that it reports.
  cases ApiKeyStore.toolStep_moved stepped with
  | refuses _ refused => exact .failed (failed refused)
  | creates minted =>
    obtain ⟨params, rfl, named⟩ := ToolCall.of_keyCall_mint (own.trans (congrArg some minted))
    exact ⟨rfl, named⟩
  | revokes revoked =>
    obtain ⟨params, rfl, _⟩ := ToolCall.of_keyCall_revoke (own.trans (congrArg some revoked))
    exact True.intro
  | goesOn => exact own

/-- The steps of `get` lead to each other, to what the call goes on with, or to its failure. -/
theorem Server.getStep_fits (begins : ∀ inner : Call J J, come inner inner.entry)
    {self : Nat} {env : ToolEnv} {server next : Server J} {task : ToolTask J}
    {queue : String} {stage : Stage J} {at_ : GetStage} (opens : task.call.Opens queue)
    (failed : env.failure.isSome → faulty)
    (moved : server.getStep services self env task queue at_ = some (next, stage)) :
    stage.Fits services come faulty task.call := by
  obtain ⟨registry, after, got, _, rfl⟩ := Server.getStep_eq_some moved
  cases after with
  | stage later => exact opens
  | returned result =>
    cases result with
    | ok group => exact ToolCall.opened_fits begins opens _ _
    | error error =>
      intro internal
      refine failed ?_
      -- A queue too many is refused, and all else that can go wrong is the file system's doing.
      cases at_ with
      | lookup =>
        simp only [QueueRegistry.get] at got
        split at got
        · cases got
        · split at got <;> cases got
      | ceiling =>
        simp only [QueueRegistry.get] at got
        split at got
        · cases got
        · split at got
          · obtain ⟨_, same⟩ := Prod.mk.inj (Option.some.inj got)
            obtain rfl := Except.error.inj (GetNext.returned.inj same)
            cases internal
          · cases got
      | createDir | openWal | openDlq =>
        simp only [QueueRegistry.get] at got
        split at got
        · rename_i fault
          rw [fault]
          rfl
        · cases got

/-- A step of a call that runs no operation of a group leads to a stage that fits the call, where what
operation there is begins at its first step. -/
theorem Server.move_fits {before come : Call J J → Pc J J → Prop}
    (begins : ∀ inner : Call J J, come inner inner.entry)
    {self : Nat} {env : ToolEnv}
    {server next : Server J} {task : ToolTask J} {stage : Stage J}
    (ungrouped : ∀ queue pc use, task.stage ≠ .group queue pc use)
    (fits : task.stage.Fits services before faulty task.call)
    (failed : env.failure.isSome ∨ env.group.outcome.acknowledged = false → faulty)
    (moved : server.move services self env task = some (next, stage)) :
    stage.Fits services come faulty task.call := by
  obtain ⟨caller, call, current⟩ := task
  -- A refusal fits whatever was asked for, and elsewhere the call goes on as it has begun.
  have refused {reason : String} {retryAfter : Option Duration} :
      (Stage.done (.error (throttledToMcp reason retryAfter)) : Stage J).Fits services come faulty call :=
    fun internal => by cases internal
  cases Server.moved_of_move moved with
  | gets stepped => exact Server.getStep_fits begins fits (fun fault => failed (.inl fault)) stepped
  | operates | returns => exact absurd rfl (ungrouped _ _ _)
  | trusts | allows => exact ToolCall.start_fits caller call
  | refuses | denies => exact refused
  | routes =>
    obtain ⟨params, newId, rfl, unnamed⟩ := fits
    -- A routed call has named no queue, so any may be opened for it.
    exact .getQueue fun named same => by
      rw [unnamed] at same
      cases same
  | strays => exact fun internal => by cases internal
  | skips => exact fits.checkKey caller none
  | checksKey => exact ToolCall.Enqueues.checkKey fits caller _
  | collapses =>
    -- The task is a duplicate, and the call is answered with the message found.
    obtain ⟨params, newId, rfl, named, _⟩ := fits
    exact ⟨named, rfl⟩
  | misses => exact Enqueueing.Serves.fresh fits caller
  -- Counting goes on for what it was begun for.
  | lists => exact PendingUse.Serves.sumNext fits _ 0 _
  | counts => exact PendingUse.Serves.sumNext fits _ _ _
  -- The enqueue is admitted and begins its operation.
  | @admits locals params newId _ _ own =>
    obtain rfl := own
    obtain ⟨_, _, same, named, valid⟩ := fits
    obtain ⟨rfl, rfl⟩ := ToolCall.enqueue.inj same
    exact .runGroup begins named ⟨locals.key, valid, rfl⟩
  | remembers =>
    obtain ⟨params, newId, rfl, named⟩ := fits
    exact ⟨named, rfl⟩
  | claims own =>
    obtain rfl := own
    obtain ⟨_, same, named⟩ := fits
    obtain rfl := ToolCall.claim.inj same
    exact .runGroup begins named rfl
  | throttles own =>
    obtain rfl := own
    exact ⟨rfl, rfl, rfl, fun _ => rfl⟩
  | forgets =>
    obtain ⟨params, rfl⟩ := fits
    exact True.intro
  | listsLetters =>
    obtain ⟨params, rfl, _⟩ := fits
    exact True.intro
  | managesKey stepped => exact ApiKeyStore.toolStep_fits fits (fun fault => failed (.inr fault)) stepped
  | countsQueues =>
    obtain ⟨params, rfl⟩ := fits
    exact ⟨params, rfl⟩
  | setsAdmission | setsQuota =>
    obtain rfl := fits
    exact True.intro
  | reportsAdmission | reportsRoutes =>
    obtain ⟨params, rfl⟩ := fits
    exact True.intro
  -- The next access of the same call serves it as well.
  | _ => exact fits

/-- A step of a call that runs an operation of a group goes on with it, or with what it returns. -/
theorem Server.group_serves {self : Nat} {env : ToolEnv} {server next : Server J} {caller : Caller}
    {queue : String} {pc : Pc J J} {use : GroupUse} {stage : Stage J}
    (serves : (Stage.group queue pc use).Serves services faulty call)
    (sourced : ∀ key group, server.registry.groups.lookup key = some group → Sourced (fun _ => True) group)
    (failed : env.group.outcome.acknowledged = false → faulty)
    (moved : server.move services self env ⟨caller, call, .group queue pc use⟩ = some (next, stage)) :
    stage.Serves services faulty call := by
  -- Either the operation has returned, or it stands at its next step.
  obtain ⟨opens, inner, runs, stands⟩ := serves
  obtain ⟨group, group', pc', found, step, _, rfl⟩ := Server.move_group services moved
  have moved := move_moved step
  split
  · exact ToolCall.resume_fits (Call.standsAt_entry faulty) opens runs
      (moved.returned rfl stands.serves failed stands.doomed)
  · rename_i running
    exact ⟨opens, inner, runs, fun result ended => running result ended,
      fun doomed => failed (moved.doomed doomed), moved.serves (sourced _ group found) stands.serves⟩

/-- Every step of a call leads to a stage that fits the call. -/
theorem Server.move_serves {self : Nat} {env : ToolEnv} {server next : Server J} {task : ToolTask J}
    {stage : Stage J} (serves : task.stage.Serves services faulty task.call)
    (sourced : ∀ key group, server.registry.groups.lookup key = some group → Sourced (fun _ => True) group)
    (failed : env.failure.isSome ∨ env.group.outcome.acknowledged = false → faulty)
    (moved : server.move services self env task = some (next, stage)) :
    stage.Serves services faulty task.call := by
  -- A stage that runs an operation of a group keeps to it; every other one may begin one.
  by_cases grouped : ∃ queue pc use, task.stage = .group queue pc use
  · obtain ⟨caller, call, current⟩ := task
    obtain ⟨queue, pc, use, rfl⟩ := grouped
    exact Server.group_serves serves sourced (fun fault => failed (.inr fault)) moved
  · exact Server.move_fits (Call.standsAt_entry faulty)
      (fun queue pc use same => grouped ⟨queue, pc, use, same⟩) serves failed moved

end

/-- Whatever its logs hold, an opened group has each dead letter under its own id. -/
theorem sourced_of_logs (wal : Log (WalRecord T V)) (dlqWal : Log (DlqRecord T V))
    (visibilityTimeout : Duration) (retryPolicy : RetryPolicy) (order : List MessageId) :
    Sourced (fun _ => True) (ConsumerGroup.opened wal dlqWal visibilityTimeout retryPolicy order) := by
  -- A group that holds nothing yet is sourced, whatever its logs are.
  let blank : ConsumerGroup T V :=
    ⟨⟨[], ∅, [], ∅⟩, {}, wal, ⟨∅, dlqWal⟩, visibilityTimeout, retryPolicy, 0⟩
  have sourced : Sourced (fun _ => True) blank :=
    { pending := fun _ _ => trivial, leased := fun _ _ _ => trivial, delayed := fun _ _ => trivial,
      entries := fun _ _ found => by cases found
      wal := fun _ _ _ _ => trivial, dlqWal := fun _ _ => trivial
      dedup := fun _ _ found => by cases found }
  exact sourced.opened visibilityTimeout retryPolicy order

/-- A running operation leaves each dead letter under its own id. -/
theorem Moved.sourced_anyhow {now : Instant} {wallClock : Timestamp} {env : StepEnv}
    {group group' : ConsumerGroup T V} {call : Call T V} {pc next : Pc T V}
    (moved : Moved now wallClock env group pc group' next) (sourced : Sourced (fun _ => True) group)
    (serves : pc.serves call) : Sourced (fun _ => True) group' := by
  refine (moved.sourced sourced (fun _ _ => trivial) fun message key reserving => ⟨trivial, ?_⟩).1
  rw [reserving] at serves
  exact serves.2

/-- Every call is at a stage that fits it, and each open group has its dead letters under their own ids. -/
structure ServerPool.Served (services : Services) (faulty : Nat → Prop) (pool : ServerPool J) : Prop where
  serves : ∀ i (task : ToolTask J), pool.tasks[i]? = some task →
    task.stage.Serves services (faulty i) task.call
  sourced : ∀ key group, pool.shared.registry.groups.lookup key = some group →
    Sourced (fun _ => True) group

/-- A step of a call meets a failure of the file system. -/
def ServerAction.Fails (i : Nat) : ServerAction J → Prop
  | .step j env => j = i ∧ (env.failure.isSome ∨ env.group.outcome.acknowledged = false)
  | _ => False

section

variable {services : Services} {faulty : Nat → Prop} {pool next : ServerPool J} {act : ServerAction J}

/-- Every group after the step of a call has its dead letters under their own ids. -/
theorem ServerAction.move_sourced {server after : Server J} {task : ToolTask J} {stage : Stage J}
    {failing : Prop} (sourced : ∀ key group, server.registry.groups.lookup key = some group →
      Sourced (fun _ => True) group)
    (serves : task.stage.Serves services failing task.call)
    (moved : act.move services server task = some (after, stage)) :
    ∀ key group, after.registry.groups.lookup key = some group → Sourced (fun _ => True) group := by
  -- A step puts back at most the one group that its stage touches.
  obtain ⟨caller, call, current⟩ := task
  have kept : server.Kept current after := by
    cases act with
    | step i env => exact Server.move_kept moved
    | timeout i wrote => exact Server.timeout_kept moved
    | _ => cases moved
  by_cases touched : current.touches = none
  · rw [kept.groups touched]
    exact sourced
  intro key group found
  cases act with
  | step i env =>
    cases current with
    | get queue at_ =>
      obtain ⟨registry, later, got, rfl, _⟩ := Server.getStep_eq_some moved
      have got := QueueRegistry.get_got got
      have opened : Sourced (fun _ => True) (server.openGroup caller queue env.letters) :=
        sourced_of_logs _ _ _ _ _
      generalize server.openGroup caller queue env.letters = fresh at got opened
      -- A group comes in only with the last step of opening it.
      cases got with
      | opens =>
        rcases lookup_of_insert found with ⟨rfl, rfl⟩ | ⟨_, before⟩
        · exact opened
        · exact sourced key group before
      | _ => exact sourced key group found
    | group queue pc use =>
      obtain ⟨_, inner, _, stands⟩ := serves
      obtain ⟨before, later, pc', held, step, rfl, _⟩ := Server.move_group services moved
      rcases lookup_of_insert found with ⟨rfl, rfl⟩ | ⟨_, earlier⟩
      · -- The operation's own group is the only one that changes.
        exact (move_moved step).sourced_anyhow (sourced _ before held) stands.serves
      · exact sourced key group earlier
    | deadLetters queue =>
      -- Listing the dead letters puts the group back as it was.
      have taken : server.move services i env ⟨caller, call, .deadLetters queue⟩ = some (after, stage) := moved
      cases Server.moved_of_move taken with
      | listsLetters held =>
        rcases lookup_of_insert found with ⟨rfl, rfl⟩ | ⟨_, earlier⟩
        · exact sourced _ _ held
        · exact sourced key group earlier
    | _ => exact absurd rfl touched
  | timeout i wrote =>
    obtain ⟨queue, pc, deadline, before, later, pc', rfl, held, _, dropped, rfl, _⟩ :=
      Server.timeout_eq_some moved
    obtain ⟨_, inner, _, stands⟩ := serves
    rcases lookup_of_insert found with ⟨rfl, rfl⟩ | ⟨_, earlier⟩
    · cases abandon_dropped dropped with
      | stalled stalled => exact stalled.sourced (sourced _ before held)
      | written whole clean writes moved => exact moved.sourced_anyhow (sourced _ before held) stands.serves
    · exact sourced key group earlier
  | _ => cases moved

/-- Every step of the server leads each call to a stage that fits it. -/
theorem ServerPool.Served.step (served : pool.Served services faulty)
    (failed : ∀ i, act.Fails i → faulty i) (taken : pool.step services act = some next) :
    next.Served services faulty := by
  -- The call that takes the step goes on to a stage of its own, and the others stay where they are.
  cases by_ : act.task with
  | some i =>
    obtain ⟨task, server, stage, found, moved, rfl⟩ := (step_eq_some by_).mp taken
    have own := served.serves i task found
    refine ⟨fun j later there => ?_, ServerAction.move_sourced served.sourced own moved⟩
    rcases found_set found there with ⟨rfl, rfl⟩ | ⟨_, before⟩
    · cases act with
      | step j env =>
        obtain rfl := Option.some.inj by_
        have onward : stage.Serves services (faulty j) task.call :=
          Server.move_serves own served.sourced (fun fault => failed _ ⟨rfl, fault⟩) moved
        exact onward
      | timeout j wrote =>
        obtain rfl := Option.some.inj by_
        -- At its deadline a call is answered without its operation.
        obtain ⟨queue, pc, deadline, _, _, _, at_, _, _, _, _, rfl⟩ := Server.timeout_eq_some moved
        rw [at_] at own
        obtain ⟨_, inner, runs, _⟩ := own
        have onward : (task.call.timedOut : Stage J).Serves services (faulty j) task.call :=
          ToolCall.timedOut_fits runs
        exact onward
      | _ => cases by_
    · exact served.serves j later before
  | none =>
    cases act with
    | call caller call =>
      obtain ⟨_, same⟩ := Option.ite_none_right_eq_some.mp taken
      obtain rfl := Option.some.inj same
      refine ⟨fun i later there => ?_, served.sourced⟩
      rcases found_concat there with before | ⟨_, rfl⟩
      · exact served.serves i later before
      · exact True.intro
    | tick elapsed | setWallClock wallClock =>
      obtain rfl := Option.some.inj taken
      exact ⟨served.serves, served.sourced⟩
    | step i env | timeout i wrote => cases by_

/-- In every run each call is at a stage that fits it. -/
theorem ServerPool.served_of_run {dataDir : Location} {keys : Log KeyRecord} {disk : Disk J} {now : Instant}
    {wallClock : Timestamp} {trace : List (Transition (ServerPool J) (ServerAction J))}
    (run : Run (ServerPool.step services) (fun _ _ => True)
      ⟨.new dataDir keys disk now wallClock, []⟩ trace pool) :
    pool.Served services fun i => ∃ e ∈ trace, e.act.Fails i := by
  -- Whatever fails in the run is counted against its call from the start.
  have start : ServerPool.Served services (fun i => ∃ e ∈ trace, e.act.Fails i)
      (⟨.new dataDir keys disk now wallClock, []⟩ : ServerPool J) :=
    ⟨fun _ _ there => (nomatch there), fun _ _ found => (nomatch found)⟩
  have told : Run (ServerPool.step services)
      (fun _ act => True ∧ ∀ i, act.Fails i → ∃ e ∈ trace, e.act.Fails i)
      ⟨.new dataDir keys disk now wallClock, []⟩ trace pool :=
    run.strengthen fun e member i fails => ⟨e, member, fails⟩
  exact told.invariant start fun _ _ _ allowed served taken => served.step allowed.2 taken

end

/-- The answer that a call has got. -/
def Stage.answer : Stage J → Option (Except ErrorData (ToolResult J))
  | .done answer => some answer
  | _ => none

theorem Stage.done_of_answer {stage : Stage J} {answer : Except ErrorData (ToolResult J)}
    (answered : stage.answer = some answer) : stage = .done answer := by
  cases stage with
  | done given => exact congrArg Stage.done (Option.some.inj answered)
  | _ => cases answered

end Qaas
