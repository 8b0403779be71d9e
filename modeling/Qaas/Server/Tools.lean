import Qaas.Concurrency.Run
import Qaas.Group.World
import Qaas.Server.Registry

/-! The server at work: every tool call, cut into the atomic steps that other calls can come between. -/

namespace Qaas

open Concurrency

variable {J : Type}

/-- The logs on disk, by place, as the queues that are not open will find them. -/
structure Disk (J : Type) where
  wals : Location → Log (WalRecord J J)
  dlqs : Location → Log (DlqRecord J J)

/-- Everything that the calls share. -/
structure Server (J : Type) where
  registry : QueueRegistry (ConsumerGroup J J)
  apiKeys : ApiKeyStore
  disk : Disk J
  now : Instant
  wallClock : Timestamp

/-- What a step leaves to chance or to the world outside. -/
structure ToolEnv where
  group : StepEnv := {}
  /-- The error with which the file system refuses what the step asks of it. -/
  failure : Option String := none
  /-- The order in which the map of the groups is iterated. -/
  queues : List String := []
  /-- The order in which a map of dead letters is iterated. -/
  letters : List MessageId := []
  /-- Which of two equally similar entries a search of an index comes to later. -/
  rankId : MessageId → Nat := fun _ => 0
  rankRoute : String → Nat := fun _ => 0

/-- The local variables of an enqueue once its arguments are valid. -/
structure Enqueueing where
  queue : String
  embedding : Option Embedding
  key : Option IdempotencyKey

/-- What a call wants its tenant's pending messages counted for. -/
inductive PendingUse where
  | ceiling (locals : Enqueueing) (maxPending : UInt64)
  | status (config : QuotaConfig) (requestsInWindow : UInt64) (queuesOpen : Nat)

/-- What a call runs an operation of a group for. -/
inductive GroupUse where
  | enqueue (embedding : Option Embedding) (tokensRemaining : Option UInt64) (costRemaining : Option ℚ)
  -- `timeout`
  | within (deadline : Instant)
  | ack (id : MessageId)
  -- The first of the two operations of a triage.
  | annotate (id : MessageId)
  | plain

/-- The atomic step a tool call takes next, with the local variables it has by then. -/
inductive Stage (J : Type) where
  -- `authorize_impl`
  | authorize
  -- `resolve_target_queue`
  | route (embedding : Embedding)
  | get (queue : String) (stage : GetStage)
  -- `enqueue_impl`
  | admissionEntry (queue : String) (embedding : Option Embedding)
  | dedupEntry (queue : String) (embedding : Embedding)
  | nearest (locals : Enqueueing) (embedding : Embedding)
  | pendingCeiling (locals : Enqueueing)
  | tryAdmit (locals : Enqueueing)
  | remember (queue : String) (id : MessageId) (embedding : Embedding)
    (tokensRemaining : Option UInt64) (costRemaining : Option ℚ)
  -- `tenant_pending_total`
  | listPending (tenant : TenantId) (use : PendingUse)
  | sumPending (tenant : TenantId) (use : PendingUse) (key : String) (rest : List String) (total : UInt64)
  -- An operation of a queue's group.
  | group (queue : String) (pc : Pc J J) (use : GroupUse)
  -- `claim_impl`, before it claims.
  | headroom (queue : String)
  -- `ack_impl`, once the message is acknowledged.
  | forget (queue : String) (id : MessageId)
  | setAdmission (params : ConfigureAdmissionParams)
  | admissionConfig (queue : String)
  | admissionUsage (queue : String) (config : AdmissionConfig)
  | insertRoute (queue : String) (embedding : Embedding)
  | routeKeys
  | deadLetters (queue : String)
  -- An operation of the API keys.
  | key (task : KeyTask)
  | setQuota (tenant : TenantId) (params : ConfigureTenantQuotaParams)
  -- `tenant_quota_status_impl`
  | quotaConfig (tenant : TenantId)
  | quotaRequests (tenant : TenantId) (config : QuotaConfig)
  | quotaQueues (tenant : TenantId) (config : QuotaConfig) (requestsInWindow : UInt64)
  | done (result : Except ErrorData (ToolResult J))

/-- One tool call, and how far it has come. -/
structure ToolTask (J : Type) where
  caller : Caller
  call : ToolCall J
  stage : Stage J

/-- Go on with a value, or answer with the error there is instead of it. -/
def proceed {A : Type} (value : Except ErrorData A) (next : A → Stage J) : Stage J :=
  match value with
  | .ok value => next value
  | .error error => .done (.error error)

/-- Begin to look for a queue, if its name is valid. -/
def getQueue (name : String) : Stage J :=
  proceed (validateQueueName name) fun _ => .get name .lookup

/-- What a call does once it is authorized, up to its first access to shared data. -/
def ToolCall.start (tenant : Caller) : ToolCall J → Stage J
  | .enqueue params _ =>
    proceed params.vector fun embedding =>
      match params.queue, embedding with
      | some queue, _ => getQueue queue
      | none, some embedding => .route embedding
      | none, none =>
        .done (.error (.invalidParams "queue is required unless embedding is given, for routing"))
  | .claim params => getQueue params.queue
  | .ack params => getQueue params.queue
  | .nack params => getQueue params.queue
  | .checkpoint params => getQueue params.queue
  | .publishPartialResult params => getQueue params.queue
  | .streamPartialResults params => getQueue params.queue
  | .configureAdmission params =>
    proceed (validateQueueName params.queue) fun _ => .setAdmission params
  | .admissionStatus params =>
    proceed (validateQueueName params.queue) fun _ => .admissionConfig params.queue
  | .configureRoute params =>
    proceed (validateQueueName params.queue) fun _ =>
      proceed (validEmbedding params.embedding) fun embedding => .insertRoute params.queue embedding
  | .listDeadLetters params => getQueue params.queue
  | .triageDeadLetter params => getQueue params.queue
  | .reprocessDeadLetter params => getQueue params.queue
  | .purgeDeadLetter params => getQueue params.queue
  | .createApiKey params first second =>
    if tenant.isSome then .done (.error (stdioOnly "create_api_key"))
    else proceed (validTenant params.tenantId) fun named => .key ⟨.mint first second named, .begun⟩
  | .revokeApiKey params =>
    if tenant.isSome then .done (.error (stdioOnly "revoke_api_key"))
    else .key ⟨.revoke params.apiKey, .begun⟩
  | .configureTenantQuota params =>
    if tenant.isSome then .done (.error (stdioOnly "configure_tenant_quota"))
    else proceed (validTenant params.tenantId) fun named => .setQuota named params
  | .tenantQuotaStatus params =>
    match tenant, params.tenantId with
    | some tenant, _ => .quotaConfig tenant
    | none, some tenantId => proceed (validTenant tenantId) .quotaConfig
    | none, none => .done <| .error <| .invalidParams
        "tenant_id is required when calling tenant_quota_status over the trusted stdio connection"

/-- Run an operation of a group. -/
def runGroup (queue : String) (call : Call J J) (use : GroupUse) : Stage J :=
  .group queue call.entry use

/-- What a call does once its queue is open, up to its next access to shared data. -/
def ToolCall.opened (services : Services) (queue : String) (now : Instant) (wallClock : Timestamp) :
    ToolCall J → Stage J
  | .enqueue params _ => proceed params.vector fun embedding => .admissionEntry queue embedding
  | .claim _ => .headroom queue
  | .ack params =>
    proceed (parseMessageId services params.messageId) fun id =>
      runGroup queue (.ack id ⟨params.leaseToken⟩) (.ack id)
  | .nack params =>
    proceed (parseMessageId services params.messageId) fun id =>
      runGroup queue (.nack id ⟨params.leaseToken⟩ params.reason) .plain
  | .checkpoint params =>
    proceed (parseMessageId services params.messageId) fun id =>
      runGroup queue (.checkpoint id ⟨params.leaseToken⟩ params.state) .plain
  | .publishPartialResult params =>
    proceed (parseMessageId services params.messageId) fun id =>
      runGroup queue (.publishPartialResult id ⟨params.leaseToken⟩ params.data (params.isFinal.getD false))
        .plain
  | .streamPartialResults params =>
    proceed (parseMessageId services params.messageId) fun id =>
      runGroup queue (.partialResultsSince id (params.afterSequence.getD 0))
        (.within (now + claimWait params.waitMs))
  | .listDeadLetters _ => .deadLetters queue
  | .triageDeadLetter params =>
    proceed (parseMessageId services params.messageId) fun id =>
      runGroup queue (.annotateDeadLetter id ⟨params.classification, params.reason, wallClock⟩)
        (.annotate id)
  | .reprocessDeadLetter params =>
    proceed (parseMessageId services params.messageId) fun id =>
      runGroup queue (.reprocessDeadLetter id) .plain
  | .purgeDeadLetter params =>
    proceed (parseMessageId services params.messageId) fun id =>
      runGroup queue (.purgeDeadLetter id) .plain
  -- The other tools open no queue.
  | _ => .done (.error (.internalError ""))

/-- The answer of an enqueue that made a message, or found the one that its key belongs to. -/
def enqueued (queue : String) (id : MessageId) (tokensRemaining : Option UInt64)
    (costRemaining : Option ℚ) : Stage J :=
  .done <| .ok <| .enqueued {
    messageId := id.display
    queue
    deduplicated := false
    similarity := none
    tokensRemaining
    costRemaining }

/-- The answer of a claim that has got no message. -/
def unclaimed (throttled : Bool) : Stage J :=
  .done <| .ok <| .claimed {
    available := false
    throttled
    messageId := none
    leaseToken := none
    idempotencyKey := none
    payload := none
    deliveryCount := none
    checkpoint := none }

/-- The answer of a claim that has got a message. -/
def claimed (claim : Claim J J) : Stage J :=
  .done <| .ok <| .claimed {
    available := true
    throttled := false
    messageId := some claim.id.display
    leaseToken := some claim.token.value
    idempotencyKey := some claim.idempotencyKey.key
    payload := some claim.item
    deliveryCount := some claim.deliveryCount
    checkpoint := claim.checkpoint }

/-- How a call goes on with what an operation of its queue's group returns. -/
def ToolCall.resume (queue : String) (failure : Option String) (call : ToolCall J) (use : GroupUse)
    (result : Result J J) : Stage J :=
  match call, use, result with
  | .enqueue _ _, .enqueue (some embedding) tokensRemaining costRemaining, .message id =>
    .remember queue id embedding tokensRemaining costRemaining
  | .enqueue _ _, .enqueue none tokensRemaining costRemaining, .message id =>
    enqueued queue id tokensRemaining costRemaining
  | .claim _, .within _, .claimed granted => claimed granted
  | .ack _, .ack id, .answered true => .forget queue id
  | .ack _, .ack _, .answered false => .done (.ok (.acked false))
  | .nack _, .plain, .answered found => .done (.ok (.nacked found))
  | .checkpoint _, .plain, .answered found => .done (.ok (.checkpointed found))
  | .publishPartialResult _, .plain, .published sequence =>
    .done (.ok (.published sequence.isSome sequence))
  | .streamPartialResults _, .within _, .polled (.chunks chunks) => .done (.ok (.streamed true chunks))
  | .streamPartialResults _, .within _, .polled .notActive => .done (.ok (.streamed false []))
  | .triageDeadLetter _, .annotate _, .answered false => .done (.ok (.triaged false false))
  | .triageDeadLetter params, .annotate id, .answered true =>
    match params.classification with
    | .transient => runGroup queue (.reprocessDeadLetter id) .plain
    | .permanent => .done (.ok (.triaged true false))
  | .triageDeadLetter _, .plain, .answered found => .done (.ok (.triaged true found))
  | .reprocessDeadLetter _, .plain, .answered found => .done (.ok (.reprocessed found))
  | .purgeDeadLetter _, .plain, .answered found => .done (.ok (.purged found))
  -- An operation returns what is its own, or an error.
  | _, _, _ => .done (.error (ioErrorToMcp (failure.getD "")))

/-- What a call gets whose deadline passes while it waits. -/
def ToolCall.timedOut : ToolCall J → Stage J
  -- A stream that is waited for is active.
  | .streamPartialResults _ => .done (.ok (.streamed true []))
  | _ => unclaimed false

/-- How an enqueue goes on that is no duplicate: only a tenant has a ceiling on pending messages. -/
def Enqueueing.fresh (locals : Enqueueing) (tenant : Caller) : Stage J :=
  if tenant.isSome then .pendingCeiling locals else .tryAdmit locals

/-- What an enqueue does once its queue's budget and embeddings are there, up to its next access. -/
def ToolCall.checkKey (tenant : Caller) (queue : String) (embedding : Option Embedding) :
    ToolCall J → Stage J
  | .enqueue params _ =>
    proceed params.key fun key =>
      match embedding with
      | some vector => .nearest ⟨queue, embedding, key⟩ vector
      | none => Enqueueing.fresh ⟨queue, none, key⟩ tenant
  -- The other tools do not come here.
  | _ => .done (.error (.internalError ""))

/-- How a call goes on with the count of its tenant's pending messages. -/
def PendingUse.counted (tenant : TenantId) (current : UInt64) : PendingUse → Stage J
  | .ceiling locals maxPending =>
    if maxPending ≤ current then
      .done <| .error <| .invalidRequest
        s!"tenant {tenant.asStr.quote} already has {current} pending messages across its queues, at its {maxPending}-message limit - configure_tenant_quota can raise it"
        none
    else .tryAdmit locals
  | .status config requestsInWindow queuesOpen =>
    .done <| .ok <| .quotaReported {
      tenantId := tenant.asStr
      maxQueues := config.maxQueues
      queuesOpen
      maxPendingMessages := config.maxPendingMessages
      pendingMessages := current
      requestsPerWindow := config.requestsPerWindow
      requestsInWindow
      windowSeconds := asSecs config.window }

/-- Go on to the next queue to be counted, or with the count of them all. -/
def sumNext (tenant : TenantId) (use : PendingUse) (total : UInt64) : List String → Stage J
  | [] => use.counted tenant total
  | key :: rest => .sumPending tenant use key rest total

/-- The group that a caller's queue opens as. -/
def Server.openGroup (server : Server J) (tenant : Caller) (queue : String) (letters : List MessageId) :
    ConsumerGroup J J :=
  let path := walPath server.registry.dataDir tenant queue
  .opened (server.disk.wals path) (server.disk.dlqs (dlqPath path)) visibilityTimeout .default letters

/-- Opening a file cuts it back to what replay could read. -/
def Disk.cut (disk : Disk J) (path : Location) : GetStage → Disk J
  | .openWal => { disk with wals := Function.update disk.wals path (disk.wals path).reopen }
  | .openDlq => { disk with
      dlqs := Function.update disk.dlqs (dlqPath path) (disk.dlqs (dlqPath path)).reopen }
  | _ => disk

/-- Replace the registry. -/
def Server.withRegistry (server : Server J) (registry : QueueRegistry (ConsumerGroup J J)) : Server J :=
  { server with registry }

/-- Use the budget of a queue. -/
def Server.onAdmission (server : Server J) (tenant : Caller) (name : String)
    (use : Instant → AdmissionController → AdmissionController × Stage J) : Option (Server J × Stage J) :=
  let (controller, stage) := use server.now (server.registry.admissionOf tenant name)
  some (server.withRegistry (server.registry.setAdmission tenant name controller), stage)

/-- Use the embeddings of a queue's tasks. -/
def Server.onDedup (server : Server J) (tenant : Caller) (name : String)
    (use : Instant → EmbeddingIndex MessageId → EmbeddingIndex MessageId × Stage J) :
    Option (Server J × Stage J) :=
  let (index, stage) := use server.now (server.registry.dedupOf tenant name)
  some (server.withRegistry (server.registry.setDedup tenant name index), stage)

/-- Use the routes of a caller. -/
def Server.onRoutes (server : Server J) (tenant : Caller)
    (use : Instant → EmbeddingIndex String → EmbeddingIndex String × Stage J) :
    Option (Server J × Stage J) :=
  let (routes, stage) := use server.now (server.registry.routesOf tenant)
  some (server.withRegistry (server.registry.setRoutes tenant routes), stage)

/-- Use the quota of a tenant. -/
def Server.onQuota (server : Server J) (tenant : TenantId)
    (use : Instant → TenantQuota → TenantQuota × Stage J) : Option (Server J × Stage J) :=
  let (quota, stage) := use server.now (server.registry.quota tenant)
  some (server.withRegistry (server.registry.setQuota tenant quota), stage)

/-- Use the group of a queue, which is open. -/
def Server.onGroup (server : Server J) (tenant : Caller) (name : String)
    (use : Instant → Timestamp → ConsumerGroup J J → Option (ConsumerGroup J J × Stage J)) :
    Option (Server J × Stage J) :=
  (server.registry.groups.lookup (scopeKey tenant name)).bind fun group =>
    (use server.now server.wallClock group).map fun moved =>
      (server.withRegistry (server.registry.setGroup tenant name moved.1), moved.2)

/-- Read the keys of a tenant's open queues, under the lock on the groups. -/
def Server.onMatching (server : Server J) (tenant : TenantId) (use : Finset String → Option (Stage J)) :
    Option (Server J × Stage J) :=
  if server.registry.opener.isSome then none
  else (use (server.registry.matching tenant)).map fun stage => (server, stage)

/-- One step of `get`, within a tool call. -/
def Server.getStep (services : Services) (self : Nat) (env : ToolEnv) (server : Server J)
    (task : ToolTask J) (queue : String) (stage : GetStage) : Option (Server J × Stage J) :=
  let path := walPath server.registry.dataDir task.caller queue
  -- The dead letters come in some order in which their map can be iterated.
  if stage = .openDlq → (DeadLetters.replay (server.disk.dlqs (dlqPath path)).records).Iterates env.letters
  then
    (server.registry.get self task.caller queue env.failure
        (server.openGroup task.caller queue env.letters) stage).map fun moved =>
      ({ server.withRegistry moved.1 with
          disk := if env.failure.isSome then server.disk else server.disk.cut path stage },
        match moved.2 with
        | .stage stage => .get queue stage
        | .returned result =>
          proceed result fun _ => task.call.opened services queue server.now server.wallClock)
  else none

section
variable (services : Services) (self : Nat) (env : ToolEnv) (server : Server J) (task : ToolTask J)
  (queue : String)

/-- `get` waits for the lock, and returns the group that is open or goes on to open one. -/
theorem Server.getStep_lookup : server.getStep services self env task queue .lookup =
    if server.registry.opener.isSome then none
    else
      match server.registry.groups.lookup (scopeKey task.caller queue) with
      | some _ => some (server, task.call.opened services queue server.now server.wallClock)
      | none => some (server.withRegistry (server.registry.setOpener (some self)),
          .get queue (if task.caller.isSome then .ceiling else .createDir)) := by
  -- Before the log is opened no order of the dead letters is asked for, and no file is cut.
  unfold getStep QueueRegistry.get
  rw [if_pos (fun same => by cases same)]
  dsimp only [Disk.cut]
  rw [ite_self]
  split
  · rfl
  · cases server.registry.groups.lookup (scopeKey task.caller queue) <;> rfl

/-- `get` refuses a tenant one queue more than it may have open. -/
theorem Server.getStep_ceiling : server.getStep services self env task queue .ceiling =
    match task.caller with
    | none => some (server, .get queue .createDir)
    | some tenant =>
      let quota := server.registry.quota tenant
      let registry := server.registry.setQuota tenant quota
      let count := (server.registry.matching tenant).card
      match quota.fullAt count with
      | some maxQueues => some (server.withRegistry (registry.setOpener none),
          .done (.error (queueLimit tenant count maxQueues)))
      | none => some (server.withRegistry registry, .get queue .createDir) := by
  -- No group is opened at this stage, so that the disk does not matter.
  unfold getStep QueueRegistry.get
  rw [if_pos (fun same => by cases same)]
  dsimp only [Disk.cut]
  rw [ite_self]
  cases task.caller with
  | none => rfl
  | some tenant =>
    dsimp only
    have same : (server.registry.setQuota tenant (server.registry.quota tenant)).countMatching tenant =
        (server.registry.matching tenant).card := rfl
    rw [same]
    cases (server.registry.quota tenant).fullAt (server.registry.matching tenant).card <;> rfl

/-- The file system may refuse the directory of a queue. -/
theorem Server.getStep_createDir : server.getStep services self env task queue .createDir =
    match env.failure with
    | some error => some (server.withRegistry (server.registry.setOpener none),
        .done (.error (openFailure queue error)))
    | none => some (server, .get queue .openWal) := by
  unfold getStep QueueRegistry.get
  rw [if_pos (fun same => by cases same)]
  cases env.failure <;> rfl

/-- The file system may refuse the log of a queue, and cuts it back otherwise. -/
theorem Server.getStep_openWal : server.getStep services self env task queue .openWal =
    match env.failure with
    | some error => some (server.withRegistry (server.registry.setOpener none),
        .done (.error (openFailure queue error)))
    | none =>
      let path := walPath server.registry.dataDir task.caller queue
      some ({ server with disk := server.disk.cut path .openWal }, .get queue .openDlq) := by
  unfold getStep QueueRegistry.get
  rw [if_pos (fun same => by cases same)]
  cases env.failure <;> rfl

/-- The last step of `get` that opens a queue keeps its group, and lets the others go on. -/
theorem Server.getStep_openDlq : server.getStep services self env task queue .openDlq =
    let path := walPath server.registry.dataDir task.caller queue
    if (DeadLetters.replay (server.disk.dlqs (dlqPath path)).records).Iterates env.letters then
      match env.failure with
      | some error => some (server.withRegistry (server.registry.setOpener none),
          .done (.error (openFailure queue error)))
      | none =>
        let group := server.openGroup task.caller queue env.letters
        let registry := (server.registry.setGroup task.caller queue group).setOpener none
        some ({ server.withRegistry registry with disk := server.disk.cut path .openDlq },
          task.call.opened services queue server.now server.wallClock)
    else none := by
  -- Only here the order matters in which the dead letters are listed.
  unfold getStep QueueRegistry.get
  dsimp only
  split
  · rename_i iterates
    rw [if_pos (iterates rfl)]
    cases env.failure <;> rfl
  · rename_i differs
    rw [if_neg fun iterates => differs fun _ => iterates]

variable {services self env server task queue}

/-- Within a tool call, `get` takes the steps of the registry's, on what the disk holds. -/
theorem Server.getStep_eq_some {next : Server J} {later : Stage J} {at_ : GetStage}
    (moved : server.getStep services self env task queue at_ = some (next, later)) :
    ∃ registry after, server.registry.get self task.caller queue env.failure
        (server.openGroup task.caller queue env.letters) at_ = some (registry, after) ∧
      { server.withRegistry registry with
        disk := if env.failure.isSome then server.disk
          else server.disk.cut (walPath server.registry.dataDir task.caller queue) at_ } = next ∧
      (match after with
        | .stage at_ => .get queue at_
        | .returned result =>
          proceed result fun _ => task.call.opened services queue server.now server.wallClock) =
        later := by
  -- The step is possible in that order only, and the registry's own step gives the rest.
  unfold getStep at moved
  obtain ⟨_, found⟩ := Option.ite_none_right_eq_some.mp moved
  obtain ⟨⟨registry, after⟩, got, same⟩ := Option.map_eq_some_iff.mp found
  obtain ⟨rfl, rfl⟩ := Prod.mk.inj same
  exact ⟨registry, after, got, rfl, rfl⟩

end

/-- One step of an operation of the API keys, within a tool call. -/
def ApiKeyStore.toolStep (services : Services) (env : ToolEnv) (store : ApiKeyStore) (key : KeyTask) :
    Option (ApiKeyStore × Stage J) :=
  match key.appending services.sha256, env.group.outcome.acknowledged with
  | some record, false =>
    some ({ store with wal := (store.wal.append record env.group.outcome).1 },
      .done (.error (ioErrorToMcp (env.failure.getD ""))))
  | appending, _ =>
    (store.move services.sha256 key).map fun moved =>
      ({ moved.1 with
          wal := appending.elim moved.1.wal fun record => (store.wal.append record env.group.outcome).1 },
        match moved.2.call, moved.2.stage with
        | .mint _ _ tenant, .returned (.minted rawKey) => .done (.ok (.keyCreated rawKey tenant.asStr))
        | .revoke _, .returned (.revoked removed) => .done (.ok (.keyRevoked removed))
        | _, _ => .key moved.2)

/-- What a step of an operation of the API keys can do, within a tool call. -/
inductive ApiKeyStore.ToolMoved (services : Services) (env : ToolEnv) (store : ApiKeyStore) (key : KeyTask)
    (next : ApiKeyStore) : Stage J → Prop where
  | refuses {record : KeyRecord} (appending : key.appending services.sha256 = some record)
      (refused : env.group.outcome.acknowledged = false) (same : next.keys = store.keys) :
      ToolMoved services env store key next (.done (.error (ioErrorToMcp (env.failure.getD ""))))
  | creates {store' : ApiKeyStore} {first second : BitVec 128} {tenant : TenantId}
      (call : key.call = .mint first second tenant)
      (taken : store.move services.sha256 key =
        some (store', ⟨key.call, .returned (.minted (generateRawKey first second))⟩))
      (same : next.keys = store'.keys) :
      ToolMoved services env store key next (.done (.ok (.keyCreated (generateRawKey first second) tenant.asStr)))
  | revokes {store' : ApiKeyStore} {rawKey : String} {removed : Bool} (call : key.call = .revoke rawKey)
      (taken : store.move services.sha256 key = some (store', ⟨key.call, .returned (.revoked removed)⟩))
      (same : next.keys = store'.keys) :
      ToolMoved services env store key next (.done (.ok (.keyRevoked removed)))
  | goesOn {store' : ApiKeyStore} {stage : KeyStage}
      (taken : store.move services.sha256 key = some (store', ⟨key.call, stage⟩))
      (unended : ∀ result, stage = .returned result → ∃ rawKey, key.call = .authenticate rawKey)
      (same : next.keys = store'.keys) :
      ToolMoved services env store key next (.key ⟨key.call, stage⟩)

/-- And it can do nothing else. -/
theorem ApiKeyStore.toolStep_moved {services : Services} {env : ToolEnv} {store next : ApiKeyStore}
    {key : KeyTask} {stage : Stage J} (stepped : store.toolStep services env key = some (next, stage)) :
    store.ToolMoved services env key next stage := by
  unfold toolStep at stepped
  split at stepped
  · -- The record could not be appended.
    rename_i record appending refused
    obtain ⟨rfl, rfl⟩ := Prod.mk.inj (Option.some.inj stepped)
    exact .refuses appending refused rfl
  · obtain ⟨⟨store', later⟩, taken, same⟩ := Option.map_eq_some_iff.mp stepped
    obtain ⟨rfl, rfl⟩ := Prod.mk.inj same
    obtain ⟨call, at_⟩ := key
    -- Of the steps that can be taken, the last ones of a mint and of a revocation answer the call.
    cases call with
    | mint first second tenant =>
      cases at_ with
      | begun =>
        obtain ⟨_, rfl⟩ := Prod.mk.inj (Option.some.inj taken)
        exact .goesOn taken (fun _ ended => by cases ended) rfl
      | logged =>
        obtain ⟨_, rfl⟩ := Prod.mk.inj (Option.some.inj taken)
        exact .creates rfl taken rfl
      | _ => cases taken
    | revoke rawKey =>
      cases at_ with
      | begun =>
        cases valid : (store.keys.lookup (hashKey services.sha256 (KeyCall.revoke rawKey).rawKey)).isSome with
        | true =>
          obtain ⟨_, rfl⟩ := Prod.mk.inj (Option.some.inj taken)
          rw [valid, if_pos rfl] at taken ⊢
          exact .goesOn taken (fun _ ended => by cases ended) rfl
        | false =>
          obtain ⟨_, rfl⟩ := Prod.mk.inj (Option.some.inj taken)
          rw [valid, if_neg Bool.false_ne_true] at taken ⊢
          exact .revokes rfl taken rfl
      | found =>
        obtain ⟨_, rfl⟩ := Prod.mk.inj (Option.some.inj taken)
        exact .goesOn taken (fun _ ended => by cases ended) rfl
      | logged =>
        obtain ⟨_, rfl⟩ := Prod.mk.inj (Option.some.inj taken)
        exact .revokes rfl taken rfl
      | _ => cases taken
    | authenticate rawKey =>
      cases at_ with
      | begun =>
        obtain ⟨_, rfl⟩ := Prod.mk.inj (Option.some.inj taken)
        exact .goesOn taken (fun _ _ => ⟨rawKey, rfl⟩) rfl
      | _ => cases taken

/-- The next atomic step of one tool call. An entry of a map that is not there yet is made in the
step that first uses it. -/
def Server.move (services : Services) (self : Nat) (env : ToolEnv) (server : Server J)
    (task : ToolTask J) : Option (Server J × Stage J) :=
  match task.stage with
  | .authorize =>
    match task.caller with
    | none => some (server, task.call.start none)
    | some tenant =>
      server.onQuota tenant fun now quota =>
        let (quota, decision) := quota.tryAcquire now
        (quota,
          match decision with
          | .allowed _ => task.call.start (some tenant)
          | .denied reason retryAfter => .done (.error (throttledToMcp reason retryAfter)))
  | .route embedding =>
    server.onRoutes task.caller fun now routes =>
      let (routes, found) := routes.nearest services.score env.rankRoute now embedding
      (routes,
        match found with
        | some (queue, _) => getQueue queue
        | none => .done <| .error <| .invalidParams
            "queue was omitted and no routes are registered - call configure_route first, or specify queue directly")
  | .get queue stage => server.getStep services self env task queue stage
  | .admissionEntry queue embedding =>
    server.onAdmission task.caller queue fun _ controller =>
      (controller,
        match embedding with
        | some vector => .dedupEntry queue vector
        | none => task.call.checkKey task.caller queue none)
  | .dedupEntry queue embedding =>
    server.onDedup task.caller queue fun _ index =>
      (index, task.call.checkKey task.caller queue (some embedding))
  | .nearest locals embedding =>
    server.onDedup task.caller locals.queue fun now index =>
      let (index, found) := index.nearest services.score env.rankId now embedding
      (index,
        match found.filter fun best => dedupSimilarityThreshold ≤ best.2 with
        | some (existingId, similarity) => .done <| .ok <| .enqueued {
            messageId := existingId.display
            queue := locals.queue
            deduplicated := true
            similarity := some similarity
            tokensRemaining := none
            costRemaining := none }
        | none => locals.fresh task.caller)
  | .pendingCeiling locals =>
    match task.caller with
    | none => some (server, .tryAdmit locals)
    | some tenant =>
      server.onQuota tenant fun _ quota =>
        (quota,
          match quota.config.maxPendingMessages with
          | some maxPending => .listPending tenant (.ceiling locals maxPending)
          | none => .tryAdmit locals)
  | .listPending tenant use =>
    server.onMatching tenant fun keys =>
      if env.queues.Nodup ∧ env.queues.toFinset = keys then some (sumNext tenant use 0 env.queues)
      else none
  | .sumPending tenant use key rest total =>
    (server.registry.groups.lookup key).map fun group =>
      (server, sumNext tenant use (saturatingAdd total (lengthAsU64 group.len)) rest)
  | .tryAdmit locals =>
    match task.call with
    | .enqueue params newId =>
      server.onAdmission task.caller locals.queue fun now controller =>
        let (controller, decision) :=
          controller.tryAdmit now (params.estimatedTokens.getD 0) (params.estimatedCost.getD 0)
        (controller,
          match decision with
          | .admitted tokensRemaining costRemaining =>
            runGroup locals.queue (.enqueue ⟨newId, params.payload, locals.key⟩)
              (.enqueue locals.embedding tokensRemaining costRemaining)
          | .denied reason retryAfter => .done (.error (throttledToMcp reason retryAfter)))
    | _ => none
  | .remember queue id embedding tokensRemaining costRemaining =>
    server.onDedup task.caller queue fun now index =>
      (index.insert now id embedding, enqueued queue id tokensRemaining costRemaining)
  | .group queue pc use =>
    server.onGroup task.caller queue fun now wallClock group =>
      (group.move self now wallClock env.group pc).map fun moved =>
        (moved.1,
          match moved.2 with
          | .done result => task.call.resume queue env.failure use result
          | pc => .group queue pc use)
  | .headroom queue =>
    match task.call with
    | .claim params =>
      server.onAdmission task.caller queue fun now controller =>
        let (controller, headroom) := controller.hasHeadroom now
        (controller,
          if headroom then runGroup queue .claim (.within (now + claimWait params.waitMs))
          else unclaimed true)
    | _ => none
  | .forget queue id =>
    server.onDedup task.caller queue fun _ index => (index.remove id, .done (.ok (.acked true)))
  | .setAdmission params =>
    server.onAdmission task.caller params.queue fun _ controller =>
      (controller.setConfig params.config,
        .done <| .ok <| .admissionConfigured {
          tokensPerWindow := params.config.tokensPerWindow
          costCeilingPerWindow := params.config.costCeilingPerWindow
          windowSeconds := asSecs params.config.window })
  | .admissionConfig queue =>
    server.onAdmission task.caller queue fun _ controller =>
      (controller, .admissionUsage queue controller.config)
  | .admissionUsage queue config =>
    server.onAdmission task.caller queue fun now controller =>
      let (controller, usage) := controller.usage now
      (controller,
        .done <| .ok <| .admissionReported {
          tokensPerWindow := config.tokensPerWindow
          costCeilingPerWindow := config.costCeilingPerWindow
          windowSeconds := asSecs config.window
          tokensUsed := usage.tokensUsed
          costUsed := usage.costUsed
          tokensRemaining := config.tokensPerWindow.map fun limit =>
            UInt64.ofNat (limit.toNat - usage.tokensUsed.toNat)
          costRemaining := config.costCeilingPerWindow.map fun ceiling => max (ceiling - usage.costUsed) 0 })
  | .insertRoute queue embedding =>
    server.onRoutes task.caller fun now routes => (routes.insert now queue embedding, .routeKeys)
  | .routeKeys =>
    server.onRoutes task.caller fun now routes =>
      let (routes, keys) := routes.keys now
      (routes, .done (.ok (.routed (keys.mergeSort fun first second => decide (first ≤ second)))))
  | .deadLetters queue =>
    server.onGroup task.caller queue fun _ _ group =>
      if group.dlq.entries.Iterates env.letters then
        some (group, .done <| .ok <| .deadLetters <|
          (env.letters.filterMap group.dlq.entries.lookup).map DeadLetter.summary)
      else none
  | .key key =>
    (server.apiKeys.toolStep services env key).map fun moved =>
      ({ server with apiKeys := moved.1 }, moved.2)
  | .setQuota tenant params =>
    server.onQuota tenant fun _ quota =>
      (quota.setConfig params.config,
        .done <| .ok <| .quotaConfigured {
          tenantId := tenant.asStr
          maxQueues := params.config.maxQueues
          maxPendingMessages := params.config.maxPendingMessages
          requestsPerWindow := params.config.requestsPerWindow
          windowSeconds := asSecs params.config.window })
  | .quotaConfig tenant =>
    server.onQuota tenant fun _ quota => (quota, .quotaRequests tenant quota.config)
  | .quotaRequests tenant config =>
    server.onQuota tenant fun now quota =>
      let (quota, requestsInWindow) := quota.requestsInWindow now
      (quota, .quotaQueues tenant config requestsInWindow)
  | .quotaQueues tenant config requestsInWindow =>
    server.onMatching tenant fun keys =>
      some (.listPending tenant (.status config requestsInWindow keys.card))
  | .done _ => none

/-- The deadline of a call passes while it runs an operation of its queue's group. -/
def Server.timeout (self : Nat) (wrote : AppendOutcome) (server : Server J) (task : ToolTask J) :
    Option (Server J × Stage J) :=
  match task.stage with
  | .group queue pc (.within deadline) =>
    server.onGroup task.caller queue fun now wallClock group =>
      if deadline ≤ now then
        (group.abandon self now wallClock wrote pc).map fun moved => (moved.1, task.call.timedOut)
      else none
  | _ => none

/-- The server and every tool call ever made on it. -/
abbrev ServerPool (J : Type) := Pool (Server J) (ToolTask J)

/-- What can happen next. -/
inductive ServerAction (J : Type) where
  | call (caller : Caller) (call : ToolCall J)
  | step (task : Nat) (env : ToolEnv)
  -- A write that a call waits for at its deadline may have reached the file.
  | timeout (task : Nat) (wrote : AppendOutcome)
  | tick (elapsed : { elapsed : Duration // 0 ≤ elapsed })
  | setWallClock (wallClock : Timestamp)

/-- The message id that a call generates. -/
def ToolCall.newId : ToolCall J → Option MessageId
  | .enqueue _ newId => some newId
  | _ => none

/-- A call that generates no id yet in use. -/
def ServerPool.Fresh (pool : ServerPool J) (call : ToolCall J) : Prop :=
  ∀ task ∈ pool.tasks, ∀ id ∈ call.newId, task.call.newId ≠ some id

instance ServerPool.decidableFresh (pool : ServerPool J) (call : ToolCall J) :
    Decidable (pool.Fresh call) :=
  inferInstanceAs (Decidable (∀ task ∈ pool.tasks, ∀ _ ∈ call.newId, _))

/-- A call at its next stage. -/
def ToolTask.at_ (task : ToolTask J) (moved : Server J × Stage J) : Server J × ToolTask J :=
  (moved.1, { task with stage := moved.2 })

/-- One step of the server. -/
def ServerPool.step (services : Services) (pool : ServerPool J) : ServerAction J → Option (ServerPool J)
  | .call caller call => if pool.Fresh call then some (pool.spawn ⟨caller, call, .authorize⟩) else none
  | .step i env =>
    pool.advance i fun server task => (server.move services i env task).map task.at_
  | .timeout i wrote =>
    pool.advance i fun server task => (server.timeout i wrote task).map task.at_
  | .tick elapsed =>
    some { pool with shared := { pool.shared with now := pool.shared.now + elapsed.val } }
  | .setWallClock wallClock => some { pool with shared := { pool.shared with wallClock } }

/-- A server that has just been started on what a disk holds. -/
def Server.new (dataDir : Location) (keys : Log KeyRecord) (disk : Disk J) (now : Instant)
    (wallClock : Timestamp) : Server J :=
  { registry := .new dataDir, apiKeys := .opened keys, disk, now, wallClock }

/-- A disk with nothing on it. -/
def Disk.empty : Disk J :=
  ⟨fun _ => {}, fun _ => {}⟩

/-- Packages by which any two vectors are alike, and no text is the id of a message. -/
def Services.alike : Services where
  score _ _ := 1
  readId _ := none
  sha256 _ := []
  headerText value :=
    if value.all fun byte => decide (32 ≤ byte ∧ byte < 127 ∨ byte = 9) then
      some (String.ofList (value.map fun byte => Char.ofNat byte.toNat))
    else none

/-- As many steps of a call as it takes when nothing fails. -/
def ServerAction.run (task steps : Nat) : List (ServerAction J) :=
  List.replicate steps (.step task {})

/-- An enqueue of a payload on a queue, and nothing more. -/
def ToolCall.plain (queue : String) (payload : J) (newId : MessageId) : ToolCall J :=
  .enqueue
    { queue := some queue
      payload
      idempotencyKey := none
      estimatedTokens := none
      estimatedCost := none
      embedding := none } newId

end Qaas
