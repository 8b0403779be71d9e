import Qaas.Admission.Controller
import Qaas.Admission.Quota
import Qaas.Auth.ApiKeys
import Qaas.Group.Step
import Qaas.Semantic
import Qaas.Server.Names

/-! The tools that the server offers: what each takes, and what it answers with. -/

namespace Qaas

/-- What `enqueue` takes. -/
structure EnqueueParams (J : Type) where
  queue : Option String
  payload : J
  idempotencyKey : Option String
  estimatedTokens : Option UInt64
  estimatedCost : Option ℚ
  embedding : Option (List (Option ℚ))

/-- What `enqueue` answers with. -/
structure EnqueueResult where
  messageId : String
  queue : String
  deduplicated : Bool
  similarity : Option ℚ
  tokensRemaining : Option UInt64
  costRemaining : Option ℚ
  deriving DecidableEq

/-- What `claim` takes. -/
structure ClaimParams where
  queue : String
  waitMs : Option UInt64

/-- What `claim` answers with. -/
structure ClaimResult (J : Type) where
  available : Bool
  throttled : Bool
  messageId : Option String
  leaseToken : Option UInt64
  idempotencyKey : Option String
  payload : Option J
  deliveryCount : Option UInt32
  checkpoint : Option J
  deriving DecidableEq

/-- What `ack` takes. -/
structure AckParams where
  queue : String
  messageId : String
  leaseToken : UInt64

/-- What `nack` takes. -/
structure NackParams where
  queue : String
  messageId : String
  leaseToken : UInt64
  reason : Option String

/-- What `checkpoint` takes. -/
structure CheckpointParams (J : Type) where
  queue : String
  messageId : String
  leaseToken : UInt64
  state : J

/-- What `publish_partial_result` takes. -/
structure PublishPartialResultParams (J : Type) where
  queue : String
  messageId : String
  leaseToken : UInt64
  data : J
  isFinal : Option Bool

/-- What `stream_partial_results` takes. -/
structure StreamPartialResultsParams where
  queue : String
  messageId : String
  afterSequence : Option UInt64
  waitMs : Option UInt64

/-- What `configure_admission` takes. -/
structure ConfigureAdmissionParams where
  queue : String
  tokensPerWindow : Option UInt64
  costCeilingPerWindow : Option ℚ
  windowSeconds : Option UInt64

/-- What `configure_admission` answers with. -/
structure ConfigureAdmissionResult where
  tokensPerWindow : Option UInt64
  costCeilingPerWindow : Option ℚ
  windowSeconds : UInt64
  deriving DecidableEq

/-- What `admission_status` takes. -/
structure AdmissionStatusParams where
  queue : String

/-- What `admission_status` answers with. -/
structure AdmissionStatusResult where
  tokensPerWindow : Option UInt64
  costCeilingPerWindow : Option ℚ
  windowSeconds : UInt64
  tokensUsed : UInt64
  costUsed : ℚ
  tokensRemaining : Option UInt64
  costRemaining : Option ℚ
  deriving DecidableEq

/-- What `configure_route` takes. -/
structure ConfigureRouteParams where
  queue : String
  embedding : List (Option ℚ)

/-- What `list_dead_letters` takes. -/
structure ListDeadLettersParams where
  queue : String

/-- A verdict in the listing of dead letters. -/
structure TriageSummary where
  classification : String
  reason : String
  triagedAtMs : UInt64
  deriving DecidableEq

/-- One entry of the listing of dead letters. -/
structure DeadLetterSummary (J : Type) where
  messageId : String
  payload : J
  deliveryCount : UInt32
  lastError : Option String
  deadLetteredAtMs : UInt64
  checkpoint : Option J
  triage : Option TriageSummary
  deriving DecidableEq

/-- What `triage_dead_letter` takes. -/
structure TriageDeadLetterParams where
  queue : String
  messageId : String
  classification : TriageClassification
  reason : String

/-- What `reprocess_dead_letter` and `purge_dead_letter` take. -/
structure DeadLetterActionParams where
  queue : String
  messageId : String

/-- What `create_api_key` takes. -/
structure CreateApiKeyParams where
  tenantId : String

/-- What `revoke_api_key` takes. -/
structure RevokeApiKeyParams where
  apiKey : String

/-- What `configure_tenant_quota` takes. -/
structure ConfigureTenantQuotaParams where
  tenantId : String
  maxQueues : Option Nat
  maxPendingMessages : Option UInt64
  requestsPerWindow : Option UInt64
  windowSeconds : Option UInt64

/-- What `configure_tenant_quota` answers with. -/
structure ConfigureTenantQuotaResult where
  tenantId : String
  maxQueues : Option Nat
  maxPendingMessages : Option UInt64
  requestsPerWindow : Option UInt64
  windowSeconds : UInt64
  deriving DecidableEq

/-- What `tenant_quota_status` takes. -/
structure TenantQuotaStatusParams where
  tenantId : Option String

/-- What `tenant_quota_status` answers with. -/
structure TenantQuotaStatusResult where
  tenantId : String
  maxQueues : Option Nat
  queuesOpen : Nat
  maxPendingMessages : Option UInt64
  pendingMessages : UInt64
  requestsPerWindow : Option UInt64
  requestsInWindow : UInt64
  windowSeconds : UInt64
  deriving DecidableEq

/-- A call of one of the server's tools; a JSON value has the type `J`. -/
inductive ToolCall (J : Type) where
  -- The id is the one that `MessageId::new` generates for the call.
  | enqueue (params : EnqueueParams J) (newId : MessageId)
  | claim (params : ClaimParams)
  | ack (params : AckParams)
  | nack (params : NackParams)
  | checkpoint (params : CheckpointParams J)
  | publishPartialResult (params : PublishPartialResultParams J)
  | streamPartialResults (params : StreamPartialResultsParams)
  | configureAdmission (params : ConfigureAdmissionParams)
  | admissionStatus (params : AdmissionStatusParams)
  | configureRoute (params : ConfigureRouteParams)
  | listDeadLetters (params : ListDeadLettersParams)
  | triageDeadLetter (params : TriageDeadLetterParams)
  | reprocessDeadLetter (params : DeadLetterActionParams)
  | purgeDeadLetter (params : DeadLetterActionParams)
  -- The random values are the two UUIDs that a new key is made of.
  | createApiKey (params : CreateApiKeyParams) (first second : BitVec 128)
  | revokeApiKey (params : RevokeApiKeyParams)
  | configureTenantQuota (params : ConfigureTenantQuotaParams)
  | tenantQuotaStatus (params : TenantQuotaStatusParams)

/-- What a tool answers with. -/
inductive ToolResult (J : Type) where
  | enqueued (result : EnqueueResult)
  | claimed (result : ClaimResult J)
  | acked (acked : Bool)
  | nacked (nacked : Bool)
  | checkpointed (checkpointed : Bool)
  | published (published : Bool) (sequence : Option UInt64)
  | streamed (active : Bool) (chunks : List (StreamChunk J))
  | admissionConfigured (result : ConfigureAdmissionResult)
  | admissionReported (result : AdmissionStatusResult)
  | routed (registeredRoutes : List String)
  | deadLetters (summaries : List (DeadLetterSummary J))
  | triaged (annotated reprocessed : Bool)
  | reprocessed (reprocessed : Bool)
  | purged (purged : Bool)
  | keyCreated (apiKey tenantId : String)
  | keyRevoked (revoked : Bool)
  | quotaConfigured (result : ConfigureTenantQuotaResult)
  | quotaReported (result : TenantQuotaStatusResult)
  deriving DecidableEq

/-- What other packages provide. -/
structure Services where
  -- How similar the directions of two vectors are.
  score : Embedding → Embedding → ℚ
  -- How a message's id is read from a text.
  readId : String → Option MessageId
  sha256 : Bytes → Bytes
  -- How the value of a header is read as text, where it is text.
  headerText : Bytes → Option String

/-- How long `claim` waits for a message where the caller does not say. -/
def defaultClaimWait : Duration := 5

/-- The longest that a call waits, whatever its caller asks for. -/
def maxClaimWait : Duration := 60

/-- How long a message stays out on a lease, on every queue of the server. -/
def visibilityTimeout : Duration := 30

/-- The similarity from which on two tasks of a queue count as duplicates. -/
def dedupSimilarityThreshold : ℚ := 95 / 100

/-- How long the embedding of a task is remembered. -/
def dedupTtl : Duration := 600

/-- How long a call waits. -/
def claimWait (waitMs : Option UInt64) : Duration :=
  min (waitMs.elim defaultClaimWait fun ms => (ms.toNat : ℚ) / 1000) maxClaimWait

/-- A duration of whole seconds. -/
def fromSecs (seconds : UInt64) : Duration :=
  (seconds.toNat : ℚ)

/-- The whole seconds of a duration. -/
def asSecs (duration : Duration) : UInt64 :=
  UInt64.ofNat ⌊duration⌋.toNat

/-- Read the id of a message. -/
def parseMessageId (services : Services) (value : String) : Except ErrorData MessageId :=
  match services.readId value with
  | some id => .ok id
  | none => .error (.invalidParams s!"{value.quote} is not a valid message id")

/-- Refuse a call for now, and say when it may be repeated. -/
def throttledToMcp (reason : String) (retryAfter : Option Duration) : ErrorData :=
  .invalidRequest reason (some ⟨retryAfter⟩)

/-- Report a write that failed. -/
def ioErrorToMcp (error : String) : ErrorData :=
  .internalError error

/-- Refuse a tool to everyone but the local connection. -/
def stdioOnly (tool : String) : ErrorData :=
  .invalidRequest s!"{tool} is only available over the trusted local stdio connection" none

/-- Validate the embedding of a call. -/
def validEmbedding (values : List (Option ℚ)) : Except ErrorData Embedding :=
  match Embedding.new values with
  | .ok embedding => .ok embedding
  | .error _ => .error (.invalidParams "embedding must be non-empty and contain only finite values")

/-- Validate the identifier of a tenant. -/
def validTenant (value : String) : Except ErrorData TenantId :=
  match TenantId.new value with
  | .ok tenant => .ok tenant
  | .error _ => .error <| .invalidParams
      "tenant id must be 1-128 characters of ASCII letters, digits, '-', or '_'"

/-- The embedding of an enqueue, if it carries one. -/
def EnqueueParams.vector {J : Type} (params : EnqueueParams J) : Except ErrorData (Option Embedding) :=
  match params.embedding with
  | some values => (validEmbedding values).map some
  | none => .ok none

/-- The idempotency key of an enqueue, if it carries one. -/
def EnqueueParams.key {J : Type} (params : EnqueueParams J) : Except ErrorData (Option IdempotencyKey) :=
  match params.idempotencyKey with
  | some value =>
    match IdempotencyKey.new value with
    | .ok key => .ok (some key)
    | .error _ => .error (.invalidParams "idempotency_key must not be empty")
  | none => .ok none

/-- A verdict as a listing shows it. -/
def TriageVerdict.summary (verdict : TriageVerdict) : TriageSummary where
  classification :=
    match verdict.classification with
    | .transient => "transient"
    | .permanent => "permanent"
  reason := verdict.reason
  triagedAtMs := verdict.triagedAt.millis

/-- A dead letter as a listing shows it. -/
def DeadLetter.summary {J : Type} (deadLetter : DeadLetter J J) : DeadLetterSummary J where
  messageId := deadLetter.id.display
  payload := deadLetter.item
  deliveryCount := deadLetter.deliveryCount
  lastError := deadLetter.lastError
  deadLetteredAtMs := deadLetter.deadLetteredAt.millis
  checkpoint := deadLetter.checkpoint
  triage := deadLetter.triage.map TriageVerdict.summary

/-- The budget that a call sets. -/
def ConfigureAdmissionParams.config (params : ConfigureAdmissionParams) : AdmissionConfig where
  tokensPerWindow := params.tokensPerWindow
  costCeilingPerWindow := params.costCeilingPerWindow
  window := fromSecs (params.windowSeconds.getD 3600)
  window_nonneg := Nat.cast_nonneg _

/-- The quota that a call sets. -/
def ConfigureTenantQuotaParams.config (params : ConfigureTenantQuotaParams) : QuotaConfig where
  maxQueues := params.maxQueues
  maxPendingMessages := params.maxPendingMessages
  requestsPerWindow := params.requestsPerWindow
  window := fromSecs (params.windowSeconds.getD 60)
  window_nonneg := Nat.cast_nonneg _

end Qaas
