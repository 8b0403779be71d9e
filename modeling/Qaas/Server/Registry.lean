import Mathlib.Algebra.BigOperators.Group.Finset.Basic
import Mathlib.Data.Finmap
import Qaas.Server.Calls

/-! What the server keeps for each caller, every part of it made on first reference. -/

namespace Qaas

/-- The queues that are open, with what belongs to them, and the quotas of the tenants. -/
structure QueueRegistry (G : Type) where
  dataDir : Location
  groups : Finmap fun _ : String => G
  /-- The call of `get` that holds the lock on the groups from one step to the next. -/
  opener : Option Nat
  admission : Finmap fun _ : String => AdmissionController
  dedup : Finmap fun _ : String => EmbeddingIndex MessageId
  routes : Finmap fun _ : String => EmbeddingIndex String
  tenantQuotas : Finmap fun _ : String => TenantQuota

variable {G : Type}

/-- A registry with nothing in it. -/
def QueueRegistry.new (dataDir : Location) : QueueRegistry G :=
  ⟨dataDir, ∅, none, ∅, ∅, ∅, ∅⟩

/-- The budget of a queue, unlimited at first. -/
def QueueRegistry.admissionOf (registry : QueueRegistry G) (tenant : Caller) (name : String) :
    AdmissionController :=
  (registry.admission.lookup (scopeKey tenant name)).getD (.new .unlimited)

/-- The embeddings of a queue's tasks, none at first. -/
def QueueRegistry.dedupOf (registry : QueueRegistry G) (tenant : Caller) (name : String) :
    EmbeddingIndex MessageId :=
  (registry.dedup.lookup (scopeKey tenant name)).getD (.new (some dedupTtl))

/-- The routes of a caller, none at first. -/
def QueueRegistry.routesOf (registry : QueueRegistry G) (tenant : Caller) : EmbeddingIndex String :=
  (registry.routes.lookup (tenantKey tenant)).getD (.new none)

/-- The quota of a tenant, unlimited at first. -/
def QueueRegistry.quota (registry : QueueRegistry G) (tenant : TenantId) : TenantQuota :=
  (registry.tenantQuotas.lookup tenant.asStr).getD (.new .unlimited)

/-- Keep the budget of a queue. -/
def QueueRegistry.setAdmission (registry : QueueRegistry G) (tenant : Caller) (name : String)
    (controller : AdmissionController) : QueueRegistry G :=
  { registry with admission := registry.admission.insert (scopeKey tenant name) controller }

/-- Keep the embeddings of a queue's tasks. -/
def QueueRegistry.setDedup (registry : QueueRegistry G) (tenant : Caller) (name : String)
    (index : EmbeddingIndex MessageId) : QueueRegistry G :=
  { registry with dedup := registry.dedup.insert (scopeKey tenant name) index }

/-- Keep the routes of a caller. -/
def QueueRegistry.setRoutes (registry : QueueRegistry G) (tenant : Caller)
    (index : EmbeddingIndex String) : QueueRegistry G :=
  { registry with routes := registry.routes.insert (tenantKey tenant) index }

/-- Keep the quota of a tenant. -/
def QueueRegistry.setQuota (registry : QueueRegistry G) (tenant : TenantId) (quota : TenantQuota) :
    QueueRegistry G :=
  { registry with tenantQuotas := registry.tenantQuotas.insert tenant.asStr quota }

/-- Keep the group of a queue. -/
def QueueRegistry.setGroup (registry : QueueRegistry G) (tenant : Caller) (name : String) (group : G) :
    QueueRegistry G :=
  { registry with groups := registry.groups.insert (scopeKey tenant name) group }

/-- Who holds the lock on the groups. -/
def QueueRegistry.setOpener (registry : QueueRegistry G) (opener : Option Nat) : QueueRegistry G :=
  { registry with opener }

/-- The keys of a tenant's open queues. -/
def QueueRegistry.matching (registry : QueueRegistry G) (tenant : TenantId) : Finset String :=
  registry.groups.keys.filter fun key => startsWith key (tenantPrefix tenant)

/-- How many queues a tenant has open. -/
def QueueRegistry.countMatching (registry : QueueRegistry G) (tenant : TenantId) : Nat :=
  (registry.matching tenant).card

/-- How far a call of `get` has come. -/
inductive GetStage where
  /-- Waits for the lock on the groups, and looks for the queue's. -/
  | lookup
  -- The lock is held in all that follows.
  | ceiling
  | createDir
  | openWal
  | openDlq
  deriving DecidableEq, Repr

/-- What a step of `get` leads to. -/
inductive GetNext (G : Type) where
  | stage (stage : GetStage)
  | returned (result : Except ErrorData G)

/-- The ceiling that a number of open queues has reached. -/
def TenantQuota.fullAt (quota : TenantQuota) (count : Nat) : Option Nat :=
  quota.config.maxQueues.filter (· ≤ count)

/-- The refusal of a queue more than a tenant may have open. -/
def queueLimit (tenant : TenantId) (count maxQueues : Nat) : ErrorData :=
  .invalidRequest s!"tenant {tenant.asStr.quote} already has {count} queues open, at its {maxQueues}-queue limit - configure_tenant_quota can raise it" none

/-- The report of a queue that cannot be opened. -/
def openFailure (name error : String) : ErrorData :=
  .internalError s!"failed to open queue {name.quote}: {error}"

/-- One step of `get` by the call `self`, for a name that is valid. The file system may refuse what
a step asks of it, and what it opens, it opens as the group `fresh`. -/
def QueueRegistry.get (self : Nat) (tenant : Caller) (name : String) (failure : Option String)
    (fresh : G) (registry : QueueRegistry G) : GetStage → Option (QueueRegistry G × GetNext G)
  | .lookup =>
    if registry.opener.isSome then none
    else
      match registry.groups.lookup (scopeKey tenant name) with
      | some group => some (registry, .returned (.ok group))
      | none =>
        some (registry.setOpener (some self), .stage (if tenant.isSome then .ceiling else .createDir))
  | .ceiling =>
    match tenant with
    | none => some (registry, .stage .createDir)
    | some tenant =>
      let quota := registry.quota tenant
      let registry := registry.setQuota tenant quota
      let count := registry.countMatching tenant
      match quota.fullAt count with
      | some maxQueues =>
        some (registry.setOpener none, .returned (.error (queueLimit tenant count maxQueues)))
      | none => some (registry, .stage .createDir)
  | .createDir =>
    match failure with
    | some error => some (registry.setOpener none, .returned (.error (openFailure name error)))
    | none => some (registry, .stage .openWal)
  | .openWal =>
    match failure with
    | some error => some (registry.setOpener none, .returned (.error (openFailure name error)))
    | none => some (registry, .stage .openDlq)
  | .openDlq =>
    match failure with
    | some error => some (registry.setOpener none, .returned (.error (openFailure name error)))
    | none => some ((registry.setGroup tenant name fresh).setOpener none, .returned (.ok fresh))

/-- The messages of a tenant's open queues, none of them taken for more than it can count. -/
def QueueRegistry.tenantPendingTotal (len : G → Nat) (registry : QueueRegistry G) (tenant : TenantId) :
    UInt64 :=
  let total := ∑ key ∈ registry.matching tenant, (registry.groups.lookup key).elim 0 len
  lengthAsU64 total

/-- One tenant's row of the dashboard. -/
structure TenantStatus where
  tenant : String
  queuesOpen : Nat
  pendingMessages : UInt64
  requestsInWindow : UInt64
  requestsPerWindow : Option UInt64
  deriving DecidableEq

/-- The labels of the tenants with an open queue, in front of the separators of the keys. -/
def QueueRegistry.tenantLabels (registry : QueueRegistry G) : Finset String :=
  registry.groups.keys.biUnion fun key => ((splitOnce nul key).map Prod.fst).elim ∅ singleton

/-- The row of the tenant with a label, or none where the `expect` of its validity fires. -/
def QueueRegistry.tenantSnapshot (len : G → Nat) (now : Instant) (registry : QueueRegistry G)
    (label : String) : Option (QueueRegistry G × TenantStatus) :=
  match TenantId.new label with
  | .error _ => none
  | .ok tenant =>
    let (quota, requestsInWindow) := (registry.quota tenant).requestsInWindow now
    let registry := registry.setQuota tenant quota
    some (registry, {
      tenant := label
      queuesOpen := registry.countMatching tenant
      pendingMessages := registry.tenantPendingTotal len tenant
      requestsInWindow
      requestsPerWindow := quota.config.requestsPerWindow })

/-- The rows of the tenants with these labels, one after the other. -/
def QueueRegistry.tenantSnapshots (len : G → Nat) (now : Instant) (registry : QueueRegistry G) :
    List String → Option (QueueRegistry G × List TenantStatus)
  | [] => some (registry, [])
  | label :: labels =>
    (registry.tenantSnapshot len now label).bind fun first =>
      (first.1.tenantSnapshots len now labels).map fun rest => (rest.1, first.2 :: rest.2)

end Qaas
