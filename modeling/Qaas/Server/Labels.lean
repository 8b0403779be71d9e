import Qaas.Server.Registry

/-! The labels under which metrics, audit events and the dashboard show each caller's queues. -/

namespace Qaas

/-- The label of a caller, which for the trusted local connection is no tenant's identifier but a word. -/
def tenantLabel (tenant : Caller) : String :=
  match tenant with
  | some tenant => tenant.asStr
  | none => "none"

/-- The parts of a key, with the label of the local connection where there is but one. -/
def splitScopeKey (key : String) : String × String :=
  match splitOnce nul key with
  | some (tenant, queue) => (tenant, queue)
  | none => ("none", key)

/-- A caller's label, and the name of a queue. -/
abbrev Scope := String × String

/-- A sample of a metric under its two labels. -/
structure Sample where
  metric : String
  queue : String
  tenant : String
  value : ℚ

/-- What a sample is about. -/
def Sample.scope (sample : Sample) : Scope :=
  (sample.tenant, sample.queue)

/-- The two gauges of a queue, as of the latest operation on it. -/
def recordQueueMetrics (tenant : Caller) (queue : String) (depth : Nat) (oldestPendingAge : Option Duration) :
    List Sample :=
  let tenant := tenantLabel tenant
  [⟨"qaas_queue_depth", queue, tenant, depth⟩,
    -- With nothing pending there is no lag.
    ⟨"qaas_queue_oldest_pending_age_seconds", queue, tenant, oldestPendingAge.getD 0⟩]

/-- How long an acknowledged message took from its enqueue on. -/
def recordLatency (tenant : Caller) (queue : String) (now generated : Timestamp) : Sample :=
  ⟨"qaas_message_latency_seconds", queue, tenantLabel tenant, (now.millis.toNat - generated.millis.toNat : ℕ) / 1000⟩

/-- An event of the audit log. -/
inductive AuditEvent where
  | enqueue (tenant queue : String) (messageId : Option String) (deduplicated : Bool) (denied : Option String)
  | ack (tenant queue messageId : String) (acked : Bool)
  | nack (tenant queue messageId : String) (nacked : Bool) (reason : Option String)
  deriving DecidableEq

/-- What an event is about. -/
def AuditEvent.scope : AuditEvent → Scope
  | .enqueue tenant queue _ _ _ | .ack tenant queue _ _ | .nack tenant queue _ _ _ => (tenant, queue)

/-- The event of an enqueue, whatever came of it. -/
def auditEnqueue (tenant : Caller) (queue : String) (messageId : Option String) (deduplicated : Bool)
    (denied : Option String) : AuditEvent :=
  .enqueue (tenantLabel tenant) queue messageId deduplicated denied

/-- The event of an acknowledgement. -/
def auditAck (tenant : Caller) (queue : String) (messageId : MessageId) (acked : Bool) : AuditEvent :=
  .ack (tenantLabel tenant) queue messageId.display acked

/-- The event of a negative acknowledgement. -/
def auditNack (tenant : Caller) (queue : String) (messageId : MessageId) (nacked : Bool)
    (reason : Option String) : AuditEvent :=
  .nack (tenantLabel tenant) queue messageId.display nacked reason

/-- One queue's row of the dashboard. -/
structure QueueStatus where
  tenant : String
  queue : String
  depth : Nat
  oldestPendingAgeSeconds : ℚ
  deadLetters : Nat
  tokensUsed : UInt64
  tokensPerWindow : Option UInt64
  costUsed : ℚ
  costCeilingPerWindow : Option ℚ

/-- What a row is about. -/
def QueueStatus.scope (status : QueueStatus) : Scope :=
  (status.tenant, status.queue)

section

variable {G : Type} (len : G → Nat) (oldestPendingAge : G → Option Duration) (deadLetters : G → Nat)

/-- What the budget of a queue has used, and its ceilings, if there is one. -/
def QueueRegistry.usageOf (now : Instant) (registry : QueueRegistry G) (key : String) :
    QueueRegistry G × UInt64 × Option UInt64 × ℚ × Option ℚ :=
  match registry.admission.lookup key with
  | some controller =>
    -- Reading the usage drops what has left the window.
    let (controller, usage) := controller.usage now
    ({ registry with admission := registry.admission.insert key controller },
      usage.tokensUsed, controller.config.tokensPerWindow, usage.costUsed, controller.config.costCeilingPerWindow)
  | none => (registry, 0, none, 0, none)

/-- The row of the queue with a key. -/
def QueueRegistry.queueSnapshot (now : Instant) (registry : QueueRegistry G) (key : String) (group : G) :
    QueueRegistry G × QueueStatus :=
  let (tenant, queue) := splitScopeKey key
  let (registry, tokensUsed, tokensPerWindow, costUsed, costCeilingPerWindow) := registry.usageOf now key
  (registry, {
    tenant, queue
    depth := len group
    oldestPendingAgeSeconds := (oldestPendingAge group).getD 0
    deadLetters := deadLetters group
    tokensUsed, tokensPerWindow, costUsed, costCeilingPerWindow })

/-- The rows of the queues that were open, one after the other. -/
def QueueRegistry.queueSnapshots (now : Instant) (registry : QueueRegistry G) :
    List (String × G) → QueueRegistry G × List QueueStatus
  | [] => (registry, [])
  | (key, group) :: groups =>
    let (registry, status) := registry.queueSnapshot len oldestPendingAge deadLetters now key group
    let (registry, statuses) := registry.queueSnapshots now groups
    (registry, status :: statuses)

/-- Where a caller's queue is shown: in a metric, in an audited event, or in a row of the dashboard. -/
inductive Shows (caller : Caller) (name : String) : Scope → Prop
  | gauge (depth : Nat) (age : Option Duration) (sample : Sample)
      (among : sample ∈ recordQueueMetrics caller name depth age) : Shows caller name sample.scope
  | latency (now generated : Timestamp) : Shows caller name (recordLatency caller name now generated).scope
  | enqueued (messageId : Option String) (deduplicated : Bool) (denied : Option String) :
      Shows caller name (auditEnqueue caller name messageId deduplicated denied).scope
  | acked (messageId : MessageId) (acked : Bool) : Shows caller name (auditAck caller name messageId acked).scope
  | nacked (messageId : MessageId) (nacked : Bool) (reason : Option String) :
      Shows caller name (auditNack caller name messageId nacked reason).scope
  | row (now : Instant) (registry : QueueRegistry G) (groups : List (String × G)) (i : Nat) (status : QueueStatus)
      (keyed : groups[i]?.map Prod.fst = some (scopeKey caller name))
      (shown : (registry.queueSnapshots len oldestPendingAge deadLetters now groups).2[i]? = some status) :
      Shows caller name status.scope

/-- A caller's queue is shown under its caller's label and its own name, into which its key splits, and no
other queue is shown so. -/
structure Identified (caller : Caller) (name : String) : Prop where
  splits : splitScopeKey (scopeKey caller name) = (tenantLabel caller, name)
  apart : ∀ (other : Caller) (another : String), ValidName another → (other, another) ≠ (caller, name) →
    ∀ scope, Shows len oldestPendingAge deadLetters caller name scope →
      ¬ Shows len oldestPendingAge deadLetters other another scope

variable {len oldestPendingAge deadLetters} {caller : Caller} {name : String}

/-- A key splits into the label of its caller and the name. -/
theorem splitScopeKey_scopeKey (valid : ValidName name) :
    splitScopeKey (scopeKey caller name) = (tenantLabel caller, name) := by
  unfold splitScopeKey
  rw [splitOnce_scopeKey valid]
  -- The key of the local connection is the name, without a separator.
  cases caller <;> rfl

/-- A row is about what its key splits into. -/
theorem QueueRegistry.queueSnapshot_scope (now : Instant) (registry : QueueRegistry G) (key : String)
    (group : G) :
    (registry.queueSnapshot len oldestPendingAge deadLetters now key group).2.scope = splitScopeKey key :=
  rfl

/-- The rows are about what the keys of the queues split into, one after the other. -/
theorem QueueRegistry.queueSnapshots_scopes (now : Instant) (registry : QueueRegistry G) (groups : List (String × G)) :
    (registry.queueSnapshots len oldestPendingAge deadLetters now groups).2.map QueueStatus.scope =
      groups.map fun one => splitScopeKey one.1 := by
  -- Each row is read with what reading those before it has left of the budgets.
  induction groups generalizing registry with
  | nil => rfl
  | cons one groups ih =>
    exact congrArg₂ List.cons (QueueRegistry.queueSnapshot_scope now registry one.1 one.2) (ih _)

/-- A caller's queue is shown under its caller's label and its own name, and nothing else. -/
theorem shows_iff (valid : ValidName name) {scope : Scope} :
    Shows len oldestPendingAge deadLetters caller name scope ↔ scope = (tenantLabel caller, name) := by
  constructor
  · intro shows_
    cases shows_ with
    | gauge depth age sample among =>
      simp only [recordQueueMetrics, List.mem_cons, List.not_mem_nil, or_false] at among
      rcases among with rfl | rfl <;> rfl
    | row now registry groups i status keyed shown =>
      -- The row stands where its queue does.
      have scopes : (registry.queueSnapshots len oldestPendingAge deadLetters now groups).2[i]?.map QueueStatus.scope =
          groups[i]?.map fun one => splitScopeKey one.1 := by
        rw [← List.getElem?_map, registry.queueSnapshots_scopes now groups, List.getElem?_map]
      obtain ⟨one, there, key⟩ := Option.map_eq_some_iff.mp keyed
      rw [shown, there, Option.map_some, Option.map_some, key, splitScopeKey_scopeKey valid] at scopes
      exact Option.some.inj scopes
    | latency | enqueued | acked | nacked => rfl
  · rintro rfl
    exact .enqueued none false none

/-- Callers with one label are the same, unless they are the local connection and the tenant of that name. -/
theorem tenantLabel_eq_iff {other : Caller} :
    tenantLabel other = tenantLabel caller ↔
      other = caller ∨ tenantLabel other = "none" ∧ tenantLabel caller = "none" := by
  -- Identifiers of tenants differ, so that a common label is that of no tenant.
  constructor
  · intro same
    cases other with
    | none => exact .inr ⟨rfl, same.symm⟩
    | some tenant =>
      cases caller with
      | none => exact .inr ⟨same, rfl⟩
      | some own => exact .inl (congrArg some (TenantId.asStr_injective same))
  · rintro (rfl | ⟨one, two⟩)
    · rfl
    · rw [one, two]

end

/-- The tenant whose identifier is the label of the local connection. -/
def tenantNone : TenantId :=
  ⟨"none", by decide, by decide, by decide⟩

/-- Labels identify a caller's queue exactly if the caller is a tenant, and is not called like the local
connection. -/
theorem identified_iff {G : Type} (len : G → Nat) (oldestPendingAge : G → Option Duration)
    (deadLetters : G → Nat) {caller : Caller} {name : String} (valid : ValidName name) :
    Identified len oldestPendingAge deadLetters caller name ↔
      ∃ tenant, caller = some tenant ∧ tenant.asStr ≠ "none" := by
  constructor
  · intro identified
    -- A caller with that label would be shown like another.
    have collides (other : Caller) (differs : other ≠ caller) : tenantLabel other ≠ tenantLabel caller := by
      intro same
      refine identified.apart other name valid (fun pairs => differs (congrArg Prod.fst pairs))
        (tenantLabel caller, name) ((shows_iff valid).mpr rfl) ((shows_iff valid).mpr ?_)
      rw [same]
    cases caller with
    | none => exact absurd rfl (collides (some tenantNone) (fun same => by cases same))
    | some tenant =>
      refine ⟨tenant, rfl, fun named => ?_⟩
      exact absurd named.symm (collides none (fun same => by cases same))
  · rintro ⟨tenant, rfl, named⟩
    refine ⟨splitScopeKey_scopeKey valid, fun other another validOther differs scope own others => ?_⟩
    rw [shows_iff valid] at own
    rw [shows_iff validOther, own, Prod.mk.injEq] at others
    obtain ⟨label, rfl⟩ := others
    rcases tenantLabel_eq_iff.mp label.symm with rfl | ⟨_, none_⟩
    · exact differs rfl
    · exact named none_

theorem identified_not_always :
    ¬ ∀ (caller : Caller) (name : String), ValidName name →
      Identified (G := Unit) (fun _ => 0) (fun _ => none) (fun _ => 0) caller name := by
  intro always
  -- The tenant called like the local connection shares its label.
  have apart := (always none "orders" (by decide)).apart (some tenantNone) "orders" (by decide) (by decide)
  exact apart ("none", "orders") (.enqueued none false none) (.enqueued none false none)

theorem identified_iff_acme :
    Identified (G := Unit) (fun _ => 0) (fun _ => none) (fun _ => 0) (some acme) "orders" :=
  (identified_iff _ _ _ (by decide)).mpr ⟨acme, rfl, by decide⟩

end Qaas
