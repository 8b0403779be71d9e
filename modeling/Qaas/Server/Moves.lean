import Qaas.Server.Tools

/-! What one step of a tool call can do to the server, said once for every proof about such steps. -/

namespace Qaas

open Concurrency

variable {J : Type}

section

variable {self : Nat} {env : ToolEnv} {server next : Server J} {stage : Stage J} {caller : Caller}
  {call : ToolCall J} {queue : String}

/-- The use of a budget stores it, and nothing else. -/
theorem Server.onAdmission_eq_some
    {use : Instant → AdmissionController → AdmissionController × Stage J} :
    server.onAdmission caller queue use = some (next, stage) ↔
      server.withRegistry (server.registry.setAdmission caller queue
        (use server.now (server.registry.admissionOf caller queue)).1) = next ∧
      (use server.now (server.registry.admissionOf caller queue)).2 = stage := by
  rw [onAdmission, Option.some.injEq, Prod.mk.injEq]

/-- The use of an index of tasks stores it, and nothing else. -/
theorem Server.onDedup_eq_some
    {use : Instant → EmbeddingIndex MessageId → EmbeddingIndex MessageId × Stage J} :
    server.onDedup caller queue use = some (next, stage) ↔
      server.withRegistry (server.registry.setDedup caller queue
        (use server.now (server.registry.dedupOf caller queue)).1) = next ∧
      (use server.now (server.registry.dedupOf caller queue)).2 = stage := by
  rw [onDedup, Option.some.injEq, Prod.mk.injEq]

/-- The use of a caller's routes stores them, and nothing else. -/
theorem Server.onRoutes_eq_some
    {use : Instant → EmbeddingIndex String → EmbeddingIndex String × Stage J} :
    server.onRoutes caller use = some (next, stage) ↔
      server.withRegistry (server.registry.setRoutes caller
        (use server.now (server.registry.routesOf caller)).1) = next ∧
      (use server.now (server.registry.routesOf caller)).2 = stage := by
  rw [onRoutes, Option.some.injEq, Prod.mk.injEq]

/-- The use of a quota stores it, and nothing else. -/
theorem Server.onQuota_eq_some {tenant : TenantId}
    {use : Instant → TenantQuota → TenantQuota × Stage J} :
    server.onQuota tenant use = some (next, stage) ↔
      server.withRegistry (server.registry.setQuota tenant
        (use server.now (server.registry.quota tenant)).1) = next ∧
      (use server.now (server.registry.quota tenant)).2 = stage := by
  rw [onQuota, Option.some.injEq, Prod.mk.injEq]

/-- The use of a group needs it open, and stores it. -/
theorem Server.onGroup_eq_some
    {use : Instant → Timestamp → ConsumerGroup J J → Option (ConsumerGroup J J × Stage J)} :
    server.onGroup caller queue use = some (next, stage) ↔
      ∃ group group', server.registry.groups.lookup (scopeKey caller queue) = some group ∧
        use server.now server.wallClock group = some (group', stage) ∧
        server.withRegistry (server.registry.setGroup caller queue group') = next := by
  -- The group is found, used, and stored as the use leaves it.
  simp only [onGroup, Option.bind_eq_some_iff, Option.map_eq_some_iff, Prod.exists, Prod.mk.injEq]
  constructor
  · rintro ⟨group, found, group', after, used, rfl, rfl⟩
    exact ⟨group, group', found, used, rfl⟩
  · rintro ⟨group, group', found, used, rfl⟩
    exact ⟨group, found, group', stage, used, rfl, rfl⟩

/-- The open queues are read while no queue is being opened, and nothing changes. -/
theorem Server.onMatching_eq_some {tenant : TenantId} {use : Finset String → Option (Stage J)} :
    server.onMatching tenant use = some (next, stage) ↔
      server.registry.opener = none ∧ use (server.registry.matching tenant) = some stage ∧
        server = next := by
  unfold onMatching
  cases server.registry.opener with
  | some opener => simp
  | none => simp [Option.map_eq_some_iff]

/-- The queues that are listed are those that a tenant has open, in some order. -/
theorem Server.onMatching_listed {tenant : TenantId} {queues : List String} {listed : Stage J}
    (moved : server.onMatching tenant (fun keys =>
      if queues.Nodup ∧ queues.toFinset = keys then some listed else none) = some (next, stage)) :
    queues.toFinset = server.registry.matching tenant ∧ server = next ∧ listed = stage := by
  obtain ⟨_, used, same⟩ := Server.onMatching_eq_some.mp moved
  obtain ⟨⟨_, keys⟩, counted⟩ := Option.ite_none_right_eq_some.mp used
  exact ⟨keys, same, Option.some.inj counted⟩

/-- A call takes a step of the operation that it runs in its queue's group. -/
theorem Server.move_group (services : Services) {pc : Pc J J} {use : GroupUse}
    (moved : server.move services self env ⟨caller, call, .group queue pc use⟩ = some (next, stage)) :
    ∃ group group' pc', server.registry.groups.lookup (scopeKey caller queue) = some group ∧
      group.move self server.now server.wallClock env.group pc = some (group', pc') ∧
      server.withRegistry (server.registry.setGroup caller queue group') = next ∧
      (match pc' with
        | .done result => call.resume queue env.failure use result
        | pc => .group queue pc use) = stage := by
  -- The group is in use for one step of the operation.
  unfold Server.move at moved
  obtain ⟨group, group', found, used, rfl⟩ := Server.onGroup_eq_some.mp moved
  obtain ⟨⟨_, pc'⟩, step, same⟩ := Option.map_eq_some_iff.mp used
  obtain ⟨rfl, rfl⟩ := Prod.mk.inj same
  exact ⟨group, _, pc', found, step, rfl, rfl⟩

end

section

variable (services : Services) (self : Nat) (env : ToolEnv) (server : Server J) (caller : Caller) (call : ToolCall J)

/--
The ways one step of a call can change the server, and the stage that it leads to from each.

What a report tells of a configuration is left open.
-/
inductive Server.Moved : Stage J → Server J → Stage J → Prop
  -- `authorize_impl`: only a tenant has a quota of requests.
  | trusts (trusted : caller = none) : Moved .authorize server (call.start caller)
  | allows {tenant : TenantId} {requestsRemaining : Option UInt64} (own : caller = some tenant)
      (decided : ((server.registry.quota tenant).tryAcquire server.now).2 = .allowed requestsRemaining) :
      Moved .authorize
        (server.withRegistry (server.registry.setQuota tenant
          ((server.registry.quota tenant).tryAcquire server.now).1))
        (call.start caller)
  | refuses {tenant : TenantId} {reason : String} {retryAfter : Option Duration} (own : caller = some tenant)
      (decided : ((server.registry.quota tenant).tryAcquire server.now).2 = .denied reason retryAfter) :
      Moved .authorize
        (server.withRegistry (server.registry.setQuota tenant
          ((server.registry.quota tenant).tryAcquire server.now).1))
        (.done (.error (throttledToMcp reason retryAfter)))
  -- `resolve_target_queue`
  | routes {embedding : Embedding} {queue : String} {similarity : ℚ}
      (found : ((server.registry.routesOf caller).nearest services.score env.rankRoute server.now embedding).2 =
        some (queue, similarity)) :
      Moved (.route embedding)
        (server.withRegistry (server.registry.setRoutes caller
          ((server.registry.routesOf caller).nearest services.score env.rankRoute server.now embedding).1))
        (getQueue queue)
  | strays {embedding : Embedding} {message : String} :
      Moved (.route embedding)
        (server.withRegistry (server.registry.setRoutes caller
          ((server.registry.routesOf caller).nearest services.score env.rankRoute server.now embedding).1))
        (.done (.error (.invalidParams message)))
  | gets {queue : String} {at_ : GetStage} {next : Server J} {stage : Stage J}
      (stepped : server.getStep services self env ⟨caller, call, .get queue at_⟩ queue at_ = some (next, stage)) :
      Moved (.get queue at_) next stage
  -- `enqueue_impl`, until the message goes into its queue's group.
  | compares {queue : String} {embedding : Embedding} :
      Moved (.admissionEntry queue (some embedding))
        (server.withRegistry (server.registry.setAdmission caller queue (server.registry.admissionOf caller queue)))
        (.dedupEntry queue embedding)
  | skips {queue : String} :
      Moved (.admissionEntry queue none)
        (server.withRegistry (server.registry.setAdmission caller queue (server.registry.admissionOf caller queue)))
        (call.checkKey caller queue none)
  | checksKey {queue : String} {embedding : Embedding} :
      Moved (.dedupEntry queue embedding)
        (server.withRegistry (server.registry.setDedup caller queue (server.registry.dedupOf caller queue)))
        (call.checkKey caller queue (some embedding))
  | collapses {locals : Enqueueing} {embedding : Embedding} {existingId : MessageId} {similarity : ℚ}
      (found : ((server.registry.dedupOf caller locals.queue).nearest services.score env.rankId server.now
        embedding).2 = some (existingId, similarity))
      (close : dedupSimilarityThreshold ≤ similarity) :
      Moved (.nearest locals embedding)
        (server.withRegistry (server.registry.setDedup caller locals.queue
          ((server.registry.dedupOf caller locals.queue).nearest services.score env.rankId server.now embedding).1))
        (.done <| .ok <| .enqueued {
          messageId := existingId.display
          queue := locals.queue
          deduplicated := true
          similarity := some similarity
          tokensRemaining := none
          costRemaining := none })
  | misses {locals : Enqueueing} {embedding : Embedding}
      (dissimilar : ∀ best, ((server.registry.dedupOf caller locals.queue).nearest services.score env.rankId
        server.now embedding).2 = some best → ¬ dedupSimilarityThreshold ≤ best.2) :
      Moved (.nearest locals embedding)
        (server.withRegistry (server.registry.setDedup caller locals.queue
          ((server.registry.dedupOf caller locals.queue).nearest services.score env.rankId server.now embedding).1))
        (locals.fresh caller)
  | uncounted {locals : Enqueueing} (trusted : caller = none) :
      Moved (.pendingCeiling locals) server (.tryAdmit locals)
  | limited {locals : Enqueueing} {tenant : TenantId} {maxPending : UInt64} (own : caller = some tenant)
      (ceiling : (server.registry.quota tenant).config.maxPendingMessages = some maxPending) :
      Moved (.pendingCeiling locals)
        (server.withRegistry (server.registry.setQuota tenant (server.registry.quota tenant)))
        (.listPending tenant (.ceiling locals maxPending))
  | unlimited {locals : Enqueueing} {tenant : TenantId} (own : caller = some tenant)
      (ceiling : (server.registry.quota tenant).config.maxPendingMessages = none) :
      Moved (.pendingCeiling locals)
        (server.withRegistry (server.registry.setQuota tenant (server.registry.quota tenant)))
        (.tryAdmit locals)
  | lists {tenant : TenantId} {use : PendingUse}
      (listed : env.queues.toFinset = server.registry.matching tenant) :
      Moved (.listPending tenant use) server (sumNext tenant use 0 env.queues)
  | counts {tenant : TenantId} {use : PendingUse} {key : String} {rest : List String} {total : UInt64}
      {group : ConsumerGroup J J} (found : server.registry.groups.lookup key = some group) :
      Moved (.sumPending tenant use key rest total) server
        (sumNext tenant use (saturatingAdd total (lengthAsU64 group.len)) rest)
  | admits {locals : Enqueueing} {params : EnqueueParams J} {newId : MessageId} {tokensRemaining : Option UInt64}
      {costRemaining : Option ℚ} (own : call = .enqueue params newId)
      (decided : ((server.registry.admissionOf caller locals.queue).tryAdmit server.now
        (params.estimatedTokens.getD 0) (params.estimatedCost.getD 0)).2 = .admitted tokensRemaining costRemaining) :
      Moved (.tryAdmit locals)
        (server.withRegistry (server.registry.setAdmission caller locals.queue
          ((server.registry.admissionOf caller locals.queue).tryAdmit server.now
            (params.estimatedTokens.getD 0) (params.estimatedCost.getD 0)).1))
        (runGroup locals.queue (.enqueue ⟨newId, params.payload, locals.key⟩)
          (.enqueue locals.embedding tokensRemaining costRemaining))
  | denies {locals : Enqueueing} {params : EnqueueParams J} {newId : MessageId} {reason : String}
      {retryAfter : Option Duration} (own : call = .enqueue params newId)
      (decided : ((server.registry.admissionOf caller locals.queue).tryAdmit server.now
        (params.estimatedTokens.getD 0) (params.estimatedCost.getD 0)).2 = .denied reason retryAfter) :
      Moved (.tryAdmit locals)
        (server.withRegistry (server.registry.setAdmission caller locals.queue
          ((server.registry.admissionOf caller locals.queue).tryAdmit server.now
            (params.estimatedTokens.getD 0) (params.estimatedCost.getD 0)).1))
        (.done (.error (throttledToMcp reason retryAfter)))
  -- The group, and what comes before and behind its operation.
  | remembers {queue : String} {id : MessageId} {embedding : Embedding} {tokensRemaining : Option UInt64}
      {costRemaining : Option ℚ} :
      Moved (.remember queue id embedding tokensRemaining costRemaining)
        (server.withRegistry (server.registry.setDedup caller queue
          ((server.registry.dedupOf caller queue).insert server.now id embedding)))
        (enqueued queue id tokensRemaining costRemaining)
  | operates {queue : String} {pc next : Pc J J} {use : GroupUse} {group after : ConsumerGroup J J}
      (found : server.registry.groups.lookup (scopeKey caller queue) = some group)
      (step : group.move self server.now server.wallClock env.group pc = some (after, next))
      (unended : ∀ result, next ≠ .done result) :
      Moved (.group queue pc use) (server.withRegistry (server.registry.setGroup caller queue after))
        (.group queue next use)
  | returns {queue : String} {pc : Pc J J} {result : Result J J} {use : GroupUse} {group after : ConsumerGroup J J}
      (found : server.registry.groups.lookup (scopeKey caller queue) = some group)
      (step : group.move self server.now server.wallClock env.group pc = some (after, .done result)) :
      Moved (.group queue pc use) (server.withRegistry (server.registry.setGroup caller queue after))
        (call.resume queue env.failure use result)
  | claims {queue : String} {params : ClaimParams} (own : call = .claim params)
      (headroom : ((server.registry.admissionOf caller queue).hasHeadroom server.now).2 = true) :
      Moved (.headroom queue)
        (server.withRegistry (server.registry.setAdmission caller queue
          ((server.registry.admissionOf caller queue).hasHeadroom server.now).1))
        (runGroup queue .claim (.within (server.now + claimWait params.waitMs)))
  | throttles {queue : String} {params : ClaimParams} (own : call = .claim params)
      (headroom : ((server.registry.admissionOf caller queue).hasHeadroom server.now).2 = false) :
      Moved (.headroom queue)
        (server.withRegistry (server.registry.setAdmission caller queue
          ((server.registry.admissionOf caller queue).hasHeadroom server.now).1))
        (unclaimed true)
  | forgets {queue : String} {id : MessageId} :
      Moved (.forget queue id)
        (server.withRegistry (server.registry.setDedup caller queue
          ((server.registry.dedupOf caller queue).remove id)))
        (.done (.ok (.acked true)))
  -- The tools that run no operation of a group.
  | setsAdmission {params : ConfigureAdmissionParams} {report : ConfigureAdmissionResult} :
      Moved (.setAdmission params)
        (server.withRegistry (server.registry.setAdmission caller params.queue
          ((server.registry.admissionOf caller params.queue).setConfig params.config)))
        (.done (.ok (.admissionConfigured report)))
  | readsAdmission {queue : String} :
      Moved (.admissionConfig queue)
        (server.withRegistry (server.registry.setAdmission caller queue (server.registry.admissionOf caller queue)))
        (.admissionUsage queue (server.registry.admissionOf caller queue).config)
  | reportsAdmission {queue : String} {config : AdmissionConfig} {report : AdmissionStatusResult} :
      Moved (.admissionUsage queue config)
        (server.withRegistry (server.registry.setAdmission caller queue
          ((server.registry.admissionOf caller queue).usage server.now).1))
        (.done (.ok (.admissionReported report)))
  | insertsRoute {queue : String} {embedding : Embedding} :
      Moved (.insertRoute queue embedding)
        (server.withRegistry (server.registry.setRoutes caller
          ((server.registry.routesOf caller).insert server.now queue embedding)))
        .routeKeys
  | reportsRoutes {queues : List String} :
      Moved .routeKeys
        (server.withRegistry (server.registry.setRoutes caller
          ((server.registry.routesOf caller).keys server.now).1))
        (.done (.ok (.routed queues)))
  | listsLetters {queue : String} {group : ConsumerGroup J J}
      (found : server.registry.groups.lookup (scopeKey caller queue) = some group)
      (iterates : group.dlq.entries.Iterates env.letters) :
      Moved (.deadLetters queue) (server.withRegistry (server.registry.setGroup caller queue group))
        (.done <| .ok <| .deadLetters <|
          (env.letters.filterMap group.dlq.entries.lookup).map DeadLetter.summary)
  | managesKey {key : KeyTask} {apiKeys : ApiKeyStore} {stage : Stage J}
      (stepped : server.apiKeys.toolStep services env key = some (apiKeys, stage)) :
      Moved (.key key) { server with apiKeys } stage
  | setsQuota {tenant : TenantId} {params : ConfigureTenantQuotaParams} {report : ConfigureTenantQuotaResult} :
      Moved (.setQuota tenant params)
        (server.withRegistry (server.registry.setQuota tenant
          ((server.registry.quota tenant).setConfig params.config)))
        (.done (.ok (.quotaConfigured report)))
  | readsQuota {tenant : TenantId} :
      Moved (.quotaConfig tenant)
        (server.withRegistry (server.registry.setQuota tenant (server.registry.quota tenant)))
        (.quotaRequests tenant (server.registry.quota tenant).config)
  | readsRequests {tenant : TenantId} {config : QuotaConfig} :
      Moved (.quotaRequests tenant config)
        (server.withRegistry (server.registry.setQuota tenant
          ((server.registry.quota tenant).requestsInWindow server.now).1))
        (.quotaQueues tenant config ((server.registry.quota tenant).requestsInWindow server.now).2)
  | countsQueues {tenant : TenantId} {config : QuotaConfig} {requestsInWindow : UInt64} {queuesOpen : Nat} :
      Moved (.quotaQueues tenant config requestsInWindow) server
        (.listPending tenant (.status config requestsInWindow queuesOpen))

variable {services self env server caller call} {next : Server J} {current stage : Stage J}

/-- And it can do nothing else. -/
theorem Server.moved_of_move (moved : server.move services self env ⟨caller, call, current⟩ = some (next, stage)) :
    server.Moved services self env caller call current next stage := by
  -- One case for each stage, and in it one for each way on.
  unfold Server.move at moved
  cases current with
  | get queue at_ => exact .gets moved
  | authorize =>
    cases caller with
    | none =>
      obtain ⟨rfl, rfl⟩ := Prod.mk.inj (Option.some.inj moved)
      exact .trusts rfl
    | some tenant =>
      obtain ⟨rfl, rfl⟩ := Server.onQuota_eq_some.mp moved
      dsimp only
      split
      · exact .allows rfl ‹_›
      · exact .refuses rfl ‹_›
  | route embedding =>
    obtain ⟨rfl, rfl⟩ := Server.onRoutes_eq_some.mp moved
    dsimp only
    split
    · exact .routes ‹_›
    · exact .strays
  | admissionEntry queue embedding =>
    obtain ⟨rfl, rfl⟩ := Server.onAdmission_eq_some.mp moved
    cases embedding with
    | some embedding => exact .compares
    | none => exact .skips
  | dedupEntry queue embedding =>
    obtain ⟨rfl, rfl⟩ := Server.onDedup_eq_some.mp moved
    exact .checksKey
  | nearest locals embedding =>
    obtain ⟨rfl, rfl⟩ := Server.onDedup_eq_some.mp moved
    dsimp only
    split
    · -- The most similar task is similar enough.
      rename_i existingId similarity similar
      obtain ⟨found, close⟩ := Option.filter_eq_some_iff.mp similar
      exact .collapses found (of_decide_eq_true close)
    · rename_i dissimilar
      refine .misses fun best found close => ?_
      exact Option.filter_eq_none_iff.mp dissimilar best found (decide_eq_true close)
  -- Only a tenant has a ceiling on its pending messages.
  | pendingCeiling locals =>
    cases caller with
    | none =>
      obtain ⟨rfl, rfl⟩ := Prod.mk.inj (Option.some.inj moved)
      exact .uncounted rfl
    | some tenant =>
      obtain ⟨rfl, rfl⟩ := Server.onQuota_eq_some.mp moved
      dsimp only
      split
      · exact .limited rfl ‹_›
      · exact .unlimited rfl ‹_›
  | listPending tenant use =>
    obtain ⟨listed, rfl, rfl⟩ := Server.onMatching_listed moved
    exact .lists listed
  | sumPending tenant use key rest total =>
    obtain ⟨group, found, same⟩ := Option.map_eq_some_iff.mp moved
    obtain ⟨rfl, rfl⟩ := Prod.mk.inj same
    exact .counts found
  -- Each of the next two is the stage of one tool.
  | tryAdmit locals =>
    cases call with
    | enqueue params newId =>
      obtain ⟨rfl, rfl⟩ := Server.onAdmission_eq_some.mp moved
      dsimp only
      split
      · exact .admits rfl ‹_›
      · exact .denies rfl ‹_›
    | _ => cases moved
  | headroom queue =>
    cases call with
    | claim params =>
      obtain ⟨rfl, rfl⟩ := Server.onAdmission_eq_some.mp moved
      dsimp only
      split
      · exact .claims rfl ‹_›
      · exact .throttles rfl (Bool.eq_false_of_not_eq_true ‹_›)
    | _ => cases moved
  | group queue pc use =>
    obtain ⟨group, after, later, found, step, rfl, rfl⟩ := Server.move_group services moved
    split
    · exact .returns found step
    · exact .operates found step ‹_›
  | deadLetters queue =>
    obtain ⟨group, _, found, listed, rfl⟩ := Server.onGroup_eq_some.mp moved
    obtain ⟨iterates, same⟩ := Option.ite_none_right_eq_some.mp listed
    obtain ⟨rfl, rfl⟩ := Prod.mk.inj (Option.some.inj same)
    exact .listsLetters found iterates
  | key key =>
    obtain ⟨⟨apiKeys, later⟩, stepped, same⟩ := Option.map_eq_some_iff.mp moved
    obtain ⟨rfl, rfl⟩ := Prod.mk.inj same
    exact .managesKey stepped
  | quotaQueues tenant config requestsInWindow =>
    obtain ⟨_, counted, rfl⟩ := Server.onMatching_eq_some.mp moved
    obtain rfl := Option.some.inj counted
    exact .countsQueues
  -- The others have one way on.
  | remember =>
    cases moved
    exact .remembers
  | forget =>
    cases moved
    exact .forgets
  | setAdmission =>
    cases moved
    exact .setsAdmission
  | admissionConfig =>
    cases moved
    exact .readsAdmission
  | admissionUsage =>
    cases moved
    exact .reportsAdmission
  | insertRoute =>
    cases moved
    exact .insertsRoute
  | routeKeys =>
    cases moved
    exact .reportsRoutes
  | setQuota =>
    cases moved
    exact .setsQuota
  | quotaConfig =>
    cases moved
    exact .readsQuota
  | quotaRequests =>
    cases moved
    exact .readsRequests
  | done result => cases moved

end

section

variable {self : Nat} {env : ToolEnv} {server next : Server J} {stage : Stage J} {caller : Caller}
  {call : ToolCall J} {queue : String}

/-- A call whose deadline passes drops the operation that it runs. -/
theorem Server.timeout_eq_some {wrote : AppendOutcome} {task : ToolTask J}
    (given : server.timeout self wrote task = some (next, stage)) :
    ∃ queue pc deadline group group' pc', task.stage = .group queue pc (.within deadline) ∧
      server.registry.groups.lookup (scopeKey task.caller queue) = some group ∧
      deadline ≤ server.now ∧
      group.abandon self server.now server.wallClock wrote pc = some (group', pc') ∧
      server.withRegistry (server.registry.setGroup task.caller queue group') = next ∧
      task.call.timedOut = stage := by
  -- Only a call that has a deadline, and is in its queue's group, can be dropped.
  obtain ⟨caller, call, current⟩ := task
  cases current with
  | group queue pc use =>
    cases use with
    | within deadline =>
      unfold Server.timeout at given
      obtain ⟨group, group', found, used, rfl⟩ := Server.onGroup_eq_some.mp given
      obtain ⟨late, used⟩ := Option.ite_none_right_eq_some.mp used
      obtain ⟨⟨_, pc'⟩, dropped, same⟩ := Option.map_eq_some_iff.mp used
      obtain ⟨rfl, rfl⟩ := Prod.mk.inj same
      exact ⟨queue, pc, deadline, group, _, pc', rfl, found, late, dropped, rfl, rfl⟩
    | _ => cases given
  | _ => cases given

end

end Qaas
