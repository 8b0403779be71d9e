import Qaas.Server.Load

/-! What an enqueue can see of its queue and change in it, step by step. -/

namespace Qaas

open Concurrency

variable {J : Type}

/-- What an enqueue can see of a queue and change in it. -/
structure QueueView where
  budget : AdmissionController
  index : EmbeddingIndex MessageId
  -- The ids of the pending messages, oldest first.
  pending : List MessageId
  keys : Dedup
  now : Instant

/-- The group of a caller's queue, as it is or as it will be opened. -/
def Server.groupOf (server : Server J) (caller : Caller) (queue : String) : ConsumerGroup J J :=
  (server.registry.groups.lookup (scopeKey caller queue)).getD (server.openGroup caller queue [])

/-- What there is to see of a caller's queue. -/
def Server.view (server : Server J) (caller : Caller) (queue : String) : QueueView where
  budget := server.registry.admissionOf caller queue
  index := server.registry.dedupOf caller queue
  pending := (server.groupOf caller queue).state.pending.map Pending.id
  keys := (server.groupOf caller queue).state.dedup
  now := server.now

/-- An enqueue that has not yet been compared with its queue's other tasks. -/
def Stage.Prepares (queue : String) (params : EnqueueParams J) : Stage J → Prop
  | .authorize | .route _ => True
  -- A route may lead elsewhere.
  | .get name at_ => at_ = .lookup ∨ name = queue
  | .admissionEntry name embedding => name = queue ∧ params.vector = .ok embedding
  | .dedupEntry name embedding => name = queue ∧ params.vector = .ok (some embedding)
  | _ => False

/-- The local variables are those of an enqueue on a queue. -/
def Enqueueing.Of (queue : String) (params : EnqueueParams J) (locals : Enqueueing) : Prop :=
  locals.queue = queue ∧ params.vector = .ok locals.embedding ∧ params.key = .ok locals.key

/-- An enqueue that is no duplicate and has not yet been admitted. -/
def Stage.Waits (queue : String) (params : EnqueueParams J) : Stage J → Prop
  | .pendingCeiling locals | .tryAdmit locals => locals.Of queue params
  | .listPending _ (.ceiling locals _) | .sumPending _ (.ceiling locals _) _ _ _ => locals.Of queue params
  | _ => False

/-- An enqueue of a message, as it goes through its queue's group. -/
def Pc.Enqueues {T V : Type} (message : Message T) : Pc T V → Prop
  | .reserve own key => own = message ∧ message.idempotencyKey = some key
  | .appendEnqueue own .producer | .pushPending own .producer => own = message
  | .releaseKey _ _ .ioError => True
  | .notifyOne (.message id) => id = message.id
  | _ => False

/-- An enqueue on a queue, wherever it stands. -/
inductive Stage.OnPath (queue : String) (params : EnqueueParams J) (newId : MessageId) : Stage J → Prop
  | prepares {stage : Stage J} : stage.Prepares queue params → OnPath queue params newId stage
  | asks {locals : Enqueueing} {embedding : Embedding} : locals.Of queue params →
      locals.embedding = some embedding → OnPath queue params newId (.nearest locals embedding)
  | waits {stage : Stage J} : stage.Waits queue params → OnPath queue params newId stage
  | group {pc : Pc J J} {key : Option IdempotencyKey} {embedding : Option Embedding}
      {tokens : Option UInt64} {cost : Option ℚ} : params.vector = .ok embedding →
      params.key = .ok key → pc.Enqueues ⟨newId, params.payload, key⟩ →
      OnPath queue params newId (.group queue pc (.enqueue embedding tokens cost))
  | remembers {id : MessageId} {embedding : Embedding} {tokens : Option UInt64} {cost : Option ℚ} :
      params.vector = .ok (some embedding) →
      OnPath queue params newId (.remember queue id embedding tokens cost)
  | done {result : Except ErrorData (ToolResult J)} : OnPath queue params newId (.done result)

/-- How an enqueue goes on that has got the id of its message. -/
def identified (queue : String) (embedding : Option Embedding) (id : MessageId)
    (tokens : Option UInt64) (cost : Option ℚ) : Stage J :=
  match embedding with
  | some embedding => .remember queue id embedding tokens cost
  | none => enqueued queue id tokens cost

/-- The answer of an enqueue that was found to be a duplicate. -/
def collapsed (queue : String) (id : MessageId) (similarity : ℚ) : Stage J :=
  .done <| .ok <| .enqueued {
    messageId := id.display
    queue
    deduplicated := true
    similarity := some similarity
    tokensRemaining := none
    costRemaining := none }

/-- What one step of an enqueue does to what there is to see of its queue. -/
inductive EnqueueStep (services : Services) (env : ToolEnv) (queue : String) (params : EnqueueParams J)
    (newId : MessageId) (view : QueueView) : Stage J → QueueView → Stage J → Prop
  | refused {stage : Stage J} {error : ErrorData} {keys : Dedup} :
      stage.Prepares queue params ∨ stage.Waits queue params →
      EnqueueStep services env queue params newId view stage { view with keys } (.done (.error error))
  | prepares {stage later : Stage J} {keys : Dedup} : stage.Prepares queue params →
      later.Prepares queue params →
      (∀ name at_, later = .get name at_ → at_ ≠ .lookup → ∃ before, stage = .get queue before) →
      EnqueueStep services env queue params newId view stage { view with keys } later
  | asks {stage : Stage J} {locals : Enqueueing} {embedding : Embedding} : stage.Prepares queue params →
      locals.Of queue params → locals.embedding = some embedding →
      EnqueueStep services env queue params newId view stage view (.nearest locals embedding)
  | skips {stage later : Stage J} : stage.Prepares queue params → params.vector = .ok none →
      later.Waits queue params → EnqueueStep services env queue params newId view stage view later
  | collapses {locals : Enqueueing} {embedding : Embedding} {index : EmbeddingIndex MessageId}
      {id : MessageId} {similarity : ℚ} :
      view.index.nearest services.score env.rankId view.now embedding = (index, some (id, similarity)) →
      dedupSimilarityThreshold ≤ similarity →
      EnqueueStep services env queue params newId view (.nearest locals embedding)
        { view with index } (collapsed locals.queue id similarity)
  | misses {locals : Enqueueing} {embedding : Embedding} {later : Stage J}
      {index : EmbeddingIndex MessageId} {found : Option (MessageId × ℚ)} :
      view.index.nearest services.score env.rankId view.now embedding = (index, found) →
      (∀ best, found = some best → ¬ dedupSimilarityThreshold ≤ best.2) → later.Waits queue params →
      EnqueueStep services env queue params newId view (.nearest locals embedding)
        { view with index } later
  | proceeds {stage later : Stage J} : stage.Waits queue params → later.Waits queue params →
      EnqueueStep services env queue params newId view stage view later
  | admitted {locals : Enqueueing} {budget : AdmissionController} {tokens : Option UInt64}
      {cost : Option ℚ} :
      view.budget.tryAdmit view.now (params.estimatedTokens.getD 0) (params.estimatedCost.getD 0) =
        (budget, .admitted tokens cost) →
      EnqueueStep services env queue params newId view (.tryAdmit locals) { view with budget }
        (.group queue (Call.enqueue ⟨newId, params.payload, locals.key⟩).entry
          (.enqueue locals.embedding tokens cost))
  | denied {locals : Enqueueing} {budget : AdmissionController} {reason : String}
      {wait : Option Duration} {error : ErrorData} :
      view.budget.tryAdmit view.now (params.estimatedTokens.getD 0) (params.estimatedCost.getD 0) =
        (budget, .denied reason wait) →
      EnqueueStep services env queue params newId view (.tryAdmit locals) { view with budget }
        (.done (.error error))
  | hit {message : Message J} {key : IdempotencyKey} {existing : MessageId}
      {embedding : Option Embedding} {tokens : Option UInt64} {cost : Option ℚ} :
      view.keys.lookup key = some existing →
      EnqueueStep services env queue params newId view
        (.group queue (.reserve message key) (.enqueue embedding tokens cost)) view
        (identified queue embedding existing tokens cost)
  | reserved {message : Message J} {key : IdempotencyKey} {keys : Dedup} {use : GroupUse} :
      view.keys.lookup key = none →
      EnqueueStep services env queue params newId view (.group queue (.reserve message key) use)
        { view with keys } (.group queue (.appendEnqueue message .producer) use)
  | written {message : Message J} {use : GroupUse} : env.group.outcome.acknowledged = true →
      EnqueueStep services env queue params newId view
        (.group queue (.appendEnqueue message .producer) use) view
        (.group queue (.pushPending message .producer) use)
  | unwritten {message : Message J} {use : GroupUse} {later : Stage J} :
      env.group.outcome.acknowledged = false →
      (∃ id key, later = .group queue (.releaseKey id key .ioError) use) ∨
        (∃ error, later = .done (.error error)) →
      EnqueueStep services env queue params newId view
        (.group queue (.appendEnqueue message .producer) use) view later
  | released {id : MessageId} {key : IdempotencyKey} {keys : Dedup} {use : GroupUse} {error : ErrorData} :
      EnqueueStep services env queue params newId view (.group queue (.releaseKey id key .ioError) use)
        { view with keys } (.done (.error error))
  | pushed {message : Message J} {use : GroupUse} :
      EnqueueStep services env queue params newId view
        (.group queue (.pushPending message .producer) use)
        { view with pending := view.pending ++ [message.id] }
        (.group queue (.notifyOne (.message message.id)) use)
  | notified {id : MessageId} {embedding : Option Embedding} {tokens : Option UInt64} {cost : Option ℚ} :
      EnqueueStep services env queue params newId view
        (.group queue (.notifyOne (.message id)) (.enqueue embedding tokens cost)) view
        (identified queue embedding id tokens cost)
  | remembers {id : MessageId} {embedding : Embedding} {tokens : Option UInt64} {cost : Option ℚ} :
      EnqueueStep services env queue params newId view (.remember queue id embedding tokens cost)
        { view with index := view.index.insert view.now id embedding } (enqueued queue id tokens cost)

section

variable {server : Server J} {caller : Caller} {queue : String}

/-- Another budget of the queue is what there is to see of it. -/
theorem Server.view_setAdmission (budget : AdmissionController) :
    (server.withRegistry (server.registry.setAdmission caller queue budget)).view caller queue =
      { server.view caller queue with budget } := by
  -- What is stored under the queue's own key is what is found there.
  have own : (server.registry.setAdmission caller queue budget).admissionOf caller queue = budget := by
    unfold QueueRegistry.setAdmission QueueRegistry.admissionOf
    rw [Finmap.lookup_insert, Option.getD_some]
  show QueueView.mk ((server.registry.setAdmission caller queue budget).admissionOf caller queue) _ _ _ _ = _
  rw [own]
  rfl

/-- So is another index. -/
theorem Server.view_setDedup (index : EmbeddingIndex MessageId) :
    (server.withRegistry (server.registry.setDedup caller queue index)).view caller queue =
      { server.view caller queue with index } := by
  have own : (server.registry.setDedup caller queue index).dedupOf caller queue = index := by
    unfold QueueRegistry.setDedup QueueRegistry.dedupOf
    rw [Finmap.lookup_insert, Option.getD_some]
  show QueueView.mk _ ((server.registry.setDedup caller queue index).dedupOf caller queue) _ _ _ = _
  rw [own]
  rfl

/-- Of another group only the pending messages and the keys are to be seen. -/
theorem Server.view_setGroup (group : ConsumerGroup J J) :
    (server.withRegistry (server.registry.setGroup caller queue group)).view caller queue =
      { server.view caller queue with
        pending := group.state.pending.map Pending.id
        keys := group.state.dedup } := by
  -- The group is stored under its own key, and found there.
  have own : (server.withRegistry (server.registry.setGroup caller queue group)).groupOf caller queue =
      group := by
    show ((server.registry.groups.insert (scopeKey caller queue) group).lookup _).getD _ = group
    rw [Finmap.lookup_insert, Option.getD_some]
  show QueueView.mk _ _ ((Server.groupOf _ caller queue).state.pending.map Pending.id)
    (Server.groupOf _ caller queue).state.dedup _ = _
  rw [own]
  rfl

/-- An open queue shows its group. -/
theorem Server.groupOf_found {group : ConsumerGroup J J}
    (found : server.registry.groups.lookup (scopeKey caller queue) = some group) :
    server.groupOf caller queue = group := by
  rw [groupOf, found, Option.getD_some]

/-- A queue that is not open shows what it will be opened as. -/
theorem Server.groupOf_absent (absent : server.registry.groups.lookup (scopeKey caller queue) = none) :
    server.groupOf caller queue = server.openGroup caller queue [] := by
  rw [groupOf, absent, Option.getD_none]

/-- Cutting a log back changes nothing of what its queue is opened as. -/
theorem Server.openGroup_cut (letters : List MessageId) (at_ : GetStage) :
    (Server.openGroup { server with
      disk := server.disk.cut (walPath server.registry.dataDir caller queue) at_ } caller queue letters).state =
      (server.openGroup caller queue letters).state := by
  cases at_ <;> simp only [Server.openGroup, Disk.cut, Function.update_self] <;> rfl

/-- So a queue that is not open shows the same afterwards. -/
theorem Server.view_cut (absent : server.registry.groups.lookup (scopeKey caller queue) = none)
    (at_ : GetStage) :
    Server.view { server with
      disk := server.disk.cut (walPath server.registry.dataDir caller queue) at_ } caller queue =
        server.view caller queue := by
  unfold Server.view Server.groupOf
  simp only [absent, Option.getD_none, Server.openGroup_cut]

end

section

variable {services : Services} {self : Nat} {env : ToolEnv} {server next : Server J} {caller : Caller}
  {queue : String} {params : EnqueueParams J} {newId : MessageId} {current stage : Stage J}

/-- A stage at which an enqueue arrives before it is compared, or an error. -/
def Stage.Arrives (queue : String) (params : EnqueueParams J) (stage : Stage J) : Prop :=
  (stage.Prepares queue params ∧ ∀ name at_, stage = .get name at_ → at_ = .lookup) ∨
    ∃ error, stage = .done (.error error)

/-- A name leads to the queue of that name, or to an error. -/
theorem getQueue_arrives (name : String) : (getQueue name : Stage J).Arrives queue params := by
  unfold getQueue
  -- A valid name is looked up first.
  cases validateQueueName name with
  | ok _ =>
    refine .inl ⟨.inl rfl, fun other at_ same => ?_⟩
    cases same
    rfl
  | error error => exact .inr ⟨error, rfl⟩

/-- Once authorized, an enqueue looks for its queue, or for the route to it. -/
theorem EnqueueParams.start_arrives :
    ((ToolCall.enqueue params newId).start caller).Arrives queue params := by
  cases vector : params.vector with
  | error error => exact .inr ⟨error, by simp only [ToolCall.start, vector, proceed]⟩
  | ok embedding =>
    cases named : params.queue with
    | some name =>
      have shape : (ToolCall.enqueue params newId).start caller = getQueue name := by
        simp only [ToolCall.start, vector, proceed, named]
      rw [shape]
      exact getQueue_arrives name
    | none =>
      -- Without a name, the embedding leads to a route.
      cases embedding with
      | some embedding =>
        have shape : (ToolCall.enqueue params newId).start caller = .route embedding := by
          simp only [ToolCall.start, vector, proceed, named]
        rw [shape]
        exact .inl ⟨True.intro, fun _ _ same => by cases same⟩
      | none =>
        exact .inr ⟨.invalidParams "queue is required unless embedding is given, for routing",
          by simp only [ToolCall.start, vector, proceed, named]⟩

/-- With its queue open, an enqueue goes on to the queue's budget. -/
theorem EnqueueParams.opened_arrives (newId : MessageId) (services : Services) (now : Instant)
    (wallClock : Timestamp) :
    ((ToolCall.enqueue params newId).opened services queue now wallClock).Arrives queue params := by
  -- A vector that is refused ends the call; otherwise it goes on as it was given.
  cases vector : params.vector with
  | error error => exact .inr ⟨error, by simp only [ToolCall.opened, vector, proceed]⟩
  | ok embedding =>
    have shape : (ToolCall.enqueue params newId).opened services queue now wallClock =
        .admissionEntry queue embedding := by
      simp only [ToolCall.opened, vector, proceed]
    rw [shape]
    exact .inl ⟨⟨rfl, vector⟩, fun _ _ same => by cases same⟩

/-- An enqueue that is not a duplicate waits to be admitted. -/
theorem Enqueueing.Of.fresh {locals : Enqueueing} (own : locals.Of queue params) (caller : Caller) :
    (locals.fresh caller : Stage J).Waits queue params := by
  unfold Enqueueing.fresh
  split <;> exact own

/-- A step that prepares an enqueue, or refuses it, and shows nothing new but keys. -/
theorem EnqueueStep.onward {view : QueueView} (keys : Dedup) {later : Stage J}
    (before : current.Prepares queue params) (after : later.Arrives queue params) :
    EnqueueStep services env queue params newId view current { view with keys } later := by
  rcases after with ⟨prepared, first⟩ | ⟨error, rfl⟩
  · exact .prepares before prepared fun name at_ same within => absurd (first name at_ same) within
  · exact .refused (.inl before)

/-- What a step of `get` does to the disk changes nothing of what there is to see. -/
theorem Server.view_disk {at_ : GetStage} (failed : Bool)
    (absent : at_ ≠ .lookup → server.registry.groups.lookup (scopeKey caller queue) = none) :
    Server.view { server with
      disk := if failed then server.disk
        else server.disk.cut (walPath server.registry.dataDir caller queue) at_ } caller queue =
      server.view caller queue := by
  -- A log is cut only while its queue is being opened, and by no record.
  cases failed with
  | true => rfl
  | false =>
    by_cases first : at_ = .lookup
    · subst first
      rfl
    · exact Server.view_cut (absent first) at_

/-- A queue is opened as what there was to see of it, but for the keys. -/
theorem Server.view_opened (absent : server.registry.groups.lookup (scopeKey caller queue) = none)
    (letters : List MessageId) (disk : Disk J) :
    Server.view { server with
      registry := (server.registry.setGroup caller queue (server.openGroup caller queue letters)).setOpener none
      disk } caller queue =
      { server.view caller queue with keys := (server.openGroup caller queue letters).state.dedup } := by
  -- Before, the queue was seen as what its logs open as, which it is now.
  have own : Server.groupOf { server with
      registry := (server.registry.setGroup caller queue (server.openGroup caller queue letters)).setOpener none
      disk } caller queue = server.openGroup caller queue letters := by
    show ((server.registry.groups.insert (scopeKey caller queue) _).lookup _).getD _ = _
    rw [Finmap.lookup_insert, Option.getD_some]
  unfold Server.view
  rw [Server.groupOf_absent absent, own]
  rfl

/-- A step of `get` shows nothing new of the queue, but the order of its dead letters decides about
their keys. -/
theorem Server.getStep_enqueue {at_ : GetStage}
    (absent : at_ ≠ .lookup → server.registry.groups.lookup (scopeKey caller queue) = none)
    (moved : server.getStep services self env ⟨caller, .enqueue params newId, current⟩ queue at_ =
      some (next, stage)) :
    EnqueueStep services env queue params newId (server.view caller queue) (.get queue at_)
      (next.view caller queue) stage := by
  obtain ⟨registry, after, got, rfl, rfl⟩ := Server.getStep_eq_some moved
  -- Only the step that opens the group can show anything new.
  have seen := server.view_disk env.failure.isSome absent
  have before : (Stage.get queue at_ : Stage J).Prepares queue params := .inr rfl
  have still {later : Stage J} (after : later.Arrives queue params ∨ ∃ at_, later = .get queue at_) :
      EnqueueStep services env queue params newId (server.view caller queue) (.get queue at_)
        (Server.view { server with
          disk := if env.failure.isSome then server.disk
            else server.disk.cut (walPath server.registry.dataDir caller queue) at_ } caller queue) later := by
    rw [seen]
    rcases after with arrives | ⟨at_, rfl⟩
    · exact .onward (server.view caller queue).keys before arrives
    · exact .prepares before (.inr rfl) fun _ _ _ _ => ⟨_, rfl⟩
  cases QueueRegistry.get_got got with
  | opens =>
    -- The group is as it was to be opened, up to the keys that the dead letters give back.
    have shown := server.view_opened (absent (by decide)) env.letters
      (if env.failure.isSome then server.disk
        else server.disk.cut (walPath server.registry.dataDir caller queue) .openDlq)
    have result : EnqueueStep services env queue params newId (server.view caller queue)
        (.get queue .openDlq)
        { server.view caller queue with keys := (server.openGroup caller queue env.letters).state.dedup }
        ((ToolCall.enqueue params newId).opened services queue server.now server.wallClock) :=
      .onward _ before (EnqueueParams.opened_arrives newId services _ _)
    rw [← shown] at result
    exact result
  | finds _ _ =>
    exact still (.inl (EnqueueParams.opened_arrives newId services server.now server.wallClock))
  | begins _ _ _ | passes _ _ | goesOn _ => exact still (.inr ⟨_, rfl⟩)
  | fails _ _ => exact still (.inl (.inr ⟨_, rfl⟩))

/-- How an enqueue goes on with what an operation of its queue's group has come to. -/
def answered (queue : String) (failure : Option String) (call : ToolCall J) (use : GroupUse) :
    Pc J J → Stage J
  | .done result => call.resume queue failure use result
  | pc => .group queue pc use

/-- A step of the group shows what it does to the pending messages and the keys. -/
theorem ConsumerGroup.move_enqueue {group group' : ConsumerGroup J J} {pc pc' : Pc J J}
    {key : Option IdempotencyKey} {embedding : Option Embedding} {tokens : Option UInt64} {cost : Option ℚ}
    (found : server.registry.groups.lookup (scopeKey caller queue) = some group)
    (enqueues : pc.Enqueues ⟨newId, params.payload, key⟩)
    (moved : Moved server.now server.wallClock env.group group pc group' pc') :
    EnqueueStep services env queue params newId (server.view caller queue)
      (.group queue pc (.enqueue embedding tokens cost))
      { server.view caller queue with
        pending := group'.state.pending.map Pending.id
        keys := group'.state.dedup }
      (answered queue env.failure (.enqueue params newId) (.enqueue embedding tokens cost) pc') := by
  -- The queue is open, so its group is what there is to see.
  have shown : (server.view caller queue).pending = group.state.pending.map Pending.id ∧
      (server.view caller queue).keys = group.state.dedup := by
    rw [← Server.groupOf_found found]
    exact ⟨rfl, rfl⟩
  -- Where the group keeps its messages and keys, nothing new is to be seen.
  have still {later : Stage J} (step : EnqueueStep services env queue params newId (server.view caller queue)
      (.group queue pc (.enqueue embedding tokens cost)) (server.view caller queue) later) :
      EnqueueStep services env queue params newId (server.view caller queue)
        (.group queue pc (.enqueue embedding tokens cost))
        { server.view caller queue with
          pending := group.state.pending.map Pending.id
          keys := group.state.dedup } later := by
    rw [← shown.1, ← shown.2]
    exact step
  cases moved with
  | quiet changed quiet =>
    cases quiet with
    | notifyOne result =>
      cases result with
      | message id => cases embedding <;> exact still .notified
      | _ => cases enqueues
    | _ => cases enqueues
  | reserveHit taken =>
    -- The key is known, and the call answers with the message that has it.
    rw [← shown.2] at taken
    cases embedding <;> exact still (.hit taken)
  | reserveFresh absent =>
    -- The key is reserved before the record is written.
    rw [← shown.2] at absent
    show EnqueueStep services env queue params newId (server.view caller queue) _
      { server.view caller queue with
        pending := group.state.pending.map Pending.id
        keys := group.state.dedup.insert _ _ } _
    rw [← shown.1]
    exact .reserved absent
  | @enqueueWritten message caller synced =>
    cases caller with
    | producer => exact still (.written synced)
    | reprocess => cases enqueues
  | @enqueueFailed message caller failed =>
    cases caller with
    | producer =>
      -- A key that was reserved is released before the error is returned.
      refine still (.unwritten failed ?_)
      cases message.idempotencyKey with
      | some key => exact .inl ⟨_, _, rfl⟩
      | none => cases embedding <;> exact .inr ⟨_, rfl⟩
    | reprocess => cases enqueues
  | @pushPending message caller =>
    cases caller with
    | producer =>
      show EnqueueStep services env queue params newId (server.view caller queue) _
        { server.view caller queue with
          pending := (group.state.pending ++
            [Pending.fresh message.id message.item message.idempotencyKey]).map Pending.id
          keys := group.state.dedup } _
      rw [List.map_append, ← shown.1, ← shown.2]
      exact .pushed
    | reprocess => cases enqueues
  | @releaseKey id key result =>
    cases result with
    | ioError =>
      show EnqueueStep services env queue params newId (server.view caller queue) _
        { server.view caller queue with
          pending := group.state.pending.map Pending.id
          keys := group.state.dedup.erase key } _
      rw [← shown.1]
      cases embedding <;> exact .released
    | _ => cases enqueues
  | _ => cases enqueues

/-- A count of pending messages lets an enqueue go on, or refuses it. -/
theorem PendingUse.sumNext_waits {locals : Enqueueing} (own : locals.Of queue params) (tenant : TenantId)
    (maxPending total : UInt64) (keys : List String) :
    (sumNext tenant (.ceiling locals maxPending) total keys : Stage J).Waits queue params ∨
      ∃ error, (sumNext tenant (.ceiling locals maxPending) total keys : Stage J) = .done (.error error) := by
  -- The last queue decides; before it the count goes on.
  cases keys with
  | cons key rest => exact .inl own
  | nil =>
    unfold sumNext PendingUse.counted
    dsimp only
    split
    · exact .inr ⟨_, rfl⟩
    · exact .inl own

/-- A step of an enqueue that waits, and goes on waiting or is refused. -/
theorem EnqueueStep.waiting {view : QueueView} {later : Stage J} (before : current.Waits queue params)
    (after : later.Waits queue params ∨ ∃ error, later = .done (.error error)) :
    EnqueueStep services env queue params newId view current view later := by
  rcases after with waits | ⟨error, rfl⟩
  · exact .proceeds before waits
  · -- A refusal shows the keys as they are.
    have refused : EnqueueStep services env queue params newId view current
        { view with keys := view.keys } (.done (.error error)) := .refused (.inr before)
    exact refused

/-- A step of an enqueue that is not yet compared with its queue's other tasks. -/
theorem Server.move_prepares (prepares : current.Prepares queue params)
    (absent : ∀ at_, current = .get queue at_ → at_ ≠ .lookup →
      server.registry.groups.lookup (scopeKey caller queue) = none)
    (own : ∀ name at_, current = .get name at_ → name = queue)
    (moved : server.move services self env ⟨caller, .enqueue params newId, current⟩ = some (next, stage)) :
    EnqueueStep services env queue params newId (server.view caller queue) current
      (next.view caller queue) stage := by
  -- Most steps show nothing new.
  have still {later : Stage J} (after : later.Arrives queue params) :
      EnqueueStep services env queue params newId (server.view caller queue) current
        (server.view caller queue) later :=
    .onward (server.view caller queue).keys prepares after
  cases Server.moved_of_move moved with
  | trusts | allows => exact still EnqueueParams.start_arrives
  | refuses | strays => exact still (.inr ⟨_, rfl⟩)
  | routes => exact still (getQueue_arrives _)
  | @gets name at_ _ _ stepped =>
    obtain rfl : name = queue := own name at_ rfl
    exact Server.getStep_enqueue (absent at_ rfl) stepped
  | compares =>
    obtain ⟨rfl, vector⟩ := prepares
    rw [Server.view_setAdmission]
    exact still (.inl ⟨⟨rfl, vector⟩, fun _ _ same => by cases same⟩)
  | skips =>
    obtain ⟨rfl, vector⟩ := prepares
    rw [Server.view_setAdmission]
    unfold ToolCall.checkKey
    dsimp only
    -- Without an embedding there is nothing to compare.
    cases keyed : params.key with
    | error error => exact still (.inr ⟨error, rfl⟩)
    | ok key => exact .skips ⟨rfl, vector⟩ vector (Enqueueing.Of.fresh ⟨rfl, vector, keyed⟩ caller)
  | checksKey =>
    obtain ⟨rfl, vector⟩ := prepares
    rw [Server.view_setDedup]
    unfold ToolCall.checkKey
    dsimp only
    cases keyed : params.key with
    | error error => exact still (.inr ⟨error, rfl⟩)
    | ok key => exact .asks ⟨rfl, vector⟩ ⟨rfl, vector, keyed⟩ rfl
  | _ => cases prepares

/-- A step of an enqueue that is no duplicate and not yet admitted. -/
theorem Server.move_waits (waits : current.Waits queue params)
    (moved : server.move services self env ⟨caller, .enqueue params newId, current⟩ = some (next, stage)) :
    EnqueueStep services env queue params newId (server.view caller queue) current
      (next.view caller queue) stage := by
  -- It waits for the ceiling on pending messages, and for the admission, one after the other.
  cases Server.moved_of_move moved with
  | uncounted | limited | unlimited => exact .proceeds waits waits
  | @lists tenant use =>
    cases use with
    | ceiling locals maxPending =>
      exact .waiting waits (PendingUse.sumNext_waits waits tenant maxPending 0 env.queues)
    | status => cases waits
  | @counts tenant use key rest =>
    cases use with
    | ceiling locals maxPending => exact .waiting waits (PendingUse.sumNext_waits waits tenant maxPending _ rest)
    | status => cases waits
  | admits own decided =>
    obtain ⟨rfl, rfl⟩ := ToolCall.enqueue.inj own
    obtain ⟨rfl, _, _⟩ := waits
    rw [Server.view_setAdmission]
    exact .admitted (Prod.ext rfl decided)
  | denies own decided =>
    obtain ⟨rfl, rfl⟩ := ToolCall.enqueue.inj own
    obtain ⟨rfl, _, _⟩ := waits
    rw [Server.view_setAdmission]
    exact .denied (Prod.ext rfl decided)
  | _ => cases waits

/-- Every step of an enqueue on a queue is one of those listed. -/
theorem Server.move_enqueue (path : current.OnPath queue params newId)
    (absent : ∀ at_, current = .get queue at_ → at_ ≠ .lookup →
      server.registry.groups.lookup (scopeKey caller queue) = none)
    (own : ∀ name at_, current = .get name at_ → name = queue)
    (moved : server.move services self env ⟨caller, .enqueue params newId, current⟩ = some (next, stage)) :
    EnqueueStep services env queue params newId (server.view caller queue) current
      (next.view caller queue) stage := by
  cases path with
  | prepares prepares => exact Server.move_prepares prepares absent own moved
  | asks given =>
    obtain ⟨rfl, vector, keyed⟩ := given
    -- The most similar task is similar enough, or there is none that is.
    cases Server.moved_of_move moved with
    | collapses found close =>
      rw [Server.view_setDedup]
      exact .collapses (Prod.ext rfl found) close
    | misses dissimilar =>
      rw [Server.view_setDedup]
      exact .misses (Prod.ext rfl rfl) dissimilar (Enqueueing.Of.fresh ⟨rfl, vector, keyed⟩ caller)
  | waits waits => exact Server.move_waits waits moved
  | group vector key enqueues =>
    obtain ⟨group, group', pc', found, step, rfl, rfl⟩ := Server.move_group services moved
    rw [Server.view_setGroup]
    exact ConsumerGroup.move_enqueue found enqueues (move_moved step)
  | remembers vector =>
    cases Server.moved_of_move moved with
    | remembers =>
      rw [Server.view_setDedup]
      exact .remembers
  | done => cases moved

/-- A message that goes into its queue's group begins as an enqueue of it. -/
theorem Pc.Enqueues.entry {T V : Type} (message : Message T) :
    (Call.enqueue message : Call T V).entry.Enqueues message := by
  obtain ⟨id, item, key⟩ := message
  cases key with
  | some key => exact ⟨rfl, rfl⟩
  | none => exact rfl

/-- An enqueue that knows the id of its message is on its way or done. -/
theorem Stage.OnPath.identified {embedding : Option Embedding} (vector : params.vector = .ok embedding)
    (id : MessageId) (tokens : Option UInt64) (cost : Option ℚ) :
    (Qaas.identified queue embedding id tokens cost : Stage J).OnPath queue params newId := by
  cases embedding with
  | some embedding => exact .remembers vector
  | none => exact .done

/-- Every step of an enqueue keeps to its path. -/
theorem EnqueueStep.onPath {view after : QueueView} {later : Stage J}
    (path : current.OnPath queue params newId)
    (step : EnqueueStep services env queue params newId view current after later) :
    later.OnPath queue params newId := by
  -- By the step, and from the group on by where the path has led.
  cases step with
  | refused _ | denied _ | released | remembers | collapses _ _ => exact .done
  | prepares _ prepares _ => exact .prepares prepares
  | asks _ own vector => exact .asks own vector
  | skips _ _ waits => exact .waits waits
  | misses _ _ waits => exact .waits waits
  | proceeds _ waits => exact .waits waits
  | admitted _ =>
    -- The message goes into the group with what the call has checked.
    cases path with
    | prepares prepares => cases prepares
    | waits waits => exact .group waits.2.1 waits.2.2 (.entry _)
  | hit _ | notified =>
    cases path with
    | prepares prepares => cases prepares
    | waits waits => cases waits
    | group vector _ _ => exact .identified vector _ _ _
  | reserved _ | written _ | pushed =>
    cases path with
    | prepares prepares => cases prepares
    | waits waits => cases waits
    | group vector key enqueues =>
      first
      | exact .group vector key enqueues.1
      | exact .group vector key enqueues
      | exact .group vector key (congrArg Message.id enqueues)
  | unwritten _ shape =>
    cases path with
    | prepares prepares => cases prepares
    | waits waits => cases waits
    | group vector key _ =>
      -- The key is released next, or there was none.
      rcases shape with ⟨id, own, rfl⟩ | ⟨error, rfl⟩
      · exact .group vector key True.intro
      · exact .done

end

end Qaas
