import Qaas.Group.Checkpoints
import Qaas.Group.Sound
import Qaas.Server.Isolation
import Qaas.Server.Opening

/-! How many messages a tenant's queues hold, and what one step of a call adds to them. -/

namespace Qaas

open Concurrency

section

variable {T V : Type}

/-- The failed deliveries that an operation has in its hands. -/
def Pc.failures : Pc T V → Nat
  | .resolve _ caller | .insertDeadLetter _ caller | .appendDeadLettered _ caller =>
    caller.rest.length + 1
  | _ => 0

/-- The messages that an operation is about to make pending. -/
def Pc.incoming : Pc T V → Nat
  | .reserve _ _ | .appendEnqueue _ _ | .pushPending _ _ | .appendRemove _ .reprocess => 1
  | _ => 0

/-- What an operation has in its hands, or is about to make pending. -/
def Pc.load (pc : Pc T V) : Nat :=
  pc.failures + pc.incoming

/-- A dead letter that the next step of an operation takes in order to make it pending again. -/
def ConsumerGroup.revives (group : ConsumerGroup T V) : Pc T V → Nat
  | .takeEntry id .reprocess => present (group.dlq.entries.lookup id)
  | _ => 0

/-- A caller goes on with the failed deliveries that it has left. -/
theorem ResolveCaller.load (caller : ResolveCaller T V) :
    caller.next.load = caller.rest.length ∧ caller.failed.load = caller.rest.length := by
  match caller with
  | .nack | .reclaim [] | .reclaim (_ :: _) => exact ⟨rfl, rfl⟩

/-- An operation that changes nothing takes nothing on either. -/
theorem Quiet.load {pc next : Pc T V} (quiet : Quiet pc next) : next.load = 0 := by
  cases quiet <;> rfl

/-- Making the retries claimable whose backoff has elapsed changes no count. -/
theorem State.promote_length (state : State T V) (now : Instant) :
    (state.promoteReadyDelayed now).pending.length + (state.promoteReadyDelayed now).delayed.length =
      state.pending.length + state.delayed.length := by
  -- What is ready moves to the end of the queue, and the rest waits on.
  have split := List.length_eq_length_filter_add (l := state.delayed) fun entry => entry.availableAt ≤ now
  simp only [State.promoteReadyDelayed, List.length_append, List.length_map]
  have negated : (state.delayed.filter fun entry => ¬ entry.availableAt ≤ now) =
      state.delayed.filter fun entry => !decide (entry.availableAt ≤ now) := by
    congr 1
    funext entry
    exact decide_not
  rw [negated]
  omega

/-- A lease that is there is one of the leases. -/
theorem State.activeLease_found {state : State T V} {id : MessageId} {token : LeaseToken}
    {lease : Leased T V} (active : state.activeLease id token = some lease) :
    state.leased.lookup id = some lease :=
  (Option.filter_eq_some_iff.mp active).1

/-- Taking a lease out makes room for one message. -/
theorem State.card_erase {state : State T V} {id : MessageId} {lease : Leased T V}
    (found : state.leased.lookup id = some lease) :
    (state.leased.erase id).keys.card + 1 = state.leased.keys.card := by
  rw [Finmap.keys_erase]
  exact Finset.card_erase_add_one (Finmap.mem_keys.mpr (Finmap.mem_of_lookup_eq_some found))

/-- What a sweep takes out of the leases it has in its hands. -/
theorem Reclaims.length_le {state : State T V} {now : Instant} {order : List MessageId}
    {batch : List (FailedDelivery T V)} (reclaims : Reclaims state now order batch) :
    (order.foldl (fun leased id => leased.erase id) state.leased).keys.card + batch.length ≤
      state.leased.keys.card := by
  -- The leases that are taken out are distinct, and each makes at most one failed delivery.
  have leased : order.toFinset ⊆ state.leased.keys := by
    intro id member
    obtain ⟨lease, found, _⟩ := (reclaims.expired id).mp (List.mem_toFinset.mp member)
    exact Finmap.mem_keys.mpr (Finmap.mem_of_lookup_eq_some found)
  have taken : batch.length ≤ order.length := by
    rw [reclaims.taken]
    exact List.length_filterMap_le _ _
  have apart := Finset.card_sdiff_add_card_eq_card leased
  rw [List.toFinset_card_of_nodup reclaims.nodup] at apart
  rw [keys_foldl_erase]
  omega

/-- One step of an operation adds no message to those that are held or on their way, unless it takes a
dead letter in order to make it pending again. -/
theorem Moved.load {now : Instant} {wallClock : Timestamp} {env : StepEnv}
    {group group' : ConsumerGroup T V} {pc next : Pc T V}
    (moved : Moved now wallClock env group pc group' next) :
    group'.len + next.load ≤ group.len + pc.load + group.revives pc := by
  cases moved with
  | quiet changed quiet =>
    have light := quiet.load
    show group.len + next.load ≤ _
    omega
  | reserveHit | reserveFresh | enqueueWritten | exhaustedWritten | insertDeadLetter | ackStale
  | ackWritten | ackFailed | checkpointWritten | checkpointFailed | annotateWritten | annotateFailed
  | verdictStored | releaseKey | removeFailed =>
    -- The queues are as long as before, and no more is on its way.
    show group.len + _ ≤ group.len + _ + _
    refine Nat.le_add_right_of_le (Nat.add_le_add_left ?_ _)
    simp [Pc.load, Pc.failures, Pc.incoming]
  | @enqueueFailed message caller failed =>
    show group.len + (releaseThenFail message.id message.idempotencyKey : Pc T V).load ≤ _
    have light : (releaseThenFail message.id message.idempotencyKey : Pc T V).load = 0 := by
      cases message.idempotencyKey <;> rfl
    omega
  | pushPending =>
    -- The message was on its way, and is pending now.
    simp only [ConsumerGroup.len, ConsumerGroup.withState, List.length_append, List.length_singleton,
      Pc.load, Pc.failures, Pc.incoming]
    omega
  | reclaim reclaims =>
    have taken := reclaims.length_le
    rw [List.length_cons] at taken
    simp only [ConsumerGroup.len, ConsumerGroup.withState, Pc.load, Pc.failures, Pc.incoming,
      ResolveCaller.rest]
    omega
  | @claimed entry rest front =>
    have same := group.state.promote_length now
    rw [front, List.length_cons] at same
    have atMost := Finset.card_insert_le entry.id group.state.leased.keys
    -- The message leaves the pending ones, and its lease may replace another.
    simp only [ConsumerGroup.len, keys_insert, Pc.load, Pc.failures, Pc.incoming]
    show rest.length + _ + (group.state.promoteReadyDelayed now).delayed.length + _ ≤ _
    omega
  | promoted wakeAt empty =>
    have same := group.state.promote_length now
    have leased : (group.state.promoteReadyDelayed now).leased = group.state.leased := rfl
    simp only [ConsumerGroup.len, ConsumerGroup.withState, leased, Pc.load, Pc.failures, Pc.incoming]
    omega
  | @retried failed caller attemptsLeft =>
    have rest := caller.load.1
    simp only [ConsumerGroup.len, ConsumerGroup.withState, List.length_append, List.length_singleton,
      rest]
    simp only [Pc.load, Pc.failures, Pc.incoming]
    omega
  | @exhaustedFailed failed caller exhausted unsynced =>
    have rest := caller.load.2
    show group.len + caller.failed.load ≤ _
    rw [rest]
    simp only [Pc.load, Pc.failures, Pc.incoming]
    omega
  | @deadLetteredWritten id caller synced =>
    have rest := caller.load.1
    show group.len + caller.next.load ≤ _
    rw [rest]
    simp only [Pc.load, Pc.failures, Pc.incoming]
    omega
  | @deadLetteredFailed id caller failed =>
    have rest := caller.load.2
    show group.len + caller.failed.load ≤ _
    rw [rest]
    simp only [Pc.load, Pc.failures, Pc.incoming]
    omega
  | acked active =>
    have room := State.card_erase (State.activeLease_found active)
    simp only [ConsumerGroup.len, ConsumerGroup.withState, Pc.load, Pc.failures, Pc.incoming]
    omega
  | nacked active =>
    have room := State.card_erase (State.activeLease_found active)
    simp only [ConsumerGroup.len, ConsumerGroup.withState, Pc.load, Pc.failures, Pc.incoming,
      ResolveCaller.rest, List.length_nil]
    omega
  | checkpointStored active | published _ active =>
    -- A lease with another content is still one lease.
    simp only [ConsumerGroup.len, ConsumerGroup.withState,
      keys_insert_found _ (State.activeLease_found active), Pc.load, Pc.failures, Pc.incoming]
    omega
  | @taken id caller deadLetter found =>
    show group.len + _ ≤ group.len + _ + _
    cases caller <;> simp [Pc.load, Pc.failures, Pc.incoming, ConsumerGroup.revives, found]
  | @removeWritten deadLetter caller synced =>
    show group.len + (caller.next deadLetter : Pc T V).load ≤ group.len + _ + _
    cases caller with
    | reprocess => exact Nat.le_add_right _ _
    | purge =>
      have light : (TakeCaller.purge.next deadLetter : Pc T V).load = 0 := by
        unfold TakeCaller.next
        cases deadLetter.idempotencyKey <;> rfl
      omega

/-- An enqueue begins with a message on its way. -/
theorem Call.enqueue_load (message : Message T) : ((Call.enqueue message : Call T V).entry).load = 1 := by
  obtain ⟨id, item, key⟩ := message
  cases key <;> rfl

/-- Dropping an operation adds no message. -/
theorem ConsumerGroup.abandon_load {self : Nat} {now : Instant} {wallClock : Timestamp}
    {wrote : AppendOutcome} {group group' : ConsumerGroup T V} {pc next : Pc T V}
    (dropped : group.abandon self now wallClock wrote pc = some (group', next)) :
    group'.len ≤ group.len + pc.load := by
  -- What is dropped leaves the queues, or its write lands as the step would have.
  cases abandon_dropped dropped with
  | stalled stalled =>
    simp only [ConsumerGroup.len, stalled.state]
    omega
  | written _ _ writes moved =>
    have load := moved.load
    have plain : group.revives pc = 0 := by
      cases pc <;> first | rfl | cases writes
    omega

end

variable {J : Type} {tenant : TenantId}

/-- The failed deliveries that a call has in its hands. -/
def Stage.failures : Stage J → Nat
  | .group _ pc _ => pc.failures
  | _ => 0

/-- The messages that a call is about to make pending, its tenant's ceiling behind it. -/
def Stage.incoming : Stage J → Nat
  | .tryAdmit _ => 1
  | .group _ pc _ => pc.incoming
  | _ => 0

/-- What a call has in its hands, or is about to make pending. -/
def Stage.load (stage : Stage J) : Nat :=
  stage.failures + stage.incoming

/-- The messages in a tenant's open queues. -/
def QueueRegistry.held (registry : QueueRegistry (ConsumerGroup J J)) (tenant : TenantId) : Nat :=
  ∑ key ∈ registry.matching tenant, (registry.groups.lookup key).elim 0 ConsumerGroup.len

/-- Whether a call's next step lets one more message be on its way: an enqueue that finds its tenant
below the ceiling, or a dead letter that is taken in order to make it pending again. -/
def Server.letsIn (server : Server J) (env : ToolEnv) (task : ToolTask J) : Bool :=
  match task.stage with
  | .listPending _ (.ceiling _ maxPending) => env.queues.isEmpty && decide (0 < maxPending)
  | .sumPending _ (.ceiling _ maxPending) key [] total =>
    (server.registry.groups.lookup key).any fun group =>
      decide (saturatingAdd total (lengthAsU64 group.len) < maxPending)
  | .group queue (.takeEntry id .reprocess) _ =>
    (server.registry.groups.lookup (scopeKey task.caller queue)).any fun group =>
      (group.dlq.entries.lookup id).isSome
  | _ => false

/-- A caller's queues hold what its own groups hold. -/
theorem QueueRegistry.held_congr {server next : Server J} (agree : server.Agree (some tenant) next) :
    next.registry.held tenant = server.registry.held tenant := by
  -- The same keys are summed over, and each has the same group.
  have same : server.registry.matching tenant = next.registry.matching tenant :=
    (Part.matching tenant).get_own agree
  unfold QueueRegistry.held
  rw [← same]
  refine Finset.sum_congr rfl fun key member => ?_
  rw [agree.groups key (Finset.mem_filter.mp member).2]

/-- Another group in the place of a queue's trades what it holds for what that one held. -/
theorem QueueRegistry.held_setGroup (registry : QueueRegistry (ConsumerGroup J J)) (tenant : TenantId)
    {queue : String} (valid : ValidName queue) (group : ConsumerGroup J J) :
    (registry.setGroup (some tenant) queue group).held tenant +
        (registry.groups.lookup (scopeKey (some tenant) queue)).elim 0 ConsumerGroup.len =
      registry.held tenant + group.len :=
  sum_insert (fun key => startsWith key (tenantPrefix tenant) = true) ConsumerGroup.len registry.groups
    group ((startsWith_tenantPrefix valid tenant).mpr rfl)

/-- An answer that takes nothing on, or an error. -/
theorem proceed_load {A : Type} {value : Except ErrorData A} {next : A → Stage J}
    (light : ∀ a, (next a).load = 0) : (proceed value next).load = 0 := by
  cases value with
  | ok a => exact light a
  | error error => rfl

/-- A call takes nothing on before its queue is open. -/
theorem ToolCall.start_load (call : ToolCall J) (caller : Caller) : (call.start caller).load = 0 := by
  -- Whatever a call starts with, looking at its parameters or at the registry, takes nothing on.
  cases call with
  | claim params | ack params | nack params | checkpoint params | publishPartialResult params
  | streamPartialResults params | listDeadLetters params | triageDeadLetter params
  | reprocessDeadLetter params | purgeDeadLetter params => exact proceed_load fun _ => rfl
  | enqueue params newId =>
    refine proceed_load fun embedding => ?_
    cases params.queue with
    | some queue => exact proceed_load fun _ => rfl
    | none => cases embedding <;> rfl
  | configureAdmission params => exact proceed_load fun _ => rfl
  | admissionStatus params => exact proceed_load fun _ => rfl
  | configureRoute params => exact proceed_load fun _ => proceed_load fun _ => rfl
  | createApiKey params first second =>
    cases caller with
    | some tenant => rfl
    | none => exact proceed_load fun _ => rfl
  | revokeApiKey params => cases caller <;> rfl
  | configureTenantQuota params =>
    cases caller with
    | some tenant => rfl
    | none => exact proceed_load fun _ => rfl
  | tenantQuotaStatus params =>
    obtain ⟨tenantId⟩ := params
    cases caller with
    | some tenant => rfl
    | none =>
      cases tenantId with
      | none => rfl
      | some named => exact proceed_load fun _ => rfl

/-- Nor does it when its queue is open. -/
theorem ToolCall.opened_load (call : ToolCall J) (services : Services) (queue : String) (now : Instant)
    (wallClock : Timestamp) : (call.opened services queue now wallClock).load = 0 := by
  cases call with
  | enqueue | ack | nack | checkpoint | publishPartialResult | streamPartialResults
  | triageDeadLetter | reprocessDeadLetter | purgeDeadLetter => exact proceed_load fun _ => rfl
  | _ => rfl

/-- A tenant's enqueue comes to its ceiling with nothing on its way. -/
theorem ToolCall.checkKey_load (call : ToolCall J) (queue : String) (embedding : Option Embedding) :
    (call.checkKey (some tenant) queue embedding).load = 0 := by
  -- The ceiling is still ahead.
  cases call with
  | enqueue params newId =>
    refine proceed_load fun key => ?_
    cases embedding <;> rfl
  | _ => rfl

/-- With the answer of its queue's group, a call takes nothing on. -/
theorem ToolCall.resume_load (call : ToolCall J) (queue : String) (failure : Option String)
    (use : GroupUse) (result : Result J J) : (call.resume queue failure use result).load = 0 := by
  -- Only a triage branches once more.
  unfold ToolCall.resume
  split
  case h_12 =>
    split <;> rfl
  all_goals rfl

/-- A count that leads below the ceiling is one that lets one more message in. -/
theorem PendingUse.counted_load (use : PendingUse) (current : UInt64) :
    (use.counted tenant current : Stage J).load =
      match use with
      | .ceiling _ maxPending => (decide (current < maxPending)).toNat
      | .status _ _ _ => 0 := by
  -- The call goes on just if the count is below the ceiling.
  cases use with
  | ceiling locals maxPending =>
    unfold PendingUse.counted
    dsimp only
    split
    · rename_i full
      rw [decide_eq_false (UInt64.not_lt.mpr full)]
      rfl
    · rename_i room
      rw [decide_eq_true (UInt64.not_le.mp room)]
      rfl
  | status config requests queues => rfl

/-- What a step of `get` adds: a queue that is opened is empty. -/
theorem Server.getStep_load {services : Services} {self : Nat} {env : ToolEnv} {server next : Server J}
    {call : ToolCall J} {current stage : Stage J} {queue : String} {at_ : GetStage}
    (valid : ValidName queue)
    (empty : (server.disk.wals (walPath server.registry.dataDir (some tenant) queue)).records = [])
    (moved : server.getStep services self env ⟨some tenant, call, current⟩ queue at_ = some (next, stage)) :
    next.registry.held tenant ≤ server.registry.held tenant ∧ stage.load = 0 := by
  obtain ⟨registry, after, got, rfl, rfl⟩ := Server.getStep_eq_some moved
  refine ⟨?_, ?_⟩
  · show registry.held tenant ≤ server.registry.held tenant
    cases QueueRegistry.get_got got with
    | opens =>
      -- A log with no records is replayed to an empty queue.
      have traded := server.registry.held_setGroup tenant valid
        (server.openGroup (some tenant) queue env.letters)
      have nothing : (server.openGroup (some tenant) queue env.letters).len = 0 := by
        simp [Server.openGroup, ConsumerGroup.opened, ConsumerGroup.len, empty, Replay.records,
          restoreCheckpoints]
      show (server.registry.setGroup (some tenant) queue
        (server.openGroup (some tenant) queue env.letters)).held tenant ≤ _
      omega
    | _ => exact le_refl _
  · cases after with
    | stage later => rfl
    | returned result => exact proceed_load fun _ => call.opened_load services queue _ _

section

variable {services : Services} {self : Nat} {env : ToolEnv} {server next : Server J} {call : ToolCall J}
  {stage : Stage J}

/-- Counting lets a message in if there is no queue to count. -/
theorem Server.listPending_load {named : TenantId} {use : PendingUse}
    (moved : server.move services self env ⟨some tenant, call, .listPending named use⟩ = some (next, stage)) :
    next.registry.held tenant + stage.load ≤
      server.registry.held tenant + (server.letsIn env ⟨some tenant, call, .listPending named use⟩).toNat := by
  -- With no queue to count the sum is zero, and is compared in this step.
  cases Server.moved_of_move moved
  have lets : (sumNext named use 0 env.queues : Stage J).load ≤
      (server.letsIn env ⟨some tenant, call, .listPending named use⟩).toNat := by
    cases keys : env.queues with
    | cons key rest => exact Nat.zero_le _
    | nil => cases use <;> simp [sumNext, PendingUse.counted_load, Server.letsIn, keys]
  omega

/-- Or if the last queue is counted and the sum is below the ceiling. -/
theorem Server.sumPending_load {named : TenantId} {use : PendingUse} {key : String} {rest : List String}
    {total : UInt64}
    (moved : server.move services self env ⟨some tenant, call, .sumPending named use key rest total⟩ =
      some (next, stage)) :
    next.registry.held tenant + stage.load ≤ server.registry.held tenant +
      (server.letsIn env ⟨some tenant, call, .sumPending named use key rest total⟩).toNat := by
  -- With queues left to count nothing is decided yet.
  cases Server.moved_of_move moved with
  | @counts _ _ _ _ _ group found =>
    cases rest with
    | cons later rest => exact Nat.le_add_right _ _
    | nil =>
      have lets : (sumNext named use (saturatingAdd total (lengthAsU64 group.len)) [] : Stage J).load ≤
          (server.letsIn env ⟨some tenant, call, .sumPending named use key [] total⟩).toNat := by
        cases use <;> simp [sumNext, PendingUse.counted_load, Server.letsIn, found]
      omega

/-- The message that the ceiling let through goes on, or is refused. -/
theorem Server.tryAdmit_load {locals : Enqueueing}
    (moved : server.move services self env ⟨some tenant, call, .tryAdmit locals⟩ = some (next, stage)) :
    next.registry.held tenant + stage.load ≤ server.registry.held tenant + (Stage.tryAdmit locals : Stage J).load := by
  -- The enqueue begins with its message on the way, which was so before; a refusal drops it.
  refine Nat.add_le_add (?_ : next.registry.held tenant ≤ _) ?_
  · cases Server.moved_of_move moved <;> exact le_refl _
  · cases Server.moved_of_move moved with
    | @admits _ params newId => exact (Call.enqueue_load (V := J) ⟨newId, params.payload, locals.key⟩).le
    | denies => exact Nat.zero_le 1

/-- An operation of a group lets in the dead letter that it takes to make it pending again. -/
theorem Server.group_load {queue : String} {pc : Pc J J} {use : GroupUse} (valid : ValidName queue)
    (moved : server.move services self env ⟨some tenant, call, .group queue pc use⟩ = some (next, stage)) :
    next.registry.held tenant + stage.load ≤ server.registry.held tenant + pc.load +
      (server.letsIn env ⟨some tenant, call, .group queue pc use⟩).toNat := by
  obtain ⟨group, group', pc', found, step, rfl, rfl⟩ := Server.move_group services moved
  have load := (move_moved step).load
  have traded := server.registry.held_setGroup tenant valid group'
  rw [found, Option.elim_some] at traded
  have revived : group.revives pc = (server.letsIn env ⟨some tenant, call, .group queue pc use⟩).toNat := by
    cases pc with
    | takeEntry id caller =>
      cases caller with
      | purge => rfl
      | reprocess =>
        show present (group.dlq.entries.lookup id) =
          ((server.registry.groups.lookup (scopeKey (some tenant) queue)).any fun group =>
            (group.dlq.entries.lookup id).isSome).toNat
        rw [show server.registry.groups.lookup (scopeKey (some tenant) queue) = some group from found,
          Option.any_some]
        cases group.dlq.entries.lookup id <;> rfl
    | _ => rfl
  rw [← revived]
  show (server.registry.setGroup (some tenant) queue group').held tenant + _ ≤
    server.registry.held tenant + pc.load + group.revives pc
  -- The operation has ended, and the call goes on with nothing, or it is at its next step.
  split
  · have nothing := call.resume_load queue env.failure use ‹_›
    omega
  · show _ + pc'.load ≤ _
    omega

end

/-- One step of a tenant's call adds no message to those that its queues hold or that are on their way,
unless it lets one in. -/
theorem Server.move_load {services : Services} {self : Nat} {env : ToolEnv} {server next : Server J}
    {task : ToolTask J} {stage : Stage J} (own : task.caller = some tenant) (proper : task.Proper)
    (ceiling : (server.registry.quota tenant).config.maxPendingMessages ≠ none)
    (empty : ∀ queue, ValidName queue →
      (server.disk.wals (walPath server.registry.dataDir (some tenant) queue)).records = [])
    (moved : server.move services self env task = some (next, stage)) :
    next.registry.held tenant + stage.load ≤
      server.registry.held tenant + task.stage.load + (server.letsIn env task).toNat := by
  obtain ⟨caller, call, current⟩ := task
  obtain rfl : caller = some tenant := own
  -- Where the groups stay as they are, only what the call takes on is in question.
  have light : next.registry.held tenant = server.registry.held tenant → stage.load = 0 →
      next.registry.held tenant + stage.load ≤
        server.registry.held tenant + current.load + (server.letsIn env ⟨some tenant, call, current⟩).toNat := by
    intro same nothing
    omega
  cases Server.moved_of_move moved with
  | lists => exact Server.listPending_load moved
  | counts => exact Server.sumPending_load moved
  | admits | denies => exact Nat.le_add_right_of_le (Server.tryAdmit_load moved)
  | operates | returns => exact Server.group_load proper.2 moved
  | @gets queue _ _ _ stepped =>
    obtain ⟨fewer, nothing⟩ := Server.getStep_load proper.2 (empty queue proper.2) stepped
    omega
  | trusts trusted | uncounted trusted => cases trusted
  | allows => exact light rfl (call.start_load _)
  | routes => exact light rfl (proceed_load fun _ => rfl)
  | skips => exact light rfl (call.checkKey_load _ none)
  | checksKey => exact light rfl (call.checkKey_load _ _)
  | unlimited own unlimited =>
    -- A tenant with a ceiling has its messages counted.
    obtain rfl := Option.some.inj own
    exact absurd unlimited ceiling
  | @listsLetters queue group found =>
    -- The dead letters are read, and the group is put back as it was.
    have traded := server.registry.held_setGroup tenant proper.2 group
    rw [found, Option.elim_some] at traded
    exact light (Nat.add_right_cancel traded) rfl
  | managesKey => cases proper
  | _ => exact light rfl rfl

/-- A tenant's call whose deadline passes adds no message. -/
theorem Server.timeout_load {self : Nat} {wrote : AppendOutcome} {server next : Server J}
    {task : ToolTask J} {stage : Stage J} (own : task.caller = some tenant) (proper : task.Proper)
    (given : server.timeout self wrote task = some (next, stage)) :
    next.registry.held tenant + stage.load ≤ server.registry.held tenant + task.stage.load := by
  obtain ⟨caller, call, current⟩ := task
  obtain rfl : caller = some tenant := own
  obtain ⟨queue, pc, deadline, group, group', _, rfl, found, _, dropped, rfl, rfl⟩ :=
    Server.timeout_eq_some given
  have fewer := ConsumerGroup.abandon_load dropped
  have traded := server.registry.held_setGroup tenant proper.2 group'
  rw [found, Option.elim_some] at traded
  -- The call returns, and what it had in its hands is gone.
  have nothing : (call.timedOut : Stage J).load = 0 := by cases call <;> rfl
  show (server.registry.setGroup (some tenant) queue group').held tenant + call.timedOut.load ≤
    server.registry.held tenant + pc.load
  omega

/-- The queue whose group a call may change in its next step. -/
def Stage.touches : Stage J → Option String
  | .get queue _ | .group queue _ _ | .deadLetters queue => some queue
  | _ => none

/-- The configuration that a call sets for a tenant in its next step. -/
def Stage.sets (tenant : TenantId) : Stage J → Option QuotaConfig
  | .setQuota named params => if named = tenant then some params.config else none
  | _ => none

/-- The queue that a call is about to look up or to open in its next step. -/
def Stage.looksUp : Stage J → Option String
  | .get queue _ => some queue
  | _ => none

/-- What a step of a call leaves as it is: what has been logged before the process began, the groups
that it does not touch, the lock on the groups, and the ceilings that it does not set. -/
structure Server.Kept (server : Server J) (stage : Stage J) (next : Server J) : Prop where
  disk : ∀ location, (next.disk.wals location).records = (server.disk.wals location).records
  groups : stage.touches = none → next.registry.groups = server.registry.groups
  opener : stage.looksUp = none → next.registry.opener = server.registry.opener
  absent : stage.looksUp = none → ∀ key, server.registry.groups.lookup key = none →
    next.registry.groups.lookup key = none
  config : ∀ tenant, (next.registry.quota tenant).config =
    (stage.sets tenant).getD (server.registry.quota tenant).config

section

variable {services : Services} {self : Nat} {env : ToolEnv} {server next : Server J} {task : ToolTask J}
  {stage : Stage J}

/-- A step that changes only what is neither a log, a group nor a quota. -/
theorem Server.Kept.of_registry {registry : QueueRegistry (ConsumerGroup J J)}
    (groups : registry.groups = server.registry.groups) (opener : registry.opener = server.registry.opener)
    (quotas : registry.tenantQuotas = server.registry.tenantQuotas) (plain : ∀ tenant, stage.sets tenant = none) :
    server.Kept stage (server.withRegistry registry) where
  disk _ := rfl
  groups _ := groups
  opener _ := opener
  absent _ key missing := by
    show registry.groups.lookup key = none
    rw [groups, missing]
  config tenant := by
    rw [plain tenant]
    show ((registry.tenantQuotas.lookup tenant.asStr).getD _).config = _
    rw [quotas]
    rfl

/-- A step of an open queue's group opens no other. -/
theorem Server.Kept.of_group {caller : Caller} {queue : String} {group : ConsumerGroup J J}
    (found : server.registry.groups.lookup (scopeKey caller queue) = some group) (touched : stage.touches ≠ none)
    (plain : ∀ tenant, stage.sets tenant = none) (later : ConsumerGroup J J) :
    server.Kept stage (server.withRegistry (server.registry.setGroup caller queue later)) where
  disk _ := rfl
  groups untouched := absurd untouched touched
  opener _ := rfl
  absent _ key missing := by
    show (server.registry.groups.insert (scopeKey caller queue) later).lookup key = none
    by_cases same : key = scopeKey caller queue
    · rw [same, found] at missing
      cases missing
    · rw [Finmap.lookup_insert_of_ne _ same, missing]
  config tenant := by
    rw [plain tenant]
    rfl

/-- A step that uses a tenant's quota keeps the others'. -/
theorem Server.Kept.of_quota {named : TenantId} {quota : TenantQuota}
    (own : quota.config = (stage.sets named).getD (server.registry.quota named).config)
    (others : ∀ tenant, tenant ≠ named → stage.sets tenant = none) :
    server.Kept stage (server.withRegistry (server.registry.setQuota named quota)) where
  disk _ := rfl
  groups _ := rfl
  opener _ := rfl
  absent _ _ missing := missing
  config tenant := by
    show (((server.registry.tenantQuotas.insert named.asStr quota).lookup tenant.asStr).getD _).config = _
    by_cases same : tenant = named
    · subst same
      rw [Finmap.lookup_insert, Option.getD_some, own]
    · rw [Finmap.lookup_insert_of_ne _ fun names => same (TenantId.asStr_injective names),
        others tenant same]
      rfl

/-- The steps of `get` change no log's records and no quota's configuration. -/
theorem Server.getStep_kept {queue : String} {at_ : GetStage}
    (moved : server.getStep services self env task queue at_ = some (next, stage)) :
    server.Kept (.get queue at_) next := by
  obtain ⟨registry, after, got, rfl, rfl⟩ := Server.getStep_eq_some moved
  refine ⟨fun location => ?_, fun untouched => (by cases untouched), fun other => (by cases other),
    fun other => (by cases other), fun tenant => ?_⟩
  · -- Opening a log may cut it, but no record of it away.
    show ((if env.failure.isSome then server.disk else server.disk.cut _ at_).wals location).records = _
    split
    · rfl
    · cases at_ with
      | openWal =>
        simp only [Disk.cut, Function.update_apply]
        split
        · rename_i same
          rw [same]
          rfl
        · rfl
      | _ => rfl
  · show (registry.quota tenant).config = _
    rw [(QueueRegistry.get_got got).quota tenant]
    rfl

/-- No step of a call changes more. -/
theorem Server.move_kept (moved : server.move services self env task = some (next, stage)) :
    server.Kept task.stage next := by
  obtain ⟨caller, call, current⟩ := task
  have plain {named : TenantId} {quota : TenantQuota} (same : quota.config = (server.registry.quota named).config)
      (sets : ∀ tenant, current.sets tenant = none) :
      server.Kept current (server.withRegistry (server.registry.setQuota named quota)) :=
    .of_quota (by rw [sets, same]; rfl) fun tenant _ => sets tenant
  -- Most steps touch the registry or a quota, and only an operation of the group can change what is pending.
  cases Server.moved_of_move moved with
  | gets stepped => exact Server.getStep_kept stepped
  | allows | refuses => exact plain (TenantQuota.tryAcquire_config _ _) fun _ => rfl
  | limited | unlimited | readsQuota | readsRequests => exact plain rfl fun _ => rfl
  | setsQuota =>
    refine .of_quota ?_ fun tenant other => if_neg fun same => other same.symm
    rw [Stage.sets, if_pos rfl]
    rfl
  | operates found | returns found | listsLetters found =>
    exact .of_group found (fun untouched => by cases untouched) (fun _ => rfl) _
  | managesKey => exact ⟨fun _ => rfl, fun _ => rfl, fun _ => rfl, fun _ _ missing => missing, fun _ => rfl⟩
  | _ => exact .of_registry rfl rfl rfl fun _ => rfl

/-- Nor does a call whose deadline passes. -/
theorem Server.timeout_kept {wrote : AppendOutcome}
    (given : server.timeout self wrote task = some (next, stage)) : server.Kept task.stage next := by
  obtain ⟨queue, pc, deadline, _, _, _, at_, found, _, _, rfl, _⟩ := Server.timeout_eq_some given
  rw [at_]
  exact .of_group found (fun untouched => by cases untouched) (fun _ => rfl) _

/-- A call only changes the groups of its own caller. -/
theorem Stage.Proper.touches {caller subject : Caller} {queue : String} (proper : stage.Proper caller subject)
    (touched : stage.touches = some queue) : caller = subject := by
  cases stage with
  | get | group | deadLetters => exact proper.1
  | _ => cases touched

end

end Qaas
