import Mathlib.Data.List.Perm.Basic
import Qaas.Auth.Lifecycle
import Qaas.Server.HttpAuth
import Qaas.Server.Isolation

/-! Every call on behalf of a tenant goes back to a credential that the operator gave out. -/

namespace Qaas

open Concurrency

variable {J : Type}

/-- The operation of the API keys that a call runs. -/
def ToolCall.keyCall : ToolCall J → Option KeyCall
  | .createApiKey params first second =>
    (validTenant params.tenantId).toOption.map fun tenant => .mint first second tenant
  | .revokeApiKey params => some (.revoke params.apiKey)
  | _ => none

/-- A call is at an operation of the API keys. -/
def Stage.key? : Stage J → Option KeyTask
  | .key task => some task
  | _ => none

section

variable {A : Type} {caller : Caller}

theorem Stage.key?_proceed {value : Except ErrorData A} {next : A → Stage J}
    (quiet : ∀ given, (next given).key? = none) : (proceed value next).key? = none := by
  cases value with
  | ok given => exact quiet given
  | error error => rfl

theorem Stage.key?_getQueue (name : String) : (getQueue name : Stage J).key? = none :=
  key?_proceed fun _ => rfl

theorem Stage.key?_fresh (locals : Enqueueing) : (locals.fresh caller : Stage J).key? = none := by
  unfold Enqueueing.fresh
  split <;> rfl

theorem Stage.key?_counted (tenant : TenantId) (current : UInt64) (use : PendingUse) :
    (use.counted tenant current : Stage J).key? = none := by
  -- Neither use of the count goes on to the API keys.
  cases use with
  | ceiling locals maxPending =>
    unfold PendingUse.counted
    dsimp only
    split <;> rfl
  | status config requests queues => rfl

theorem Stage.key?_sumNext (tenant : TenantId) (use : PendingUse) (total : UInt64) (keys : List String) :
    (sumNext tenant use total keys : Stage J).key? = none := by
  cases keys with
  | nil => exact key?_counted tenant total use
  | cons key rest => rfl

/-- A call whose queue is open has nothing to do with the API keys. -/
theorem ToolCall.key?_opened {services : Services} {queue : String} {now : Instant}
    {wallClock : Timestamp} (call : ToolCall J) :
    (call.opened services queue now wallClock).key? = none := by
  cases call <;> first | rfl | exact Stage.key?_proceed fun _ => rfl

theorem ToolCall.key?_checkKey (caller : Caller) (queue : String) (embedding : Option Embedding)
    (call : ToolCall J) : (call.checkKey caller queue embedding).key? = none := by
  -- An enqueue goes on to its admission.
  cases call with
  | enqueue params newId =>
    refine Stage.key?_proceed fun key => ?_
    cases embedding with
    | some vector => rfl
    | none => exact Stage.key?_fresh _
  | _ => rfl

theorem ToolCall.key?_resume {queue : String} {failure : Option String} {call : ToolCall J}
    {use : GroupUse} {result : Result J J} : (call.resume queue failure use result).key? = none := by
  unfold ToolCall.resume
  split
  case h_12 params _ _ => split <;> rfl
  all_goals rfl

theorem ToolCall.key?_timedOut (call : ToolCall J) : call.timedOut.key? = none := by
  cases call <;> rfl

/-- Only the two tools that manage the API keys come to them, and only over the local connection. -/
theorem ToolCall.key?_start {call : ToolCall J} {key : KeyTask}
    (begun : (call.start caller).key? = some key) :
    caller = none ∧ call.keyCall = some key.call ∧ key.stage = .begun := by
  -- For every other tool the call would begin elsewhere, which it does not.
  have never {stage : Stage J} (quiet : stage.key? = none) (same : call.start caller = stage) : False := by
    rw [same, quiet] at begun
    cases begun
  cases call with
  -- The key is minted for the tenant that is named, if its identifier is valid.
  | createApiKey params first second =>
    cases caller with
    | some tenant => cases begun
    | none =>
      have begun : (proceed (validTenant params.tenantId) fun named =>
          (Stage.key ⟨.mint first second named, .begun⟩ : Stage J)).key? = some key := begun
      show none = none ∧ (validTenant params.tenantId).toOption.map (KeyCall.mint first second) =
        some key.call ∧ key.stage = .begun
      cases named : validTenant params.tenantId with
      | ok tenant =>
        rw [named] at begun
        obtain rfl := Option.some.inj begun
        exact ⟨rfl, rfl, rfl⟩
      | error error =>
        rw [named] at begun
        cases begun
  | revokeApiKey params =>
    cases caller with
    | some tenant => cases begun
    | none =>
      obtain rfl := Option.some.inj begun
      exact ⟨rfl, rfl, rfl⟩
  -- The others begin with a queue, a route or a quota.
  | enqueue params newId =>
    refine (never (Stage.key?_proceed fun embedding => ?_) rfl).elim
    cases params.queue with
    | some queue => exact Stage.key?_getQueue queue
    | none => cases embedding <;> rfl
  | claim | ack | nack | checkpoint | publishPartialResult | streamPartialResults | listDeadLetters
  | triageDeadLetter | reprocessDeadLetter | purgeDeadLetter =>
    exact (never (Stage.key?_getQueue _) rfl).elim
  | configureAdmission | admissionStatus =>
    exact (never (Stage.key?_proceed fun _ => rfl) rfl).elim
  | configureRoute params =>
    exact (never (Stage.key?_proceed fun _ => Stage.key?_proceed fun _ => rfl) rfl).elim
  | configureTenantQuota params =>
    refine (never ?_ rfl).elim
    cases caller with
    | some tenant => rfl
    | none => exact Stage.key?_proceed fun _ => rfl
  | tenantQuotaStatus params =>
    obtain ⟨tenantId⟩ := params
    refine (never ?_ rfl).elim
    cases caller with
    | some tenant => rfl
    | none =>
      cases tenantId with
      | none => rfl
      | some named => exact Stage.key?_proceed fun _ => rfl

end

/-- A call that manages the API keys begins with its operation of them, or is refused. -/
theorem ToolCall.start_keyCall (caller : Caller) {call : ToolCall J} (manages : call.keyCall.isSome) :
    (∃ key, call.start caller = .key key) ∨ ∃ error, call.start caller = .done (.error error) := by
  -- A tenant is refused, and so is an identifier that is not valid.
  cases call with
  | createApiKey params first second =>
    cases caller with
    | some tenant => exact .inr ⟨_, rfl⟩
    | none =>
      show (∃ key, (proceed (validTenant params.tenantId) _ : Stage J) = .key key) ∨
        ∃ error, (proceed (validTenant params.tenantId) _ : Stage J) = .done (.error error)
      cases validTenant params.tenantId with
      | ok tenant => exact .inl ⟨_, rfl⟩
      | error error => exact .inr ⟨_, rfl⟩
  | revokeApiKey params =>
    cases caller with
    | some tenant => exact .inr ⟨_, rfl⟩
    | none => exact .inl ⟨_, rfl⟩
  | _ => cases manages

/-- A call has been authorized, and is at no operation of the API keys. -/
def Stage.Elsewhere : Stage J → Prop
  | .authorize | .key _ | .done _ => False
  | _ => True

/-- What a step of a call has to do with the API keys: it leaves them and goes on elsewhere, it is
authorized or refused, or it is a step of its operation of them. -/
theorem Server.move_keys {services : Services} {self : Nat} {env : ToolEnv} {server next : Server J}
    {task : ToolTask J} {stage : Stage J}
    (moved : server.move services self env task = some (next, stage)) :
    next.apiKeys = server.apiKeys ∧ stage.key? = none ∧ task.stage.Elsewhere ∨
    next.apiKeys = server.apiKeys ∧ task.stage = .authorize ∧
      (stage = task.call.start task.caller ∨ ∃ error, stage = .done (.error error)) ∨
    ∃ key, task.stage = .key key ∧
      server.apiKeys.toolStep services env key = some (next.apiKeys, stage) := by
  -- Two stages matter: the authorization, and the operation of the keys itself.
  obtain ⟨caller, call, current⟩ := task
  cases Server.moved_of_move moved with
  | trusts | allows => exact .inr (.inl ⟨rfl, rfl, .inl rfl⟩)
  | refuses => exact .inr (.inl ⟨rfl, rfl, .inr ⟨_, rfl⟩⟩)
  -- This is the one step of an operation of the keys.
  | managesKey stepped => exact .inr (.inr ⟨_, rfl, stepped⟩)
  -- The other stages leave the keys, and lead on to no operation of them.
  | routes => exact .inl ⟨rfl, Stage.key?_getQueue _, trivial⟩
  | gets stepped =>
    obtain ⟨registry, after, _, rfl, rfl⟩ := Server.getStep_eq_some stepped
    refine .inl ⟨rfl, ?_, trivial⟩
    -- A queue that is open leads on to its group, or to what an enqueue checks before.
    cases after with
    | stage at_ => rfl
    | returned result => exact Stage.key?_proceed fun _ => call.key?_opened
  | skips | checksKey => exact .inl ⟨rfl, call.key?_checkKey caller _ _, trivial⟩
  | misses => exact .inl ⟨rfl, Stage.key?_fresh _, trivial⟩
  | lists | counts => exact .inl ⟨rfl, Stage.key?_sumNext _ _ _ _, trivial⟩
  | returns => exact .inl ⟨rfl, ToolCall.key?_resume, trivial⟩
  | _ => exact .inl ⟨rfl, rfl, trivial⟩

/-- A revocation that returns has taken its key out, or found none. -/
theorem ApiKeyStore.Moved.revoked {sha256 : Bytes → Bytes} {store next : ApiKeyStore} {key : KeyTask}
    {result : KeyResult} {rawKey : String} (moved : store.Moved sha256 key next (.returned result))
    (call : key.call = .revoke rawKey) : next.keys.lookup (hashKey sha256 rawKey) = none := by
  -- What is applied takes the key out; what is not found was none.
  cases moved with
  | applies record result applying =>
    rcases KeyTask.of_applying applying with ⟨_, _, _, rfl, _⟩ | ⟨other, rfl, rfl⟩
    · cases call
    · obtain rfl := KeyCall.revoke.inj call
      exact Finmap.lookup_erase _ _
  | misses own invalid =>
    obtain rfl := KeyCall.revoke.inj (own.symm.trans call)
    exact invalid
  | answers own => cases own.symm.trans call

/-- A step of an operation of the API keys goes on with the operation or answers the call, and it leaves the keys as
they are or applies what the operation is for. A mint that is applied is answered with its key, and what a revocation
has been answered about is no valid key. -/
theorem ApiKeyStore.toolStep_keys {services : Services} {env : ToolEnv} {store next : ApiKeyStore}
    {key : KeyTask} {stage : Stage J} (stepped : store.toolStep services env key = some (next, stage)) :
    ((∃ later, stage = .key later ∧ later.call = key.call) ∨ ∃ result, stage = .done result) ∧
    (next.keys = store.keys ∨ ∃ record, key.applying services.sha256 = some record ∧
      next.keys = store.keys.replayRecord record ∧ ∀ first second tenant, key.call = .mint first second tenant →
        stage = .done (.ok (.keyCreated (generateRawKey first second) tenant.asStr))) ∧
    ∀ removed, stage = .done (.ok (.keyRevoked removed)) →
      next.keys.lookup (hashKey services.sha256 key.call.rawKey) = none := by
  cases ApiKeyStore.toolStep_moved stepped with
  | refuses _ _ same => exact ⟨.inr ⟨_, rfl⟩, .inl same, fun _ answered => by cases answered⟩
  | creates minted taken same =>
    refine ⟨.inr ⟨_, rfl⟩, .inr ?_, fun _ answered => by cases answered⟩
    cases (ApiKeyStore.move_moved taken).2 with
    | applies record _ applying =>
      refine ⟨record, applying, same, fun first second tenant call => ?_⟩
      obtain ⟨rfl, rfl, rfl⟩ := KeyCall.mint.inj (minted.symm.trans call)
      rfl
  | revokes revoking taken same =>
    -- A revocation takes the key out, or has not found it.
    have moved := (ApiKeyStore.move_moved taken).2
    refine ⟨.inr ⟨_, rfl⟩, ?_, fun _ _ => ?_⟩
    · cases moved with
      | applies record _ applying =>
        exact .inr ⟨record, applying, same, fun _ _ _ call => by cases revoking.symm.trans call⟩
      | misses => exact .inl same
    · rw [same, revoking]
      exact moved.revoked revoking
  | goesOn taken unended same =>
    refine ⟨.inl ⟨_, rfl, rfl⟩, .inl (same.trans ?_), fun _ answered => by cases answered⟩
    cases (ApiKeyStore.move_moved taken).2 with
    | applies record result applying =>
      obtain ⟨rawKey, asked⟩ := unended result rfl
      rcases KeyTask.of_applying applying with ⟨_, _, _, rfl, _⟩ | ⟨_, rfl, _⟩ <;> cases asked
    | logs | finds | misses | answers => rfl

/-- The step of a call, or the end of it at its deadline, has as much to do with the API keys. -/
theorem ServerAction.move_keys {services : Services} {act : ServerAction J} {server next : Server J}
    {task : ToolTask J} {stage : Stage J} (moved : act.move services server task = some (next, stage)) :
    next.apiKeys = server.apiKeys ∧ stage.key? = none ∧ task.stage.Elsewhere ∨
    next.apiKeys = server.apiKeys ∧ task.stage = .authorize ∧
      (stage = task.call.start task.caller ∨ ∃ error, stage = .done (.error error)) ∨
    ∃ env key, task.stage = .key key ∧
      server.apiKeys.toolStep services env key = some (next.apiKeys, stage) := by
  -- A deadline ends only what runs in a group.
  cases act with
  | step i env =>
    rcases Server.move_keys moved with still | begun | ⟨key, at_, stepped⟩
    · exact .inl still
    · exact .inr (.inl begun)
    · exact .inr (.inr ⟨env, key, at_, stepped⟩)
  | timeout i wrote =>
    obtain ⟨queue, pc, deadline, _, _, _, at_, _, _, _, rfl, rfl⟩ := Server.timeout_eq_some moved
    refine .inl ⟨rfl, task.call.key?_timedOut, ?_⟩
    rw [at_]
    trivial
  | _ => cases moved

/-- A call is at an operation of the API keys only if it is the operator's, and the operation its own. -/
structure ToolTask.Manages (task : ToolTask J) : Prop where
  own : ∀ key, task.stage = .key key → task.caller = none ∧ task.call.keyCall = some key.call
  only : task.call.keyCall.isSome → ¬ task.stage.Elsewhere

/-- Every step of a call keeps this. -/
theorem ToolTask.Manages.move {services : Services} {act : ServerAction J} {server next : Server J}
    {task : ToolTask J} {stage : Stage J} (manages : task.Manages)
    (moved : act.move services server task = some (next, stage)) :
    ToolTask.Manages { task with stage } := by
  -- The cases are those of what a step has to do with the keys.
  rcases ServerAction.move_keys moved with
    ⟨_, quiet, elsewhere⟩ | ⟨_, _, rfl | ⟨error, rfl⟩⟩ | ⟨env, key, at_, stepped⟩
  · refine ⟨fun key same => ?_, fun keyed => absurd elsewhere (manages.only keyed)⟩
    rw [show stage = .key key from same] at quiet
    cases quiet
  · -- The call begins: it comes to the keys only if they are its business.
    refine ⟨fun key same => ?_, fun keyed elsewhere => ?_⟩
    · obtain ⟨stdio, own, _⟩ := ToolCall.key?_start (congrArg Stage.key? same)
      exact ⟨stdio, own⟩
    · have begun := ToolCall.start_keyCall task.caller keyed
      rcases begun with ⟨key, same⟩ | ⟨error, same⟩
      · exact (same ▸ elsewhere : (Stage.key key : Stage J).Elsewhere)
      · exact (same ▸ elsewhere : (Stage.done (.error error) : Stage J).Elsewhere)
  · exact ⟨fun key same => (nomatch same), fun _ elsewhere => elsewhere⟩
  · -- The operation goes on as the same one, or is answered.
    rcases (ApiKeyStore.toolStep_keys stepped).1 with ⟨later, rfl, kept⟩ | ⟨result, rfl⟩
    · refine ⟨fun key same => ?_, fun _ elsewhere => elsewhere⟩
      obtain rfl := Stage.key.inj same
      obtain ⟨stdio, own⟩ := manages.own _ at_
      exact ⟨stdio, own.trans (congrArg some kept.symm)⟩
    · exact ⟨fun key same => (nomatch same), fun _ elsewhere => elsewhere⟩

/-- Who makes a call, and which. -/
def ToolTask.origin (task : ToolTask J) : Caller × ToolCall J :=
  (task.caller, task.call)

/-- The call that a step of the server begins. -/
def ServerAction.origin : ServerAction J → Option (Caller × ToolCall J)
  | .call caller tool => some (caller, tool)
  | _ => none

/-- A step of the server begins a call or goes on with those that have begun. -/
theorem ServerPool.step_origins {services : Services} {pool next : ServerPool J} {act : ServerAction J}
    (taken : pool.step services act = some next) :
    next.tasks.map ToolTask.origin = pool.tasks.map ToolTask.origin ++ act.origin.toList := by
  cases by_ : act.task with
  | some i =>
    obtain ⟨task, server, stage, found, _, rfl⟩ := (step_eq_some by_).mp taken
    -- The call that takes the step stays what it is.
    have label : (some ∘ ToolTask.origin) { task with stage } = (some ∘ ToolTask.origin) task := rfl
    have same := filterMap_set found label
    rw [List.filterMap_eq_map] at same
    cases act with
    | step j env => simpa [ServerAction.origin] using same
    | timeout j wrote => simpa [ServerAction.origin] using same
    | _ => cases by_
  | none =>
    cases act with
    | call caller call =>
      obtain ⟨_, same⟩ := Option.ite_none_right_eq_some.mp taken
      obtain rfl := Option.some.inj same
      simp [Pool.spawn, ServerAction.origin, ToolTask.origin]
    | tick elapsed | setWallClock wallClock =>
      obtain rfl := Option.some.inj taken
      simp [ServerAction.origin]
    | step i env | timeout i wrote => cases by_

/-- Every call keeps to its own operation of the API keys. -/
theorem ServerPool.step_manages {services : Services} {pool next : ServerPool J} {act : ServerAction J}
    (manages : ∀ task ∈ pool.tasks, task.Manages) (taken : pool.step services act = some next) :
    ∀ task ∈ next.tasks, task.Manages := by
  -- The call that takes the step keeps to its own, the others stay, and a new one has not begun.
  intro later member
  cases by_ : act.task with
  | some i =>
    obtain ⟨task, server, stage, found, moved, rfl⟩ := (step_eq_some by_).mp taken
    rcases List.mem_or_eq_of_mem_set member with before | rfl
    · exact manages later before
    · exact (manages task (List.mem_of_getElem? found)).move moved
  | none =>
    cases act with
    | call caller call =>
      obtain ⟨_, same⟩ := Option.ite_none_right_eq_some.mp taken
      obtain rfl := Option.some.inj same
      rcases List.mem_append.mp member with before | last
      · exact manages later before
      · obtain rfl := List.mem_singleton.mp last
        exact ⟨fun key same => (nomatch same), fun _ elsewhere => elsewhere⟩
    | tick elapsed | setWallClock wallClock =>
      obtain rfl := Option.some.inj taken
      exact manages later member
    | step i env | timeout i wrote => cases by_

/-- A step of the server leaves the valid keys, or applies what some call has logged; a mint is answered with it. -/
theorem ServerPool.step_keys {services : Services} {pool next : ServerPool J} {act : ServerAction J}
    (taken : pool.step services act = some next) :
    next.shared.apiKeys.keys = pool.shared.apiKeys.keys ∨
    ∃ task ∈ pool.tasks, ∃ key record stage, task.stage = .key key ∧
      key.applying services.sha256 = some record ∧
      next.shared.apiKeys.keys = pool.shared.apiKeys.keys.replayRecord record ∧
      { task with stage } ∈ next.tasks ∧ ∀ first second tenant, key.call = .mint first second tenant →
        stage = .done (.ok (.keyCreated (generateRawKey first second) tenant.asStr)) := by
  -- The only steps that change the keys are those of an operation of them.
  cases by_ : act.task with
  | some i =>
    obtain ⟨task, server, stage, found, moved, rfl⟩ := (step_eq_some by_).mp taken
    rcases ServerAction.move_keys moved with ⟨same, _⟩ | ⟨same, _⟩ | ⟨env, key, at_, stepped⟩
    · exact .inl (congrArg ApiKeyStore.keys same)
    · exact .inl (congrArg ApiKeyStore.keys same)
    · rcases (ApiKeyStore.toolStep_keys stepped).2.1 with same | ⟨record, applying, changed, answers⟩
      · exact .inl same
      · have bound := (List.getElem?_eq_some_iff.mp found).1
        exact .inr ⟨task, List.mem_of_getElem? found, key, record, stage, at_, applying, changed,
          List.mem_set bound _, answers⟩
  | none =>
    cases act with
    | call caller call =>
      obtain ⟨_, same⟩ := Option.ite_none_right_eq_some.mp taken
      obtain rfl := Option.some.inj same
      exact .inl rfl
    | tick elapsed | setWallClock wallClock =>
      obtain rfl := Option.some.inj taken
      exact .inl rfl
    | step i env | timeout i wrote => cases by_

/-- An answered call stays answered. -/
theorem ServerPool.answered_stays {services : Services} {pool next : ServerPool J} {act : ServerAction J}
    {caller : Caller} {call : ToolCall J} {answer : Except ErrorData (ToolResult J)}
    (answered : ⟨caller, call, .done answer⟩ ∈ pool.tasks) (taken : pool.step services act = some next) :
    ⟨caller, call, .done answer⟩ ∈ next.tasks := by
  cases by_ : act.task with
  | some i =>
    obtain ⟨task, server, stage, found, moved, rfl⟩ := (step_eq_some by_).mp taken
    obtain ⟨k, there⟩ := List.mem_iff_getElem?.mp answered
    have apart : i ≠ k := by
      -- The call that takes the step has not been answered.
      rintro rfl
      obtain rfl := Option.some.inj (found.symm.trans there)
      cases act with
      | step j env => cases moved
      | timeout j wrote => cases moved
      | _ => cases by_
    exact List.mem_of_getElem? ((List.getElem?_set_ne apart).trans there)
  | none =>
    cases act with
    | call caller call =>
      obtain ⟨_, same⟩ := Option.ite_none_right_eq_some.mp taken
      obtain rfl := Option.some.inj same
      exact List.mem_append_left _ answered
    | tick elapsed | setWallClock wallClock =>
      obtain rfl := Option.some.inj taken
      exact answered
    | step i env | timeout i wrote => cases by_

/-- A key for a tenant has been created: a call of the operator's for it was answered with a key, and this is the
key's hash. -/
def ServerPool.Created (services : Services) (pool : ServerPool J) (keyHash : String) (tenant : TenantId) :
    Prop :=
  ∃ call first second, call.keyCall = some (.mint first second tenant) ∧
    ⟨none, call, .done (.ok (.keyCreated (generateRawKey first second) tenant.asStr))⟩ ∈ pool.tasks ∧
    hashKey services.sha256 (generateRawKey first second) = keyHash

/-- A key that was created stays one that was. -/
theorem ServerPool.Created.step {services : Services} {pool next : ServerPool J} {act : ServerAction J}
    {keyHash : String} {tenant : TenantId} (created : pool.Created services keyHash tenant)
    (taken : pool.step services act = some next) : next.Created services keyHash tenant := by
  obtain ⟨call, first, second, minted, answered, named⟩ := created
  exact ⟨call, first, second, minted, ServerPool.answered_stays answered taken, named⟩

/-- Every valid key was valid at first or has been created since. -/
structure ServerPool.Rooted (services : Services) (keys : Keys) (pool : ServerPool J) : Prop where
  manages : ∀ task ∈ pool.tasks, task.Manages
  keys : ∀ keyHash tenant, pool.shared.apiKeys.keys.lookup keyHash = some tenant →
    keys.lookup keyHash = some tenant ∨ pool.Created services keyHash tenant

/-- No step of the server makes a key valid but one that creates it. -/
theorem ServerPool.Rooted.step {services : Services} {keys : Keys} {pool next : ServerPool J}
    {act : ServerAction J} (rooted : pool.Rooted services keys)
    (taken : pool.step services act = some next) : next.Rooted services keys := by
  refine ⟨step_manages rooted.manages taken, fun keyHash tenant valid => ?_⟩
  have before (valid : pool.shared.apiKeys.keys.lookup keyHash = some tenant) :
      keys.lookup keyHash = some tenant ∨ next.Created services keyHash tenant :=
    (rooted.keys keyHash tenant valid).imp_right fun created => created.step taken
  rcases step_keys taken with same | ⟨task, member, key, record, stage, at_, applying, changed, later, answers⟩
  · exact before (same ▸ valid)
  · rw [changed] at valid
    rcases KeyTask.of_applying applying with ⟨first, second, minted, rfl, rfl⟩ | ⟨rawKey, rfl, rfl⟩
    · rcases lookup_of_insert valid with ⟨rfl, rfl⟩ | ⟨_, earlier⟩
      · -- The step answers the call that was to create this key.
        obtain ⟨caller, call, _⟩ := task
        obtain ⟨rfl, own⟩ := (rooted.manages _ member).own _ at_
        rw [answers first second tenant rfl] at later
        exact .inr ⟨call, first, second, own, later, rfl⟩
      · exact before earlier
    · exact before (lookup_of_erase valid).2

/-- A credential stands for a tenant: as an API key that was there at first or that has been created for the
operator, or as a token that is signed with the operator's secret. -/
inductive ServerPool.Vouches (services : Services) (jwt : Jwt) (secret : Option String) (keys : Keys)
    (pool : ServerPool J) (credential : String) (tenant : TenantId) : Prop
  | held (valid : keys.lookup (hashKey services.sha256 credential) = some tenant)
  | created (created : pool.Created services (hashKey services.sha256 credential) tenant)
  | signed (key : Bytes) (now : Timestamp) (configured : jwtKey secret = some key)
      (verified : verifyJwt jwt now credential key = some tenant)

/-- The call that a request has become. -/
def HttpRequest.origin (request : HttpRequest J) : Option (Caller × ToolCall J) :=
  match request.stage with
  | .passed tenant => some (some tenant, request.call)
  | _ => none

/-- What a request carries along stems from its header, and it has passed with a credential that
stands for its tenant. -/
def HttpRequest.Guarded (services : Services) (jwt : Jwt) (secret : Option String) (keys : Keys)
    (pool : ServerPool J) (request : HttpRequest J) : Prop :=
  match request.stage with
  | .unknownKey credential => bearerCredential services request.authorization = some credential
  | .passed tenant => ∃ credential, bearerCredential services request.authorization = some credential ∧
      pool.Vouches services jwt secret keys credential tenant
  | _ => True

section

variable {services : Services} {jwt : Jwt} {secret : Option String} {keys : Keys}

theorem ServerPool.Vouches.step {pool next : ServerPool J} {act : ServerAction J} {credential : String}
    {tenant : TenantId} (vouches : pool.Vouches services jwt secret keys credential tenant)
    (taken : pool.step services act = some next) :
    next.Vouches services jwt secret keys credential tenant := by
  cases vouches with
  | held valid => exact .held valid
  | created created => exact .created (created.step taken)
  | signed key now configured verified => exact .signed key now configured verified

theorem HttpRequest.Guarded.step {pool next : ServerPool J} {act : ServerAction J} {request : HttpRequest J}
    (guarded : request.Guarded services jwt secret keys pool) (taken : pool.step services act = some next) :
    request.Guarded services jwt secret keys next := by
  -- What a request carries along is its own; what vouches for a tenant stays.
  unfold HttpRequest.Guarded at *
  cases at_ : request.stage with
  | passed tenant =>
    rw [at_] at guarded
    obtain ⟨credential, presented, vouches⟩ := guarded
    exact ⟨credential, presented, vouches.step taken⟩
  | unknownKey credential =>
    rw [at_] at guarded
    exact guarded
  | arrived | unauthorized reason => trivial

/-- At the door a request is held up, or passes with an API key or with a token. -/
theorem Front.requireTenant_eq_some {front next : Front J} {i : Nat} {request : HttpRequest J}
    (taken : front.requireTenant services jwt secret i request = some next) :
    request.origin = none ∧
    ((∃ stage, next = front.moveTo i request stage ∧ (∀ tenant, stage ≠ .passed tenant) ∧
      ∀ credential, stage = .unknownKey credential →
        bearerCredential services request.authorization = some credential) ∨
    ∃ tenant pool, front.pool.step services (.call (some tenant) request.call) = some pool ∧
      next = { front.moveTo i request (.passed tenant) with pool } ∧
      ((∃ credential, bearerCredential services request.authorization = some credential ∧
        front.pool.shared.apiKeys.keys.lookup (hashKey services.sha256 credential) = some tenant) ∨
      ∃ credential key, request.stage = .unknownKey credential ∧ jwtKey secret = some key ∧
        verifyJwt jwt front.pool.shared.wallClock credential key = some tenant)) := by
  unfold Front.requireTenant at taken
  unfold HttpRequest.origin
  split at taken
  · -- The request has just arrived.
    rename_i at_
    rw [at_]
    refine ⟨rfl, ?_⟩
    split at taken
    · obtain rfl := Option.some.inj taken
      exact .inl ⟨_, rfl, nofun, nofun⟩
    · rename_i credential presented
      split at taken
      · rename_i tenant valid
        obtain ⟨pool, begun, rfl⟩ := Option.map_eq_some_iff.mp taken
        exact .inr ⟨tenant, pool, begun, rfl, .inl ⟨credential, presented, valid⟩⟩
      · obtain rfl := Option.some.inj taken
        refine .inl ⟨_, rfl, nofun, fun other same => ?_⟩
        obtain rfl := HttpStage.unknownKey.inj same
        exact presented
  · -- Its credential is no API key.
    rename_i credential at_
    rw [at_]
    refine ⟨rfl, ?_⟩
    split at taken
    · rename_i tenant found
      obtain ⟨key, configured, verified⟩ := Option.bind_eq_some_iff.mp found
      obtain ⟨pool, begun, rfl⟩ := Option.map_eq_some_iff.mp taken
      exact .inr ⟨tenant, pool, begun, rfl, .inr ⟨credential, key, rfl, configured, verified⟩⟩
    · obtain rfl := Option.some.inj taken
      exact .inl ⟨_, rfl, nofun, nofun⟩
  · cases taken
  · cases taken

/-- A step of the front leaves the server, or is a step of it. -/
theorem Front.step_pool {front next : Front J} {act : FrontAction J}
    (taken : front.step services jwt secret act = some next) :
    next.pool = front.pool ∨ ∃ act, front.pool.step services act = some next.pool := by
  -- The door and the local connection begin calls; what happens inside is a step of the server.
  cases act with
  | stdio call =>
    obtain ⟨pool, begun, rfl⟩ := Option.map_eq_some_iff.mp taken
    exact .inr ⟨_, begun⟩
  | request authorization call =>
    obtain rfl := Option.some.inj taken
    exact .inl rfl
  | door i =>
    obtain ⟨request, _, moved⟩ := Option.bind_eq_some_iff.mp taken
    obtain ⟨_, ⟨stage, rfl, _⟩ | ⟨tenant, pool, begun, rfl, _⟩⟩ := requireTenant_eq_some moved
    · exact .inl rfl
    · exact .inr ⟨_, begun⟩
  | inside act =>
    obtain ⟨_, inner⟩ := Option.ite_none_left_eq_some.mp taken
    obtain ⟨pool, stepped, rfl⟩ := Option.map_eq_some_iff.mp inner
    exact .inr ⟨_, stepped⟩

/-- The calls that are made for tenants. -/
def ServerPool.tenantCalls (pool : ServerPool J) : List (Caller × ToolCall J) :=
  (pool.tasks.map ToolTask.origin).filter fun origin => origin.1.isSome

/-- The valid keys go back to the operator, the requests that have passed to their credentials, and
the calls for tenants to these requests. -/
structure Front.Guarded (services : Services) (jwt : Jwt) (secret : Option String) (keys : Keys)
    (front : Front J) : Prop where
  rooted : front.pool.Rooted services keys
  requests : ∀ request ∈ front.requests, request.Guarded services jwt secret keys front.pool
  calls : front.pool.tenantCalls.Perm (front.requests.filterMap HttpRequest.origin)

/-- Nothing gets past the door but a request with a credential that stands for its tenant. -/
theorem Front.Guarded.step {front next : Front J} {act : FrontAction J}
    (guarded : front.Guarded services jwt secret keys)
    (taken : front.step services jwt secret act = some next) :
    next.Guarded services jwt secret keys := by
  cases act with
  | stdio call =>
    obtain ⟨pool, begun, rfl⟩ := Option.map_eq_some_iff.mp taken
    refine ⟨guarded.rooted.step begun, fun request member => (guarded.requests request member).step begun, ?_⟩
    -- The operator's call is none of a tenant.
    have same : pool.tenantCalls = front.pool.tenantCalls := by
      simp [ServerPool.tenantCalls, ServerPool.step_origins begun, ServerAction.origin]
    exact same ▸ guarded.calls
  | request authorization call =>
    obtain rfl := Option.some.inj taken
    refine ⟨guarded.rooted, fun request member => ?_, ?_⟩
    · rcases List.mem_append.mp member with before | last
      · exact guarded.requests request before
      · obtain rfl := List.mem_singleton.mp last
        trivial
    · have blank : HttpRequest.origin ⟨authorization, call, .arrived⟩ = none := rfl
      show front.pool.tenantCalls.Perm ((front.requests ++ _).filterMap _)
      rw [List.filterMap_append, List.filterMap_cons_none blank, List.filterMap_nil, List.append_nil]
      exact guarded.calls
  | door i =>
    obtain ⟨request, found, moved⟩ := Option.bind_eq_some_iff.mp taken
    have own := guarded.requests request (List.mem_of_getElem? found)
    obtain ⟨blank, ⟨stage, rfl, outside, presented⟩ | ⟨tenant, pool, begun, rfl, shown⟩⟩ :=
      requireTenant_eq_some moved
    · refine ⟨guarded.rooted, fun later member => ?_, ?_⟩
      · rcases List.mem_or_eq_of_mem_set member with before | rfl
        · exact guarded.requests later before
        · -- What is held up may still carry its credential along.
          cases stage with
          | passed tenant => exact absurd rfl (outside tenant)
          | unknownKey credential => exact presented credential rfl
          | arrived | unauthorized reason => trivial
      · have label : HttpRequest.origin { request with stage } = request.origin := by
          rw [blank]
          cases stage with
          | passed tenant => exact absurd rfl (outside tenant)
          | arrived | unknownKey credential | unauthorized reason => rfl
        show front.pool.tenantCalls.Perm ((front.requests.set i { request with stage }).filterMap _)
        rw [filterMap_set found label]
        exact guarded.calls
    · refine ⟨guarded.rooted.step begun, fun later member => ?_, ?_⟩
      · rcases List.mem_or_eq_of_mem_set member with before | rfl
        · exact (guarded.requests later before).step begun
        · rcases shown with ⟨credential, presented, valid⟩ | ⟨credential, key, at_, configured, verified⟩
          · refine ⟨credential, presented, ?_⟩
            rcases guarded.rooted.keys _ _ valid with held | created
            · exact .held held
            · exact .created (created.step begun)
          · unfold HttpRequest.Guarded at own
            rw [at_] at own
            exact ⟨credential, own, .signed key _ configured verified⟩
      · -- One more call for a tenant has begun, and its request has passed.
        have origins : pool.tenantCalls = front.pool.tenantCalls ++ [(some tenant, request.call)] := by
          simp [ServerPool.tenantCalls, ServerPool.step_origins begun, ServerAction.origin]
        have shown : HttpRequest.origin { request with stage := .passed tenant } =
            some (some tenant, request.call) := rfl
        show pool.tenantCalls.Perm
          ((front.requests.set i { request with stage := .passed tenant }).filterMap HttpRequest.origin)
        rw [origins]
        exact (guarded.calls.append_right _).trans (filterMap_set_perm found blank shown).symm
  | inside act =>
    obtain ⟨inner, stepped⟩ := Option.ite_none_left_eq_some.mp taken
    obtain ⟨pool, begun, rfl⟩ := Option.map_eq_some_iff.mp stepped
    refine ⟨guarded.rooted.step begun, fun request member => (guarded.requests request member).step begun, ?_⟩
    have same : pool.tenantCalls = front.pool.tenantCalls := by
      cases act with
      | call caller call => exact absurd rfl inner
      | step | timeout | tick | setWallClock =>
        simp [ServerPool.tenantCalls, ServerPool.step_origins begun, ServerAction.origin]
    exact same ▸ guarded.calls

/-- In every run the door is guarded so. -/
theorem Front.guarded_of_run {server : Server J} {trace : List (Transition (Front J) (FrontAction J))}
    {front : Front J} (run : Run (Front.step services jwt secret) (fun _ _ => True) (.start server) trace front) :
    front.Guarded services jwt secret server.apiKeys.keys := by
  have start : Front.Guarded services jwt secret server.apiKeys.keys (.start server) :=
    ⟨⟨fun _ member => (List.not_mem_nil member).elim, fun _ _ valid => .inl valid⟩,
      fun _ member => (List.not_mem_nil member).elim, .nil⟩
  exact run.invariant start fun _ _ _ _ guarded taken => guarded.step taken

/-- In every run, each call for a tenant is that of a request that has passed the door, and a request
passes as a tenant only with a key from the log that the server was started on, a key that the operator
has since created for the tenant, or a token signed with the operator's secret. -/
theorem Front.authority {dataDir : Location} {log : Log KeyRecord} {disk : Disk J} {now : Instant}
    {wallClock : Timestamp} {trace : List (Transition (Front J) (FrontAction J))} {front : Front J}
    (run : Run (Front.step services jwt secret) (fun _ _ => True)
      (.start (.new dataDir log disk now wallClock)) trace front) :
    front.pool.tenantCalls.Perm (front.requests.filterMap HttpRequest.origin) ∧
    ∀ request ∈ front.requests, ∀ tenant, request.stage = .passed tenant →
      ∃ credential, bearerCredential services request.authorization = some credential ∧
        front.pool.Vouches services jwt secret (.replay log.reopen.records) credential tenant := by
  -- What guards the door holds in every run, and it says all of this.
  have guarded := Front.guarded_of_run run
  refine ⟨guarded.calls, fun request member tenant passed => ?_⟩
  have own := guarded.requests request member
  unfold HttpRequest.Guarded at own
  rwa [passed] at own

/-- The call that takes a step behind the door. -/
def FrontAction.task : FrontAction J → Option Nat
  | .inside act => act.task
  | _ => none

/-- The request that takes a step at the door. -/
def FrontAction.request? : FrontAction J → Option Nat
  | .door i => some i
  | _ => none

/-- The API key whose revocation a call has been answered. -/
def ToolTask.revoked (task : ToolTask J) : Option String :=
  match task.call, task.stage with
  | .revokeApiKey params, .done (.ok (.keyRevoked _)) => some params.apiKey
  | _, _ => none

theorem ToolTask.of_revoked {task : ToolTask J} {apiKey : String} (answered : task.revoked = some apiKey) :
    task.call = .revokeApiKey ⟨apiKey⟩ ∧ ∃ removed, task.stage = .done (.ok (.keyRevoked removed)) := by
  -- Only one tool is answered so.
  obtain ⟨caller, call, stage⟩ := task
  unfold revoked at answered
  split at answered
  · rename_i params removed asked ended
    obtain rfl := Option.some.inj answered
    exact ⟨asked, removed, ended⟩
  · cases answered

/-- A step answers the revocation of an API key. -/
def Front.Revokes (e : Transition (Front J) (FrontAction J)) (apiKey : String) : Prop :=
  ∃ i ∈ e.act.task, ∃ task ∈ e.post.pool.tasks[i]?, task.revoked = some apiKey

/-- Whether a call has ended. -/
def Stage.ended : Stage J → Bool
  | .done _ => true
  | _ => false

/-- A call has not ended yet that creates an API key with a given hash. -/
def Front.Issuing (services : Services) (front : Front J) (keyHash : String) : Prop :=
  ∃ task ∈ front.pool.tasks, task.stage.ended = false ∧ ∃ call ∈ task.call.keyCall,
    call.generates.map (hashKey services.sha256) = some keyHash

/-- A step lets a request with a credential pass as a tenant. -/
def Front.Admits (services : Services) (e : Transition (Front J) (FrontAction J)) (credential : String)
    (tenant : TenantId) : Prop :=
  ∃ i ∈ e.act.request?, ∃ request ∈ e.pre.requests[i]?,
    bearerCredential services request.authorization = some credential ∧
    (e.post.requests[i]?).map HttpRequest.stage = some (.passed tenant)

/-- The key of a revocation that is answered is no valid one. -/
theorem Front.Revokes.invalid {e : Transition (Front J) (FrontAction J)} {apiKey : String}
    (revokes : Front.Revokes e apiKey) (manages : ∀ task ∈ e.pre.pool.tasks, task.Manages)
    (taken : e.pre.step services jwt secret e.act = some e.post) :
    e.post.pool.shared.apiKeys.keys.lookup (hashKey services.sha256 apiKey) = none := by
  obtain ⟨i, by_, later, reached, answered⟩ := revokes
  obtain ⟨pre, action, post⟩ := e
  dsimp only at *
  cases action with
  | inside act =>
    obtain ⟨_, stepped⟩ := Option.ite_none_left_eq_some.mp taken
    obtain ⟨pool, inner, rfl⟩ := Option.map_eq_some_iff.mp stepped
    obtain ⟨task, server, stage, found, moved, rfl⟩ := (ServerPool.step_eq_some by_).mp inner
    have last : later = { task with stage } := by
      rw [List.getElem?_set_self (List.getElem?_eq_some_iff.mp found).1] at reached
      exact (Option.some.inj reached).symm
    subst last
    obtain ⟨asked, removed, rfl⟩ := ToolTask.of_revoked answered
    have asked : task.call = .revokeApiKey ⟨apiKey⟩ := asked
    have own := manages task (List.mem_of_getElem? found)
    have keyed : task.call.keyCall.isSome := by
      rw [asked]
      rfl
    -- The call had come to its operation of the keys, which is that of its own key.
    rcases ServerAction.move_keys moved with ⟨_, _, elsewhere⟩ | ⟨_, _, begun⟩ | ⟨env, key, at_, stepped⟩
    · exact absurd elsewhere (own.only keyed)
    · rcases begun with begun | ⟨error, refused⟩
      · rcases ToolCall.start_keyCall task.caller keyed with ⟨key, started⟩ | ⟨error, started⟩
        · cases begun.trans started
        · cases begun.trans started
      · cases refused
    · have gone := (ApiKeyStore.toolStep_keys stepped).2.2 removed rfl
      have named := (own.own key at_).2
      rw [asked] at named
      rwa [← Option.some.inj named] at gone
  | stdio | request | door => cases by_

/-- No key of a hash is valid, and every call keeps to its own operation of the keys. -/
structure Front.Shut (keyHash : String) (front : Front J) : Prop where
  manages : ∀ task ∈ front.pool.tasks, task.Manages
  invalid : front.pool.shared.apiKeys.keys.lookup keyHash = none

/-- What is not valid stays so while no call is creating it. -/
theorem Front.Shut.step {front next : Front J} {act : FrontAction J} {keyHash : String}
    (shut : front.Shut keyHash) (quiet : ¬ front.Issuing services keyHash)
    (taken : front.step services jwt secret act = some next) : next.Shut keyHash := by
  rcases step_pool taken with same | ⟨inner, stepped⟩
  · exact ⟨same ▸ shut.manages, same ▸ shut.invalid⟩
  refine ⟨ServerPool.step_manages shut.manages stepped, ?_⟩
  rcases ServerPool.step_keys stepped with same | ⟨task, member, key, record, _, at_, applying, changed, _⟩
  · exact same ▸ shut.invalid
  rw [changed]
  rcases KeyTask.of_applying applying with ⟨first, second, tenant, rfl, rfl⟩ | ⟨rawKey, rfl, rfl⟩
  · -- A mint of this very key would be a call that is creating it.
    have apart : keyHash ≠ hashKey services.sha256 (generateRawKey first second) := by
      rintro rfl
      refine quiet ⟨task, member, ?_, _, ((shut.manages task member).own _ at_).2, rfl⟩
      rw [at_]
      rfl
    exact (Finmap.lookup_insert_of_ne _ apart).trans shut.invalid
  · by_cases own : keyHash = hashKey services.sha256 rawKey
    · subst own
      exact Finmap.lookup_erase _ _
    · exact (Finmap.lookup_erase_ne own).trans shut.invalid

/-- Where a credential is no valid key, only a token passes. -/
theorem Front.Admits.signed {e : Transition (Front J) (FrontAction J)} {credential : String}
    {tenant : TenantId} (admits : Front.Admits services e credential tenant)
    (guarded : e.pre.Guarded services jwt secret keys)
    (invalid : e.pre.pool.shared.apiKeys.keys.lookup (hashKey services.sha256 credential) = none)
    (taken : e.pre.step services jwt secret e.act = some e.post) :
    ∃ key, jwtKey secret = some key ∧
      verifyJwt jwt e.pre.pool.shared.wallClock credential key = some tenant := by
  obtain ⟨i, by_, request, found, presented, passed⟩ := admits
  obtain ⟨pre, act, post⟩ := e
  obtain rfl : act = .door i := by
    cases act <;> cases by_
    rfl
  dsimp only at *
  rw [Front.step, found] at taken
  have own := guarded.requests request (List.mem_of_getElem? found)
  have within := (List.getElem?_eq_some_iff.mp found).1
  obtain ⟨_, ⟨stage, same, outside, _⟩ | ⟨other, pool, _, same, shown⟩⟩ := requireTenant_eq_some taken
  · -- A request that is held up has not passed.
    rw [same, Front.moveTo, List.getElem?_set_self within] at passed
    exact absurd (Option.some.inj passed) (outside tenant)
  · rw [same, Front.moveTo, List.getElem?_set_self within] at passed
    obtain rfl := HttpStage.passed.inj (Option.some.inj passed)
    rcases shown with ⟨given, header, valid⟩ | ⟨given, key, at_, configured, verified⟩
    · obtain rfl := Option.some.inj (presented.symm.trans header)
      cases invalid.symm.trans valid
    · unfold HttpRequest.Guarded at own
      rw [at_] at own
      obtain rfl := Option.some.inj (presented.symm.trans own)
      exact ⟨key, configured, verified⟩

/-- Once the revocation of a key has been answered, and while no call is creating a key of the same
hash, no request that presents it passes, unless it is also a token signed with the operator's secret. -/
theorem Front.revocation {server : Server J} {trace : List (Transition (Front J) (FrontAction J))}
    {front : Front J} {m : Nat} {e : Transition (Front J) (FrontAction J)} {apiKey : String}
    (run : Run (Front.step services jwt secret) (fun _ _ => True) (.start server) trace front)
    (placed : (trace)[m]? = some e) (revokes : Front.Revokes e apiKey)
    (quiet : ∀ n f, m < n → (trace)[n]? = some f →
      ¬ f.pre.Issuing services (hashKey services.sha256 apiKey)) :
    ∀ n f credential tenant, m < n → (trace)[n]? = some f → Front.Admits services f credential tenant →
      hashKey services.sha256 credential = hashKey services.sha256 apiKey →
      ∃ key, jwtKey secret = some key ∧
        verifyJwt jwt f.pre.pool.shared.wallClock credential key = some tenant := by
  intro n f credential tenant later there admits same
  obtain ⟨reached, taken⟩ := run.take placed
  have managed := (Front.guarded_of_run reached).rooted.manages
  have answered : e.post.Shut (hashKey services.sha256 apiKey) :=
    ⟨(Front.guarded_of_run (reached.snoc trivial taken)).rooted.manages, revokes.invalid managed taken⟩
  -- No step in between makes the key valid again.
  have calm : Run (Front.step services jwt secret)
      (fun front _ => True ∧ ¬ front.Issuing services (hashKey services.sha256 apiKey)) e.post
      ((trace.drop (m + 1)).take (n - (m + 1))) f.pre := by
    refine (run.between placed there later).strengthen fun g member => ?_
    obtain ⟨k, beyond, _, found⟩ := exists_of_mem_between member
    exact quiet k g beyond found
  have shut : f.pre.Shut (hashKey services.sha256 apiKey) :=
    calm.invariant answered fun _ _ _ allowed shut taken => shut.step allowed.2 taken
  obtain ⟨before, moved⟩ := run.take there
  exact admits.signed (Front.guarded_of_run before) (same ▸ shut.invalid) moved

end

/-- Packages by which a text is its own digest, and nothing else. -/
def Services.plain : Services :=
  { Services.alike with sha256 := id }

/-- The key that is made of no randomness at all. -/
def zeroKey : String :=
  generateRawKey 0 0

/-- A token library that takes this key for a token of a tenant's. -/
def zeroJwt : Jwt :=
  ⟨fun _ _ token => if token = zeroKey then some "acme" else none⟩

/-- The operator has a key created, and a request presents it. -/
def presentsKey : List (FrontAction Unit) :=
  .stdio (.createApiKey ⟨"acme"⟩ 0 0) :: List.replicate 3 (.inside (.step 0 {})) ++
    [.request (some (asBytes ("Bearer " ++ zeroKey))) (.tenantQuotaStatus ⟨none⟩), .door 0]

/-- Then the key is revoked, and presented once more. -/
def presentsRevoked : List (FrontAction Unit) :=
  presentsKey ++ .stdio (.revokeApiKey ⟨zeroKey⟩) :: List.replicate 4 (.inside (.step 2 {})) ++
    [.request (some (asBytes ("Bearer " ++ zeroKey))) (.tenantQuotaStatus ⟨none⟩), .door 1, .door 1]

theorem Front.authority_acme :
    ∃ front : Front Unit, ∃ request ∈ front.requests, request.stage = .passed acme ∧
      ∃ credential, bearerCredential .plain request.authorization = some credential ∧
        front.pool.Vouches .plain zeroJwt none (.replay []) credential acme := by
  -- A run to such a state is computed, and the theorem is applied to it.
  have reached : ∃ front : Front Unit,
      Reachable (Front.step .plain zeroJwt none) (fun _ _ => True)
        (.start (.new ["data"] {} .empty 0 ⟨0⟩)) front ∧
      ∃ request ∈ front.requests, request.stage = .passed acme :=
    reaches_of_exec presentsKey _ (by decide +kernel)
  obtain ⟨front, ⟨trace, run⟩, request, member, passed⟩ := reached
  exact ⟨front, request, member, passed, (Front.authority run).2 request member acme passed⟩

theorem Front.revocation_acme :
    ∃ ran ∈ record (Front.step .plain zeroJwt (some "s")) (Front.start (J := Unit)
      (.new ["data"] {} .empty 0 ⟨0⟩)) presentsRevoked, ∃ f ∈ ran.1[13]?, Front.Admits .plain f zeroKey acme ∧
        ∃ key, jwtKey (some "s") = some key ∧
          verifyJwt zeroJwt f.pre.pool.shared.wallClock zeroKey key = some acme := by
  have recorded : ∃ ran ∈ record (Front.step .plain zeroJwt (some "s")) (Front.start (J := Unit)
      (.new ["data"] {} .empty 0 ⟨0⟩)) presentsRevoked,
      (∃ e ∈ ran.1[10]?, ∃ i ∈ e.act.task, ∃ task ∈ e.post.pool.tasks[i]?, task.revoked = some zeroKey) ∧
      (∀ f ∈ ran.1.drop 11, ∀ task ∈ f.pre.pool.tasks, task.stage.ended = false → task.call.keyCall = none) ∧
      ∃ f ∈ ran.1[13]?, ∃ i ∈ f.act.request?, ∃ request ∈ f.pre.requests[i]?,
        bearerCredential .plain request.authorization = some zeroKey ∧
        (f.post.requests[i]?).map HttpRequest.stage = some (.passed acme) := by
    decide +kernel
  obtain ⟨⟨trace, front⟩, ran, ⟨e, placed, revokes⟩, ended, f, there, admits⟩ := recorded
  refine ⟨(trace, front), ran, f, there, admits, ?_⟩
  refine Front.revocation (run_of_record .nil ran) placed revokes (fun n g later found issuing => ?_)
    13 f zeroKey acme (by decide) there admits rfl
  obtain ⟨task, member, running, call, keyed, _⟩ := issuing
  -- Only the two calls that have ended manage the keys.
  have behind : g ∈ trace.drop 11 := by
    refine List.mem_of_getElem? (i := n - 11) ?_
    rw [List.getElem?_drop, show 11 + (n - 11) = n by omega]
    exact found
  have other := ended g behind task member running
  rw [other] at keyed
  cases keyed

end Qaas
