import Qaas.Server.Moves

/-! No call reads or changes what belongs to another caller. -/

namespace Qaas

open Concurrency

variable {J : Type}

/-- The keys of a caller's queues: a tenant's start with its prefix, the others hold no separator. -/
def Owns (caller : Caller) (key : String) : Prop :=
  match caller with
  | some tenant => startsWith key (tenantPrefix tenant) = true
  | none => nul ∉ key.toList

/-- The key of a valid name belongs to its caller alone. -/
theorem owns_scopeKey {caller other : Caller} {name : String} (valid : ValidName name) :
    Owns other (scopeKey caller name) ↔ caller = other := by
  cases other with
  | some tenant => exact startsWith_tenantPrefix valid tenant
  | none =>
    cases caller with
    | none => exact ⟨fun _ => rfl, fun _ member => (valid.apart member).1 rfl⟩
    | some tenant =>
      -- A tenant's key holds the separator behind the tenant's label.
      have member : nul ∈ (scopeKey (some tenant) name).toList := by
        rw [scopeKey_some]
        simp
      exact ⟨fun plain => absurd member plain, fun same => by cases same⟩

/-- Different callers have different routes. -/
theorem tenantKey_injective : Function.Injective tenantKey := by
  intro first second same
  have named (tenant : TenantId) : tenant.asStr ≠ "" := by
    intro empty
    have nonempty := tenant.nonempty
    rw [show tenant.value = "" from empty] at nonempty
    cases nonempty
  -- A tenant's label is never the empty key of the local connection.
  cases first with
  | none =>
    cases second with
    | none => rfl
    | some tenant => exact absurd same.symm (named tenant)
  | some tenant =>
    cases second with
    | none => exact absurd same (named tenant)
    | some other => exact congrArg some (TenantId.asStr_injective same)

/-- Two servers are the same to a caller: in what is keyed to the caller, and in the clocks. -/
structure Server.Agree (caller : Caller) (first second : Server J) : Prop where
  dataDir : first.registry.dataDir = second.registry.dataDir
  now : first.now = second.now
  wallClock : first.wallClock = second.wallClock
  groups : ∀ key, Owns caller key →
    first.registry.groups.lookup key = second.registry.groups.lookup key
  admission : ∀ key, Owns caller key →
    first.registry.admission.lookup key = second.registry.admission.lookup key
  dedup : ∀ key, Owns caller key →
    first.registry.dedup.lookup key = second.registry.dedup.lookup key
  routes : first.registry.routes.lookup (tenantKey caller) =
    second.registry.routes.lookup (tenantKey caller)
  quota : ∀ tenant, caller = some tenant →
    first.registry.tenantQuotas.lookup tenant.asStr = second.registry.tenantQuotas.lookup tenant.asStr
  wals : ∀ name, ValidName name →
    first.disk.wals (walPath first.registry.dataDir caller name) =
      second.disk.wals (walPath first.registry.dataDir caller name)
  dlqs : ∀ name, ValidName name →
    first.disk.dlqs (dlqPath (walPath first.registry.dataDir caller name)) =
      second.disk.dlqs (dlqPath (walPath first.registry.dataDir caller name))
  -- Only the local connection manages the API keys.
  apiKeys : caller = none → first.apiKeys = second.apiKeys

/-- Every open queue has the key of some caller and a valid name. -/
def Server.WellKeyed (server : Server J) : Prop :=
  ∀ key ∈ server.registry.groups, ∃ caller name, ValidName name ∧ key = scopeKey caller name

/-- A step stays within what belongs to one caller: the others see no change, and what it does does
not depend on what is theirs. It may still have to wait for another call. -/
structure Confined (caller : Caller) (move : Server J → Option (Server J × Stage J)) : Prop where
  frame : ∀ {server next stage}, move server = some (next, stage) →
    ∀ other, other ≠ caller → server.Agree other next
  own : ∀ {first second next after stage last}, first.Agree caller second →
    move first = some (next, stage) → move second = some (after, last) →
    stage = last ∧ next.Agree caller after
  keyed : ∀ {server next stage}, move server = some (next, stage) → server.WellKeyed → next.WellKeyed

/-- Something that belongs to a caller: how it is read, and how it is changed. -/
structure Part (J : Type) (caller : Caller) (A B : Type) where
  get : Server J → A
  set : Server J → B → Server J
  get_own : ∀ {first second : Server J}, first.Agree caller second → get first = get second
  set_own : ∀ {first second : Server J} (value : B), first.Agree caller second →
    (set first value).Agree caller (set second value)
  set_frame : ∀ (server : Server J) (value : B) other, other ≠ caller →
    server.Agree other (set server value)
  set_keyed : ∀ {server : Server J} (value : B), server.WellKeyed → (set server value).WellKeyed

theorem Server.Agree.refl (caller : Caller) (server : Server J) : server.Agree caller server :=
  ⟨rfl, rfl, rfl, fun _ _ => rfl, fun _ _ => rfl, fun _ _ => rfl, rfl, fun _ _ => rfl, fun _ _ => rfl,
    fun _ _ => rfl, fun _ => rfl⟩

theorem Server.Agree.trans {caller : Caller} {first second third : Server J}
    (left : first.Agree caller second) (right : second.Agree caller third) : first.Agree caller third where
  dataDir := left.dataDir.trans right.dataDir
  now := left.now.trans right.now
  wallClock := left.wallClock.trans right.wallClock
  groups key owned := (left.groups key owned).trans (right.groups key owned)
  admission key owned := (left.admission key owned).trans (right.admission key owned)
  dedup key owned := (left.dedup key owned).trans (right.dedup key owned)
  routes := left.routes.trans right.routes
  quota tenant same := (left.quota tenant same).trans (right.quota tenant same)
  wals name valid := (left.wals name valid).trans (left.dataDir ▸ right.wals name valid)
  dlqs name valid := (left.dlqs name valid).trans (left.dataDir ▸ right.dlqs name valid)
  apiKeys stdio := (left.apiKeys stdio).trans (right.apiKeys stdio)

section

variable {caller : Caller} {A B A' B' : Type}

/-- A step that reads one part and changes it is confined. -/
theorem Confined.update (part : Part J caller A B)
    (change : Instant → Timestamp → A → Option (B × Stage J)) :
    Confined caller fun server => (change server.now server.wallClock (part.get server)).map fun moved =>
      (part.set server moved.1, moved.2) where
  frame {server next stage} taken other apart := by
    obtain ⟨⟨value, last⟩, _, same⟩ := Option.map_eq_some_iff.mp taken
    obtain ⟨rfl, rfl⟩ := Prod.mk.inj same
    exact part.set_frame server value other apart
  own {first second next after stage last} agree left right := by
    -- Both servers give the step the same part to read.
    rw [← agree.now, ← agree.wallClock, ← part.get_own agree] at right
    obtain ⟨⟨value, _⟩, changed, same⟩ := Option.map_eq_some_iff.mp left
    obtain ⟨⟨value', _⟩, changed', same'⟩ := Option.map_eq_some_iff.mp right
    obtain ⟨rfl, rfl⟩ := Prod.mk.inj same
    obtain ⟨rfl, rfl⟩ := Prod.mk.inj same'
    obtain ⟨rfl, rfl⟩ := Prod.mk.inj (Option.some.inj (changed.symm.trans changed'))
    exact ⟨rfl, part.set_own value agree⟩
  keyed {server next stage} taken keyed := by
    obtain ⟨⟨value, last⟩, _, same⟩ := Option.map_eq_some_iff.mp taken
    obtain ⟨rfl, rfl⟩ := Prod.mk.inj same
    exact part.set_keyed value keyed

/-- Waiting for something to become free does not make a step less confined. -/
theorem Confined.guard {move : Server J → Option (Server J × Stage J)} (blocked : Server J → Bool)
    (confined : Confined caller move) :
    Confined caller fun server => if blocked server then none else move server where
  frame {server next stage} taken := by
    split at taken
    · cases taken
    · exact confined.frame taken
  own {first second next after stage last} agree left right := by
    split at left
    · cases left
    · split at right
      · cases right
      · exact confined.own agree left right
  keyed {server next stage} taken := by
    split at taken
    · cases taken
    · exact confined.keyed taken

/-- Confinement is about what a step does, not how it is written. -/
theorem Confined.congr {move other : Server J → Option (Server J × Stage J)}
    (confined : Confined caller move) (same : ∀ server, other server = move server) :
    Confined caller other := by
  rwa [funext same]

/-- Two parts of one caller make one. -/
def Part.prod (first : Part J caller A B) (second : Part J caller A' B') :
    Part J caller (A × A') (B × B') where
  get server := (first.get server, second.get server)
  set server values := second.set (first.set server values.1) values.2
  get_own agree := Prod.ext (first.get_own agree) (second.get_own agree)
  set_own values agree := second.set_own values.2 (first.set_own values.1 agree)
  set_frame server values other apart :=
    (first.set_frame server values.1 other apart).trans
      (second.set_frame (first.set server values.1) values.2 other apart)
  set_keyed values keyed := second.set_keyed values.2 (first.set_keyed values.1 keyed)

/-- What is only read. -/
def Part.reading (get : Server J → A)
    (own : ∀ {first second : Server J}, first.Agree caller second → get first = get second) :
    Part J caller A Unit where
  get := get
  set server _ := server
  get_own := own
  set_own _ agree := agree
  set_frame server _ other _ := .refl other server
  set_keyed _ keyed := keyed

end

/-- A part that is only read. -/
def Part.read {caller : Caller} {A B : Type} (part : Part J caller A B) : Part J caller A Unit :=
  .reading part.get part.get_own

/-- A part that may be left as it is. -/
def Part.maybe {caller : Caller} {A B : Type} (part : Part J caller A B) :
    Part J caller A (Option B) where
  get := part.get
  set server value := value.elim server (part.set server)
  get_own := part.get_own
  set_own value agree := by
    cases value with
    | none => exact agree
    | some value => exact part.set_own value agree
  set_frame server value other apart := by
    cases value with
    | none => exact .refl other server
    | some value => exact part.set_frame server value other apart
  set_keyed value keyed := by
    cases value with
    | none => exact keyed
    | some value => exact part.set_keyed value keyed

section

variable {caller : Caller} {name : String}

/-- A key of another caller is not that of a valid name of one's own. -/
theorem ne_scopeKey {other : Caller} {key : String} (valid : ValidName name) (apart : other ≠ caller)
    (owned : Owns other key) : key ≠ scopeKey caller name := by
  intro same
  rw [same, owns_scopeKey valid] at owned
  exact apart owned.symm

/-- The budget of a queue. -/
def Part.admission (valid : ValidName name) : Part J caller AdmissionController AdmissionController where
  get server := server.registry.admissionOf caller name
  set server controller := server.withRegistry (server.registry.setAdmission caller name controller)
  get_own agree := by
    rw [QueueRegistry.admissionOf, agree.admission _ ((owns_scopeKey valid).mpr rfl)]
    rfl
  set_own controller agree := { agree with
    admission := fun key owned => lookup_insert_congr (agree.admission key owned) }
  set_frame server controller other apart := { Server.Agree.refl other server with
    admission := fun key owned =>
      (Finmap.lookup_insert_of_ne _ (ne_scopeKey valid apart owned)).symm }
  set_keyed _ keyed := keyed

/-- The embeddings of a queue's tasks. -/
def Part.dedup (valid : ValidName name) :
    Part J caller (EmbeddingIndex MessageId) (EmbeddingIndex MessageId) where
  get server := server.registry.dedupOf caller name
  set server index := server.withRegistry (server.registry.setDedup caller name index)
  get_own agree := by
    rw [QueueRegistry.dedupOf, agree.dedup _ ((owns_scopeKey valid).mpr rfl)]
    rfl
  set_own index agree := { agree with
    dedup := fun key owned => lookup_insert_congr (agree.dedup key owned) }
  set_frame server index other apart := { Server.Agree.refl other server with
    dedup := fun key owned =>
      (Finmap.lookup_insert_of_ne _ (ne_scopeKey valid apart owned)).symm }
  set_keyed _ keyed := keyed

/-- The routes of a caller. -/
def Part.routes : Part J caller (EmbeddingIndex String) (EmbeddingIndex String) where
  get server := server.registry.routesOf caller
  set server index := server.withRegistry (server.registry.setRoutes caller index)
  get_own agree := by
    rw [QueueRegistry.routesOf, agree.routes]
    rfl
  set_own index agree := { agree with routes := lookup_insert_congr agree.routes }
  set_frame server index other apart := { Server.Agree.refl other server with
    routes := (Finmap.lookup_insert_of_ne _ fun same => apart (tenantKey_injective same)).symm }
  set_keyed _ keyed := keyed

/-- The quota of a tenant. -/
def Part.quota (tenant : TenantId) : Part J (some tenant) TenantQuota TenantQuota where
  get server := server.registry.quota tenant
  set server quota := server.withRegistry (server.registry.setQuota tenant quota)
  get_own agree := by
    rw [QueueRegistry.quota, agree.quota tenant rfl]
    rfl
  set_own quota agree := { agree with
    quota := fun other same => lookup_insert_congr (agree.quota other same) }
  set_frame server quota other apart := { Server.Agree.refl other server with
    quota := by
      intro named own
      refine (Finmap.lookup_insert_of_ne _ fun same => apart ?_).symm
      rw [own, TenantId.asStr_injective same] }
  set_keyed _ keyed := keyed

/-- The group of a queue. -/
def Part.group (valid : ValidName name) :
    Part J caller (Option (ConsumerGroup J J)) (ConsumerGroup J J) where
  get server := server.registry.groups.lookup (scopeKey caller name)
  set server group := server.withRegistry (server.registry.setGroup caller name group)
  get_own agree := agree.groups _ ((owns_scopeKey valid).mpr rfl)
  set_own group agree := { agree with
    groups := fun key owned => lookup_insert_congr (agree.groups key owned) }
  set_frame server group other apart := { Server.Agree.refl other server with
    groups := fun key owned =>
      (Finmap.lookup_insert_of_ne _ (ne_scopeKey valid apart owned)).symm }
  set_keyed {server} group keyed := by
    intro key member
    rcases Finmap.mem_insert.mp member with own | before
    · exact ⟨caller, name, valid, own⟩
    · exact keyed key before

/-- The lock on the groups, which is nobody's own. -/
def Part.opener : Part J caller Unit (Option Nat) where
  get _ := ()
  set server opener := server.withRegistry (server.registry.setOpener opener)
  get_own _ := rfl
  set_own _ agree := { agree with }
  set_frame server _ other _ := { Server.Agree.refl other server with }
  set_keyed _ keyed := keyed

/-- Two callers' queues have different files. -/
theorem walPath_apart {dataDir : Location} {other : Caller} {name' : String} (valid : ValidName name)
    (valid' : ValidName name') (apart : other ≠ caller) :
    walPath dataDir other name' ≠ walPath dataDir caller name ∧
      dlqPath (walPath dataDir other name') ≠ dlqPath (walPath dataDir caller name) := by
  -- A file of both queues would make the callers one.
  have shared (location : Location) (left : location ∈ queueFiles dataDir other name')
      (right : location ∈ queueFiles dataDir caller name) : False :=
    apart (queueFiles_disjoint valid' valid left right).1
  refine ⟨fun same => shared (walPath dataDir caller name) ?_ ?_,
    fun same => shared (dlqPath (walPath dataDir caller name)) ?_ ?_⟩
  all_goals simp [queueFiles, same]

/-- The logs of a queue on disk, which are cut back when they are opened. -/
def Part.files (valid : ValidName name) :
    Part J caller (Log (WalRecord J J) × Log (DlqRecord J J)) GetStage where
  get server :=
    let path := walPath server.registry.dataDir caller name
    (server.disk.wals path, server.disk.dlqs (dlqPath path))
  set server stage :=
    { server with disk := server.disk.cut (walPath server.registry.dataDir caller name) stage }
  get_own agree := by
    dsimp only
    rw [agree.wals name valid, agree.dlqs name valid, agree.dataDir]
  set_own {first second} stage agree := by
    have wals := agree.wals name valid
    have dlqs := agree.dlqs name valid
    have dirs := agree.dataDir
    -- Opening cuts back the queue's own file, to the same length on both servers.
    cases stage with
    | openWal => exact { agree with
        wals := fun other valid' => by
          show Function.update _ _ _ _ = Function.update _ _ _ _
          rw [← dirs, Function.update_apply, Function.update_apply, wals, agree.wals other valid'] }
    | openDlq => exact { agree with
        dlqs := fun other valid' => by
          show Function.update _ _ _ _ = Function.update _ _ _ _
          rw [← dirs, Function.update_apply, Function.update_apply, dlqs, agree.dlqs other valid'] }
    | _ => exact agree
  set_frame server stage other apart := by
    -- No other queue has this file.
    cases stage with
    | openWal => exact { Server.Agree.refl other server with
        wals := fun name' valid' =>
          (Function.update_of_ne (walPath_apart valid valid' apart).1 _ _).symm }
    | openDlq => exact { Server.Agree.refl other server with
        dlqs := fun name' valid' =>
          (Function.update_of_ne (walPath_apart valid valid' apart).2 _ _).symm }
    | _ => exact .refl other server
  set_keyed _ keyed := keyed

/-- The keys of a tenant's open queues. -/
def Part.matching (tenant : TenantId) : Part J (some tenant) (Finset String) Unit :=
  .reading (fun server => server.registry.matching tenant) fun {first second} agree => by
    ext key
    simp only [QueueRegistry.matching, Finset.mem_filter, Finmap.mem_keys]
    refine and_congr_left fun owned => ?_
    rw [← Finmap.lookup_isSome, ← Finmap.lookup_isSome, agree.groups key owned]

/-- The API keys, which the local connection manages. -/
def Part.apiKeys : Part J none ApiKeyStore ApiKeyStore where
  get server := server.apiKeys
  set server apiKeys := { server with apiKeys }
  get_own agree := agree.apiKeys rfl
  set_own _ agree := { agree with apiKeys := fun _ => rfl }
  set_frame server _ other apart := { Server.Agree.refl other server with
    apiKeys := fun stdio => absurd stdio apart }
  set_keyed _ keyed := keyed

end

section

variable {caller : Caller} {name : String}

/-- A step that changes nothing, and does what it does whatever the server holds, is confined. -/
theorem Confined.still (stage : Stage J) : Confined caller fun server => some (server, stage) :=
  .update (.reading (fun _ => ()) fun _ => rfl) fun _ _ _ => some ((), stage)

/-- A step that is refused is confined. -/
theorem Confined.refused : Confined caller fun _ : Server J => none :=
  .update (.reading (fun _ => ()) fun _ => rfl) fun _ _ _ => none

theorem Confined.onAdmission (valid : ValidName name)
    (use : Instant → AdmissionController → AdmissionController × Stage J) :
    Confined caller fun server => server.onAdmission caller name use :=
  .update (.admission valid) fun now _ controller => some (use now controller)

theorem Confined.onDedup (valid : ValidName name)
    (use : Instant → EmbeddingIndex MessageId → EmbeddingIndex MessageId × Stage J) :
    Confined caller fun server => server.onDedup caller name use :=
  .update (.dedup valid) fun now _ index => some (use now index)

theorem Confined.onRoutes (use : Instant → EmbeddingIndex String → EmbeddingIndex String × Stage J) :
    Confined caller fun server => server.onRoutes caller use :=
  .update .routes fun now _ routes => some (use now routes)

theorem Confined.onQuota (tenant : TenantId) (use : Instant → TenantQuota → TenantQuota × Stage J) :
    Confined (some tenant) fun server => server.onQuota tenant use :=
  .update (.quota tenant) fun now _ quota => some (use now quota)

theorem Confined.onGroup (valid : ValidName name)
    (use : Instant → Timestamp → ConsumerGroup J J → Option (ConsumerGroup J J × Stage J)) :
    Confined caller fun server => server.onGroup caller name use := by
  refine (Confined.update (.group valid) fun now wallClock group =>
    group.bind (use now wallClock)).congr fun server => ?_
  rw [Server.onGroup, Option.map_bind]
  rfl

theorem Confined.onMatching (tenant : TenantId) (use : Finset String → Option (Stage J)) :
    Confined (some tenant) fun server => server.onMatching tenant use := by
  refine (Confined.guard (fun server => server.registry.opener.isSome) (.update (.matching tenant)
    fun _ _ keys => (use keys).map fun stage => ((), stage))).congr fun server => ?_
  rw [Server.onMatching, Option.map_map]
  rfl

end

section

variable {caller : Caller} {queue : String} {services : Services} {self : Nat} {env : ToolEnv}
  {call : ToolCall J} {current : Stage J}

/-- Every step of `get` stays with the caller whose queue is looked for. -/
theorem Confined.getStep (valid : ValidName queue) (stage : GetStage) :
    Confined caller fun server =>
      server.getStep services self env ⟨caller, call, current⟩ queue stage := by
  cases stage with
  | lookup =>
    -- It waits for the lock, and then reads the group.
    refine (Confined.guard (fun server => server.registry.opener.isSome) <| .update
      ((Part.group valid).read.prod Part.opener.maybe) fun now wallClock read =>
        read.1.elim
          (some (((), some (some self)), .get queue (if caller.isSome then .ceiling else .createDir)))
          fun _ => some (((), none), call.opened services queue now wallClock)).congr fun server => ?_
    rw [Server.getStep_lookup]
    congr 1
    show _ = Option.map _ ((server.registry.groups.lookup (scopeKey caller queue)).elim _ _)
    cases server.registry.groups.lookup (scopeKey caller queue) <;> rfl
  | ceiling =>
    cases caller with
    | none => exact (Confined.still (.get queue .createDir)).congr fun server => Server.getStep_ceiling ..
    | some tenant =>
      -- Only the tenant's own quota and its own open queues decide.
      refine (Confined.update (((Part.quota tenant).prod (.matching tenant)).prod Part.opener.maybe)
        fun _ _ read =>
          (read.1.1.fullAt read.1.2.card).elim (some (((read.1.1, ()), none), .get queue .createDir))
            fun maxQueues => some (((read.1.1, ()), some none),
              .done (.error (queueLimit tenant read.1.2.card maxQueues)))).congr fun server => ?_
      rw [Server.getStep_ceiling]
      dsimp only [Part.prod, Part.quota, Part.matching, Part.reading]
      cases (server.registry.quota tenant).fullAt (server.registry.matching tenant).card <;> rfl
  | createDir =>
    refine (Confined.update Part.opener.maybe fun _ _ _ =>
      env.failure.elim (some (none, .get queue .openWal)) fun error =>
        some (some none, .done (.error (openFailure queue error)))).congr fun server => ?_
    rw [Server.getStep_createDir]
    cases env.failure <;> rfl
  | openWal =>
    refine (Confined.update (Part.opener.maybe.prod (Part.files valid)) fun _ _ _ =>
      env.failure.elim (some ((none, .openWal), .get queue .openDlq)) fun error =>
        some ((some none, .lookup), .done (.error (openFailure queue error)))).congr fun server => ?_
    rw [Server.getStep_openWal]
    cases env.failure <;> rfl
  | openDlq =>
    -- What both logs hold becomes the group.
    refine (Confined.update ((Part.files valid).prod ((Part.group valid).maybe.prod .opener))
      fun now wallClock read =>
        if (DeadLetters.replay read.1.2.records).Iterates env.letters then
          env.failure.elim
            (some ((.openDlq, some (.opened read.1.1 read.1.2 visibilityTimeout .default env.letters), none),
              call.opened services queue now wallClock))
            fun error => some ((.lookup, none, none), .done (.error (openFailure queue error)))
        else none).congr fun server => ?_
    rw [Server.getStep_openDlq]
    by_cases iterates : (DeadLetters.replay
      (server.disk.dlqs (dlqPath (walPath server.registry.dataDir caller queue))).records).Iterates env.letters
    · refine (if_pos iterates).trans (Eq.trans ?_ (congrArg (Option.map _) (if_pos iterates).symm))
      cases env.failure <;> rfl
    · refine (if_neg iterates).trans (Eq.trans ?_ (congrArg (Option.map _) (if_neg iterates).symm))
      rfl

end

/-- The caller that a call is about: an operator may name another one. -/
def ToolTask.subject (task : ToolTask J) : Caller :=
  match task.caller, task.call with
  | none, .configureTenantQuota params => (TenantId.new params.tenantId).toOption
  | none, .tenantQuotaStatus params => params.tenantId.bind fun named => (TenantId.new named).toOption
  | caller, _ => caller

/-- A queue that a call on behalf of its own caller has found valid. -/
def OwnQueue (caller subject : Caller) (queue : String) : Prop :=
  caller = subject ∧ ValidName queue

/-- What a count of pending messages is for is the caller's own. -/
def PendingUse.Proper (caller subject : Caller) : PendingUse → Prop
  | .ceiling locals _ => OwnQueue caller subject locals.queue
  | .status _ _ _ => True

/-- Every name that a call carries along is valid, and belongs to the caller it is about. -/
def Stage.Proper (caller subject : Caller) : Stage J → Prop
  | .authorize | .done _ => True
  | .route _ | .routeKeys | .insertRoute _ _ => caller = subject
  | .get queue _ | .admissionEntry queue _ | .dedupEntry queue _ => OwnQueue caller subject queue
  | .nearest locals _ | .pendingCeiling locals | .tryAdmit locals => OwnQueue caller subject locals.queue
  | .remember queue _ _ _ _ | .group queue _ _ | .headroom queue => OwnQueue caller subject queue
  | .forget queue _ | .deadLetters queue => OwnQueue caller subject queue
  | .admissionConfig queue | .admissionUsage queue _ => OwnQueue caller subject queue
  | .setAdmission params => OwnQueue caller subject params.queue
  | .listPending tenant use => subject = some tenant ∧ use.Proper caller subject
  | .sumPending tenant use first rest _ =>
    subject = some tenant ∧ use.Proper caller subject ∧ ∀ queue ∈ first :: rest, Owns subject queue
  | .key _ => subject = none
  | .setQuota tenant _ | .quotaConfig tenant => subject = some tenant
  | .quotaRequests tenant _ | .quotaQueues tenant _ _ => subject = some tenant

/-- The two calls with which an operator may name a tenant. -/
def ToolCall.names : ToolCall J → Bool
  | .configureTenantQuota _ | .tenantQuotaStatus _ => true
  | _ => false

/-- A call that names no tenant is about its own caller. -/
theorem ToolTask.subject_own {caller : Caller} {call : ToolCall J} {stage : Stage J}
    (plain : call.names = false) : caller = (ToolTask.mk caller call stage).subject := by
  cases caller with
  | some tenant => rfl
  | none => cases call <;> first | rfl | cases plain

section

variable {caller subject : Caller}

/-- An error ends a call, and a value is what the rest goes on with. -/
theorem Stage.Proper.proceed {A : Type} {value : Except ErrorData A} {next : A → Stage J}
    (goes : ∀ a, value = .ok a → (next a).Proper caller subject) :
    (Qaas.proceed value next).Proper caller subject := by
  cases value with
  | ok a => exact goes a rfl
  | error error => exact True.intro

theorem Stage.Proper.getQueue (own : caller = subject) (queue : String) :
    (Qaas.getQueue queue : Stage J).Proper caller subject :=
  .proceed fun _ valid => ⟨own, valid⟩

theorem Stage.Proper.runGroup {queue : String} (own : OwnQueue caller subject queue) (call : Call J J)
    (use : GroupUse) : (Qaas.runGroup queue call use).Proper caller subject := own

theorem Stage.Proper.fresh {locals : Enqueueing} (own : OwnQueue caller subject locals.queue) :
    (locals.fresh caller : Stage J).Proper caller subject := by
  unfold Enqueueing.fresh
  split <;> exact own

theorem Stage.Proper.counted {tenant : TenantId} {use : PendingUse} (own : use.Proper caller subject)
    (current : UInt64) : (use.counted tenant current : Stage J).Proper caller subject := by
  -- An enqueue below its ceiling goes on with its own queue.
  cases use with
  | ceiling locals maxPending =>
    unfold PendingUse.counted
    dsimp only
    split
    · exact True.intro
    · exact own
  | status config requests queues => exact True.intro

theorem Stage.Proper.sumNext {tenant : TenantId} {use : PendingUse} (about : subject = some tenant)
    (own : use.Proper caller subject) (total : UInt64) {keys : List String}
    (owned : ∀ queue ∈ keys, Owns subject queue) :
    (Qaas.sumNext tenant use total keys : Stage J).Proper caller subject := by
  cases keys with
  | nil => exact .counted own total
  | cons key rest => exact ⟨about, own, owned⟩

/-- A tenant that an operator may name is the one with that identifier. -/
theorem toOption_of_validTenant {value : String} {tenant : TenantId}
    (valid : validTenant value = .ok tenant) : (TenantId.new value).toOption = some tenant := by
  -- The check of the server is that of the type.
  unfold validTenant at valid
  cases named : TenantId.new value with
  | ok other =>
    rw [named] at valid
    exact congrArg some (Except.ok.inj valid)
  | error error =>
    rw [named] at valid
    cases valid

/-- Once it is authorized, a call goes on to something that belongs to the caller it is about. -/
theorem ToolCall.start_proper (call : ToolCall J) (stage : Stage J) :
    (call.start caller).Proper caller (ToolTask.mk caller call stage).subject := by
  -- The calls about a queue open it for the caller, and those about a tenant are for an operator or about itself.
  cases call with
  | claim params | ack params | nack params | checkpoint params | publishPartialResult params
  | streamPartialResults params | listDeadLetters params | triageDeadLetter params
  | reprocessDeadLetter params | purgeDeadLetter params =>
    exact .getQueue (ToolTask.subject_own rfl) params.queue
  | enqueue params newId =>
    refine .proceed fun embedding _ => ?_
    cases params.queue with
    | some queue => exact .getQueue (ToolTask.subject_own rfl) queue
    | none =>
      cases embedding with
      | some embedding => exact ToolTask.subject_own rfl
      | none => exact True.intro
  | configureAdmission params =>
    exact .proceed fun _ valid => ⟨ToolTask.subject_own rfl, valid⟩
  | admissionStatus params =>
    exact .proceed fun _ valid => ⟨ToolTask.subject_own rfl, valid⟩
  | configureRoute params =>
    exact .proceed fun _ _ => .proceed fun _ _ => ToolTask.subject_own rfl
  -- The tools of the operator are refused to a tenant.
  | createApiKey params first second =>
    cases caller with
    | some tenant => exact True.intro
    | none => exact .proceed fun _ _ => rfl
  | revokeApiKey params =>
    cases caller with
    | some tenant => exact True.intro
    | none => exact rfl
  | configureTenantQuota params =>
    cases caller with
    | some tenant => exact True.intro
    | none =>
      exact .proceed fun _ valid => toOption_of_validTenant valid
  | tenantQuotaStatus params =>
    obtain ⟨tenantId⟩ := params
    cases caller with
    | some tenant => exact rfl
    | none =>
      cases tenantId with
      | none => exact True.intro
      | some named => exact .proceed fun _ valid => toOption_of_validTenant valid

/-- With its queue open, a call goes on to that queue. -/
theorem ToolCall.opened_proper {queue : String} (own : OwnQueue caller subject queue)
    (services : Services) (now : Instant) (wallClock : Timestamp) (call : ToolCall J) :
    (call.opened services queue now wallClock).Proper caller subject := by
  -- Whatever the call does next, it does with the queue that it has opened.
  cases call with
  | enqueue params newId => exact .proceed fun _ _ => own
  | claim params | listDeadLetters params => exact own
  | ack params | nack params | checkpoint params | publishPartialResult params
  | streamPartialResults params | triageDeadLetter params | reprocessDeadLetter params
  | purgeDeadLetter params => exact .proceed fun _ _ => own
  | _ => exact True.intro

theorem ToolCall.checkKey_proper {queue : String} (own : OwnQueue caller subject queue)
    (embedding : Option Embedding) (call : ToolCall J) :
    (call.checkKey caller queue embedding).Proper caller subject := by
  -- An enqueue goes on with its own queue, looking for similar messages or not.
  cases call with
  | enqueue params newId =>
    refine .proceed fun key _ => ?_
    cases embedding with
    | some vector => exact own
    | none => exact .fresh own
  | _ => exact True.intro

/-- Whatever an operation returns, its call stays with its queue. -/
theorem ToolCall.resume_proper {queue : String} (own : OwnQueue caller subject queue)
    (failure : Option String) (call : ToolCall J) (use : GroupUse) (result : Result J J) :
    (call.resume queue failure use result).Proper caller subject := by
  -- What is left to do after an operation is done with the same queue.
  unfold ToolCall.resume
  split
  case h_12 params _ _ =>
    split
    · exact own
    · exact True.intro
  all_goals first | exact True.intro | exact own

/-- An operation of the API keys leads to nothing but the next step of it, or its answer. -/
theorem ApiKeyStore.toolStep_proper {services : Services} {env : ToolEnv} {store next : ApiKeyStore}
    {key : KeyTask} {stage : Stage J} (stdio : subject = none)
    (stepped : store.toolStep services env key = some (next, stage)) : stage.Proper caller subject := by
  cases ApiKeyStore.toolStep_moved stepped with
  | refuses | creates | revokes => exact True.intro
  | goesOn => exact stdio

end

/-- A call in flight carries along only what belongs to the caller it is about. -/
def ToolTask.Proper (task : ToolTask J) : Prop :=
  task.stage.Proper task.caller task.subject

/-- A step of a call leads to what belongs to the caller it is about. -/
theorem ToolTask.Proper.move {services : Services} {self : Nat} {env : ToolEnv} {server next : Server J}
    {task : ToolTask J} {stage : Stage J} (proper : task.Proper)
    (moved : server.move services self env task = some (next, stage)) :
    stage.Proper task.caller task.subject := by
  -- Most ways on keep to the queue or the tenant that the call is about; an answer is about nothing more.
  obtain ⟨caller, call, current⟩ := task
  cases Server.moved_of_move moved with
  | trusts | allows => exact call.start_proper .authorize
  | routes => exact .getQueue proper _
  | @gets queue at_ _ _ stepped =>
    obtain ⟨registry, after, _, rfl, rfl⟩ := Server.getStep_eq_some stepped
    -- An open queue is the one that the call has asked for.
    cases after with
    | stage at_ => exact proper
    | returned result => exact .proceed fun _ _ => call.opened_proper proper services _ _
  | skips => exact call.checkKey_proper proper none
  | checksKey => exact call.checkKey_proper proper _
  | misses => exact .fresh proper
  | limited own =>
    obtain rfl := own
    exact ⟨rfl, proper⟩
  | @lists tenant use listed =>
    obtain ⟨about, own⟩ := proper
    -- Every key that is listed starts with the tenant's prefix.
    refine .sumNext about own 0 fun queue member => ?_
    rw [← List.mem_toFinset, listed] at member
    rw [show (ToolTask.mk caller call (.listPending tenant use)).subject = some tenant from about]
    exact (Finset.mem_filter.mp member).2
  | @counts tenant use first rest =>
    obtain ⟨about, own, owned⟩ := proper
    exact .sumNext about own _ fun queue member => owned queue (List.mem_cons_of_mem first member)
  | returns => exact call.resume_proper proper env.failure _ _
  | managesKey stepped => exact ApiKeyStore.toolStep_proper proper stepped
  | countsQueues => exact ⟨proper, True.intro⟩
  | compares | uncounted | unlimited | admits | operates | claims | readsAdmission | insertsRoute | readsQuota
  | readsRequests => exact proper
  | _ => exact True.intro

/-- A step of a call stays within what belongs to the caller it is about. -/
theorem ToolTask.Proper.confined {services : Services} {self : Nat} {env : ToolEnv} {task : ToolTask J}
    (proper : task.Proper) :
    Confined task.subject fun server => server.move services self env task := by
  unfold Server.move
  obtain ⟨caller, call, current⟩ := task
  cases current with
  | authorize =>
    cases caller with
    | none => exact .still _
    | some tenant => exact .onQuota tenant _
  | get queue stage =>
    rw [← show caller = _ from proper.1]
    exact .getStep proper.2 stage
  | pendingCeiling locals =>
    cases caller with
    | none => exact .still _
    | some tenant => exact .onQuota tenant _
  -- Most steps use one part of the registry, which is the caller's own.
  | admissionEntry | setAdmission | admissionConfig | admissionUsage =>
    rw [← show caller = _ from proper.1]
    exact .onAdmission proper.2 _
  | dedupEntry | nearest | remember | forget =>
    rw [← show caller = _ from proper.1]
    exact .onDedup proper.2 _
  | route | insertRoute | routeKeys =>
    rw [← show caller = _ from proper]
    exact .onRoutes _
  | group | deadLetters =>
    rw [← show caller = _ from proper.1]
    exact .onGroup proper.2 _
  | setQuota tenant | quotaConfig tenant | quotaRequests tenant =>
    rw [show ToolTask.subject _ = some tenant from proper]
    exact .onQuota tenant _
  | listPending tenant use =>
    rw [show ToolTask.subject _ = some tenant from proper.1]
    exact .onMatching tenant _
  | sumPending tenant use first rest total =>
    -- The queue is read without a call of its own, but its key is the tenant's.
    have owned := proper.2.2 first List.mem_cons_self
    refine (Confined.update (.reading (fun server => server.registry.groups.lookup first)
      fun agree => agree.groups first owned) fun _ _ (group : Option (ConsumerGroup J J)) =>
        group.map fun group =>
          ((), sumNext tenant use (saturatingAdd total (lengthAsU64 group.len)) rest)).congr fun server => ?_
    rw [Option.map_map]
    rfl
  | tryAdmit locals =>
    rw [← show caller = _ from proper.1]
    cases call with
    | enqueue params newId => exact .onAdmission proper.2 _
    | _ => exact .refused
  | headroom queue =>
    rw [← show caller = _ from proper.1]
    cases call with
    | claim params => exact .onAdmission proper.2 _
    | _ => exact .refused
  | key task =>
    rw [show ToolTask.subject _ = none from proper]
    exact .update .apiKeys fun _ _ store => store.toolStep services env task
  | quotaQueues tenant config requests =>
    rw [show ToolTask.subject _ = some tenant from proper]
    exact .onMatching tenant _
  | done result => exact .refused

/-- A call that is given up at its deadline stays within what belongs to its caller, too. -/
theorem ToolTask.Proper.confined_timeout {self : Nat} {wrote : AppendOutcome} {task : ToolTask J}
    (proper : task.Proper) :
    Confined task.subject fun server => server.timeout self wrote task := by
  -- Only an operation of the call's own queue can be dropped.
  unfold Server.timeout
  obtain ⟨caller, call, current⟩ := task
  cases current with
  | group queue pc use =>
    rw [← show caller = _ from proper.1]
    cases use with
    | within deadline => exact .onGroup proper.2 _
    | _ => exact .refused
  | _ => exact .refused

/-- A call that is given up at its deadline has ended. -/
theorem ToolTask.Proper.timeout {self : Nat} {wrote : AppendOutcome} {server next : Server J}
    {task : ToolTask J} {stage : Stage J} (given : server.timeout self wrote task = some (next, stage)) :
    stage.Proper task.caller task.subject := by
  obtain ⟨queue, pc, deadline, _, _, _, _, _, _, _, _, rfl⟩ := Server.timeout_eq_some given
  cases task.call <;> exact True.intro

/-- The call that takes a step. -/
def ServerAction.task : ServerAction J → Option Nat
  | .step i _ | .timeout i _ => some i
  | _ => none

/-- What a call does in a step of the server, by itself. -/
def ServerAction.move (services : Services) (act : ServerAction J) (server : Server J) (task : ToolTask J) :
    Option (Server J × Stage J) :=
  match act with
  | .step i env => server.move services i env task
  | .timeout i wrote => server.timeout i wrote task
  | _ => none

/-- A step of the server that a call takes is the call's own. -/
theorem ServerPool.step_eq_some {services : Services} {pool next : ServerPool J} {act : ServerAction J}
    {i : Nat} (by_ : act.task = some i) :
    pool.step services act = some next ↔ ∃ task server stage, pool.tasks[i]? = some task ∧
      act.move services pool.shared task = some (server, stage) ∧
      next = ⟨server, pool.tasks.set i { task with stage }⟩ := by
  have taken (move : Server J → ToolTask J → Option (Server J × Stage J)) :
      pool.advance i (fun server task => (move server task).map task.at_) = some next ↔
        ∃ task server stage, pool.tasks[i]? = some task ∧ move pool.shared task = some (server, stage) ∧
          next = ⟨server, pool.tasks.set i { task with stage }⟩ := by
    rw [Pool.advance_eq_some]
    constructor
    · intro ⟨task, server, moved, found, stepped, result⟩
      obtain ⟨⟨server', stage⟩, own, same⟩ := Option.map_eq_some_iff.mp stepped
      obtain ⟨rfl, rfl⟩ := Prod.mk.inj same
      exact ⟨task, server', stage, found, own, result⟩
    · intro ⟨task, server, stage, found, stepped, result⟩
      exact ⟨task, server, { task with stage }, found, by rw [stepped]; rfl, result⟩
  -- Both a step and a timeout are moves of one task.
  cases act with
  | step j env =>
    obtain rfl := Option.some.inj by_
    exact taken _
  | timeout j wrote =>
    obtain rfl := Option.some.inj by_
    exact taken _
  | _ => cases by_

/-- What a call does in a step stays within what belongs to the caller it is about. -/
theorem ServerAction.confined {services : Services} {task : ToolTask J} (proper : task.Proper)
    (act : ServerAction J) : Confined task.subject fun server => act.move services server task := by
  cases act with
  | step i env => exact proper.confined
  | timeout i wrote => exact proper.confined_timeout
  | _ => exact .refused

/-- Every call in flight carries along only what belongs to the caller it is about, and every open
queue has a key of its caller. -/
structure ServerPool.Keyed (dataDir : Location) (pool : ServerPool J) : Prop where
  proper : ∀ task ∈ pool.tasks, task.Proper
  keyed : pool.shared.WellKeyed
  dataDir : pool.shared.registry.dataDir = dataDir

/-- There is a caller other than a given one. -/
theorem exists_other (caller : Caller) : ∃ other, other ≠ caller := by
  cases caller with
  | none => exact ⟨some ⟨"a", by decide, by decide, by decide⟩, by simp⟩
  | some tenant => exact ⟨none, by simp⟩

/-- Every step keeps calls and queues with their callers. -/
theorem ServerPool.Keyed.step {services : Services} {dataDir : Location} {pool next : ServerPool J}
    {act : ServerAction J} (keyed : pool.Keyed dataDir) (taken : pool.step services act = some next) :
    next.Keyed dataDir := by
  cases by_ : act.task with
  | some i =>
    obtain ⟨task, server, stage, found, moved, rfl⟩ := (step_eq_some by_).mp taken
    have own := keyed.proper task (List.mem_of_getElem? found)
    have confined : Confined task.subject fun server => act.move services server task :=
      ServerAction.confined own act
    -- That the directory stays is what any other caller sees.
    obtain ⟨other, apart⟩ := exists_other task.subject
    refine ⟨fun later member => ?_, confined.keyed moved keyed.keyed,
      (confined.frame moved other apart).dataDir.symm.trans keyed.dataDir⟩
    rcases List.mem_or_eq_of_mem_set member with before | rfl
    · exact keyed.proper later before
    · -- The call that took the step goes on with what is its own.
      cases act with
      | step j env => exact own.move moved
      | timeout j wrote =>
        have proper : stage.Proper task.caller task.subject := ToolTask.Proper.timeout moved
        exact proper
      | _ => cases by_
  | none =>
    cases act with
    | call caller call =>
      simp only [ServerPool.step] at taken
      split at taken
      · obtain rfl := Option.some.inj taken
        refine ⟨fun later member => ?_, keyed.keyed, keyed.dataDir⟩
        rcases List.mem_append.mp member with before | last
        · exact keyed.proper later before
        · obtain rfl := List.mem_singleton.mp last
          exact True.intro
      · cases taken
    | tick elapsed =>
      obtain rfl := Option.some.inj taken
      exact ⟨keyed.proper, keyed.keyed, keyed.dataDir⟩
    | setWallClock wallClock =>
      obtain rfl := Option.some.inj taken
      exact ⟨keyed.proper, keyed.keyed, keyed.dataDir⟩
    | step i env => cases by_
    | timeout i wrote => cases by_

/-- Every label that a key carries is that of a tenant. -/
theorem Server.WellKeyed.label {server : Server J} (keyed : server.WellKeyed) {label : String}
    (member : label ∈ server.registry.tenantLabels) : ∃ tenant : TenantId, tenant.asStr = label := by
  obtain ⟨key, present, labelled⟩ := Finset.mem_biUnion.mp member
  obtain ⟨caller, name, valid, rfl⟩ := keyed key (Finmap.mem_keys.mp present)
  rw [splitOnce_scopeKey valid] at labelled
  -- Only a tenant's key has a label.
  cases caller with
  | none => simp at labelled
  | some tenant =>
    have same : label = tenant.asStr := by simpa using labelled
    exact ⟨tenant, same.symm⟩

/-- The snapshots of tenants do not fail where every label is a tenant's. -/
theorem QueueRegistry.tenantSnapshots_isSome {G : Type} {len : G → Nat} {now : Instant}
    {labels : List String} (named : ∀ label ∈ labels, ∃ tenant : TenantId, tenant.asStr = label)
    (registry : QueueRegistry G) : (registry.tenantSnapshots len now labels).isSome := by
  -- Row by row, and each label is the identifier of a tenant.
  induction labels generalizing registry with
  | nil => rfl
  | cons label labels ih =>
    obtain ⟨tenant, accepted⟩ := named label List.mem_cons_self
    have first : ∃ row, registry.tenantSnapshot len now label = some row := by
      unfold QueueRegistry.tenantSnapshot
      rw [TenantId.new_eq_ok.mpr accepted]
      exact ⟨_, rfl⟩
    obtain ⟨row, first⟩ := first
    have rest := ih (fun later member => named later (List.mem_cons_of_mem label member)) row.1
    simp only [QueueRegistry.tenantSnapshots, first, Option.bind_some, Option.isSome_map, rest]

/-- An operator's call may be about a tenant, and every other one is about its own caller. -/
theorem ToolTask.subject_eq (task : ToolTask J) :
    task.subject = task.caller ∨ task.caller = none ∧ task.call.names = true := by
  obtain ⟨caller, call, stage⟩ := task
  cases caller with
  | some tenant => exact .inl rfl
  | none => cases call <;> first | exact .inl rfl | exact .inr ⟨rfl, rfl⟩

/-- Callers share neither keys nor files, and in every run no step of a call made as one caller
changes, or depends on, anything that is kept for another one. -/
theorem ServerPool.isolation {services : Services} {dataDir : Location} {keys : Log KeyRecord}
    {disk : Disk J} {now : Instant} {wallClock : Timestamp}
    {trace : List (Transition (ServerPool J) (ServerAction J))} {pool : ServerPool J}
    (run : Run (ServerPool.step services) (fun _ _ => True)
      ⟨.new dataDir keys disk now wallClock, []⟩ trace pool) :
    (∀ first second name other, ValidName name → ValidName other →
      ((first, name) : Caller × String) ≠ (second, other) →
      scopeKey first name ≠ scopeKey second other ∧
      ∀ location ∈ queueFiles dataDir first name, location ∉ queueFiles dataDir second other) ∧
    (∀ caller name, ValidName name →
      walPath dataDir caller name ≠ dlqPath (walPath dataDir caller name) ∧
      ∀ location ∈ queueFiles dataDir caller name,
        location ≠ apiKeysPath dataDir ∧ location ≠ auditPath dataDir ∧
        location.dropLast = dataDir ++ (caller.map TenantId.asStr).toList) ∧
    (∀ caller name, ValidName name → ∀ tenant,
      startsWith (scopeKey caller name) (tenantPrefix tenant) = true ↔ caller = some tenant) ∧
    (∀ now labels, labels.toFinset = pool.shared.registry.tenantLabels →
      (pool.shared.registry.tenantSnapshots ConsumerGroup.len now labels).isSome) ∧
    pool.shared.registry.dataDir = dataDir ∧
    ∀ e ∈ trace, ∀ i task, e.act.task = some i → e.pre.tasks[i]? = some task →
      (task.subject = task.caller ∨ task.caller = none ∧ task.call.names = true) ∧
      (∀ other, other ≠ task.subject → e.pre.shared.Agree other e.post.shared) ∧
      ∀ elsewhere next : ServerPool J, elsewhere.tasks[i]? = some task →
        e.pre.shared.Agree task.subject elsewhere.shared → elsewhere.step services e.act = some next →
        next.tasks[i]? = e.post.tasks[i]? ∧ e.post.shared.Agree task.subject next.shared := by
  have start : ServerPool.Keyed dataDir (⟨.new dataDir keys disk now wallClock, []⟩ : ServerPool J) :=
    ⟨fun _ member => (List.not_mem_nil member).elim,
      fun _ member => (Finmap.notMem_empty member).elim, rfl⟩
  have sound {trace : List (Transition (ServerPool J) (ServerAction J))} {pool : ServerPool J}
      (run : Run (ServerPool.step services) (fun _ _ => True)
        ⟨.new dataDir keys disk now wallClock, []⟩ trace pool) : pool.Keyed dataDir :=
    run.invariant start fun _ _ _ _ keyed taken => keyed.step taken
  refine ⟨?_, ?_, fun caller name valid tenant => startsWith_tenantPrefix valid tenant, ?_,
    (sound run).dataDir, ?_⟩
  · -- Keys and files tell the callers apart, and the names.
    intro first second name other valid validOther apart
    refine ⟨fun same => ?_, fun location left right => ?_⟩
    · obtain ⟨rfl, rfl⟩ := scopeKey_inj valid validOther same
      exact apart rfl
    · obtain ⟨rfl, rfl⟩ := queueFiles_disjoint valid validOther left right
      exact apart rfl
  · intro caller name valid
    refine ⟨walPath_ne_dlqPath valid, fun location member => ?_⟩
    obtain ⟨keys, audit⟩ := queueFiles_reserved valid member
    exact ⟨keys, audit, queueFiles_inside valid member⟩
  · intro now labels listed
    refine QueueRegistry.tenantSnapshots_isSome (fun label member => ?_) _
    rw [← List.mem_toFinset, listed] at member
    exact (sound run).keyed.label member
  · -- Every step is that of a call whose move is confined.
    intro e member i task by_ found
    obtain ⟨⟨_, reached⟩, _, taken⟩ := run.of_mem member
    have own := (sound reached).proper task (List.mem_of_getElem? found)
    have confined : Confined task.subject fun server => e.act.move services server task :=
      ServerAction.confined own e.act
    obtain ⟨task', server, stage, found', moved, result⟩ := (step_eq_some by_).mp taken
    obtain rfl := Option.some.inj (found'.symm.trans found)
    rw [result]
    refine ⟨task'.subject_eq, fun other apart => confined.frame moved other apart, ?_⟩
    -- On a server that agrees for the caller, the same call takes the same step.
    intro elsewhere next there agree stepped
    obtain ⟨task, server', stage', found'', moved', rfl⟩ := (step_eq_some by_).mp stepped
    obtain rfl := Option.some.inj (found''.symm.trans there)
    obtain ⟨rfl, after⟩ := confined.own agree moved moved'
    refine ⟨?_, after⟩
    simp only
    rw [List.getElem?_set_self (List.getElem?_eq_some_iff.mp there).1,
      List.getElem?_set_self (List.getElem?_eq_some_iff.mp found).1]

/-- A tenant and the local connection put a message on a queue of the same name. -/
def sameName : List (ServerAction Unit) :=
  [.call (some acme) (.plain "orders" () ⟨0⟩), .call none (.plain "orders" () ⟨1⟩)] ++
    ServerAction.run 0 11 ++ ServerAction.run 1 9

theorem ServerPool.isolation_acme :
    ∃ pool : ServerPool Unit,
      pool.shared.registry.groups.keys = {scopeKey (some acme) "orders", scopeKey none "orders"} ∧
      (pool.shared.registry.tenantSnapshots ConsumerGroup.len 0 ["acme"]).isSome := by
  -- The run is computed: two callers have opened queues of one name.
  have reached : ∃ pool : ServerPool Unit,
      Reachable (ServerPool.step Services.alike) (fun _ _ => True)
        ⟨.new ["data"] {} .empty 0 ⟨0⟩, []⟩ pool ∧
      pool.shared.registry.groups.keys = {scopeKey (some acme) "orders", scopeKey none "orders"} ∧
      ["acme"].toFinset = pool.shared.registry.tenantLabels :=
    reaches_of_exec sameName _ (by decide +kernel)
  obtain ⟨pool, ⟨trace, run⟩, keys, labels⟩ := reached
  exact ⟨pool, keys, (ServerPool.isolation run).2.2.2.1 0 ["acme"] labels⟩

end Qaas
