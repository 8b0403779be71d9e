import Qaas.Concurrency.Run
import Qaas.Concurrency.Pool
import Qaas.Server.Registry

/-! Concurrent calls of `get` open every queue at most once, and no tenant more queues than it may. -/

namespace Qaas

open Concurrency

/-- A registry in use, where a group is known by its place among those opened so far. -/
structure Opening where
  registry : QueueRegistry Nat
  opened : List (Caller × String)

/-- Where a call of `get` stands. -/
inductive GetStatus where
  | begun
  | running (stage : GetStage)
  | returned (result : Except ErrorData Nat)

/-- A call of `get`. -/
structure GetCall where
  tenant : Caller
  name : String
  status : GetStatus

/-- The queue that a call opens by a step. -/
def GetCall.opens (call : GetCall) : GetStage → GetNext Nat → List (Caller × String)
  | .openDlq, .returned (.ok _) => [(call.tenant, call.name)]
  | _, _ => []

/-- The status that a step of `get` leads to. -/
def GetNext.status : GetNext Nat → GetStatus
  | .stage later => .running later
  | .returned result => .returned result

/-- One step of a call of `get`. -/
def Opening.move (self : Nat) (failure : Option String) (opening : Opening) (call : GetCall) :
    Option (Opening × GetCall) :=
  match call.status with
  | .begun =>
    some (opening, { call with
      status :=
        match validateQueueName call.name with
        | .ok _ => .running .lookup
        | .error error => .returned (.error error) })
  | .running stage =>
    (opening.registry.get self call.tenant call.name failure opening.opened.length stage).map fun moved =>
      (⟨moved.1, opening.opened ++ call.opens stage moved.2⟩, { call with status := moved.2.status })
  | .returned _ => none

/-- A registry in use, and every call of `get` ever made on it. -/
abbrev OpenPool := Pool Opening GetCall

/-- A call begins, a running one takes its next step, or an operator sets a tenant's quota. -/
inductive OpenAction where
  | call (tenant : Caller) (name : String)
  | step (task : Nat) (failure : Option String)
  | configure (tenant : TenantId) (config : QuotaConfig)

/-- One step of the calls on a registry. -/
def OpenPool.step (pool : OpenPool) : OpenAction → Option OpenPool
  | .call tenant name => some (pool.spawn ⟨tenant, name, .begun⟩)
  | .step i failure => pool.advance i (Opening.move i failure)
  | .configure tenant config =>
    let registry := pool.shared.registry
    some { pool with shared := { pool.shared with
      registry := registry.setQuota tenant ((registry.quota tenant).setConfig config) } }

/-- A registry of a process that has just begun. -/
def OpenPool.start (dataDir : Location) : OpenPool :=
  ⟨⟨.new dataDir, []⟩, []⟩

/-- The file that a call is about to open, and to cut back. -/
def GetCall.cuts (dataDir : Location) (call : GetCall) : Option Location :=
  match call.status with
  | .running .openWal => some (walPath dataDir call.tenant call.name)
  | .running .openDlq => some (dlqPath (walPath dataDir call.tenant call.name))
  | _ => none

/-- The log that a call has open for the group it is about to make. -/
def GetCall.holds (dataDir : Location) (call : GetCall) : Option Location :=
  match call.status with
  | .running .openDlq => some (walPath dataDir call.tenant call.name)
  | _ => none

/-- A file that an open queue, or one about to be open, appends to. -/
def OpenPool.InUse (dataDir : Location) (pool : OpenPool) (location : Location) : Prop :=
  (∃ pair ∈ pool.shared.opened, location ∈ queueFiles dataDir pair.1 pair.2) ∨
    ∃ call ∈ pool.tasks, call.holds dataDir = some location

/-- The queues that a tenant has open. -/
def Opening.queuesOpen (opening : Opening) (tenant : TenantId) : Nat :=
  (opening.opened.filter fun pair => pair.1 = some tenant).length

/-- A call that has been found below the ceiling of its tenant. -/
def GetCall.passed (call : GetCall) : Bool :=
  match call.status with
  | .running .createDir | .running .openWal | .running .openDlq => true
  | _ => false

section

variable {G : Type} {self : Nat} {tenant : Caller} {name : String} {failure : Option String} {fresh : G}
  {registry : QueueRegistry G}

/-- What a step of `get` can do. -/
inductive QueueRegistry.Got (self : Nat) (tenant : Caller) (name : String) (fresh : G)
    (registry : QueueRegistry G) : GetStage → QueueRegistry G → GetNext G → Prop
  | finds {group : G} : registry.opener = none →
      registry.groups.lookup (scopeKey tenant name) = some group →
      Got self tenant name fresh registry .lookup registry (.returned (.ok group))
  | begins {stage : GetStage} : registry.opener = none →
      registry.groups.lookup (scopeKey tenant name) = none → stage = .ceiling ∨ tenant = none →
      Got self tenant name fresh registry .lookup (registry.setOpener (some self)) (.stage stage)
  | passes {quotas} : (∀ t, (quotas.lookup t).getD (.new .unlimited) =
        (registry.tenantQuotas.lookup t).getD (.new .unlimited)) →
      (∀ named maxQueues, tenant = some named → (registry.quota named).config.maxQueues = some maxQueues →
        registry.countMatching named < maxQueues) →
      Got self tenant name fresh registry .ceiling { registry with tenantQuotas := quotas }
        (.stage .createDir)
  | goesOn {stage later : GetStage} : stage = .createDir ∧ later = .openWal ∨
        stage = .openWal ∧ later = .openDlq →
      Got self tenant name fresh registry stage registry (.stage later)
  | fails {stage : GetStage} {quotas} {error : ErrorData} : stage ≠ .lookup →
      (∀ t, (quotas.lookup t).getD (.new .unlimited) =
        (registry.tenantQuotas.lookup t).getD (.new .unlimited)) →
      Got self tenant name fresh registry stage
        { registry with tenantQuotas := quotas, opener := none } (.returned (.error error))
  | opens : Got self tenant name fresh registry .openDlq
      ((registry.setGroup tenant name fresh).setOpener none) (.returned (.ok fresh))

/-- Making the entry of a quota that is not there yet changes no quota. -/
theorem QueueRegistry.quota_made (registry : QueueRegistry G) (tenant : TenantId) (key : String) :
    ((registry.tenantQuotas.insert tenant.asStr (registry.quota tenant)).lookup key).getD (.new .unlimited) =
      (registry.tenantQuotas.lookup key).getD (.new .unlimited) := by
  -- The entry that is made says what was said without it.
  by_cases same : key = tenant.asStr
  · subst same
    rw [Finmap.lookup_insert]
    rfl
  · rw [Finmap.lookup_insert_of_ne _ same]

/-- A step of `get` does nothing else. -/
theorem QueueRegistry.get_got {stage : GetStage} {next : QueueRegistry G} {after : GetNext G}
    (got : registry.get self tenant name failure fresh stage = some (next, after)) :
    registry.Got self tenant name fresh stage next after := by
  -- One case for each stage, in the order in which an opening goes through them.
  cases stage with
  | lookup =>
    simp only [QueueRegistry.get] at got
    split at got
    · cases got
    · rename_i free
      have free : registry.opener = none := by simpa using free
      cases found : registry.groups.lookup (scopeKey tenant name) with
      | some group =>
        simp only [found, Option.some.injEq, Prod.mk.injEq] at got
        obtain ⟨rfl, rfl⟩ := got
        exact .finds free found
      | none =>
        simp only [found, Option.some.injEq, Prod.mk.injEq] at got
        obtain ⟨rfl, rfl⟩ := got
        exact .begins free found (by cases tenant <;> simp)
  | ceiling =>
    cases tenant with
    | none =>
      obtain ⟨rfl, rfl⟩ := Prod.mk.inj (Option.some.inj got)
      exact .passes (fun _ => rfl) fun _ _ same => by cases same
    | some tenant =>
      simp only [QueueRegistry.get] at got
      split at got
      · obtain ⟨rfl, rfl⟩ := Prod.mk.inj (Option.some.inj got)
        exact .fails (fun same => by cases same) (registry.quota_made tenant)
      · rename_i below
        obtain ⟨rfl, rfl⟩ := Prod.mk.inj (Option.some.inj got)
        refine .passes (registry.quota_made tenant) fun named maxQueues same ceiling => ?_
        obtain rfl := Option.some.inj same
        -- A ceiling that does not stop the opening is not reached yet.
        have small := Option.filter_eq_none_iff.mp below maxQueues ceiling
        exact Nat.lt_of_not_le fun reached => small (decide_eq_true reached)
  | createDir =>
    cases failure with
    | some error =>
      obtain ⟨rfl, rfl⟩ := Prod.mk.inj (Option.some.inj got)
      exact .fails (fun same => by cases same) fun _ => rfl
    | none =>
      obtain ⟨rfl, rfl⟩ := Prod.mk.inj (Option.some.inj got)
      exact .goesOn (.inl ⟨rfl, rfl⟩)
  | openWal =>
    cases failure with
    | some error =>
      obtain ⟨rfl, rfl⟩ := Prod.mk.inj (Option.some.inj got)
      exact .fails (fun same => by cases same) fun _ => rfl
    | none =>
      obtain ⟨rfl, rfl⟩ := Prod.mk.inj (Option.some.inj got)
      exact .goesOn (.inr ⟨rfl, rfl⟩)
  | openDlq =>
    cases failure with
    | some error =>
      obtain ⟨rfl, rfl⟩ := Prod.mk.inj (Option.some.inj got)
      exact .fails (fun same => by cases same) fun _ => rfl
    | none =>
      obtain ⟨rfl, rfl⟩ := Prod.mk.inj (Option.some.inj got)
      exact .opens

end

/-- What holds of a registry whose groups only calls of `get` have opened. -/
structure OpenPool.Sound (pool : OpenPool) : Prop where
  valid : ∀ pair ∈ pool.shared.opened, ValidName pair.2
  running : ∀ call ∈ pool.tasks, ∀ stage, call.status = .running stage → ValidName call.name
  listed : ∀ key group, pool.shared.registry.groups.lookup key = some group ↔
    ∃ pair, (pool.shared.opened)[group]? = some pair ∧ scopeKey pair.1 pair.2 = key
  locked : pool.All fun i call => ∀ stage, call.status = .running stage → stage ≠ .lookup →
    pool.shared.registry.opener = some i ∧
      pool.shared.registry.groups.lookup (scopeKey call.tenant call.name) = none
  got : ∀ call ∈ pool.tasks, ∀ group, call.status = .returned (.ok group) →
    (pool.shared.opened)[group]? = some (call.tenant, call.name)

/-- A registry of a process that has just begun holds no group. -/
theorem OpenPool.Sound.start (dataDir : Location) : (OpenPool.start dataDir).Sound where
  valid pair member := by cases member
  running call member := by cases member
  listed key group := by
    simp [OpenPool.start, QueueRegistry.new]
  locked i call found := by cases found
  got call member := by cases member

section

variable {pool : OpenPool} {i : Nat} {call : GetCall} {status : GetStatus} {registry : QueueRegistry Nat}

/-- A step that opens nothing and takes the lock from nobody else keeps what holds. -/
theorem OpenPool.Sound.moved (sound : pool.Sound) (found : pool.tasks[i]? = some call)
    (groups : registry.groups = pool.shared.registry.groups)
    (others : ∀ j, j ≠ i → pool.shared.registry.opener = some j → registry.opener = some j)
    (valid : ∀ stage, status = .running stage → ValidName call.name)
    (locked : ∀ stage, status = .running stage → stage ≠ .lookup → registry.opener = some i ∧
      registry.groups.lookup (scopeKey call.tenant call.name) = none)
    (got : ∀ group, status = .returned (.ok group) →
      (pool.shared.opened)[group]? = some (call.tenant, call.name)) :
    OpenPool.Sound ⟨⟨registry, pool.shared.opened⟩, pool.tasks.set i { call with status }⟩ where
  valid := sound.valid
  running other member := by
    rcases List.mem_or_eq_of_mem_set member with before | rfl
    · exact sound.running other before
    · exact valid
  listed key group := by
    show registry.groups.lookup key = some group ↔ _
    rw [groups]
    exact sound.listed key group
  locked j other there stage status within := by
    have bound := (List.getElem?_eq_some_iff.mp found).1
    by_cases own : j = i
    · subst own
      rw [List.getElem?_set_self bound] at there
      obtain rfl := Option.some.inj there
      exact locked stage status within
    · -- The others hold what they held.
      rw [List.getElem?_set_ne (fun same => own same.symm)] at there
      obtain ⟨holds, absent⟩ := sound.locked j other there stage status within
      exact ⟨others j own holds, groups ▸ absent⟩
  got other member := by
    rcases List.mem_or_eq_of_mem_set member with before | rfl
    · exact sound.got other before
    · exact got

/-- The step that opens a group keeps what holds. -/
theorem OpenPool.Sound.opens (sound : pool.Sound) (found : pool.tasks[i]? = some call)
    (status : call.status = .running .openDlq) :
    OpenPool.Sound
      ⟨⟨(pool.shared.registry.setGroup call.tenant call.name pool.shared.opened.length).setOpener none,
          pool.shared.opened ++ [(call.tenant, call.name)]⟩,
        pool.tasks.set i { call with status := .returned (.ok pool.shared.opened.length) }⟩ where
  valid pair member := by
    rcases List.mem_append.mp member with before | new
    · exact sound.valid pair before
    · obtain rfl := List.mem_singleton.mp new
      exact sound.running call (List.mem_of_getElem? found) _ status
  running other member stage running := by
    rcases List.mem_or_eq_of_mem_set member with before | rfl
    · exact sound.running other before stage running
    · cases running
  listed key group := by
    have absent := (sound.locked i call found _ status (by decide)).2
    show (pool.shared.registry.groups.insert (scopeKey call.tenant call.name) _).lookup key = _ ↔ _
    by_cases own : key = scopeKey call.tenant call.name
    · subst own
      rw [Finmap.lookup_insert]
      -- The new pair is the last of the list, and has its number.
      constructor
      · intro same
        obtain rfl := Option.some.inj same
        exact ⟨_, List.getElem?_concat_length, rfl⟩
      · intro listed
        obtain ⟨pair, placed, same⟩ := listed
        -- A pair that was there before would have had its group.
        rcases Nat.lt_trichotomy group pool.shared.opened.length with before | last | beyond
        · rw [List.getElem?_append_left before] at placed
          have listed := (sound.listed _ group).mpr ⟨pair, placed, same⟩
          rw [absent] at listed
          cases listed
        · rw [last]
        · rw [List.getElem?_eq_none (by simp; omega)] at placed
          cases placed
    · rw [Finmap.lookup_insert_of_ne _ own, sound.listed key group]
      -- The other keys have the pairs that they had.
      constructor
      · intro listed
        obtain ⟨pair, placed, same⟩ := listed
        have before := (List.getElem?_eq_some_iff.mp placed).1
        exact ⟨pair, (List.getElem?_append_left before).trans placed, same⟩
      · intro listed
        obtain ⟨pair, placed, same⟩ := listed
        rcases Nat.lt_or_ge group pool.shared.opened.length with before | last
        · exact ⟨pair, (List.getElem?_append_left before).symm.trans placed, same⟩
        · have among := List.mem_of_getElem? ((List.getElem?_append_right last).symm.trans placed)
          obtain rfl := List.mem_singleton.mp among
          exact absurd same.symm own
  locked j other there stage running within := by
    have holder := (sound.locked i call found _ status (by decide)).1
    have bound := (List.getElem?_eq_some_iff.mp found).1
    -- The lock was held, so that nobody else was beyond the lookup.
    by_cases own : j = i
    · subst own
      rw [List.getElem?_set_self bound] at there
      obtain rfl := Option.some.inj there
      cases running
    · rw [List.getElem?_set_ne (fun same => own same.symm)] at there
      have holds := (sound.locked j other there stage running within).1
      rw [holder] at holds
      exact absurd (Option.some.inj holds).symm own
  got other member group result := by
    rcases List.mem_or_eq_of_mem_set member with before | rfl
    · have placed := sound.got other before group result
      have bound := (List.getElem?_eq_some_iff.mp placed).1
      exact (List.getElem?_append_left bound).trans placed
    · cases result
      exact List.getElem?_concat_length

/-- What one step of a call does to the registry and to the call. -/
inductive Opening.Moved (i : Nat) (opening : Opening) (call : GetCall) : Opening → GetCall → Prop
  | begins : call.status = .begun → ValidName call.name →
      Moved i opening call opening { call with status := .running .lookup }
  | refused {error : ErrorData} : call.status = .begun →
      Moved i opening call opening { call with status := .returned (.error error) }
  | gets {stage : GetStage} {registry : QueueRegistry Nat} {after : GetNext Nat} :
      call.status = .running stage →
      opening.registry.Got i call.tenant call.name opening.opened.length stage registry after →
      Moved i opening call ⟨registry, opening.opened ++ call.opens stage after⟩
        { call with status := after.status }

/-- A step of a call does nothing else. -/
theorem Opening.move_moved {failure : Option String} {opening next : Opening} {moved : GetCall}
    (taken : opening.move i failure call = some (next, moved)) : opening.Moved i call next moved := by
  -- A call begins with the check of its name; after that the registry's own steps are taken.
  unfold Opening.move at taken
  split at taken
  · rename_i begun
    obtain ⟨rfl, rfl⟩ := Prod.mk.inj (Option.some.inj taken)
    cases checked : validateQueueName call.name with
    | ok _ => exact .begins begun checked
    | error error => exact .refused begun
  · rename_i stage running
    obtain ⟨⟨registry, after⟩, got, same⟩ := Option.map_eq_some_iff.mp taken
    obtain ⟨rfl, rfl⟩ := Prod.mk.inj same
    exact .gets running (QueueRegistry.get_got got)
  · cases taken

end

/-- A call only looks a group up where nobody holds the lock, and so takes it from nobody. -/
theorem OpenPool.Sound.move {pool : OpenPool} {i : Nat} {call moved : GetCall} {next : Opening}
    (sound : pool.Sound) (found : pool.tasks[i]? = some call)
    (step : pool.shared.Moved i call next moved) :
    OpenPool.Sound ⟨next, pool.tasks.set i moved⟩ := by
  have listed := sound.listed (scopeKey call.tenant call.name)
  cases step with
  | begins begun valid =>
    refine sound.moved found rfl (fun _ _ holds => holds) (fun _ _ => valid) ?_ ?_
    · intro stage running within
      cases running
      exact absurd rfl within
    · intro group result
      cases result
  | refused begun =>
    refine sound.moved found rfl (fun _ _ holds => holds) ?_ ?_ ?_ <;> intro _ result <;> cases result
  | @gets stage registry after running got =>
    have valid := sound.running call (List.mem_of_getElem? found) stage running
    have locked := sound.locked i call found stage running
    cases got with
    | finds free there =>
      -- The group found under the key of a valid name was opened for the same name.
      rw [show call.opens _ _ = [] from rfl, List.append_nil]
      refine sound.moved found rfl (fun _ _ holds => holds) ?_ ?_ ?_
      · intro _ result
        cases result
      · intro _ result
        cases result
      · intro group result
        cases result
        obtain ⟨pair, placed, same⟩ := (listed _).mp there
        obtain ⟨tenants, names⟩ :=
          scopeKey_inj (sound.valid pair (List.mem_of_getElem? placed)) valid same
        rw [placed, ← tenants, ← names]
    -- Whoever goes on behind the lookup holds the lock from here on.
    | @begins later free absent _ =>
      rw [show call.opens _ _ = [] from rfl, List.append_nil]
      refine sound.moved found rfl ?_ (fun _ _ => valid) ?_ ?_
      · intro j _ holds
        rw [free] at holds
        cases holds
      · intro _ _ _
        exact ⟨rfl, absent⟩
      · intro _ result
        cases result
    | passes quotas _ =>
      rw [show call.opens _ _ = [] from rfl, List.append_nil]
      refine sound.moved found rfl (fun _ _ holds => holds) (fun _ _ => valid) ?_ ?_
      · intro _ _ _
        exact locked (by decide)
      · intro _ result
        cases result
    | goesOn order =>
      have within : stage ≠ .lookup := by
        rcases order with ⟨rfl, _⟩ | ⟨rfl, _⟩ <;> decide
      have opens : call.opens stage (.stage ‹_›) = [] := by cases stage <;> rfl
      rw [opens, List.append_nil]
      refine sound.moved found rfl (fun _ _ holds => holds) (fun _ _ => valid) ?_ ?_
      · intro _ _ _
        exact locked within
      · intro _ result
        cases result
    | @fails _ _ error within _ =>
      have opens : call.opens stage (.returned (.error error)) = [] := by cases stage <;> rfl
      rw [opens, List.append_nil]
      refine sound.moved found rfl ?_ ?_ ?_ ?_
      · -- Only the call itself held the lock it gives back.
        intro j other holds
        rw [(locked within).1] at holds
        exact absurd (Option.some.inj holds).symm other
      all_goals
        intro _ result
        cases result
    | opens => exact sound.opens found running

/-- What a step of the pool is: a new call, the move of a call, or a new ceiling. -/
inductive OpenPool.Stepped (pool : OpenPool) : OpenAction → OpenPool → Prop
  | call {tenant : Caller} {name : String} :
      Stepped pool (.call tenant name) (pool.spawn ⟨tenant, name, .begun⟩)
  | step {i : Nat} {failure : Option String} {call moved : GetCall} {opening : Opening} :
      pool.tasks[i]? = some call → pool.shared.Moved i call opening moved →
      Stepped pool (.step i failure) ⟨opening, pool.tasks.set i moved⟩
  | configure {tenant : TenantId} {config : QuotaConfig} {quota : TenantQuota} :
      quota.config = config →
      Stepped pool (.configure tenant config)
        { pool with shared := { pool.shared with registry := pool.shared.registry.setQuota tenant quota } }

/-- A step of the pool is nothing else. -/
theorem OpenPool.step_stepped {pool next : OpenPool} {act : OpenAction}
    (taken : pool.step act = some next) : pool.Stepped act next := by
  -- One constructor for each kind of action.
  cases act with
  | call tenant name =>
    obtain rfl := Option.some.inj taken
    exact .call
  | step i failure =>
    obtain ⟨call, opening, moved, found, step, rfl⟩ := Pool.advance_eq_some.mp taken
    exact .step found (Opening.move_moved step)
  | configure tenant config =>
    obtain rfl := Option.some.inj taken
    exact .configure rfl

/-- Every step keeps what holds. -/
theorem OpenPool.Sound.step {pool next : OpenPool} {act : OpenAction} (sound : pool.Sound)
    (taken : pool.step act = some next) : next.Sound := by
  cases OpenPool.step_stepped taken with
  | step found step => exact sound.move found step
  | configure _ => exact ⟨sound.valid, sound.running, sound.listed, sound.locked, sound.got⟩
  | call =>
    -- A new call holds nothing and has nothing.
    refine ⟨sound.valid, ?_, sound.listed, ?_, ?_⟩
    · intro other member stage running
      rcases List.mem_append.mp member with before | new
      · exact sound.running other before stage running
      · obtain rfl := List.mem_singleton.mp new
        cases running
    · intro j other there stage running within
      rcases Nat.lt_or_ge j pool.tasks.length with before | last
      · exact sound.locked j other ((List.getElem?_append_left before).symm.trans there) stage running within
      · have among := List.mem_of_getElem? ((List.getElem?_append_right last).symm.trans there)
        obtain rfl := List.mem_singleton.mp among
        cases running
    · intro other member group result
      rcases List.mem_append.mp member with before | new
      · exact sound.got other before group result
      · obtain rfl := List.mem_singleton.mp new
        cases result

/-- It holds in every state that a process reaches. -/
theorem OpenPool.Sound.reached {ok : OpenPool → OpenAction → Prop} {start : OpenPool}
    {trace : List (Transition OpenPool OpenAction)} {pool : OpenPool} (initial : start.Sound)
    (run : Run OpenPool.step ok start trace pool) : pool.Sound :=
  run.invariant initial fun _ _ _ _ sound taken => sound.step taken

/-- No queue is opened twice. -/
theorem OpenPool.Sound.nodup {pool : OpenPool} (sound : pool.Sound) : pool.shared.opened.Nodup := by
  rw [List.nodup_iff_injective_getElem]
  intro first second same
  -- Two places of one pair are both the place of the group under its key.
  have left := (sound.listed _ _).mpr ⟨_, List.getElem?_eq_getElem first.isLt, rfl⟩
  have right := (sound.listed _ _).mpr ⟨_, List.getElem?_eq_getElem second.isLt, rfl⟩
  simp only at same
  rw [same, right] at left
  exact Fin.ext (Option.some.inj left).symm

/-- Nothing appends to a file that a call is about to cut. -/
theorem OpenPool.Sound.cuts_unused {pool : OpenPool} {dataDir location : Location} {i : Nat}
    {call : GetCall} (sound : pool.Sound) (found : pool.tasks[i]? = some call)
    (cuts : call.cuts dataDir = some location) : ¬ pool.InUse dataDir location := by
  -- The call has the lock, its queue is not open, and the file is one of that queue's.
  have facts : ∃ stage, call.status = .running stage ∧ stage ≠ .lookup ∧
      location ∈ queueFiles dataDir call.tenant call.name ∧ call.holds dataDir ≠ some location := by
    unfold GetCall.cuts at cuts
    split at cuts
    · rename_i status
      obtain rfl := Option.some.inj cuts
      exact ⟨_, status, by decide, by simp [queueFiles], by simp [GetCall.holds, status]⟩
    · rename_i status
      obtain rfl := Option.some.inj cuts
      have valid := sound.running call (List.mem_of_getElem? found) _ status
      refine ⟨_, status, by decide, by simp [queueFiles], ?_⟩
      rw [GetCall.holds, status]
      exact fun same => walPath_ne_dlqPath valid (Option.some.inj same)
    · cases cuts
  obtain ⟨stage, status, within, file, released⟩ := facts
  have valid := sound.running call (List.mem_of_getElem? found) stage status
  obtain ⟨holder, absent⟩ := sound.locked i call found stage status within
  intro used
  rcases used with ⟨pair, member, shared⟩ | ⟨other, member, held⟩
  · -- An open queue with this file would be the one that is not open.
    obtain ⟨group, placed⟩ := List.getElem?_of_mem member
    obtain ⟨tenants, names⟩ := queueFiles_disjoint (sound.valid pair member) valid shared file
    have listed := (sound.listed _ group).mpr ⟨pair, placed, by rw [tenants, names]⟩
    rw [absent] at listed
    cases listed
  · -- Whoever holds a log has the lock, and is therefore the call itself.
    obtain ⟨j, there⟩ := List.getElem?_of_mem member
    have running : other.status = .running .openDlq := by
      unfold GetCall.holds at held
      split at held
      · assumption
      · cases held
    have lock := (sound.locked j other there _ running (by decide)).1
    rw [holder] at lock
    obtain rfl := Option.some.inj lock
    rw [found] at there
    obtain rfl := Option.some.inj there
    exact released held

/-- A call that has returned stays as it is. -/
theorem OpenPool.step_returned {pool next : OpenPool} {act : OpenAction} {i : Nat} {call : GetCall}
    {result : Except ErrorData Nat} (found : pool.tasks[i]? = some call)
    (returned : call.status = .returned result) (taken : pool.step act = some next) :
    next.tasks[i]? = some call := by
  cases OpenPool.step_stepped taken with
  | call => exact (List.getElem?_append_left (List.getElem?_eq_some_iff.mp found).1).trans found
  | configure _ => exact found
  | @step j _ other moved opening there step =>
    by_cases own : j = i
    · -- It has no step left to take.
      subst own
      rw [found] at there
      obtain rfl := Option.some.inj there
      cases step with
      | begins begun _ => rw [returned] at begun; cases begun
      | refused begun => rw [returned] at begun; cases begun
      | gets running _ => rw [returned] at running; cases running
    · exact (List.getElem?_set_ne own).trans found

/-- It stays so through the rest of a run. -/
theorem OpenPool.run_returned {ok : OpenPool → OpenAction → Prop} {start pool : OpenPool}
    {trace : List (Transition OpenPool OpenAction)} (run : Run OpenPool.step ok start trace pool) {i : Nat}
    {call : GetCall} {result : Except ErrorData Nat} (found : start.tasks[i]? = some call)
    (returned : call.status = .returned result) : pool.tasks[i]? = some call := by
  induction run with
  | nil => exact found
  | snoc _ _ taken ih => exact OpenPool.step_returned ih returned taken

/-- A step either opens the queue of its call, which then has the group, or opens nothing. -/
theorem Opening.Moved.opened {i : Nat} {call moved : GetCall} {opening next : Opening}
    (step : opening.Moved i call next moved) :
    (∃ group, moved.status = .returned (.ok group)) ∨
      next.registry.groups = opening.registry.groups ∧ next.opened = opening.opened := by
  -- Only the two steps that return a group can have added one.
  cases step with
  | begins _ _ => exact .inr ⟨rfl, rfl⟩
  | refused _ => exact .inr ⟨rfl, rfl⟩
  | @gets stage registry after _ got =>
    cases got with
    | finds _ _ => exact .inl ⟨_, rfl⟩
    | opens => exact .inl ⟨_, rfl⟩
    | begins _ _ _ => exact .inr ⟨rfl, List.append_nil _⟩
    | passes _ _ => exact .inr ⟨rfl, List.append_nil _⟩
    | goesOn _ => exact .inr ⟨rfl, by cases stage <;> exact List.append_nil _⟩
    | fails _ _ => exact .inr ⟨rfl, by cases stage <;> exact List.append_nil _⟩

/-- What a call does that ends in an error, or in none so far, opens nothing. -/
theorem OpenPool.unopened {trace : List (Transition OpenPool OpenAction)} {start pool : OpenPool}
    {ok : OpenPool → OpenAction → Prop} (run : Run OpenPool.step ok start trace pool)
    {e : Transition OpenPool OpenAction} (member : e ∈ trace) {i : Nat} {failure : Option String}
    (own : e.act = .step i failure) {call : GetCall} (ended : pool.tasks[i]? = some call)
    (failed : ∀ group, call.status ≠ .returned (.ok group)) :
    e.post.shared.registry.groups = e.pre.shared.registry.groups ∧
      e.post.shared.opened = e.pre.shared.opened := by
  obtain ⟨before, after, shape⟩ := List.append_of_mem member
  obtain ⟨_, _, taken, onward⟩ := run.split shape
  rw [own] at taken
  generalize e.post = post at taken onward ⊢
  cases OpenPool.step_stepped taken with
  | @step _ _ old moved opening found step =>
    rcases step.opened with ⟨group, returned⟩ | same
    · -- A group once returned would still be the result at the end.
      have placed := List.getElem?_set_self (a := moved) (List.getElem?_eq_some_iff.mp found).1
      rw [OpenPool.run_returned onward placed returned] at ended
      obtain rfl := Option.some.inj ended
      exact absurd returned (failed group)
    · exact same

/-- A tenant's keys are those of the queues it has open. -/
theorem OpenPool.Sound.countMatching {pool : OpenPool} (sound : pool.Sound) (tenant : TenantId) :
    pool.shared.registry.countMatching tenant = pool.shared.queuesOpen tenant := by
  have keys : pool.shared.registry.matching tenant =
      ((pool.shared.opened.filter fun pair => pair.1 = some tenant).map
        fun pair => scopeKey pair.1 pair.2).toFinset := by
    ext key
    simp only [QueueRegistry.matching, Finset.mem_filter, Finmap.mem_keys, List.mem_toFinset,
      List.mem_map, List.mem_filter, decide_eq_true_eq]
    constructor
    · intro ⟨there, prefixed⟩
      obtain ⟨group, found⟩ := Finmap.mem_iff.mp there
      obtain ⟨pair, placed, rfl⟩ := (sound.listed key group).mp found
      have member := List.mem_of_getElem? placed
      exact ⟨pair, ⟨member, (startsWith_tenantPrefix (sound.valid pair member) tenant).mp prefixed⟩, rfl⟩
    · intro ⟨pair, ⟨member, owner⟩, same⟩
      obtain ⟨group, placed⟩ := List.getElem?_of_mem member
      refine ⟨Finmap.mem_iff.mpr ⟨group, (sound.listed key group).mpr ⟨pair, placed, same⟩⟩, ?_⟩
      rw [← same]
      exact (startsWith_tenantPrefix (sound.valid pair member) tenant).mpr owner
  -- Different open queues have different keys.
  rw [QueueRegistry.countMatching, keys, List.toFinset_card_of_nodup, List.length_map]
  · rfl
  · refine List.Nodup.map_on ?_ (sound.nodup.filter _)
    intro first left second right same
    obtain ⟨tenants, names⟩ := scopeKey_inj (sound.valid first (List.mem_of_mem_filter left))
      (sound.valid second (List.mem_of_mem_filter right)) same
    exact Prod.ext tenants names

/-- A tenant keeps to a ceiling, and a call found below it still has room. -/
structure OpenPool.Below (tenant : TenantId) (maxQueues : Nat) (pool : OpenPool) : Prop where
  config : (pool.shared.registry.quota tenant).config.maxQueues = some maxQueues
  room : ∀ call ∈ pool.tasks, call.tenant = some tenant → call.passed = true →
    pool.shared.queuesOpen tenant < maxQueues
  below : pool.shared.queuesOpen tenant ≤ maxQueues

/-- An action that leaves a tenant's ceiling where it is. -/
def OpenAction.Keeps (tenant : TenantId) (maxQueues : Nat) (_ : OpenPool) : OpenAction → Prop
  | .configure named config => named = tenant → config.maxQueues = some maxQueues
  | _ => True

instance OpenAction.Keeps.decidable (tenant : TenantId) (maxQueues : Nat) (pool : OpenPool)
    (act : OpenAction) : Decidable (act.Keeps tenant maxQueues pool) := by
  cases act <;> unfold OpenAction.Keeps <;> infer_instance

section

variable {pool : OpenPool} {tenant : TenantId} {maxQueues : Nat} {i : Nat} {call after : GetCall}

/-- No step of `get` changes a quota. -/
theorem QueueRegistry.Got.quota {G : Type} {self : Nat} {caller : Caller} {name : String} {fresh : G}
    {registry next : QueueRegistry G} {stage : GetStage} {after : GetNext G}
    (got : registry.Got self caller name fresh stage next after) (named : TenantId) :
    next.quota named = registry.quota named := by
  cases got with
  | passes same _ => exact same named.asStr
  | fails _ same => exact same named.asStr
  | _ => rfl

/-- Where nothing is opened, only the room of the call that moved is in question. -/
theorem OpenPool.Below.moved {registry : QueueRegistry Nat} (below : pool.Below tenant maxQueues)
    (quota : registry.quota tenant = pool.shared.registry.quota tenant)
    (room : after.tenant = some tenant → after.passed = true →
      pool.shared.queuesOpen tenant < maxQueues) :
    OpenPool.Below tenant maxQueues ⟨⟨registry, pool.shared.opened⟩, pool.tasks.set i after⟩ where
  config := by
    show (registry.quota tenant).config.maxQueues = some maxQueues
    rw [quota]
    exact below.config
  room other member owner passed := by
    rcases List.mem_or_eq_of_mem_set member with before | rfl
    · exact below.room other before owner passed
    · exact room owner passed
  below := below.below

/-- A call counts the open queues while nobody else can open one. -/
theorem OpenPool.Below.move {next : Opening} (below : pool.Below tenant maxQueues)
    (sound : pool.Sound) (found : pool.tasks[i]? = some call)
    (step : pool.shared.Moved i call next after) :
    OpenPool.Below tenant maxQueues ⟨next, pool.tasks.set i after⟩ := by
  have member := List.mem_of_getElem? found
  cases step with
  | begins _ _ => exact below.moved rfl fun _ passed => by cases passed
  | refused _ => exact below.moved rfl fun _ passed => by cases passed
  | @gets stage registry _ running got =>
    have quota := got.quota tenant
    cases got with
    | finds _ _ =>
      rw [show call.opens _ _ = [] from rfl, List.append_nil]
      exact below.moved quota fun _ passed => by cases passed
    | begins _ _ order =>
      rw [show call.opens _ _ = [] from rfl, List.append_nil]
      refine below.moved quota fun owner passed => ?_
      -- A tenant's call comes to the ceiling first.
      rcases order with rfl | local_
      · cases passed
      · rw [show call.tenant = some tenant from owner] at local_
        cases local_
    | passes _ counted =>
      rw [show call.opens _ _ = [] from rfl, List.append_nil]
      refine below.moved quota fun owner _ => ?_
      rw [← sound.countMatching tenant]
      exact counted tenant maxQueues owner below.config
    | goesOn order =>
      have opens : call.opens stage (.stage ‹_›) = [] := by cases stage <;> rfl
      rw [opens, List.append_nil]
      refine below.moved quota fun owner _ => below.room call member owner ?_
      rcases order with ⟨rfl, _⟩ | ⟨rfl, _⟩ <;> simp [GetCall.passed, running]
    | @fails _ _ error _ _ =>
      have opens : call.opens stage (.returned (.error error)) = [] := by cases stage <;> rfl
      rw [opens, List.append_nil]
      exact below.moved quota fun _ passed => by cases passed
    | opens =>
      have holder := (sound.locked i call found _ running (by decide)).1
      have passed : call.passed = true := by simp [GetCall.passed, running]
      -- The list of the open queues grows by one, which is the tenant's or not.
      have grown : Opening.queuesOpen
          ⟨pool.shared.registry, pool.shared.opened ++ [(call.tenant, call.name)]⟩ tenant =
          pool.shared.queuesOpen tenant + if call.tenant = some tenant then 1 else 0 := by
        unfold Opening.queuesOpen
        rw [List.filter_append, List.length_append]
        split <;> simp_all
      refine ⟨quota ▸ below.config, ?_, ?_⟩
      · intro other there owner ahead
        rcases List.mem_or_eq_of_mem_set there with before | rfl
        · -- Another call beyond the ceiling would hold the lock as well.
          obtain ⟨j, placed⟩ := List.getElem?_of_mem there
          by_cases own : i = j
          · subst own
            rw [List.getElem?_set_self (List.getElem?_eq_some_iff.mp found).1] at placed
            obtain rfl := Option.some.inj placed
            cases ahead
          · rw [List.getElem?_set_ne own] at placed
            unfold GetCall.passed at ahead
            split at ahead
            case h_4 => cases ahead
            all_goals
              rename_i status
              have lock := (sound.locked j other placed _ status (by decide)).1
              rw [holder] at lock
              exact absurd (Option.some.inj lock) own
        · cases ahead
      · show Opening.queuesOpen _ tenant ≤ maxQueues
        rw [show call.opens _ _ = [(call.tenant, call.name)] from rfl]
        refine grown.le.trans ?_
        have bound := below.below
        split
        · rename_i owner
          have room := below.room call member owner passed
          omega
        · omega

/-- Every step that leaves the ceiling where it is keeps a tenant below it. -/
theorem OpenPool.Below.step {next : OpenPool} {act : OpenAction} (below : pool.Below tenant maxQueues)
    (sound : pool.Sound) (kept : act.Keeps tenant maxQueues pool) (taken : pool.step act = some next) :
    next.Below tenant maxQueues := by
  -- A new call has passed no ceiling, and a new configuration keeps to the ceiling that is given.
  cases OpenPool.step_stepped taken with
  | step found step => exact below.move sound found step
  | call =>
    refine ⟨below.config, ?_, below.below⟩
    intro other member owner passed
    rcases List.mem_append.mp member with before | new
    · exact below.room other before owner passed
    · obtain rfl := List.mem_singleton.mp new
      cases passed
  | @configure other config quota same =>
    refine ⟨?_, below.room, below.below⟩
    show (((pool.shared.registry.tenantQuotas.insert other.asStr quota).lookup tenant.asStr).getD
      (.new .unlimited)).config.maxQueues = some maxQueues
    by_cases own : tenant = other
    · subst own
      rw [Finmap.lookup_insert, Option.getD_some, same]
      exact kept rfl
    · rw [Finmap.lookup_insert_of_ne _ fun names => own (TenantId.asStr_injective names)]
      exact below.config

/-- It stays below its ceiling for as long as nobody changes that. -/
theorem OpenPool.Below.reached {trace : List (Transition OpenPool OpenAction)} {later : OpenPool}
    (below : pool.Below tenant maxQueues) (sound : pool.Sound)
    (run : Run OpenPool.step (OpenAction.Keeps tenant maxQueues) pool trace later) :
    later.Below tenant maxQueues := by
  induction run with
  | nil => exact below
  | snoc before kept taken ih => exact ih.step (sound.reached before) kept taken

end

/-- Concurrent calls of `get`: no queue is opened twice and no file has two writers, whoever asks for a
queue gets its one group, no file is cut that is in use, a call that fails opens nothing, and no
tenant has more queues open than its ceiling, where this stood before the first of them was on the
way. -/
theorem QueueRegistry.one_opener {dataDir : Location} {trace : List (Transition OpenPool OpenAction)}
    {pool : OpenPool} (run : Run OpenPool.step (fun _ _ => True) (.start dataDir) trace pool) :
    pool.shared.opened.Nodup ∧
      (∀ (group other : Nat) (first second : Caller × String) location,
        (pool.shared.opened)[group]? = some first → (pool.shared.opened)[other]? = some second →
        location ∈ queueFiles dataDir first.1 first.2 →
        location ∈ queueFiles dataDir second.1 second.2 → group = other) ∧
      (∀ first ∈ pool.tasks, ∀ second ∈ pool.tasks, ∀ group other,
        first.tenant = second.tenant → first.name = second.name →
        first.status = .returned (.ok group) → second.status = .returned (.ok other) →
        group = other ∧ (pool.shared.opened)[group]? = some (first.tenant, first.name)) ∧
      (∀ e ∈ trace, ∀ i failure call location, e.act = .step i failure → e.pre.tasks[i]? = some call →
        call.cuts dataDir = some location → ¬ e.pre.InUse dataDir location) ∧
      (∀ e ∈ trace, ∀ i failure call, e.act = .step i failure → pool.tasks[i]? = some call →
        (∀ group, call.status ≠ .returned (.ok group)) →
        e.post.shared.registry.groups = e.pre.shared.registry.groups ∧
          e.post.shared.opened = e.pre.shared.opened) ∧
      ∀ tenant maxQueues later, pool.shared.queuesOpen tenant = 0 →
        (pool.shared.registry.quota tenant).config.maxQueues = some maxQueues →
        (∀ call ∈ pool.tasks, call.tenant = some tenant → call.passed = true → 0 < maxQueues) →
        Reachable OpenPool.step (OpenAction.Keeps tenant maxQueues) pool later →
        later.shared.queuesOpen tenant ≤ maxQueues := by
  have sound := (OpenPool.Sound.start dataDir).reached run
  refine ⟨sound.nodup, ?_, ?_, ?_, ?_, ?_⟩
  · intro group other first second location left right file shared
    -- The files tell the queue, and the queue its group.
    obtain ⟨tenants, names⟩ := queueFiles_disjoint (sound.valid first (List.mem_of_getElem? left))
      (sound.valid second (List.mem_of_getElem? right)) file shared
    have listed := (sound.listed _ group).mpr ⟨first, left, rfl⟩
    rw [tenants, names, (sound.listed _ other).mpr ⟨second, right, rfl⟩] at listed
    exact (Option.some.inj listed).symm
  · intro first left second right group other tenants names result same
    have placed := sound.got first left group result
    have listed := (sound.listed _ _).mpr ⟨_, placed, rfl⟩
    have repeated := (sound.listed _ _).mpr ⟨_, sound.got second right other same, rfl⟩
    -- Both groups stand under the one key.
    rw [← tenants, ← names, listed] at repeated
    exact ⟨Option.some.inj repeated, placed⟩
  · intro e member i failure call location _ found cuts
    obtain ⟨⟨before, reached⟩, _, _⟩ := run.of_mem member
    exact ((OpenPool.Sound.start dataDir).reached reached).cuts_unused found cuts
  · intro e member i failure call own ended failed
    exact OpenPool.unopened run member own ended failed
  · intro tenant maxQueues later none_open config room ⟨rest, onward⟩
    have initial : pool.Below tenant maxQueues := by
      refine ⟨config, ?_, ?_⟩
      · intro call member owner passed
        rw [none_open]
        exact room call member owner passed
      · rw [none_open]
        exact Nat.zero_le _
    exact (initial.reached sound onward).below

/-- A tenant that may have one queue: the first call cannot open its log, the second opens the queue
that the first was to open, the third is refused another, and the fourth finds the one that is open. -/
def twoNames : List OpenAction :=
  let calls := ["orders", "orders", "bills", "orders"].map fun name => OpenAction.call (some acme) name
  let steps := fun task count => List.replicate count (OpenAction.step task none)
  calls ++ steps 0 4 ++ [.step 0 (some "disk full")] ++ steps 1 6 ++ steps 2 3 ++ steps 3 2

theorem QueueRegistry.one_opener_twoNames :
    ∃ pool later : OpenPool, Reachable OpenPool.step (OpenAction.Keeps acme 1) pool later ∧
      later.shared.opened = [(some acme, "orders")] ∧ later.shared.queuesOpen acme ≤ 1 := by
  -- The ceiling is set first; the calls for two names are run after it.
  have reached : ∃ pool, Reachable OpenPool.step (fun _ _ => True) (.start ["data"]) pool ∧
      pool.shared.queuesOpen acme = 0 ∧
      (pool.shared.registry.quota acme).config.maxQueues = some 1 ∧ pool.tasks = [] ∧
      ∃ later ∈ exec OpenPool.step (OpenAction.Keeps acme 1) pool twoNames,
        later.shared.opened = [(some acme, "orders")] :=
    reaches_of_exec [.configure acme { QuotaConfig.unlimited with maxQueues := some 1 }] _
      (by decide +kernel)
  obtain ⟨pool, ⟨trace, run⟩, none_open, config, idle, onward⟩ := reached
  obtain ⟨later, onward, opened⟩ := reaches_of_exec twoNames _ onward
  have facts := (QueueRegistry.one_opener run).2.2.2.2.2 acme 1 later none_open config
    (fun call member => by rw [idle] at member; cases member) onward
  exact ⟨pool, later, onward, opened, facts⟩

end Qaas
