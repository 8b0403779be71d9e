import Qaas.Auth.ApiKeys
import Qaas.Ordered.Histories

/-! A minted key is its tenant's until it is revoked, and nobody's from then on. -/

namespace Qaas

open Concurrency

/-- The digits of two bytes differ where the bytes do. -/
theorem hexDigits_byte_inj {first second : UInt8}
    (same : hexDigits first.toNat 2 = hexDigits second.toNat 2) : first = second := by
  -- The two digits are the quotient and the remainder by sixteen.
  have digit : ∀ left right : Fin 16, Nat.digitChar left.val = Nat.digitChar right.val → left = right := by
    decide
  simp only [hexDigits, List.nil_append, List.cons_append, List.cons.injEq, and_true] at same
  have high := digit ⟨_, Nat.mod_lt _ (by omega)⟩ ⟨_, Nat.mod_lt _ (by omega)⟩ same.1
  have low := digit ⟨_, Nat.mod_lt _ (by omega)⟩ ⟨_, Nat.mod_lt _ (by omega)⟩ same.2
  simp only [Fin.mk.injEq] at high low
  have firstBound := first.toNat_lt
  have secondBound := second.toNat_lt
  show first = second
  exact UInt8.toNat_inj.mp (by omega)

/-- A hexadecimal text tells the bytes it encodes. -/
theorem hexEncode_injective : Function.Injective hexEncode := by
  intro first second same
  have digits := congrArg String.toList same
  simp only [hexEncode, String.toList_ofList] at digits
  -- Every byte takes two digits, so the texts agree byte by byte.
  induction first generalizing second with
  | nil =>
    cases second with
    | nil => rfl
    | cons byte rest => simp [hexDigits] at digits
  | cons byte rest ih =>
    cases second with
    | nil => simp [hexDigits] at digits
    | cons other more =>
      simp only [List.flatMap_cons] at digits
      have width : ∀ value : Nat, (hexDigits value 2).length = 2 := fun value => by simp [hexDigits]
      obtain ⟨head, tail⟩ := List.append_inj digits (by rw [width, width])
      rw [hexDigits_byte_inj head, ih (by simp [hexEncode, tail]) tail]

section

variable {sha256 : Bytes → Bytes}

/-- Two keys are stored under one hash exactly when their digests agree. -/
theorem hashKey_eq_iff {first second : String} :
    hashKey sha256 first = hashKey sha256 second ↔ sha256 (asBytes first) = sha256 (asBytes second) :=
  hexEncode_injective.eq_iff

section

variable {Tenant : Type}

/-- The replay of one more record. -/
theorem Keys.replay_concat (records : List (KeyRecord Tenant)) (record : KeyRecord Tenant) :
    Keys.replay (records ++ [record]) = (Keys.replay records).replayRecord record := by
  simp [replay]

/-- The hash that a record is about. -/
def KeyRecord.keyHash : KeyRecord Tenant → String
  | .mint keyHash _ => keyHash
  | .revoke keyHash => keyHash

/-- What a record does to the tenant of a hash. -/
def KeyRecord.effect (keyHash : String) : KeyRecord Tenant → Option (Option Tenant)
  | .mint other tenant => if other = keyHash then some (some tenant) else none
  | .revoke other => if other = keyHash then some none else none

/-- A record leaves the tenant of a hash exactly if it is about another one. -/
theorem KeyRecord.effect_eq_none {keyHash : String} {record : KeyRecord Tenant} :
    record.effect keyHash = none ↔ record.keyHash ≠ keyHash := by
  cases record with
  | mint other tenant => simp [effect, KeyRecord.keyHash]
  | revoke other => simp [effect, KeyRecord.keyHash]

/-- Only a mint for a tenant gives a hash to that tenant. -/
theorem KeyRecord.effect_eq_some {keyHash : String} {tenant : Tenant} {record : KeyRecord Tenant} :
    record.effect keyHash = some (some tenant) ↔ record = .mint keyHash tenant := by
  -- A mint is about its own hash only, and a revocation makes nothing valid.
  cases record with
  | mint other minted =>
    by_cases same : other = keyHash
    · simp [effect, same]
    · simp [effect, same]
  | revoke other => simp [effect]

/-- A record sets, clears or leaves the tenant of a hash. -/
theorem Keys.lookup_snoc (keyHash : String) (records : List (KeyRecord Tenant)) (record : KeyRecord Tenant) :
    (Keys.replay (records ++ [record])).lookup keyHash =
      (record.effect keyHash).getD ((Keys.replay records).lookup keyHash) := by
  -- The last record decides about its own hash, and leaves the others.
  rw [replay_concat]
  cases record with
  | mint other tenant =>
    by_cases same : other = keyHash
    · simp [replayRecord, KeyRecord.effect, same]
    · simp [replayRecord, KeyRecord.effect, same, Finmap.lookup_insert_of_ne _ (Ne.symm same)]
  | revoke other =>
    by_cases same : other = keyHash
    · simp [replayRecord, KeyRecord.effect, same]
    · simp [replayRecord, KeyRecord.effect, same, Finmap.lookup_erase_ne (Ne.symm same)]

/-- A replay gives a hash to a tenant exactly if the last record about the hash mints it for the
tenant. -/
theorem Keys.lookup_replay {records : List (KeyRecord Tenant)} {keyHash : String} {tenant : Tenant} :
    (Keys.replay records).lookup keyHash = some tenant ↔
      ∃ before after, records = before ++ .mint keyHash tenant :: after ∧
        ∀ record ∈ after, record.keyHash ≠ keyHash := by
  -- The records are a history in which the last one about a hash counts.
  rw [Histories.eq_some_iff_lastRecord (fun records : List (KeyRecord Tenant) => (Keys.replay records).lookup keyHash)
    (KeyRecord.effect keyHash) rfl (Keys.lookup_snoc keyHash)]
  simp only [KeyRecord.effect_eq_some, KeyRecord.effect_eq_none]
  constructor
  · rintro ⟨before, _, after, same, rfl, kept⟩
    exact ⟨before, after, same, kept⟩
  · rintro ⟨before, after, same, kept⟩
    exact ⟨before, _, after, same, rfl, kept⟩

end

/-- A key that is valid after a replay was minted for its tenant in the log. -/
theorem Keys.mint_mem_of_replay {records : List KeyRecord} {keyHash : String} {tenant : TenantId}
    (found : (Keys.replay records).lookup keyHash = some tenant) :
    .mint keyHash tenant ∈ records := by
  obtain ⟨before, after, rfl, _⟩ := Keys.lookup_replay.mp found
  simp

/-- A key that the log mints for one tenant only and never revokes is valid after a replay. -/
theorem Keys.replay_of_mint_mem {records : List KeyRecord} {keyHash : String} {tenant : TenantId}
    (minted : .mint keyHash tenant ∈ records)
    (alone : ∀ other, .mint keyHash other ∈ records → other = tenant)
    (kept : .revoke keyHash ∉ records) :
    (Keys.replay records).lookup keyHash = some tenant := by
  -- The mint sets the hash and nothing clears it, so some tenant has it, and only this one can.
  have present : ((Keys.replay records).lookup keyHash).isSome := by
    rw [Histories.isSome_iff_notCleared (fun records : List KeyRecord => (Keys.replay records).lookup keyHash)
      (fun _ record => record.effect keyHash) rfl (Keys.lookup_snoc keyHash)]
    obtain ⟨before, after, same⟩ := List.append_of_mem minted
    refine ⟨before, _, after, same, ⟨tenant, KeyRecord.effect_eq_some.mpr rfl⟩, fun middle later rest split cleared => ?_⟩
    cases later with
    | mint other fresh =>
      by_cases own : other = keyHash
      · simp [KeyRecord.effect, own] at cleared
      · simp [KeyRecord.effect, own] at cleared
    | revoke other =>
      obtain rfl : other = keyHash := by
        by_contra own
        simp [KeyRecord.effect, own] at cleared
      exact kept (by simp [same, split])
  obtain ⟨found, lookup⟩ := Option.isSome_iff_exists.mp present
  rw [lookup, alone found (Keys.mint_mem_of_replay lookup)]

/-- On an intact log an append adds its record at the end. -/
theorem ApiKeyStore.log_records {store : ApiKeyStore} (intact : store.wal.torn = false)
    (record : KeyRecord) :
    (store.log record).wal.records = store.wal.records ++ [record] := by
  simp [log, Log.append_ok intact]

/-- The record that a call has logged and is about to apply to the keys. -/
def KeyTask.applying (sha256 : Bytes → Bytes) (task : KeyTask) : Option KeyRecord :=
  let keyHash := hashKey sha256 task.call.rawKey
  match task.call, task.stage with
  | .mint _ _ tenant, .logged => some (.mint keyHash tenant)
  | .revoke _, .logged => some (.revoke keyHash)
  | _, _ => none

/-- The hash of the raw key that a call generates. -/
def KeyTask.mints (sha256 : Bytes → Bytes) (task : KeyTask) : Option String :=
  task.call.generates.map (hashKey sha256)

/-- What one step of a call does: log its record, apply it, or only look at the keys. -/
inductive ApiKeyStore.Moved (sha256 : Bytes → Bytes) (store : ApiKeyStore) (task : KeyTask) :
    ApiKeyStore → KeyStage → Prop where
  | logs {record : KeyRecord} (appending : task.appending sha256 = some record) :
      Moved sha256 store task (store.log record) .logged
  | applies (record : KeyRecord) (result : KeyResult) (applying : task.applying sha256 = some record) :
      Moved sha256 store task { store with keys := store.keys.replayRecord record } (.returned result)
  | finds {rawKey : String} {tenant : TenantId} (call : task.call = .revoke rawKey)
      (valid : store.keys.lookup (hashKey sha256 rawKey) = some tenant) :
      Moved sha256 store task store .found
  | misses {rawKey : String} (call : task.call = .revoke rawKey)
      (invalid : store.keys.lookup (hashKey sha256 rawKey) = none) :
      Moved sha256 store task store (.returned (.revoked false))
  | answers {rawKey : String} (call : task.call = .authenticate rawKey) :
      Moved sha256 store task store
        (.returned (.authenticated (store.keys.lookup (hashKey sha256 rawKey))))

/-- A step of a call is one of these. -/
theorem ApiKeyStore.move_moved {store next : ApiKeyStore} {task after : KeyTask}
    (moved : store.move sha256 task = some (next, after)) :
    after.call = task.call ∧ store.Moved sha256 task next after.stage := by
  obtain ⟨call, stage⟩ := task
  cases call with
  | mint first second tenant =>
    -- A mint logs its record and then inserts the key.
    cases stage with
    | begun =>
      simp only [move, Option.some.injEq, Prod.mk.injEq] at moved
      obtain ⟨rfl, rfl⟩ := moved
      exact ⟨rfl, .logs rfl⟩
    | logged =>
      simp only [move, Option.some.injEq, Prod.mk.injEq] at moved
      obtain ⟨rfl, rfl⟩ := moved
      exact ⟨rfl, .applies (.mint _ tenant) _ rfl⟩
    | found => simp [move] at moved
    | returned result => simp [move] at moved
    | dead => simp [move] at moved
  | revoke rawKey =>
    -- A revocation looks first, and a key it finds is logged and then taken out.
    cases stage with
    | begun =>
      simp only [move, Option.some.injEq, Prod.mk.injEq] at moved
      obtain ⟨rfl, rfl⟩ := moved
      refine ⟨rfl, ?_⟩
      cases valid : store.keys.lookup (hashKey sha256 rawKey) with
      | none =>
        simp only [KeyCall.rawKey, valid]
        exact .misses rfl valid
      | some tenant =>
        simp only [KeyCall.rawKey, valid]
        exact .finds rfl valid
    | found =>
      simp only [move, Option.some.injEq, Prod.mk.injEq] at moved
      obtain ⟨rfl, rfl⟩ := moved
      exact ⟨rfl, .logs rfl⟩
    | logged =>
      simp only [move, Option.some.injEq, Prod.mk.injEq] at moved
      obtain ⟨rfl, rfl⟩ := moved
      exact ⟨rfl, .applies (.revoke _) _ rfl⟩
    | returned result => simp [move] at moved
    | dead => simp [move] at moved
  | authenticate rawKey =>
    cases stage with
    | begun =>
      simp only [move, Option.some.injEq, Prod.mk.injEq] at moved
      obtain ⟨rfl, rfl⟩ := moved
      exact ⟨rfl, .answers rfl⟩
    | found => simp [move] at moved
    | logged => simp [move] at moved
    | returned result => simp [move] at moved
    | dead => simp [move] at moved

/-- A call that is about to append is a mint that has begun or a revocation that found its key. -/
theorem KeyTask.of_appending {task : KeyTask} {record : KeyRecord}
    (appending : task.appending sha256 = some record) :
    (∃ first second tenant, task = ⟨.mint first second tenant, .begun⟩ ∧
      record = .mint (hashKey sha256 (generateRawKey first second)) tenant) ∨
    ∃ rawKey, task = ⟨.revoke rawKey, .found⟩ ∧ record = .revoke (hashKey sha256 rawKey) := by
  -- A mint logs its record first, a revocation once it has found the key.
  obtain ⟨call, stage⟩ := task
  cases call with
  | mint first second tenant =>
    cases stage <;> simp only [KeyTask.appending, Option.some.injEq, reduceCtorEq] at appending
    exact .inl ⟨first, second, tenant, rfl, appending.symm⟩
  | revoke rawKey =>
    cases stage <;> simp only [KeyTask.appending, Option.some.injEq, reduceCtorEq] at appending
    exact .inr ⟨rawKey, rfl, appending.symm⟩
  | authenticate rawKey => simp [KeyTask.appending] at appending

/-- A call that is about to change the keys has logged what it applies. -/
theorem KeyTask.of_applying {task : KeyTask} {record : KeyRecord}
    (applying : task.applying sha256 = some record) :
    (∃ first second tenant, task = ⟨.mint first second tenant, .logged⟩ ∧
      record = .mint (hashKey sha256 (generateRawKey first second)) tenant) ∨
    ∃ rawKey, task = ⟨.revoke rawKey, .logged⟩ ∧ record = .revoke (hashKey sha256 rawKey) := by
  -- A record is applied in the step after it was logged.
  obtain ⟨call, stage⟩ := task
  cases call with
  | mint first second tenant =>
    cases stage <;> simp only [KeyTask.applying, Option.some.injEq, reduceCtorEq] at applying
    exact .inl ⟨first, second, tenant, rfl, applying.symm⟩
  | revoke rawKey =>
    cases stage <;> simp only [KeyTask.applying, Option.some.injEq, reduceCtorEq] at applying
    exact .inr ⟨rawKey, rfl, applying.symm⟩
  | authenticate rawKey => simp [KeyTask.applying] at applying

/-- What the log and the keys must say for a call to have come this far. -/
structure KeyTask.Fits (sha256 : Bytes → Bytes) (store : ApiKeyStore) (task : KeyTask) : Prop where
  /-- What a call applies is in the log. -/
  logged : ∀ record, task.applying sha256 = some record → record ∈ store.wal.records
  /-- Only a key that was minted is about to be revoked. -/
  founded : ∀ keyHash, task.appending sha256 = some (.revoke keyHash) →
    ∃ tenant, .mint keyHash tenant ∈ store.wal.records
  /-- The key that a mint returned is valid, or its revocation is in the log. -/
  kept : ∀ first second tenant result, task = ⟨.mint first second tenant, .returned result⟩ →
    .mint (hashKey sha256 (generateRawKey first second)) tenant ∈ store.wal.records ∧
      (store.keys.lookup (hashKey sha256 (generateRawKey first second)) = some tenant ∨
        .revoke (hashKey sha256 (generateRawKey first second)) ∈ store.wal.records)

/-- The log tells the keys, and every call has a place in it. -/
structure KeyPool.Sound (sha256 : Bytes → Bytes) (pool : KeyPool) : Prop where
  intact : pool.shared.wal.torn = false
  /-- A valid key was minted for its tenant. -/
  known : ∀ keyHash tenant, pool.shared.keys.lookup keyHash = some tenant →
    .mint keyHash tenant ∈ pool.shared.wal.records
  /-- A revoked key was minted. -/
  founded : ∀ keyHash, .revoke keyHash ∈ pool.shared.wal.records →
    ∃ tenant, .mint keyHash tenant ∈ pool.shared.wal.records
  /-- No replay brings a revoked key back. -/
  revoked : ∀ keyHash, .revoke keyHash ∈ pool.shared.wal.records →
    (Keys.replay pool.shared.wal.records).lookup keyHash = none
  /-- A key in the log was generated by a call of `mint`. -/
  source : ∀ keyHash tenant, .mint keyHash tenant ∈ pool.shared.wal.records →
    ∃ first second stage, ⟨.mint first second tenant, stage⟩ ∈ pool.tasks ∧
      hashKey sha256 (generateRawKey first second) = keyHash ∧ stage ≠ .begun
  /-- No two calls generate keys of one hash. -/
  distinct : (pool.tasks.filterMap (KeyTask.mints sha256)).Nodup
  fits : ∀ task ∈ pool.tasks, task.Fits sha256 pool.shared

/-- A hash names the call that generated its key. -/
theorem KeyPool.Sound.lone {pool : KeyPool} (sound : pool.Sound sha256) {a b c d : BitVec 128}
    {tenant other : TenantId} {stage later : KeyStage}
    (left : ⟨.mint a b tenant, stage⟩ ∈ pool.tasks) (right : ⟨.mint c d other, later⟩ ∈ pool.tasks)
    (same : hashKey sha256 (generateRawKey a b) = hashKey sha256 (generateRawKey c d)) :
    tenant = other ∧ stage = later := by
  -- No two mints generate keys of one hash, so these are one and the same.
  have equal := eq_of_nodup_filterMap sound.distinct left right rfl
    (show some (hashKey sha256 (generateRawKey c d)) = some (hashKey sha256 (generateRawKey a b)) by
      rw [same])
  simp only [KeyTask.mk.injEq, KeyCall.mint.injEq] at equal
  exact ⟨equal.1.2.2, equal.2⟩

/-- The log names one tenant for each key. -/
theorem KeyPool.Sound.same_tenant {pool : KeyPool} (sound : pool.Sound sha256) {keyHash : String}
    {tenant other : TenantId} (left : .mint keyHash tenant ∈ pool.shared.wal.records)
    (right : .mint keyHash other ∈ pool.shared.wal.records) : other = tenant := by
  -- Both records stem from the one call that generated the key.
  obtain ⟨a, b, _, first, named, _⟩ := sound.source _ _ left
  obtain ⟨c, d, _, second, sameName, _⟩ := sound.source _ _ right
  exact (sound.lone second first (sameName.trans named.symm)).1

/-- A key whose call has only begun is not in the log. -/
theorem KeyPool.Sound.unlogged {pool : KeyPool} (sound : pool.Sound sha256) {a b : BitVec 128}
    {tenant other : TenantId} (begun : ⟨.mint a b tenant, .begun⟩ ∈ pool.tasks) :
    .mint (hashKey sha256 (generateRawKey a b)) other ∉ pool.shared.wal.records := by
  intro member
  obtain ⟨c, d, stage, task, named, further⟩ := sound.source _ _ member
  exact further (sound.lone begun task named.symm).2.symm

/-- A call that is neither logged nor about to be has nothing to fit, unless it is a mint. -/
theorem KeyTask.fits_of_blank {store : ApiKeyStore} {task : KeyTask}
    (appends : task.appending sha256 = none) (applies : task.applying sha256 = none)
    (reads : task.call.generates = none) : task.Fits sha256 store where
  logged := by simp [applies]
  founded := by simp [appends]
  kept := by
    rintro first second tenant result rfl
    simp [KeyCall.generates] at reads

/-- Calls stay in their places while only the log grows. -/
theorem KeyTask.Fits.log {store : ApiKeyStore} {task : KeyTask} (fits : task.Fits sha256 store)
    (intact : store.wal.torn = false) (record : KeyRecord) : task.Fits sha256 (store.log record) := by
  -- The log only grows, and the keys in memory stay.
  have grown : ∀ {other}, other ∈ store.wal.records → other ∈ (store.log record).wal.records := by
    intro other member
    rw [ApiKeyStore.log_records intact]
    exact List.mem_append_left _ member
  constructor
  · intro applied own
    exact grown (fits.logged applied own)
  · intro keyHash own
    obtain ⟨tenant, minted⟩ := fits.founded keyHash own
    exact ⟨tenant, grown minted⟩
  · intro first second tenant result own
    obtain ⟨minted, valid | revoked⟩ := fits.kept first second tenant result own
    · exact ⟨grown minted, .inl valid⟩
    · exact ⟨grown minted, .inr (grown revoked)⟩

/-- A call about to append finds no revocation after which its record would bring a key back. -/
theorem KeyPool.Sound.revoked_log {pool : KeyPool} (sound : pool.Sound sha256) {task : KeyTask}
    (member : task ∈ pool.tasks) {record : KeyRecord}
    (appending : task.appending sha256 = some record) {keyHash : String}
    (revoked : .revoke keyHash ∈ pool.shared.wal.records ++ [record]) :
    (Keys.replay (pool.shared.wal.records ++ [record])).lookup keyHash = none := by
  rw [Keys.replay_concat]
  rcases KeyTask.of_appending appending with ⟨a, b, tenant, rfl, rfl⟩ | ⟨rawKey, rfl, rfl⟩
  · -- The key of a mint that has only begun is in no record, so the revoked key is another.
    have before : .revoke keyHash ∈ pool.shared.wal.records := by simpa using revoked
    obtain ⟨other, minted⟩ := sound.founded keyHash before
    have apart : keyHash ≠ hashKey sha256 (generateRawKey a b) := by
      rintro rfl
      exact sound.unlogged member minted
    exact (Finmap.lookup_insert_of_ne _ apart).trans (sound.revoked keyHash before)
  · by_cases own : keyHash = hashKey sha256 rawKey
    · subst own
      exact Finmap.lookup_erase _ _
    · have before : .revoke keyHash ∈ pool.shared.wal.records := by simpa [own] using revoked
      exact (Finmap.lookup_erase_ne own).trans (sound.revoked keyHash before)

/-- What a call applies to the keys is what the log says of them. -/
theorem KeyPool.Sound.known_apply {pool : KeyPool} (sound : pool.Sound sha256) {record : KeyRecord}
    (logged : record ∈ pool.shared.wal.records) {keyHash : String} {tenant : TenantId}
    (valid : (pool.shared.keys.replayRecord record).lookup keyHash = some tenant) :
    .mint keyHash tenant ∈ pool.shared.wal.records := by
  -- A mint has been logged before it is applied; a revocation adds no key.
  cases record with
  | mint other minted =>
    rcases lookup_of_insert valid with ⟨rfl, rfl⟩ | ⟨_, before⟩
    · exact logged
    · exact sound.known keyHash tenant before
  | revoke other => exact sound.known keyHash tenant (lookup_of_erase valid).2

/-- A call that has returned keeps its key while another one applies its record. -/
theorem KeyPool.Sound.kept_apply {pool : KeyPool} (sound : pool.Sound sha256) {task : KeyTask}
    (member : task ∈ pool.tasks) {record : KeyRecord} (applying : task.applying sha256 = some record)
    {a b : BitVec 128} {tenant : TenantId} {result : KeyResult}
    (returned : ⟨.mint a b tenant, .returned result⟩ ∈ pool.tasks) :
    (pool.shared.keys.replayRecord record).lookup (hashKey sha256 (generateRawKey a b)) = some tenant ∨
      .revoke (hashKey sha256 (generateRawKey a b)) ∈ pool.shared.wal.records := by
  obtain ⟨_, valid | revoked⟩ := (sound.fits _ returned).kept a b tenant result rfl
  · have logged := (sound.fits task member).logged record applying
    rcases KeyTask.of_applying applying with ⟨c, d, other, rfl, rfl⟩ | ⟨rawKey, rfl, rfl⟩
    · -- A mint still to be applied generated another key.
      have apart : hashKey sha256 (generateRawKey a b) ≠ hashKey sha256 (generateRawKey c d) := by
        intro same
        exact absurd (sound.lone returned member same).2 (by simp)
      exact .inl ((Finmap.lookup_insert_of_ne _ apart).trans valid)
    · by_cases own : hashKey sha256 (generateRawKey a b) = hashKey sha256 rawKey
      · rw [own]
        exact .inr logged
      · exact .inl ((Finmap.lookup_erase_ne own).trans valid)
  · exact .inr revoked

/-- Every step of a call keeps the log sound. -/
theorem KeyPool.Sound.moved {pool : KeyPool} (sound : pool.Sound sha256) {i : Nat} {task : KeyTask}
    {next : ApiKeyStore} {stage : KeyStage} (found : pool.tasks[i]? = some task)
    (moved : pool.shared.Moved sha256 task next stage) :
    KeyPool.Sound sha256 ⟨next, pool.tasks.set i ⟨task.call, stage⟩⟩ := by
  have among := List.mem_of_getElem? found
  have within := (List.getElem?_eq_some_iff.mp found).1
  have own := sound.fits task among
  -- The moved call still generates what it generated, and is past its beginning.
  have label : KeyTask.mints sha256 ⟨task.call, stage⟩ = KeyTask.mints sha256 task := rfl
  have distinct : ((pool.tasks.set i ⟨task.call, stage⟩).filterMap (KeyTask.mints sha256)).Nodup := by
    rw [filterMap_set found label]
    exact sound.distinct
  have past : stage ≠ .begun := by cases moved <;> simp
  have source : ∀ keyHash tenant, .mint keyHash tenant ∈ pool.shared.wal.records →
      ∃ first second later, ⟨.mint first second tenant, later⟩ ∈ pool.tasks.set i ⟨task.call, stage⟩ ∧
        hashKey sha256 (generateRawKey first second) = keyHash ∧ later ≠ .begun := by
    intro keyHash tenant member
    obtain ⟨first, second, later, placed, named, further⟩ := sound.source keyHash tenant member
    rcases mem_set_or_eq ⟨task.call, stage⟩ found placed with rfl | stays
    · exact ⟨first, second, stage, List.mem_set within _, named, past⟩
    · exact ⟨first, second, later, stays, named, further⟩
  -- A call is the moved one or as it was.
  have each {store : ApiKeyStore} (new : KeyTask.Fits sha256 store ⟨task.call, stage⟩)
      (old : ∀ other ∈ pool.tasks, other.Fits sha256 store) :
      ∀ other ∈ pool.tasks.set i ⟨task.call, stage⟩, other.Fits sha256 store := by
    intro other member
    rcases List.mem_or_eq_of_mem_set member with before | rfl
    · exact old other before
    · exact new
  cases moved with
  | @logs record appending =>
    have grown := ApiKeyStore.log_records sound.intact record
    refine ⟨by simp [ApiKeyStore.log, Log.append_ok sound.intact, sound.intact], ?_, ?_, ?_, ?_,
      distinct, each ?_ fun other member => (sound.fits other member).log sound.intact record⟩
    · intro keyHash tenant valid
      rw [grown]
      exact List.mem_append_left _ (sound.known keyHash tenant valid)
    · -- A key is revoked for the first time only after it was found.
      intro keyHash revoked
      rw [grown] at revoked ⊢
      rcases List.mem_append.mp revoked with before | last
      · obtain ⟨tenant, minted⟩ := sound.founded keyHash before
        exact ⟨tenant, List.mem_append_left _ minted⟩
      · obtain rfl := List.mem_singleton.mp last
        obtain ⟨tenant, minted⟩ := own.founded keyHash appending
        exact ⟨tenant, List.mem_append_left _ minted⟩
    · intro keyHash revoked
      rw [grown] at revoked ⊢
      exact sound.revoked_log among appending revoked
    · intro keyHash tenant minted
      rw [grown] at minted
      rcases List.mem_append.mp minted with before | last
      · exact source keyHash tenant before
      · -- The new record is that of the call itself.
        obtain rfl := List.mem_singleton.mp last
        rcases KeyTask.of_appending appending with ⟨a, b, _, rfl, same⟩ | ⟨_, rfl, same⟩
        · obtain ⟨rfl, rfl⟩ := KeyRecord.mint.inj same
          exact ⟨a, b, .logged, List.mem_set within _, rfl, past⟩
        · cases same
    · -- Having logged its record, the call applies just that one.
      rcases KeyTask.of_appending appending with ⟨a, b, tenant, rfl, rfl⟩ | ⟨rawKey, rfl, rfl⟩
      · exact ⟨by simp [KeyTask.applying, KeyCall.rawKey, grown], by simp [KeyTask.appending], by simp⟩
      · exact ⟨by simp [KeyTask.applying, KeyCall.rawKey, grown], by simp [KeyTask.appending], by simp⟩
  | applies record result applying =>
    have logged := own.logged record applying
    refine ⟨sound.intact, fun _ _ => sound.known_apply logged, sound.founded, sound.revoked, source,
      distinct, each ?_ fun other member => ?_⟩
    · -- A mint that returns has just inserted its key.
      rcases KeyTask.of_applying applying with ⟨a, b, tenant, rfl, rfl⟩ | ⟨rawKey, rfl, rfl⟩
      · refine ⟨by simp [KeyTask.applying], by simp [KeyTask.appending], ?_⟩
        intro first second other answer same
        simp only [KeyTask.mk.injEq, KeyCall.mint.injEq] at same
        obtain ⟨⟨rfl, rfl, rfl⟩, _⟩ := same
        exact ⟨logged, .inl (Finmap.lookup_insert _)⟩
      · exact KeyTask.fits_of_blank rfl rfl rfl
    · have fits := sound.fits other member
      refine ⟨fits.logged, fits.founded, ?_⟩
      rintro first second tenant answer rfl
      exact ⟨(fits.kept first second tenant answer rfl).1, sound.kept_apply among applying member⟩
  | @finds rawKey tenant call valid =>
    refine ⟨sound.intact, sound.known, sound.founded, sound.revoked, source, distinct,
      each ?_ sound.fits⟩
    -- A valid key is in the log.
    obtain ⟨_, _⟩ := task
    obtain rfl : _ = KeyCall.revoke rawKey := call
    refine ⟨by simp [KeyTask.applying], ?_, by simp⟩
    simp only [KeyTask.appending, KeyCall.rawKey, Option.some.injEq, KeyRecord.revoke.injEq]
    rintro _ rfl
    exact ⟨tenant, sound.known _ tenant valid⟩
  | @misses rawKey call invalid =>
    obtain ⟨_, _⟩ := task
    obtain rfl : _ = KeyCall.revoke rawKey := call
    exact ⟨sound.intact, sound.known, sound.founded, sound.revoked, source, distinct,
      each (KeyTask.fits_of_blank rfl rfl rfl) sound.fits⟩
  | @answers rawKey call =>
    obtain ⟨_, _⟩ := task
    obtain rfl : _ = KeyCall.authenticate rawKey := call
    exact ⟨sound.intact, sound.known, sound.founded, sound.revoked, source, distinct,
      each (KeyTask.fits_of_blank rfl rfl rfl) sound.fits⟩

/-- The end of a process changes no call's key. -/
@[simp] theorem KeyTask.kill_call (task : KeyTask) : task.kill.call = task.call := by
  obtain ⟨call, stage⟩ := task
  cases stage <;> rfl

/-- Opening the log again keeps it sound. -/
theorem KeyPool.Sound.reopened {pool : KeyPool} (sound : pool.Sound sha256) :
    KeyPool.Sound sha256 ⟨.opened pool.shared.wal, pool.tasks.map KeyTask.kill⟩ where
  intact := rfl
  known _ _ valid := Keys.mint_mem_of_replay valid
  founded := sound.founded
  revoked := sound.revoked
  source := by
    intro keyHash tenant minted
    obtain ⟨first, second, stage, placed, named, past⟩ := sound.source keyHash tenant minted
    refine ⟨first, second, (KeyTask.kill ⟨.mint first second tenant, stage⟩).stage, ?_, named, ?_⟩
    · have killed := List.mem_map_of_mem (f := KeyTask.kill) placed
      cases stage <;> exact killed
    · cases stage <;> simp [KeyTask.kill]
  distinct := by
    rw [List.filterMap_map]
    have same : KeyTask.mints sha256 ∘ KeyTask.kill = KeyTask.mints sha256 := by
      funext task
      simp [KeyTask.mints]
    rw [same]
    exact sound.distinct
  fits := by
    intro task member
    obtain ⟨before, placed, rfl⟩ := List.mem_map.mp member
    obtain ⟨call, stage⟩ := before
    cases stage with
    | returned result =>
      refine ⟨by cases call <;> simp [KeyTask.kill, KeyTask.applying],
        by cases call <;> simp [KeyTask.kill, KeyTask.appending], ?_⟩
      intro first second tenant answer same
      -- What the log has of a returned key is what the replay makes of it.
      obtain ⟨minted, _⟩ := (sound.fits _ placed).kept first second tenant answer same
      refine ⟨minted, ?_⟩
      by_cases revoked :
          .revoke (hashKey sha256 (generateRawKey first second)) ∈ pool.shared.wal.records
      · exact .inr revoked
      · exact .inl (Keys.replay_of_mint_mem minted (fun _ => sound.same_tenant minted) revoked)
    | _ =>
      -- A call that had not returned does nothing any more.
      exact ⟨by cases call <;> simp [KeyTask.kill, KeyTask.applying],
        by cases call <;> simp [KeyTask.kill, KeyTask.appending], by simp [KeyTask.kill]⟩

/-- An append that reached the file before the process ended counts as one that returned. -/
theorem KeyPool.Sound.reopen {pool : KeyPool} (sound : pool.Sound sha256) (landed : Option Nat) :
    KeyPool.Sound sha256 ⟨.opened (pool.left sha256 landed), pool.tasks.map KeyTask.kill⟩ := by
  unfold KeyPool.left
  split
  · rename_i record found
    obtain ⟨task, placed, appending⟩ := Option.bind_eq_some_iff.mp found
    obtain ⟨i, _, placed⟩ := Option.bind_eq_some_iff.mp placed
    have after := (sound.moved placed (.logs appending)).reopened
    -- The call that appended dies like the others.
    have dies : (some ∘ KeyTask.kill) ⟨task.call, .logged⟩ = (some ∘ KeyTask.kill) task := by
      rcases KeyTask.of_appending appending with ⟨_, _, _, rfl, _⟩ | ⟨_, rfl, _⟩ <;> rfl
    have same := filterMap_set placed dies
    rw [List.filterMap_eq_map] at same
    rw [same] at after
    exact after
  · exact sound.reopened

/-- A call that begins keeps the log sound, if its key is new and has a digest of its own. -/
theorem KeyPool.Sound.spawn {pool : KeyPool} (sound : pool.Sound sha256) {call : KeyCall}
    (distinct : pool.Distinct sha256 (.call call)) : KeyPool.Sound sha256 (pool.spawn ⟨call, .begun⟩) where
  intact := sound.intact
  known := sound.known
  founded := sound.founded
  revoked := sound.revoked
  source := by
    intro keyHash tenant minted
    obtain ⟨first, second, stage, placed, rest⟩ := sound.source keyHash tenant minted
    exact ⟨first, second, stage, List.mem_append_left _ placed, rest⟩
  distinct := by
    show ((pool.tasks ++ [(⟨call, .begun⟩ : KeyTask)]).filterMap (KeyTask.mints sha256)).Nodup
    rw [List.filterMap_append]
    refine List.Nodup.append sound.distinct ?_ ?_
    · cases mints : KeyTask.mints sha256 ⟨call, .begun⟩ <;> simp [mints]
    · -- An earlier call with the same hash would have generated the same key.
      intro keyHash earlier last
      obtain ⟨task, member, named⟩ := List.mem_filterMap.mp earlier
      obtain ⟨_, lone, sameName⟩ := List.mem_filterMap.mp last
      obtain rfl := List.mem_singleton.mp lone
      obtain ⟨first, generated, rfl⟩ := Option.map_eq_some_iff.mp named
      obtain ⟨second, fresh, equal⟩ := Option.map_eq_some_iff.mp sameName
      have keys {other : KeyCall} {rawKey : String} (own : other.generates = some rawKey) :
          other.rawKey = rawKey := by
        cases other <;> simp_all [KeyCall.generates, KeyCall.rawKey]
      obtain ⟨new, apart⟩ := distinct task member
      have digests := hashKey_eq_iff.mp equal.symm
      rw [← keys generated, ← keys fresh] at digests
      have same := apart digests
      rw [keys generated, keys fresh] at same
      subst same
      exact new first fresh generated
  fits := by
    intro task member
    rcases List.mem_append.mp member with before | last
    · exact sound.fits task before
    · obtain rfl := List.mem_singleton.mp last
      -- A call that has only begun promises nothing yet.
      cases call with
      | mint first second tenant =>
        exact ⟨by simp [KeyTask.applying], by simp [KeyTask.appending], by simp⟩
      | revoke rawKey => exact KeyTask.fits_of_blank rfl rfl rfl
      | authenticate rawKey => exact KeyTask.fits_of_blank rfl rfl rfl

/-- A store whose log is new is sound. -/
theorem KeyPool.sound_start : KeyPool.start.Sound sha256 where
  intact := rfl
  known _ _ valid := by cases valid
  founded _ member := by cases member
  revoked _ member := by cases member
  source _ _ member := by cases member
  distinct := List.nodup_nil
  fits _ member := by cases member

/-- Every step keeps the log sound. -/
theorem KeyPool.Sound.step {pool next : KeyPool} {act : KeyAction} (sound : pool.Sound sha256)
    (distinct : pool.Distinct sha256 act) (taken : pool.step sha256 act = some next) :
    next.Sound sha256 := by
  -- One lemma for each kind of action.
  cases act with
  | call call =>
    obtain rfl := Option.some.inj taken
    exact sound.spawn distinct
  | step i =>
    obtain ⟨task, store, after, found, moved, rfl⟩ := Pool.advance_eq_some.mp taken
    obtain ⟨call, stage⟩ := after
    obtain ⟨rfl, moved⟩ := ApiKeyStore.move_moved moved
    exact sound.moved found moved
  | reopen landed =>
    obtain rfl := Option.some.inj taken
    exact sound.reopen landed

/-- Every reached state of a store is sound. -/
theorem KeyPool.sound_of_run {trace : List (Transition KeyPool KeyAction)} {pool : KeyPool}
    (run : Run (KeyPool.step sha256) (KeyPool.Distinct sha256) .start trace pool) :
    pool.Sound sha256 :=
  run.invariant sound_start fun _ _ _ distinct sound taken => sound.step distinct taken

/-- A returned call stays returned. -/
theorem KeyPool.returned_stays {pool next : KeyPool} {act : KeyAction} {call : KeyCall}
    {result : KeyResult} (taken : pool.step sha256 act = some next)
    (returned : ⟨call, .returned result⟩ ∈ pool.tasks) : ⟨call, .returned result⟩ ∈ next.tasks := by
  cases act with
  | call other =>
    obtain rfl := Option.some.inj taken
    exact List.mem_append_left _ returned
  | step i =>
    obtain ⟨task, store, after, found, moved, rfl⟩ := Pool.advance_eq_some.mp taken
    rcases mem_set_or_eq after found returned with rfl | stays
    · -- A returned call has no step left.
      cases call <;> simp [ApiKeyStore.move] at moved
    · exact stays
  | reopen landed =>
    obtain rfl := Option.some.inj taken
    exact List.mem_map_of_mem (f := KeyTask.kill) returned

/-- A call that has returned stays among the calls of a run. -/
theorem KeyPool.returned_of_run {ok : KeyPool → KeyAction → Prop} {start pool : KeyPool}
    {trace : List (Transition KeyPool KeyAction)}
    (run : Run (KeyPool.step sha256) ok start trace pool) {call : KeyCall} {result : KeyResult}
    (returned : ⟨call, .returned result⟩ ∈ start.tasks) : ⟨call, .returned result⟩ ∈ pool.tasks := by
  induction run with
  | nil => exact returned
  | snoc _ _ taken ih => exact returned_stays taken ih

/-- The call that returned at a step is among the calls from then on. -/
theorem KeyPool.Returns.mem {e : Transition KeyPool KeyAction} {call : KeyCall} {result : KeyResult}
    (returns : KeyPool.Returns e call result) : ⟨call, .returned result⟩ ∈ e.post.tasks := by
  obtain ⟨_, _, found⟩ := returns
  exact List.mem_of_getElem? found

/-- A call returns by a step of its own. -/
theorem KeyPool.Returns.moved {e : Transition KeyPool KeyAction} {call : KeyCall} {result : KeyResult}
    (returns : KeyPool.Returns e call result) (taken : e.pre.step sha256 e.act = some e.post) :
    ∃ task ∈ e.pre.tasks, task.call = call ∧
      e.pre.shared.Moved sha256 task e.post.shared (.returned result) := by
  -- The task that has returned is the one that has taken the step.
  obtain ⟨i, act, found⟩ := returns
  rw [act] at taken
  obtain ⟨task, store, after, placed, moved, shape⟩ := Pool.advance_eq_some.mp taken
  have within := (List.getElem?_eq_some_iff.mp placed).1
  rw [shape] at found
  simp only [List.getElem?_set_self within, Option.some.injEq] at found
  subst found
  obtain ⟨same, moved⟩ := ApiKeyStore.move_moved moved
  rw [shape]
  exact ⟨task, List.mem_of_getElem? placed, same.symm, moved⟩

/-- An authentication returns what the keys say when it looks, and changes nothing. -/
theorem KeyPool.Returns.authenticated {e : Transition KeyPool KeyAction} {rawKey : String}
    {answer : Option TenantId}
    (returns : KeyPool.Returns e (.authenticate rawKey) (.authenticated answer))
    (taken : e.pre.step sha256 e.act = some e.post) :
    answer = e.pre.shared.keys.lookup (hashKey sha256 rawKey) := by
  obtain ⟨task, _, call, moved⟩ := returns.moved taken
  generalize stage : KeyStage.returned (.authenticated answer) = after at moved
  generalize e.post.shared = next at moved
  cases moved with
  | logs _ => cases stage
  | finds _ _ => cases stage
  | misses _ _ => cases stage
  | applies record result applying =>
    -- Nothing is applied for an authentication.
    rcases KeyTask.of_applying applying with ⟨_, _, _, rfl, _⟩ | ⟨_, rfl, _⟩ <;> cases call
  | @answers other own =>
    obtain rfl := KeyCall.authenticate.inj (own.symm.trans call)
    simpa using stage

/-- Once minted, a key is no other tenant's, and none at all only when its revocation is logged. -/
theorem KeyPool.Sound.answer {pool : KeyPool} (sound : pool.Sound sha256) {a b : BitVec 128}
    {tenant : TenantId} {result : KeyResult}
    (minted : ⟨.mint a b tenant, .returned result⟩ ∈ pool.tasks) :
    pool.shared.keys.lookup (hashKey sha256 (generateRawKey a b)) = some tenant ∨
      .revoke (hashKey sha256 (generateRawKey a b)) ∈ pool.shared.wal.records :=
  ((sound.fits _ minted).kept a b tenant result rfl).2

/-- A minted key has been revoked: the log says so, and no call will insert it again. -/
structure KeyPool.Gone (sha256 : Bytes → Bytes) (a b : BitVec 128) (pool : KeyPool) : Prop where
  sound : pool.Sound sha256
  minted : ∃ tenant result, ⟨.mint a b tenant, .returned result⟩ ∈ pool.tasks
  logged : .revoke (hashKey sha256 (generateRawKey a b)) ∈ pool.shared.wal.records
  invalid : pool.shared.keys.lookup (hashKey sha256 (generateRawKey a b)) = none

/-- A revocation that returns leaves the key revoked. -/
theorem KeyPool.Sound.gone_of_revoked {e : Transition KeyPool KeyAction} {a b : BitVec 128}
    {tenant : TenantId} {result : KeyResult} {removed : Bool} (sound : e.pre.Sound sha256)
    (minted : ⟨.mint a b tenant, .returned result⟩ ∈ e.pre.tasks)
    (returns : KeyPool.Returns e (.revoke (generateRawKey a b)) (.revoked removed))
    (distinct : e.pre.Distinct sha256 e.act) (taken : e.pre.step sha256 e.act = some e.post) :
    e.post.Gone sha256 a b := by
  have after := sound.step distinct taken
  have stays := KeyPool.returned_stays taken minted
  obtain ⟨task, member, call, moved⟩ := returns.moved taken
  generalize stage : KeyStage.returned (.revoked removed) = last at moved
  generalize shape : e.post.shared = next at moved
  cases moved with
  | logs _ => cases stage
  | finds _ _ => cases stage
  | answers _ => cases stage
  | applies record result applying =>
    rcases KeyTask.of_applying applying with ⟨_, _, _, rfl, _⟩ | ⟨rawKey, rfl, rfl⟩
    · cases call
    · -- The key is taken out of the keys, behind its record.
      obtain rfl := KeyCall.revoke.inj call
      have logged := (sound.fits _ member).logged _ applying
      exact ⟨after, ⟨_, _, stays⟩, by rw [shape]; exact logged,
        by rw [shape]; exact Finmap.lookup_erase _ _⟩
  | @misses rawKey own invalid =>
    -- A returned key that is not valid any more has been revoked before.
    obtain rfl := KeyCall.revoke.inj (own.symm.trans call)
    have logged := (sound.answer minted).resolve_left (by rw [invalid]; simp)
    exact ⟨after, ⟨_, _, stays⟩, by rw [shape]; exact logged, by rw [shape]; exact invalid⟩

/-- The log that a process leaves has every record that was in it. -/
theorem KeyPool.mem_left {pool : KeyPool} {record : KeyRecord} (landed : Option Nat)
    (intact : pool.shared.wal.torn = false) (member : record ∈ pool.shared.wal.records) :
    record ∈ (pool.left sha256 landed).records := by
  unfold left
  split
  · simp [Log.land, intact, member]
  · exact member

/-- A revoked key stays revoked. -/
theorem KeyPool.Gone.step {pool next : KeyPool} {act : KeyAction} {a b : BitVec 128}
    (gone : pool.Gone sha256 a b) (distinct : pool.Distinct sha256 act)
    (taken : pool.step sha256 act = some next) : next.Gone sha256 a b := by
  have after := gone.sound.step distinct taken
  obtain ⟨tenant, result, minted⟩ := gone.minted
  have stays := KeyPool.returned_stays taken minted
  cases act with
  | call other =>
    obtain rfl := Option.some.inj taken
    exact ⟨after, ⟨tenant, result, stays⟩, gone.logged, gone.invalid⟩
  | step i =>
    obtain ⟨task, store, last, found, moved, rfl⟩ := Pool.advance_eq_some.mp taken
    obtain ⟨_, moved⟩ := ApiKeyStore.move_moved moved
    have member := List.mem_of_getElem? found
    -- The log only grows, and the key does not come back.
    suffices kept : .revoke (hashKey sha256 (generateRawKey a b)) ∈ store.wal.records ∧
        store.keys.lookup (hashKey sha256 (generateRawKey a b)) = none from
      ⟨after, ⟨tenant, result, stays⟩, kept.1, kept.2⟩
    generalize last.stage = stage at moved
    cases moved with
    | @logs record _ =>
      refine ⟨?_, gone.invalid⟩
      rw [ApiKeyStore.log_records gone.sound.intact]
      exact List.mem_append_left _ gone.logged
    | applies record answer applying =>
      refine ⟨gone.logged, ?_⟩
      rcases KeyTask.of_applying applying with ⟨c, d, other, rfl, rfl⟩ | ⟨rawKey, rfl, rfl⟩
      · -- The call that is about to insert a key generated another one.
        have apart : hashKey sha256 (generateRawKey a b) ≠ hashKey sha256 (generateRawKey c d) := by
          intro same
          exact absurd (gone.sound.lone minted member same).2 (by simp)
        exact (Finmap.lookup_insert_of_ne _ apart).trans gone.invalid
      · show (pool.shared.keys.erase _).lookup _ = none
        by_cases own : hashKey sha256 (generateRawKey a b) = hashKey sha256 rawKey
        · rw [own]
          exact Finmap.lookup_erase _ _
        · exact (Finmap.lookup_erase_ne own).trans gone.invalid
    | finds _ _ => exact ⟨gone.logged, gone.invalid⟩
    | misses _ _ => exact ⟨gone.logged, gone.invalid⟩
    | answers _ => exact ⟨gone.logged, gone.invalid⟩
  | reopen landed =>
    obtain rfl := Option.some.inj taken
    have logged : .revoke (hashKey sha256 (generateRawKey a b)) ∈ (pool.left sha256 landed).records :=
      KeyPool.mem_left landed gone.sound.intact gone.logged
    exact ⟨after, ⟨tenant, result, stays⟩, logged, after.revoked _ logged⟩

/-- The calls that have begun, in their order. -/
def KeyPool.calls (pool : KeyPool) : List KeyCall :=
  pool.tasks.map KeyTask.call

/-- The call that an action begins. -/
def KeyAction.begins : KeyAction → Option KeyCall
  | .call begun => some begun
  | _ => none

/-- Only the action that begins a call adds one. -/
theorem KeyPool.step_calls {pool next : KeyPool} {act : KeyAction}
    (taken : pool.step sha256 act = some next) :
    next.calls = pool.calls ++ act.begins.toList := by
  unfold calls
  cases act with
  | call call =>
    obtain rfl := Option.some.inj taken
    simp [Pool.spawn, KeyAction.begins]
  | step i =>
    obtain ⟨task, store, after, found, moved, rfl⟩ := Pool.advance_eq_some.mp taken
    -- The moved task still serves the same call.
    have label : (some ∘ KeyTask.call) after = (some ∘ KeyTask.call) task :=
      congrArg some (ApiKeyStore.move_moved moved).1
    have same := filterMap_set found label
    rw [List.filterMap_eq_map] at same
    simpa [KeyAction.begins] using same
  | reopen landed =>
    obtain rfl := Option.some.inj taken
    simp [KeyAction.begins]

/-- The calls are those that the actions of the run began. -/
theorem KeyPool.calls_of_run {trace : List (Transition KeyPool KeyAction)} {pool : KeyPool}
    (run : Run (KeyPool.step sha256) (KeyPool.Distinct sha256) .start trace pool) :
    pool.calls = trace.filterMap fun e => e.act.begins := by
  -- Each step adds the call that it begins, if any.
  induction run with
  | nil => rfl
  | snoc _ _ taken ih =>
    rw [step_calls taken, ih, List.filterMap_append]
    congr 1

/-- Two calls whose keys have one hash use one key. -/
theorem KeyPool.rawKey_of_run {trace : List (Transition KeyPool KeyAction)} {pool : KeyPool}
    (run : Run (KeyPool.step sha256) (KeyPool.Distinct sha256) .start trace pool) :
    ∀ first ∈ pool.calls, ∀ second ∈ pool.calls,
      hashKey sha256 first.rawKey = hashKey sha256 second.rawKey → first.rawKey = second.rawKey := by
  induction run with
  | nil =>
    intro first member
    cases member
  | @snoc _ pool next act _ distinct taken apart =>
    rw [step_calls taken]
    cases act with
    | step i => simpa [KeyAction.begins] using apart
    | reopen landed => simpa [KeyAction.begins] using apart
    | call call =>
      -- The digest of the new key is that of no other key used before.
      have new : ∀ earlier ∈ pool.calls,
          hashKey sha256 earlier.rawKey = hashKey sha256 call.rawKey → earlier.rawKey = call.rawKey := by
        intro earlier member same
        obtain ⟨task, placed, rfl⟩ := List.mem_map.mp member
        exact (distinct task placed).2 (hashKey_eq_iff.mp same)
      intro first left second right same
      rcases List.mem_append.mp left with before | last <;>
        rcases List.mem_append.mp right with earlier | final
      · exact apart first before second earlier same
      · obtain rfl : second = call := by simpa [KeyAction.begins] using final
        exact new first before same
      · obtain rfl : first = call := by simpa [KeyAction.begins] using last
        exact (new second earlier same.symm).symm
      · obtain rfl : first = call := by simpa [KeyAction.begins] using last
        obtain rfl : second = first := by simpa [KeyAction.begins] using final
        rfl

/-- A record that a step adds to the log is the one that some call was about to append. -/
theorem KeyPool.record_of_step {pool next : KeyPool} {act : KeyAction} {record : KeyRecord}
    (sound : pool.Sound sha256) (taken : pool.step sha256 act = some next)
    (member : record ∈ next.shared.wal.records) :
    record ∈ pool.shared.wal.records ∨ ∃ task ∈ pool.tasks, task.appending sha256 = some record := by
  -- A record comes from a running call's write, or from the write that was under way when the process died.
  cases act with
  | call call =>
    obtain rfl := Option.some.inj taken
    exact .inl member
  | step i =>
    obtain ⟨task, store, after, found, moved, rfl⟩ := Pool.advance_eq_some.mp taken
    obtain ⟨_, moved⟩ := ApiKeyStore.move_moved moved
    generalize after.stage = stage at moved
    cases moved with
    | @logs added appending =>
      rw [ApiKeyStore.log_records sound.intact] at member
      rcases List.mem_append.mp member with before | last
      · exact .inl before
      · obtain rfl := List.mem_singleton.mp last
        exact .inr ⟨task, List.mem_of_getElem? found, appending⟩
    | applies _ _ _ => exact .inl member
    | finds _ _ => exact .inl member
    | misses _ _ => exact .inl member
    | answers _ => exact .inl member
  | reopen landed =>
    obtain rfl := Option.some.inj taken
    replace member : record ∈ (pool.left sha256 landed).records := member
    unfold left at member
    split at member
    · rename_i added found
      obtain ⟨task, placed, appending⟩ := Option.bind_eq_some_iff.mp found
      obtain ⟨i, _, placed⟩ := Option.bind_eq_some_iff.mp placed
      have shape : record ∈ pool.shared.wal.records ∨ record = added := by
        simpa [Log.land, sound.intact] using member
      rcases shape with before | rfl
      · exact .inl before
      · exact .inr ⟨task, List.mem_of_getElem? placed, appending⟩
    · exact .inl member

/-- A revocation in the log stems from a call that has begun. -/
theorem KeyPool.revoker_of_run {trace : List (Transition KeyPool KeyAction)} {pool : KeyPool}
    (run : Run (KeyPool.step sha256) (KeyPool.Distinct sha256) .start trace pool) {keyHash : String}
    (logged : .revoke keyHash ∈ pool.shared.wal.records) :
    ∃ rawKey, .revoke rawKey ∈ pool.calls ∧ hashKey sha256 rawKey = keyHash := by
  -- The record was logged by some step, and then by a revocation that had begun.
  induction run with
  | nil => cases logged
  | snoc before _ taken ih =>
    rw [step_calls taken]
    rcases record_of_step (sound_of_run before) taken logged with earlier | ⟨task, member, appending⟩
    · obtain ⟨rawKey, begun, named⟩ := ih earlier
      exact ⟨rawKey, List.mem_append_left _ begun, named⟩
    · rcases KeyTask.of_appending appending with ⟨_, _, _, _, same⟩ | ⟨rawKey, rfl, same⟩
      · cases same
      · have begun := List.mem_map_of_mem (f := KeyTask.call) member
        exact ⟨rawKey, List.mem_append_left _ begun, (KeyRecord.revoke.inj same).symm⟩

/-- The log names no tenant for a key but the one that the call of `mint` was for. -/
theorem KeyPool.Sound.lone_call {pool : KeyPool} (sound : pool.Sound sha256) {a b c d : BitVec 128}
    {tenant other : TenantId} (left : .mint a b tenant ∈ pool.calls) (right : .mint c d other ∈ pool.calls)
    (same : hashKey sha256 (generateRawKey a b) = hashKey sha256 (generateRawKey c d)) :
    other = tenant := by
  obtain ⟨⟨_, first⟩, placed, rfl⟩ := List.mem_map.mp left
  obtain ⟨⟨_, second⟩, later, rfl⟩ := List.mem_map.mp right
  exact (sound.lone placed later same).1.symm

/-- The calls at a step of a run are among those at its end. -/
theorem KeyPool.calls_take {trace : List (Transition KeyPool KeyAction)} {pool : KeyPool}
    (run : Run (KeyPool.step sha256) (KeyPool.Distinct sha256) .start trace pool) {n : Nat}
    {e : Transition KeyPool KeyAction} (taken : (trace)[n]? = some e) {call : KeyCall} :
    call ∈ e.pre.calls ↔ ∃ begun ∈ trace.take n, begun.act = .call call := by
  rw [calls_of_run (run.take taken).1, List.mem_filterMap]
  refine exists_congr fun begun => and_congr_right fun _ => ?_
  cases begun.act <;> simp [KeyAction.begins]

/-- A call that has begun before a step of a run is among those at its end. -/
theorem KeyPool.calls_mono {trace : List (Transition KeyPool KeyAction)} {pool : KeyPool}
    (run : Run (KeyPool.step sha256) (KeyPool.Distinct sha256) .start trace pool) {n : Nat}
    {e : Transition KeyPool KeyAction} (taken : (trace)[n]? = some e) {call : KeyCall}
    (member : call ∈ e.pre.calls) : call ∈ pool.calls := by
  obtain ⟨begun, before, act⟩ := (calls_take run taken).mp member
  rw [calls_of_run run, List.mem_filterMap]
  exact ⟨begun, List.mem_of_mem_take before, by rw [act]; rfl⟩

/-- A minted key authenticates as its tenant, and as nobody else, until a revocation of it begins,
and never again once one has returned, over any number of processes that open the store. -/
theorem KeyPool.credential_lifecycle {trace : List (Transition KeyPool KeyAction)} {pool : KeyPool}
    (run : Run (KeyPool.step sha256) (KeyPool.Distinct sha256) .start trace pool) {a b : BitVec 128}
    {tenant : TenantId} {p : Nat} {minting : Transition KeyPool KeyAction}
    (minted : (trace)[p]? = some minting)
    (mint : KeyPool.Returns minting (.mint a b tenant) (.minted (generateRawKey a b)))
    {q : Nat} {asking : Transition KeyPool KeyAction} {answer : Option TenantId}
    (asked : (trace)[q]? = some asking)
    (ask : KeyPool.Returns asking (.authenticate (generateRawKey a b)) (.authenticated answer)) :
    (∀ other, answer = some other → other = tenant) ∧
    (p < q → (∀ e ∈ trace.take q, e.act ≠ .call (.revoke (generateRawKey a b))) →
      answer = some tenant) ∧
    ∀ r revoking removed, (trace)[r]? = some revoking → p < r → r < q →
      KeyPool.Returns revoking (.revoke (generateRawKey a b)) (.revoked removed) →
      answer = none := by
  obtain ⟨reached, taken⟩ := run.take asked
  have sound := sound_of_run reached
  have look := ask.authenticated taken
  -- From its return on, the call of `mint` is among the calls that have returned.
  have returned {n : Nat} {e : Transition KeyPool KeyAction} (later : (trace)[n]? = some e)
      (order : p < n) :
      ⟨.mint a b tenant, .returned (.minted (generateRawKey a b))⟩ ∈ e.pre.tasks :=
    returned_of_run (run.between minted later order) mint.mem
  refine ⟨?_, ?_, ?_⟩
  · -- Whatever tenant the keys name is that of the call that generated the key.
    rintro other rfl
    have logged := sound.known _ other look.symm
    obtain ⟨c, d, stage, placed, named, _⟩ := sound.source _ _ logged
    obtain ⟨task, member, call, _⟩ := mint.moved (run.take minted).2
    have left := calls_mono run minted (List.mem_map_of_mem (f := KeyTask.call) member)
    have right := calls_mono run asked (List.mem_map_of_mem (f := KeyTask.call) placed)
    rw [call] at left
    exact (sound_of_run run).lone_call left right named.symm
  · intro order untouched
    have stays := returned asked order
    rw [look]
    refine (sound.answer stays).resolve_right fun logged => ?_
    -- A logged revocation would have begun before.
    obtain ⟨rawKey, begun, named⟩ := revoker_of_run reached logged
    have same := rawKey_of_run reached _ begun _ (List.mem_map_of_mem (f := KeyTask.call) stays) named
    obtain rfl : rawKey = generateRawKey a b := same
    obtain ⟨e, before, act⟩ := (calls_take run asked).mp begun
    exact untouched e before act
  · intro r revoking removed revoked after before returns
    obtain ⟨earlier, distinct, revoke⟩ := run.of_mem (List.mem_of_getElem? revoked)
    obtain ⟨_, earlier⟩ := earlier
    have gone := (sound_of_run earlier).gone_of_revoked (returned revoked after) returns distinct revoke
    have still := (run.between revoked asked before).invariant gone
      fun _ _ _ fresh gone stepped => gone.step fresh stepped
    rw [look]
    exact still.invalid

end

instance KeyPool.decidableDistinct (sha256 : Bytes → Bytes) (pool : KeyPool) :
    ∀ act, Decidable (pool.Distinct sha256 act)
  | .call call => inferInstanceAs (Decidable (∀ task ∈ pool.tasks,
      (∀ rawKey ∈ call.generates, task.call.generates ≠ some rawKey) ∧
      (sha256 (asBytes task.call.rawKey) = sha256 (asBytes call.rawKey) →
        task.call.rawKey = call.rawKey)))
  | .step _ | .reopen _ => inferInstanceAs (Decidable True)

/-- What SHA-256 yields for the only key of a run. -/
def digestOfZeros (bytes : Bytes) : Bytes :=
  if bytes = asBytes (generateRawKey 0 0) then
    [84, 11, 94, 106, 242, 203, 149, 16, 62, 233, 146, 207, 164, 191, 207, 0,
      146, 1, 127, 183, 175, 179, 21, 146, 81, 126, 117, 207, 140, 104, 22, 245]
  else []

-- The hash under which the key is stored.
example : hashKey digestOfZeros (generateRawKey 0 0) =
    "540b5e6af2cb95103ee992cfa4bfcf0092017fb7afb31592517e75cf8c6816f5" := by decide +kernel

/-- A key is minted, used, revoked, and tried once more by another process. -/
def keyLifetime : List KeyAction :=
  [.call (.mint 0 0 acme), .step 0, .step 0, .call (.authenticate (generateRawKey 0 0)), .step 1,
    .call (.revoke (generateRawKey 0 0)), .step 2, .step 2, .step 2, .reopen none,
    .call (.authenticate (generateRawKey 0 0)), .step 3]

/-- The key names its tenant before it is revoked, and nobody afterwards. -/
theorem KeyPool.credential_lifecycle_acme :
    ∃ ran ∈ record (KeyPool.step digestOfZeros) .start keyLifetime,
      (∃ e ∈ (ran.1)[4]?,
        KeyPool.Returns e (.authenticate (generateRawKey 0 0)) (.authenticated (some acme))) ∧
      ∃ e ∈ (ran.1)[11]?,
        KeyPool.Returns e (.authenticate (generateRawKey 0 0)) (.authenticated none) := by
  -- Both calls return; which of the two answers they give is for the theorem to say.
  have recorded : ∃ ran ∈ record (KeyPool.step digestOfZeros) .start keyLifetime,
      (∀ e ∈ ran.1, e.pre.Distinct digestOfZeros e.act) ∧
      (∃ e ∈ (ran.1)[2]?, e.act = .step 0 ∧
        (e.post.tasks)[0]? = some ⟨.mint 0 0 acme, .returned (.minted (generateRawKey 0 0))⟩) ∧
      (∃ e ∈ (ran.1)[8]?, e.act = .step 2 ∧
        (e.post.tasks)[2]? = some ⟨.revoke (generateRawKey 0 0), .returned (.revoked true)⟩) ∧
      (∀ e ∈ ran.1.take 4, e.act ≠ .call (.revoke (generateRawKey 0 0))) ∧
      (∃ e ∈ (ran.1)[4]?, e.act = .step 1 ∧ ∃ answer ∈ [some acme, none], (e.post.tasks)[1]? =
        some ⟨.authenticate (generateRawKey 0 0), .returned (.authenticated answer)⟩) ∧
      ∃ e ∈ (ran.1)[11]?, e.act = .step 3 ∧ ∃ answer ∈ [some acme, none], (e.post.tasks)[3]? =
        some ⟨.authenticate (generateRawKey 0 0), .returned (.authenticated answer)⟩ := by
    decide +kernel
  obtain ⟨⟨trace, pool⟩, ran, distinct, ⟨minting, minted, mint⟩, ⟨revoking, revoked, revoke⟩, untouched,
    ⟨asking, asked, act, answer, _, answered⟩, asking', asked', act', answer', _, answered'⟩ := recorded
  have run := (run_of_record .nil ran).strengthen distinct |>.mono fun _ _ both => both.2
  have ask : KeyPool.Returns asking (.authenticate (generateRawKey 0 0)) (.authenticated answer) := ⟨1, act, answered⟩
  have ask' : KeyPool.Returns asking' (.authenticate (generateRawKey 0 0)) (.authenticated answer') :=
    ⟨3, act', answered'⟩
  obtain rfl := (KeyPool.credential_lifecycle run minted ⟨0, mint⟩ asked ask).2.1 (by omega) untouched
  obtain rfl := (KeyPool.credential_lifecycle run minted ⟨0, mint⟩ asked' ask').2.2 8 revoking true revoked
    (by omega) (by omega) ⟨2, revoke⟩
  exact ⟨(trace, pool), ran, ⟨asking, asked, ask⟩, asking', asked', ask'⟩

end Qaas
