import Qaas.Auth.TenantId
import Qaas.Concurrency.Entries
import Qaas.Concurrency.Pool
import Qaas.Concurrency.Run
import Qaas.Types.Ids
import Qaas.Wal.Log

/-! The durable set of API keys, and the calls that share it. -/

namespace Qaas

open Concurrency

/-- One entry in the log of the keys, under the hash of the raw key; a tenant is a validated
identifier except where derived code read the record. -/
inductive KeyRecord (Tenant : Type := TenantId) where
  | mint (keyHash : String) (tenant : Tenant)
  | revoke (keyHash : String)
  deriving DecidableEq, Repr

/-- The bytes as lower-case hexadecimal digits, two for each byte. -/
def hexEncode (bytes : Bytes) : String :=
  String.ofList (bytes.flatMap fun byte => hexDigits byte.toNat 2)

/-- The bytes of a text, as a hash function reads them. -/
def asBytes (text : String) : Bytes :=
  text.toByteArray.data.toList

/-- A new raw key, from two random UUIDs. -/
def generateRawKey (first second : BitVec 128) : String :=
  "qaas_" ++ String.ofList (hexDigits first.toNat 32) ++ String.ofList (hexDigits second.toNat 32)

section

-- The SHA-256 function of the hashing library.
variable (sha256 : Bytes → Bytes)

/-- The only form of a raw key that is stored or compared. -/
def hashKey (rawKey : String) : String :=
  hexEncode (sha256 (asBytes rawKey))

/-- The valid key hashes and the tenants they name. -/
abbrev Keys (Tenant : Type := TenantId) := Finmap fun _ : String => Tenant

variable {Tenant : Type}

/-- What one record does to the keys. -/
def Keys.replayRecord (keys : Keys Tenant) : KeyRecord Tenant → Keys Tenant
  | .mint keyHash tenant => keys.insert keyHash tenant
  | .revoke keyHash => keys.erase keyHash

/-- The keys that a log describes. -/
def Keys.replay (records : List (KeyRecord Tenant)) : Keys Tenant :=
  records.foldl Keys.replayRecord ∅

/-- The set of credentials, in memory and in its log. -/
structure ApiKeyStore (Tenant : Type := TenantId) where
  keys : Keys Tenant
  wal : Log (KeyRecord Tenant)

/-- The store that a log opens as. -/
def ApiKeyStore.opened (wal : Log (KeyRecord Tenant)) : ApiKeyStore Tenant :=
  { keys := .replay wal.reopen.records, wal := wal.reopen }

/-- Append one record, where no write fails. -/
def ApiKeyStore.log (store : ApiKeyStore) (record : KeyRecord) : ApiKeyStore :=
  { store with wal := (store.wal.append record .ok).1 }

/-- A call of one of the store's methods, with the random values that a new key is made of. -/
inductive KeyCall where
  | mint (first second : BitVec 128) (tenant : TenantId)
  | revoke (rawKey : String)
  | authenticate (rawKey : String)
  deriving DecidableEq, Repr

/-- The raw key that a call is about. -/
def KeyCall.rawKey : KeyCall → String
  | .mint first second _ => generateRawKey first second
  | .revoke rawKey => rawKey
  | .authenticate rawKey => rawKey

/-- The raw key that a call generates. -/
def KeyCall.generates : KeyCall → Option String
  | .mint first second _ => some (generateRawKey first second)
  | _ => none

/-- What a call returns. -/
inductive KeyResult where
  | minted (rawKey : String)
  | revoked (removed : Bool)
  | authenticated (tenant : Option TenantId)
  deriving DecidableEq, Repr

/-- How far a call has come. -/
inductive KeyStage where
  | begun
  /-- `revoke` has seen that the key is valid. -/
  | found
  /-- The call's record is in the log. -/
  | logged
  | returned (result : KeyResult)
  /-- The process ended before the call returned. -/
  | dead
  deriving DecidableEq, Repr

/-- A call and how far it has come. -/
structure KeyTask where
  call : KeyCall
  stage : KeyStage
  deriving DecidableEq, Repr

/-- One step of a call: one access to the keys, or one append to the log. -/
def ApiKeyStore.move (store : ApiKeyStore) (task : KeyTask) : Option (ApiKeyStore × KeyTask) :=
  let keyHash := hashKey sha256 task.call.rawKey
  match task.call, task.stage with
  | .mint _ _ tenant, .begun => some (store.log (.mint keyHash tenant), { task with stage := .logged })
  | .mint _ _ tenant, .logged =>
    some ({ store with keys := store.keys.insert keyHash tenant },
      { task with stage := .returned (.minted task.call.rawKey) })
  | .revoke _, .begun =>
    some (store, { task with
      stage := if (store.keys.lookup keyHash).isSome then .found else .returned (.revoked false) })
  | .revoke _, .found => some (store.log (.revoke keyHash), { task with stage := .logged })
  | .revoke _, .logged =>
    some ({ store with keys := store.keys.erase keyHash },
      { task with stage := .returned (.revoked (store.keys.lookup keyHash).isSome) })
  | .authenticate _, .begun =>
    some (store, { task with stage := .returned (.authenticated (store.keys.lookup keyHash)) })
  | _, _ => none

/-- The record that a call is about to append. -/
def KeyTask.appending (task : KeyTask) : Option KeyRecord :=
  let keyHash := hashKey sha256 task.call.rawKey
  match task.call, task.stage with
  | .mint _ _ tenant, .begun => some (.mint keyHash tenant)
  | .revoke _, .found => some (.revoke keyHash)
  | _, _ => none

/-- A call that has not returned when the process ends never does. -/
def KeyTask.kill (task : KeyTask) : KeyTask :=
  match task.stage with
  | .returned _ => task
  | _ => { task with stage := .dead }

/-- A store and the calls on it, over all the processes that open it. -/
abbrev KeyPool := Pool ApiKeyStore KeyTask

/-- A call begins, a running one takes its next step, or another process opens the store. -/
inductive KeyAction where
  | call (call : KeyCall)
  | step (task : Nat)
  /-- The one append in progress may have reached the file whole. -/
  | reopen (landed : Option Nat)
  deriving DecidableEq, Repr

/-- The log that a process leaves behind. -/
def KeyPool.left (pool : KeyPool) (landed : Option Nat) : Log KeyRecord :=
  match (landed.bind fun i => pool.tasks[i]?).bind (KeyTask.appending sha256) with
  | some record => pool.shared.wal.land record
  | none => pool.shared.wal

/-- One step of the calls on a store. -/
def KeyPool.step (pool : KeyPool) : KeyAction → Option KeyPool
  | .call call => some (pool.spawn ⟨call, .begun⟩)
  | .step i => pool.advance i (ApiKeyStore.move sha256)
  | .reopen landed => some ⟨.opened (KeyPool.left sha256 pool landed), pool.tasks.map KeyTask.kill⟩

/-- A store whose log is new. -/
def KeyPool.start : KeyPool :=
  ⟨.opened {}, []⟩

/-- A new raw key is not one generated before, and no two of the keys used have one digest. -/
def KeyPool.Distinct (pool : KeyPool) : KeyAction → Prop
  | .call call => ∀ task ∈ pool.tasks,
      (∀ rawKey ∈ call.generates, task.call.generates ≠ some rawKey) ∧
      (sha256 (asBytes task.call.rawKey) = sha256 (asBytes call.rawKey) →
        task.call.rawKey = call.rawKey)
  | _ => True

/-- A step lets a call return. -/
def KeyPool.Returns (e : Transition KeyPool KeyAction) (call : KeyCall) (result : KeyResult) : Prop :=
  ∃ i, e.act = .step i ∧ e.post.tasks[i]? = some ⟨call, .returned result⟩

end

end Qaas
