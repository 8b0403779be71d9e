import Qaas.Auth.Lifecycle
import Qaas.Wal.Reading

/-! The log of the API keys as derived code reads it, and opening a store on an arbitrary file. -/

namespace Qaas

open Serde

variable {T V : Type}

/-- A tenant's identifier as derived code reads it: the text as it is, without the check of
`new`. -/
structure TenantText where
  value : String
  deriving DecidableEq, Repr

/-- Whether the constructor of identifiers would accept the text. -/
def TenantText.Accepted (tenant : TenantText) : Prop :=
  ∃ accepted, TenantId.new tenant.value = .ok accepted

/-- An identifier is read as a text. -/
def TenantText.decoder : Decoder TenantText :=
  Decoder.text.newtype .mk

/-- The fields of a `Mint` record. -/
inductive MintField where
  | keyHash
  | tenant
  deriving DecidableEq

/-- How a `Mint` record is read. -/
def KeyRecord.mintShape : Shape MintField where
  Value
    | .keyHash => String
    | .tenant => TenantText
  fields := [.keyHash, .tenant]
  name
    | .keyHash => "key_hash"
    | .tenant => "tenant"
  decoder
    | .keyHash => .text
    | .tenant => TenantText.decoder
  nodup := by decide
  complete field := by cases field <;> decide
  name_injective field other same := by cases field <;> cases other <;> first | rfl | simp at same

/-- A `Mint` record is read from its fields. -/
def KeyRecord.mintDecoder : Decoder (KeyRecord TenantText) where
  decode json := do
    let slots ← mintShape.visit json
    let keyHash ← mintShape.take slots .keyHash
    let tenant ← mintShape.take slots .tenant
    return .mint keyHash tenant

/-- The field of a `Revoke` record. -/
inductive RevokeField where
  | keyHash
  deriving DecidableEq

/-- How a `Revoke` record is read. -/
def KeyRecord.revokeShape : Shape RevokeField where
  Value _ := String
  fields := [.keyHash]
  name _ := "key_hash"
  decoder _ := .text
  nodup := by decide
  complete field := by cases field; decide
  name_injective field other _ := by cases field; cases other; rfl

/-- A `Revoke` record is read from its field. -/
def KeyRecord.revokeDecoder : Decoder (KeyRecord TenantText) where
  decode json := do
    let slots ← revokeShape.visit json
    let keyHash ← revokeShape.take slots .keyHash
    return .revoke keyHash

/-- One record of the log of the keys. -/
def KeyRecord.decoder : Decoder (KeyRecord TenantText) :=
  .tagged [{ name := "Mint", content := mintDecoder }, { name := "Revoke", content := revokeDecoder }]

/-- Open a store on the file of its log. -/
def ApiKeyStore.openFile (wire : LogWire T V) (wal : Reader) :
    Except IoError (ApiKeyStore TenantText) := do
  let (_, records) ← openWal (wire.reading KeyRecord.decoder) wal
  return .opened { records }

/-- A key is minted for the tenant, and no later record is about its hash. -/
def StillMinted {Tenant : Type} (records : List (KeyRecord Tenant)) (tenant : Tenant) : Prop :=
  ∃ before keyHash after, records = before ++ .mint keyHash tenant :: after ∧
    ∀ record ∈ after, record.keyHash ≠ keyHash

/-- A store holds a tenant when a key is valid for it. -/
def ApiKeyStore.HoldsTenant {Tenant : Type} (store : ApiKeyStore Tenant) (tenant : Tenant) : Prop :=
  ∃ keyHash, store.keys.lookup keyHash = some tenant

/-- What makes a text no identifier: it is empty, too long, or has a character of a path. -/
def TenantText.Malformed (tenant : TenantText) : Prop :=
  tenant.value = "" ∨ maxTenantIdLen < tenant.value.utf8ByteSize ∨
    ∃ c ∈ tenant.value.toList, isNameChar c = false

/-- The constructor refuses the malformed texts, and no others. -/
theorem TenantText.accepted_iff {tenant : TenantText} : tenant.Accepted ↔ ¬ tenant.Malformed := by
  have valid : tenant.Accepted ↔ tenant.value.isEmpty = false ∧ tenant.value.utf8ByteSize ≤ maxTenantIdLen ∧
      tenant.value.toList.all isNameChar = true := by
    rw [Accepted, TenantId.new]
    split
    · rename_i holds
      exact iff_of_true ⟨_, rfl⟩ holds
    · rename_i fails
      refine iff_of_false ?_ fails
      rintro ⟨_, accepted⟩
      cases accepted
  -- Each of the three checks that fails is one of the three faults.
  rw [valid, Malformed]
  simp [not_or]

/-- A store opens on a file exactly as what that contains. -/
theorem ApiKeyStore.openFile_eq_ok {wire : LogWire T V} {wal : Reader} {store : ApiKeyStore TenantText} :
    openFile wire wal = .ok store ↔
      ∃ records, Contains (wire.reading KeyRecord.decoder) wal.file records ∧ store = .opened { records } := by
  -- Opening fails only where the file does.
  constructor
  · intro opened
    obtain ⟨⟨_, records⟩, main, made⟩ := bind_eq_ok.mp opened
    exact ⟨records, contains_of_openWal main, (Except.ok.inj made).symm⟩
  · rintro ⟨records, contains, rfl⟩
    obtain ⟨_, opened⟩ := contains.opens wal.splits
    exact bind_eq_ok.mpr ⟨_, opened, rfl⟩

variable {Tenant : Type}

/-- The tenants that an opened store holds are those for whom its log leaves a key minted. -/
theorem holdsTenant_opened_iff (records : List (KeyRecord Tenant)) (tenant : Tenant) :
    (ApiKeyStore.opened { records }).HoldsTenant tenant ↔ StillMinted records tenant := by
  -- Some hash has the tenant, and the last record about that hash says so.
  simp only [ApiKeyStore.HoldsTenant, ApiKeyStore.opened, Log.reopen, Keys.lookup_replay]
  constructor
  · rintro ⟨keyHash, before, after, same, kept⟩
    exact ⟨before, keyHash, after, same, kept⟩
  · rintro ⟨before, keyHash, after, same, kept⟩
    exact ⟨keyHash, before, after, same, kept⟩

end Qaas
