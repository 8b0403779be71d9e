import Mathlib.Data.List.Basic

/-! The names that may become part of a path. -/

namespace Qaas

/-- The characters of a tenant's identifier and of a queue's name. -/
def isNameChar (c : Char) : Bool :=
  c.isAlphanum || c == '-' || c == '_'

/-- The longest a tenant's identifier is allowed to be, in bytes. -/
def maxTenantIdLen : Nat := 128

/-- Whom a request is acting on behalf of, a plain identifier by construction. -/
structure TenantId where
  value : String
  nonempty : value.isEmpty = false
  short : value.utf8ByteSize ≤ maxTenantIdLen
  plain : value.toList.all isNameChar = true
  deriving DecidableEq, Repr

/-- An identifier was empty, too long, or held another character. -/
inductive InvalidTenantId
  | invalidTenantId
  deriving DecidableEq, Repr

/-- Validate an identifier. -/
def TenantId.new (value : String) : Except InvalidTenantId TenantId :=
  if valid : value.isEmpty = false ∧ value.utf8ByteSize ≤ maxTenantIdLen ∧
      value.toList.all isNameChar = true then
    .ok ⟨value, valid.1, valid.2.1, valid.2.2⟩
  else .error .invalidTenantId

/-- An identifier as a string slice. -/
def TenantId.asStr (tenant : TenantId) : String :=
  tenant.value

/-- A tenant to try things with. -/
def acme : TenantId :=
  ⟨"acme", by decide, by decide, by decide⟩

/-- An identifier is known by its text. -/
theorem TenantId.asStr_injective : Function.Injective TenantId.asStr := by
  intro first second same
  cases first
  cases second
  -- The proofs that the text is valid are equal as soon as the texts are.
  obtain rfl : _ = _ := same
  rfl

/-- Validation accepts exactly the texts of identifiers, and keeps them. -/
theorem TenantId.new_eq_ok {value : String} {tenant : TenantId} :
    TenantId.new value = .ok tenant ↔ tenant.asStr = value := by
  unfold TenantId.new
  constructor
  · intro accepted
    split at accepted
    · -- The accepted value is stored as it is.
      obtain rfl := Except.ok.inj accepted
      rfl
    · cases accepted
  · rintro rfl
    rw [dif_pos ⟨tenant.nonempty, tenant.short, tenant.plain⟩]
    rfl

end Qaas
