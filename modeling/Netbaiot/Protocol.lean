import Mathlib.Data.List.Lex
import Mathlib.Order.Lattice

/-!
# Public identifiers and errors

Tenant, product, device and sink names are short strings over a fixed alphabet, so
they never contain a topic separator or wildcard.  Strings are their UTF-8 bytes.
-/

namespace Netbaiot

/-- The error vocabulary of the gateway runtime. -/
inductive Error where
  | configuration
  | authentication
  | forbidden
  | invalid
  | overloaded
  | conflict
  | timeout
  | draining
  | storage
  | unsupportedRecoveryVersion (version : UInt32)
  | unavailable
  | internal
  | codec
deriving DecidableEq, Repr

/-- The longest public identifier. -/
def maxIdentifierBytes : ℕ := 64

/-- An ASCII letter or digit. -/
def isAsciiAlphanumeric (b : UInt8) : Bool :=
  (48 ≤ b && b ≤ 57) || (65 ≤ b && b ≤ 90) || (97 ≤ b && b ≤ 122)

/-- A byte that may occur in an identifier: alphanumeric or one of `_`, `-`, `.`, `:`. -/
def identifierByte (b : UInt8) : Bool :=
  isAsciiAlphanumeric b || b == 95 || b == 45 || b == 46 || b == 58

/-- The acceptance test of the identifier constructor. -/
def validIdentifier (value : List UInt8) : Bool :=
  !value.isEmpty && value.length ≤ maxIdentifierBytes && value.all identifierByte

/-- A public identifier: a nonempty bounded string over the identifier alphabet. -/
structure Identifier where
  asStr : List UInt8
  valid : validIdentifier asStr = true
deriving DecidableEq

/-- Check a string and make it an identifier. -/
def Identifier.new (value : List UInt8) : Option Identifier :=
  if h : validIdentifier value = true then some ⟨value, h⟩ else none

/-- Some identifiers of one letter. -/
def Identifier.a : Identifier := ⟨[97], by decide⟩
def Identifier.b : Identifier := ⟨[98], by decide⟩
def Identifier.c : Identifier := ⟨[99], by decide⟩
def Identifier.d : Identifier := ⟨[100], by decide⟩
def Identifier.p : Identifier := ⟨[112], by decide⟩
def Identifier.t : Identifier := ⟨[116], by decide⟩

abbrev TenantId := Identifier
abbrev ProductId := Identifier
abbrev DeviceId := Identifier
abbrev SinkId := Identifier
abbrev CodecId := Identifier

/-- Identifiers are ordered as byte strings. -/
instance : LinearOrder Identifier :=
  LinearOrder.lift' (fun id => id.asStr.map UInt8.toNat) fun a b h => by
    cases a
    cases b
    simpa [List.map_inj_right, UInt8.toNat_inj] using h

/-- The identity of a device within the gateway. -/
structure DeviceKey where
  tenantId : TenantId
  productId : ProductId
  deviceId : DeviceId
deriving DecidableEq

/-- The transports of devices. -/
inductive Transport where
  | mqtt
  | tcp
  | udp
deriving DecidableEq

/-- What a device may do: publish events, and take part in commands. -/
structure Permissions where
  publish : Bool
  commands : Bool
deriving DecidableEq

/-- A device whose credential was checked, with the profile it was granted. -/
structure AuthenticatedDevice where
  deviceKey : DeviceKey
  credentialVersion : UInt32
  authGeneration : UInt64
  codecId : CodecId
  codecVersion : UInt16
  permissions : Permissions
deriving DecidableEq

/-- Which sessions a change of the authentication source ends. -/
inductive AuthInvalidation where
  | device (device : DeviceKey)
  | product (tenantId : TenantId) (productId : ProductId)
  | tenant (tenantId : TenantId)
  | credentialVersion (version : UInt32)
  | authGeneration (generation : UInt64)
  | all
deriving DecidableEq

/-- A 128-bit event identity. -/
structure EventId where
  uuid : BitVec 128
deriving DecidableEq

/-- Event identities are ordered as their bytes, most significant first. -/
instance : LinearOrder EventId :=
  LinearOrder.lift' (fun id => id.uuid.toNat) fun a b h => by
    cases a
    cases b
    simpa [BitVec.toNat_inj] using h

/-- An identifier has between one and sixty-four bytes. -/
theorem Identifier.length_bounds (id : Identifier) :
    1 ≤ id.asStr.length ∧ id.asStr.length ≤ maxIdentifierBytes := by
  have hall := id.valid
  simp only [validIdentifier, Bool.and_eq_true, decide_eq_true_eq, Bool.not_eq_true',
    List.isEmpty_eq_false_iff] at hall
  exact ⟨List.length_pos_iff.mpr hall.1.1, hall.1.2⟩

end Netbaiot
