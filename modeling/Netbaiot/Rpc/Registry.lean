import Netbaiot.Lib.Op
import Netbaiot.Lib.Table
import Netbaiot.Protocol

/-!
# The registry of the business provider

At most one provider is registered at a time.  Its epoch fences late responses and old
disconnects; its revision fences responses that were computed from older data.  A call
leaves a pending entry behind and waits outside the lock; the entry holds the permits of
the call and the sender of its result, so dropping the entry gives both back.
-/

namespace Netbaiot.Rpc

open Lib

/-- The methods a provider answers; every other name is refused. -/
inductive Method where
  | deviceAuthenticate
  | deviceResolveVerifier
  | other (name : List UInt8)
deriving DecidableEq

/-- The parts of a device identity that the registry checks. -/
structure AuthenticatedDeviceWire where
  deviceKey : DeviceKey
  authRevision : ℕ

/-- The tenants a provider may answer for. -/
structure BusinessProviderScope where
  all : Bool
  tenants : List TenantId

def BusinessProviderScope.allows (scope : BusinessProviderScope) (tenant : TenantId) : Bool :=
  scope.all || scope.tenants.contains tenant

structure Provider where
  scope : BusinessProviderScope
  epoch : UInt64
  serving : Bool
  revision : ℕ
  expiresAtMs : Option Int64

/-- The authorization of the provider has not expired. -/
def Provider.authorizedAt (p : Provider) (nowMs : Int64) : Bool :=
  p.expiresAtMs.all fun expiry => nowMs < expiry

/-- A provider that may be called, or whose answers count. -/
def Provider.available (p : Provider) (nowMs : Int64) : Bool := p.serving && p.authorizedAt nowMs

abbrev RequestId := BitVec 128

/-- Pending calls are found by the epoch of their provider and their request. -/
abbrev PendingKey := UInt64 × RequestId

abbrev CallId := ℕ

/-- A call that waits for its answer: who receives the result, and the bytes it is charged. -/
structure Pending where
  method : Method
  deadline : ℕ
  minRevision : ℕ
  result : CallId
  bytes : ℕ

/-- What is sent to the provider. -/
inductive BusinessRpcCall where
  | request (id : RequestId) (method : Method)
  | cancel (id : RequestId)

/-- A message to the provider, queued or being written; it holds its byte permits. -/
structure BusinessRpcOutbound where
  call : BusinessRpcCall
  bytes : ℕ

/-- What the offline watcher observes. -/
structure ProviderStatus where
  epoch : UInt64
  serving : Bool
  transition : UInt64
  changedAt : ℕ

/-- The registry: its locked state, its status, and the permits that are available. -/
structure Registry where
  provider : Option Provider
  pending : Table PendingKey Pending
  status : ProviderStatus
  nextEpoch : UInt64
  pendingSlots : ℕ
  pendingBytes : ℕ
  outbound : List BusinessRpcOutbound

/-- A registry with all its permits. -/
def Registry.new (maxPending maxBytes instant : ℕ) : Registry where
  provider := none
  pending := ∅
  status := ⟨0, false, 0, instant⟩
  nextEpoch := 1
  pendingSlots := maxPending
  pendingBytes := maxBytes
  outbound := []

abbrev RegistryM := Op Registry Error

namespace Registry

/-- Remember a change of the serving state. -/
def updateStatus (r : Registry) (epoch : UInt64) (serving : Bool) (instant : ℕ) : Registry :=
  let previous := r.status
  { r with status :=
    { epoch
      serving
      transition :=
        if previous.serving = serving then previous.transition else previous.transition + 1
      changedAt := if previous.serving = serving then previous.changedAt else instant } }

/-- Drop a pending entry, with its permits and the sender of its result. -/
def dropPending (r : Registry) (key : PendingKey) : Registry :=
  match r.pending.lookup key with
  | none => r
  | some p =>
      { r with
        pending := r.pending.erase key
        pendingSlots := r.pendingSlots + 1
        pendingBytes := r.pendingBytes + p.bytes }

/-- Drop the pending entries of an epoch. -/
def dropEpoch (r : Registry) (epoch : UInt64) : Registry :=
  (r.pending.keys.filter fun key => key.1 = epoch).foldl dropPending r

/-- Replace the registered provider. -/
def setProvider (r : Registry) (p : Option Provider) : Registry := { r with provider := p }

/-- Make an entry pending; an entry under the same key is dropped. -/
def insertPending (r : Registry) (key : PendingKey) (p : Pending) : Registry :=
  { r.dropPending key with pending := (r.dropPending key).pending.insert key p }

end Registry

/-- The registered provider if it has the given epoch. -/
def currentProvider (epoch : UInt64) : RegistryM Provider := do
  let r ← get
  Op.someOr (r.provider.filter fun p => p.epoch = epoch) .unavailable

/-- Register a provider and lease it a new epoch. -/
def registerWithExpiry (scope : BusinessProviderScope) (expiresAtMs : Option Int64) (instant : ℕ) :
    RegistryM UInt64 := do
  let r ← get
  Op.ensure (r.provider.isNone = true) .conflict
  let epoch := r.nextEpoch
  set (({ r with nextEpoch := epoch + 1 }.setProvider
    (some ⟨scope, epoch, false, 0, expiresAtMs⟩)).updateStatus epoch false instant)
  return epoch

/-- The provider of a lease begins to serve a revision. -/
def markServing (epoch : UInt64) (revision : ℕ) (nowMs : Int64) (instant : ℕ) : RegistryM Unit := do
  let p ← currentProvider epoch
  Op.ensure (p.authorizedAt nowMs = true) .forbidden
  Op.ensure (revision ≠ 0) .invalid
  Op.ensure (p.revision ≤ revision) .conflict
  modify fun r => (r.setProvider (some { p with revision, serving := true })).updateStatus
    epoch true instant

/-- The provider of a lease stops serving until it has synchronized again. -/
def markSyncing (epoch : UInt64) (instant : ℕ) : RegistryM Unit := do
  let p ← currentProvider epoch
  modify fun r => ((r.setProvider (some { p with serving := false, revision := 0 })).dropEpoch
    epoch).updateStatus epoch false instant

/-- The provider of a lease serves a newer revision. -/
def advanceRevision (epoch : UInt64) (revision : ℕ) : RegistryM Unit := do
  let p ← currentProvider epoch
  Op.ensure (p.serving = true ∧ p.revision < revision) .conflict
  modify fun r => (r.setProvider (some { p with revision })).dropEpoch epoch

/-- A lease was dropped. -/
def release (epoch : UInt64) (instant : ℕ) : RegistryM Unit :=
  modify fun r =>
    if (r.provider.filter fun p => p.epoch = epoch).isSome then
      ((r.setProvider none).dropEpoch epoch).updateStatus epoch false instant
    else r

/-! ## Responses -/

section Responses

variable {Body : Type} (decode : Method → Body → Option AuthenticatedDeviceWire)

/-- The check of a response body against the scope and the revision of its call. -/
def checkBody (scope : BusinessProviderScope) (minRevision : ℕ) (method : Method) (body : Body) :
    Except Error Body :=
  match method with
  | .other _ => .error .invalid
  | method =>
      match decode method body with
      | none => .error .invalid
      | some identity =>
          if identity.authRevision < minRevision ∨
              scope.allows identity.deviceKey.tenantId = false then .error .invalid
          else .ok body

/-- A response arrives: what is sent to which call, if anything, and the registry after it.
Unknown, stale and late responses and those with another method are refused. -/
def complete (r : Registry) (epoch : UInt64) (id : RequestId) (method : Method)
    (result : Except Error Body) (instant : ℕ) (nowMs : Int64) :
    Option (CallId × Except Error Body) × Registry :=
  match r.pending.lookup (epoch, id) with
  | none => (none, r)
  | some pending =>
      if pending.method ≠ method then (none, r)
      else if pending.deadline ≤ instant then
        (some (pending.result, .error .timeout), r.dropPending (epoch, id))
      else
        match r.provider.filter fun p => p.epoch = epoch ∧ p.available nowMs = true ∧
            p.revision = pending.minRevision with
        | none => (none, r)
        | some provider =>
            (some (pending.result,
                result.bind (checkBody decode provider.scope pending.minRevision method)),
              r.dropPending (epoch, id))

end Responses

end Netbaiot.Rpc
