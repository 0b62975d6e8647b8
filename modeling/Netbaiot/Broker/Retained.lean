import Netbaiot.Broker.Accounts

/-!
# Retained messages and reservations

One message per topic is retained and charged to the tenant of its publisher.  An
accepted QoS 2 publish or Will promises a later retained update, so it reserves the
whole slot and charge in advance.
-/

namespace Netbaiot.Broker

open Lib Mqtt

/-- Change the retained store. -/
def modifyRetained (f : RetainedStore → RetainedStore) : BrokerM Unit :=
  modify fun s => { s with retained := f s.retained }

variable (r : RetainedStore)

/-- The retained count and bytes of a tenant. -/
def RetainedStore.tenant (tenant : TenantId) : ℕ × ℕ :=
  (r.tenantUsage.lookup tenant).getD (0, 0)

/-- The reserved count and bytes of a tenant. -/
def RetainedStore.reserved (tenant : TenantId) : ℕ × ℕ :=
  (r.reservedTenants.lookup tenant).getD (0, 0)

def retainedUsageAdd (retained : RetainedMessage) : BrokerM Unit :=
  modifyRetained fun r =>
    let current := r.tenant retained.tenantId
    { r with
      tenantUsage := r.tenantUsage.insert retained.tenantId
        (current.1 + 1, current.2 + retained.bytes) }

def retainedUsageRemove (retained : RetainedMessage) : BrokerM Unit := do
  let s ← get
  let usage ← Op.someOr (s.retained.tenantUsage.lookup retained.tenantId) .internal
  Op.ensure (1 ≤ usage.1) .internal
  modifyRetained fun r => { r with
    tenantUsage := r.tenantUsage.insert retained.tenantId (usage.1 - 1, usage.2) }
  Op.ensure (retained.bytes ≤ usage.2) .internal
  modifyRetained fun r => { r with
    tenantUsage := r.tenantUsage.put retained.tenantId
      (if usage.1 - 1 = 0 then none else some (usage.1 - 1, usage.2 - retained.bytes)) }

/-- Whether a retained publish fits, with the entry it replaces given back. -/
def checkRetainedUpdate (s : BrokerState) (owner : DeviceKey) (origin : Option SessionKey)
    (message : BrokerMessage) (limits : Limits) : Bool :=
  if message.payload.isEmpty then true
  else if message.payload.length > limits.maxRetainedMessageBytes then false
  else
    let r := s.retained
    let existing := r.entries.lookup message.topic
    let oldBytes := (existing.map RetainedMessage.bytes).getD 0
    let oldSameTenant := existing.any fun old => old.tenantId = owner.tenantId
    let (tenantCount, tenantBytes) := r.tenant owner.tenantId
    let newBytes := retainedCharge message origin
    let (reservedCount, reservedBytes) := r.reserved owner.tenantId
    !((existing.isNone && r.entries.size + r.reservedCount ≥ limits.maxRetainedMessages) ||
      (!oldSameTenant && tenantCount + reservedCount ≥ limits.maxRetainedMessagesPerTenant) ||
      r.bytes - oldBytes + newBytes + r.reservedBytes > limits.maxRetainedBytes ||
      tenantBytes - (if oldSameTenant then oldBytes else 0) + newBytes + reservedBytes >
        limits.maxRetainedBytesPerTenant)

def updateRetainedExpiry (topic : Text) (deadline : Option Int64) : BrokerM Unit :=
  modify fun s => { s with
    deadlines := { s.deadlines with retained := s.deadlines.retained.update topic deadline } }

/-- Remove the usage of an entry that was there. -/
def releaseUsage : Option RetainedMessage → BrokerM Unit
  | none => pure ()
  | some old => retainedUsageRemove old

/-- Store the message of a retain publish, or with an empty payload delete its topic. -/
def updateRetained (owner : DeviceKey) (origin : Option SessionKey) (message : BrokerMessage)
    (limits : Limits) : BrokerM Unit := do
  let s ← get
  let old := s.retained.entries.lookup message.topic
  if message.payload.isEmpty then
    modifyRetained fun r => { r with
      entries := r.entries.erase message.topic
      bytes := r.bytes - (old.map RetainedMessage.bytes).getD 0 }
    releaseUsage old
    updateRetainedExpiry message.topic none
  else
    Op.ensure (checkRetainedUpdate s owner origin message limits) .overloaded
    modifyRetained fun r => { r with entries := r.entries.erase message.topic }
    releaseUsage old
    let oldBytes := (old.map RetainedMessage.bytes).getD 0
    modifyRetained fun r => { r with bytes := r.bytes - oldBytes + retainedCharge message origin }
    let retained : RetainedMessage := ⟨owner.tenantId, message, origin⟩
    retainedUsageAdd retained
    modifyRetained fun r => { r with entries := r.entries.insert message.topic retained }
    updateRetainedExpiry message.topic message.properties.expiresAtMs

namespace RetainedStore

/-- Add a reservation to the reserved counters. -/
def addReservation (tenant : TenantId) (reservation : RetainedReservation) : RetainedStore :=
  if reservation = {} then r
  else
    let current := r.reserved tenant
    { r with
      reservedCount := r.reservedCount + reservation.globalCount
      reservedBytes := r.reservedBytes + reservation.globalBytes
      reservedTenants := r.reservedTenants.insert tenant
        (current.1 + reservation.tenantCount, current.2 + reservation.tenantBytes) }

/-- Take a reservation out of the reserved counters. -/
def releaseReservation (tenant : TenantId) (reservation : RetainedReservation) : RetainedStore :=
  if reservation = {} then r
  else
    { r with
      reservedCount := r.reservedCount - reservation.globalCount
      reservedBytes := r.reservedBytes - reservation.globalBytes
      reservedTenants :=
        match r.reservedTenants.lookup tenant with
        | none => r.reservedTenants
        | some reserved =>
            let left := (reserved.1 - reservation.tenantCount, reserved.2 - reservation.tenantBytes)
            r.reservedTenants.put tenant (if left = (0, 0) then none else some left) }

end RetainedStore

def addRetainedReservation (tenant : TenantId) (reservation : RetainedReservation) : BrokerM Unit :=
  modifyRetained fun r => r.addReservation tenant reservation

def releaseRetainedReservation (tenant : TenantId) (reservation : RetainedReservation) :
    BrokerM Unit :=
  modifyRetained fun r => r.releaseReservation tenant reservation

/-- Reserve the slot and charge of a promised retained update. -/
def reserveRetained (tenant : TenantId) (origin : Option SessionKey) (message : BrokerMessage)
    (limits : Limits) : BrokerM RetainedReservation := do
  if !message.retain || message.payload.isEmpty then return {}
  else
    Op.ensure (message.payload.length ≤ limits.maxRetainedMessageBytes) .overloaded
    let bytes := retainedCharge message origin
    let reservation : RetainedReservation := ⟨1, bytes, 1, bytes⟩
    let s ← get
    let r := s.retained
    let (tenantCount, tenantBytes) := r.tenant tenant
    let reserved := r.reserved tenant
    Op.ensure
      (r.entries.size + r.reservedCount + reservation.globalCount ≤ limits.maxRetainedMessages ∧
        r.bytes + r.reservedBytes + reservation.globalBytes ≤ limits.maxRetainedBytes ∧
        tenantCount + reserved.1 + reservation.tenantCount ≤ limits.maxRetainedMessagesPerTenant ∧
        tenantBytes + reserved.2 + reservation.tenantBytes ≤ limits.maxRetainedBytesPerTenant)
      .overloaded
    modifyRetained fun r => r.addReservation tenant reservation
    return reservation

end Netbaiot.Broker
