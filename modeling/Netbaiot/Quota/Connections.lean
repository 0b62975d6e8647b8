import Mathlib.Logic.Function.Basic
import Netbaiot.Lib.Run
import Netbaiot.Lib.Table
import Netbaiot.Limits

/-!
# Connection quotas

A connection holds a slot and a fixed reservation of bytes from its first packet on, and is
counted by peer address, then by protocol and by device and tenant as it becomes known.  Its
read buffers are charged to the same bytes and, once the tenant is known, to the tenant; a
decoded frame may keep its buffer, and the charge, after the connection is gone.  Slots and
bytes are semaphores outside the lock of the counts, so each acquisition and release is a
step of its own; everything under the lock is one step.  A read account is named by the
connection that made it.
-/

namespace Netbaiot.Quota

open Lib

/-- The address of a peer. -/
inductive IpAddr where
  | v4 (octets : BitVec 32)
  | v6 (octets : BitVec 128)
deriving DecidableEq

/-- What is counted for a tenant. -/
@[ext]
structure TenantConnections where
  connections : ℕ
  readBytes : ℕ
deriving DecidableEq

/-- The counts under the lock. -/
structure ConnectionCounts where
  ips : Table IpAddr ℕ
  tenants : Table TenantId TenantConnections
  devices : Table DeviceKey ℕ
  transports : Transport → ℕ
  deviceTransports : Transport → ℕ

/-- A connection.  It is pending until its protocol is known or it becomes a management
connection. -/
structure ConnectionLease where
  ip : IpAddr
  device : Option DeviceKey
  transport : Option Transport
  deviceIngress : Bool
  pending : Bool

/-- The read account of a connection. -/
structure ReadAllocationState where
  tenant : Option TenantId
  capacity : ℕ
  replacing : Bool

/-- A charged read buffer. -/
structure ReadAllocationPermit where
  state : ℕ
  capacity : ℕ

/-- A replacement of one read buffer by another, with the new one until it is dropped. -/
structure ReadAllocationReplacement where
  state : ℕ
  allocation : Option ReadAllocationPermit

/-- What a call holds that is reserving a connection, or that has ended one. -/
inductive Held where
  | slot (ip : IpAddr) (deviceIngress : Bool)
  | reserved (ip : IpAddr) (deviceIngress : Bool)
  | dropping (slot : Bool) (bytes : ℕ)

/-- The semaphores, the counts, and everything that is charged to them. -/
structure Connections where
  slots : ℕ
  memory : ℕ
  counts : ConnectionCounts
  leases : Table ℕ ConnectionLease
  readStates : Table ℕ ReadAllocationState
  permits : Table ℕ ReadAllocationPermit
  replacements : Table ℕ ReadAllocationReplacement
  held : Table ℕ Held
  -- bytes of dropped read buffers that are about to be given back
  releasing : Table ℕ ℕ

/-- No connections yet. -/
def Connections.new (limits : Limits) : Connections where
  slots := limits.maxConnections
  memory := limits.globalConnectionLogicalBytes
  counts := ⟨∅, ∅, ∅, fun _ => 0, fun _ => 0⟩
  leases := ∅
  readStates := ∅
  permits := ∅
  replacements := ∅
  held := ∅
  releasing := ∅

/-! ## Counts -/

section Count

variable {κ : Type} [DecidableEq κ]

/-- The count of a key. -/
def countOf (counts : Table κ ℕ) (key : κ) : ℕ := (counts.lookup key).getD 0

/-- Count one less, and forget a key that is not counted any more. -/
def decrement (counts : Table κ ℕ) (key : κ) : Table κ ℕ :=
  match counts.lookup key with
  | some count => if count - 1 = 0 then counts.erase key else counts.insert key (count - 1)
  | none => counts

end Count

variable (c : ConnectionCounts)

namespace ConnectionCounts

/-- What is counted for a tenant. -/
def tenantOf (tenant : TenantId) : TenantConnections :=
  (c.tenants.lookup tenant).getD ⟨0, 0⟩

/-- Forget a tenant with neither connections nor read bytes. -/
def pruneConnectionTenant (tenant : TenantId) : ConnectionCounts :=
  if c.tenants.lookup tenant = some ⟨0, 0⟩ then { c with tenants := c.tenants.erase tenant } else c

/-- Change what is counted for a tenant that has an entry. -/
def modifyTenant (tenant : TenantId)
    (f : TenantConnections → TenantConnections) : ConnectionCounts :=
  match c.tenants.lookup tenant with
  | some entry => { c with tenants := c.tenants.insert tenant (f entry) }
  | none => c

/-- Take the device of a connection from the counts. -/
def dropDevice (device : DeviceKey) : ConnectionCounts :=
  let c := c.modifyTenant device.tenantId fun entry =>
    { entry with connections := entry.connections - 1 }
  let c := c.pruneConnectionTenant device.tenantId
  { c with devices := decrement c.devices device }

/-- Take the protocol of a connection from the counts. -/
def dropTransport (transport : Transport) (deviceIngress : Bool) : ConnectionCounts :=
  { c with
    transports := Function.update c.transports transport (c.transports transport - 1)
    deviceTransports :=
      if deviceIngress then
        Function.update c.deviceTransports transport (c.deviceTransports transport - 1)
      else c.deviceTransports }

/-- Take a connection from the counts. -/
def dropLease (lease : ConnectionLease) : ConnectionCounts :=
  let c := { c with ips := decrement c.ips lease.ip }
  let c := match lease.device with
    | some device => c.dropDevice device
    | none => c
  match lease.transport with
  | some transport => c.dropTransport transport lease.deviceIngress
  | none => c

end ConnectionCounts

/-- The bytes of a tenant must stay within its limit. -/
def checkConnectionTenantBytes (limits : Limits) (connections readBytes : ℕ) :
    Except Error Unit := do
  let some fixed := checkedMul 64 connections limits.connectionMemoryReservation
    | .error .overloaded
  let some total := checkedAdd 64 fixed readBytes | .error .overloaded
  check (total ≤ limits.maxConnectionBytesPerTenant) .overloaded

/-- Bytes that a semaphore of so many free bytes gives at once. -/
def reserve (memory bytes : ℕ) : Except Error ℕ := do
  check (bytes < 2 ^ 32) .overloaded
  check (bytes ≤ memory) .overloaded
  return memory - bytes

namespace Connections

variable (limits : Limits) (s : Connections)

/-! ## The life of a connection -/

/-- A connection ends: it leaves the counts, and its slot and bytes are given back after that. -/
def closeLease (id : ℕ) (lease : ConnectionLease) : Connections :=
  { s with
    counts := s.counts.dropLease lease
    leases := s.leases.erase id
    held := s.held.insert id (.dropping true limits.connectionMemoryReservation) }

/-- Under the lock, a reserved connection is counted for its peer or refused. -/
def enter (id : ℕ) (ip : IpAddr) (deviceIngress : Bool) : Connections :=
  if limits.maxConnectionsPerIp ≤ countOf s.counts.ips ip then
    { s with held := s.held.insert id (.dropping true limits.connectionMemoryReservation) }
  else
    { s with
      counts := { s.counts with ips := s.counts.ips.insert ip (countOf s.counts.ips ip + 1) }
      leases := s.leases.insert id ⟨ip, none, none, deviceIngress, true⟩
      held := s.held.erase id }

/-- The protocol of a pending connection is known.  A connection that is refused ends. -/
def classify (id : ℕ) (lease : ConnectionLease) (transport : Transport) : Connections :=
  if lease.deviceIngress = true ∧ (transport = .udp ∨
      limits.maxDeviceConnectionsPerProtocol ≤ s.counts.deviceTransports transport) then
    s.closeLease limits id lease
  else
    { s with
      counts := { s.counts with
        deviceTransports :=
          if lease.deviceIngress then
            Function.update s.counts.deviceTransports transport
              (s.counts.deviceTransports transport + 1)
          else s.counts.deviceTransports
        transports :=
          Function.update s.counts.transports transport (s.counts.transports transport + 1) }
      leases := s.leases.insert id { lease with transport := some transport, pending := false } }

/-- A pending connection becomes a management connection, unless it came in for devices. -/
def intoManagement (id : ℕ) (lease : ConnectionLease) : Connections :=
  if lease.deviceIngress then s.closeLease limits id lease
  else { s with leases := s.leases.insert id { lease with pending := false } }

/-- The read bytes that become the tenant's when a connection is authenticated. -/
def newlyBoundBytes (id : ℕ) (tenant : TenantId) : Except Error ℕ :=
  match s.readStates.lookup id with
  | some state =>
    match state.tenant with
    | some bound => if bound = tenant then .ok 0 else .error .forbidden
    | none => .ok state.capacity
  | none => .ok 0

/-- The device of a connection is known. -/
def authenticate (id : ℕ) (lease : ConnectionLease) (device : DeviceKey) :
    Except Error Connections := do
  if lease.device = some device then return s
  check (lease.device = none) .forbidden
  let tenant := s.counts.tenantOf device.tenantId
  check (tenant.connections < limits.maxConnectionsPerTenant ∧
    countOf s.counts.devices device < limits.maxConnectionsPerDevice) .overloaded
  let newlyBound ← s.newlyBoundBytes id device.tenantId
  let some readBytes := checkedAdd 64 tenant.readBytes newlyBound | .error .overloaded
  let some connections := checkedAdd 64 tenant.connections 1 | .error .overloaded
  checkConnectionTenantBytes limits connections readBytes
  return { s with
    counts := { s.counts with
      tenants := s.counts.tenants.insert device.tenantId ⟨connections, readBytes⟩
      devices := s.counts.devices.insert device (countOf s.counts.devices device + 1) }
    readStates :=
      match s.readStates.lookup id with
      | some state => s.readStates.insert id { state with tenant := some device.tenantId }
      | none => s.readStates
    leases := s.leases.insert id { lease with device := some device } }

/-! ## Read buffers -/

/-- The read account of a connection, made when it is first asked for. -/
def readBudget (id : ℕ) (lease : ConnectionLease) : Connections :=
  match s.readStates.lookup id with
  | some _ => s
  | none =>
    { s with
      readStates := s.readStates.insert id ⟨lease.device.map DeviceKey.tenantId, 0, false⟩ }

/-- A read account is bound to the tenant of a device. -/
def bindReader (id : ℕ) (state : ReadAllocationState) (device : DeviceKey) :
    Except Error Connections :=
  match state.tenant with
  | some bound => if bound = device.tenantId then .ok s else .error .forbidden
  | none => do
    let some tenant := s.counts.tenants.lookup device.tenantId | .error .invalid
    let some bytes := checkedAdd 64 tenant.readBytes state.capacity | .error .overloaded
    checkConnectionTenantBytes limits tenant.connections bytes
    return { s with
      counts := { s.counts with
        tenants := s.counts.tenants.insert device.tenantId { tenant with readBytes := bytes } }
      readStates := s.readStates.insert id { state with tenant := some device.tenantId } }

/-- The tenant of a read account can take more read bytes. -/
def checkTenant (state : ReadAllocationState) (additional : ℕ) : Except Error Unit :=
  match state.tenant with
  | some id => do
    let some tenant := s.counts.tenants.lookup id | .error .invalid
    let some bytes := checkedAdd 64 tenant.readBytes additional | .error .overloaded
    checkConnectionTenantBytes limits tenant.connections bytes
  | none => .ok ()

/-- Charge bytes to a read account, its tenant and the whole gateway. -/
def charge (id : ℕ) (state : ReadAllocationState) (additional memory : ℕ) (replacing : Bool) :
    Connections :=
  { s with
    memory := memory
    counts :=
      match state.tenant with
      | some tenant => s.counts.modifyTenant tenant fun entry =>
          { entry with readBytes := entry.readBytes + additional }
      | none => s.counts
    readStates := s.readStates.insert id
      { state with capacity := state.capacity + additional, replacing := replacing } }

/-- Reserve a read buffer, or the successor of one with a given capacity. -/
def reserveAllocationInner (id : ℕ) (state : ReadAllocationState) (capacity : ℕ)
    (previous : Option ℕ) : Except Error Connections := do
  check (state.replacing = false) .overloaded
  let some nextCapacity := checkedAdd 64 state.capacity capacity | .error .overloaded
  check (previous.getD 0 ≤ nextCapacity) .invalid
  check (capacity ≤ limits.maxReadBufferPerConnection ∧
    nextCapacity - previous.getD 0 ≤ limits.maxReadBufferPerConnection) .overloaded
  s.checkTenant limits state capacity
  let memory ← reserve s.memory capacity
  return s.charge id state capacity memory previous.isSome

/-- Reserve the larger capacity of a read buffer in place. -/
def expandAllocation (id : ℕ) (state : ReadAllocationState) (permit : ℕ)
    (previous : ReadAllocationPermit) (capacity : ℕ) : Except Error Connections := do
  check (previous.state = id) .invalid
  check (previous.capacity ≤ capacity) .invalid
  let additional := capacity - previous.capacity
  let some next := checkedAdd 64 state.capacity additional | .error .overloaded
  check (state.replacing = false ∧ next ≤ limits.maxReadBufferPerConnection) .overloaded
  s.checkTenant limits state additional
  let memory ← reserve s.memory additional
  return { s.charge id state additional memory false with
    permits := s.permits.insert permit { previous with capacity := capacity } }

/-- Take a dropped read buffer from its account and its tenant. -/
def discharge (permit : ReadAllocationPermit) : Connections :=
  match s.readStates.lookup permit.state with
  | some state =>
    { s with
      counts :=
        match state.tenant with
        | some tenant =>
          (s.counts.modifyTenant tenant fun entry =>
            { entry with readBytes := entry.readBytes - permit.capacity }).pruneConnectionTenant
              tenant
        | none => s.counts
      readStates := s.readStates.insert permit.state
        { state with capacity := state.capacity - permit.capacity } }
  | none => s

end Connections

/-! ## Runs -/

/-- The steps of the calls.  Connections, read buffers and replacements are named by numbers that
are free when they are given out. -/
inductive ConnectionAction where
  -- `reserve_connection`
  | acquireSlot (id : ℕ) (ip : IpAddr) (deviceIngress : Bool)
  | acquireBytes (id : ℕ)
  | enter (id : ℕ)
  | classify (id : ℕ) (transport : Transport)
  | intoManagement (id : ℕ)
  | authenticate (id : ℕ) (device : DeviceKey)
  | readBudget (id : ℕ)
  -- the drop of a connection, and what its fields give back afterwards
  | dropLease (id : ℕ)
  | releaseSlot (id : ℕ)
  | releaseBytes (id : ℕ)
  -- `ConnectionReadBudget::authenticate`
  | bindReader (id : ℕ) (device : DeviceKey)
  | reserveAllocation (id capacity permit : ℕ)
  | reserveReplacement (id capacity previous replacement : ℕ)
  | expandAllocation (id permit capacity : ℕ)
  | commit (replacement permit : ℕ)
  -- the drop of a replacement: first its buffer, then the mark in the account
  | abort (replacement permit : ℕ)
  | finishAbort (replacement : ℕ)
  | dropPermit (permit : ℕ)
  | releasePermit (permit : ℕ)

namespace Connections

/-- The state a fallible call leaves: the old one if it failed. -/
def settle (s : Connections) (result : Except Error Connections) : Connections :=
  match result with
  | .ok s' => s'
  | .error _ => s

/-- A number that names no connection, past or present. -/
def freeLease (s : Connections) (id : ℕ) : Prop :=
  id ∉ s.leases ∧ id ∉ s.held ∧ id ∉ s.readStates

instance (s : Connections) (id : ℕ) : Decidable (s.freeLease id) :=
  inferInstanceAs (Decidable (_ ∧ _ ∧ _))

/-- A number that names no read buffer. -/
def freePermit (s : Connections) (permit : ℕ) : Prop := permit ∉ s.permits ∧ permit ∉ s.releasing

instance (s : Connections) (permit : ℕ) : Decidable (s.freePermit permit) :=
  inferInstanceAs (Decidable (_ ∧ _))

/-- Put the mark of a replacement in a read account down. -/
def clearReplacing (s : Connections) (id : ℕ) : Connections :=
  match s.readStates.lookup id with
  | some state => { s with readStates := s.readStates.insert id { state with replacing := false } }
  | none => s

/-- Publish the buffer of a replacement, if the account fits its ceiling again. -/
def commit (limits : Limits) (s : Connections) (replacement permit : ℕ)
    (r : ReadAllocationReplacement) (state : ReadAllocationState) : Except Error Connections := do
  check (state.capacity ≤ limits.maxReadBufferPerConnection) .invalid
  let some allocation := r.allocation | .error .internal
  return { s.clearReplacing r.state with
    permits := s.permits.insert permit allocation
    replacements := s.replacements.erase replacement }

/-- Steps of the life of a connection. -/
def performLease (limits : Limits) (s : Connections) : ConnectionAction → Option Connections
  | .acquireSlot id ip deviceIngress =>
    if s.freeLease id then
      some (if s.slots = 0 then s
        else { s with slots := s.slots - 1, held := s.held.insert id (.slot ip deviceIngress) })
    else none
  | .acquireBytes id =>
    match s.held.lookup id with
    | some (.slot ip deviceIngress) =>
      match reserve s.memory limits.connectionMemoryReservation with
      | .ok memory =>
        some { s with memory := memory, held := s.held.insert id (.reserved ip deviceIngress) }
      | .error _ => some { s with held := s.held.insert id (.dropping true 0) }
    | _ => none
  | .enter id =>
    match s.held.lookup id with
    | some (.reserved ip deviceIngress) => some (s.enter limits id ip deviceIngress)
    | _ => none
  | .classify id transport =>
    match s.leases.lookup id with
    | some lease => if lease.pending then some (s.classify limits id lease transport) else none
    | none => none
  | .intoManagement id =>
    match s.leases.lookup id with
    | some lease => if lease.pending then some (s.intoManagement limits id lease) else none
    | none => none
  | .authenticate id device =>
    match s.leases.lookup id with
    | some lease =>
      if lease.pending then none
      else some (s.settle (s.authenticate limits id lease device))
    | none => none
  | .readBudget id =>
    match s.leases.lookup id with
    | some lease => if lease.pending then none else some (s.readBudget id lease)
    | none => none
  | .dropLease id => (s.leases.lookup id).map fun lease => s.closeLease limits id lease
  | .releaseSlot id =>
    match s.held.lookup id with
    | some (.dropping true bytes) =>
      some { s with slots := s.slots + 1, held := s.held.insert id (.dropping false bytes) }
    | _ => none
  | .releaseBytes id =>
    match s.held.lookup id with
    | some (.dropping slot bytes) =>
      some { s with memory := s.memory + bytes, held := s.held.insert id (.dropping slot 0) }
    | _ => none
  | _ => none

/-- Steps of read buffers. -/
def performRead (limits : Limits) (s : Connections) : ConnectionAction → Option Connections
  | .bindReader id device =>
    (s.readStates.lookup id).map fun state => s.settle (s.bindReader limits id state device)
  | .reserveAllocation id capacity permit =>
    match s.readStates.lookup id with
    | some state =>
      if s.freePermit permit then
        match s.reserveAllocationInner limits id state capacity none with
        | .ok s' => some { s' with permits := s'.permits.insert permit ⟨id, capacity⟩ }
        | .error _ => some s
      else none
    | none => none
  | .reserveReplacement id capacity previous replacement =>
    match s.readStates.lookup id, s.permits.lookup previous with
    | some state, some old =>
      if replacement ∈ s.replacements then none
      else if old.state ≠ id then some s
      else
        match s.reserveAllocationInner limits id state capacity (some old.capacity) with
        | .ok s' => some { s' with
            replacements := s'.replacements.insert replacement ⟨id, some ⟨id, capacity⟩⟩ }
        | .error _ => some s
    | _, _ => none
  | .expandAllocation id permit capacity =>
    match s.readStates.lookup id, s.permits.lookup permit with
    | some state, some previous =>
      some (s.settle (s.expandAllocation limits id state permit previous capacity))
    | _, _ => none
  | .commit replacement permit =>
    match s.replacements.lookup replacement with
    | some r =>
      match s.readStates.lookup r.state with
      | some state =>
        if s.freePermit permit then some (s.settle (s.commit limits replacement permit r state))
        else none
      | none => none
    | none => none
  | .abort replacement permit =>
    match s.replacements.lookup replacement with
    | some ⟨state, some allocation⟩ =>
      if s.freePermit permit then
        some { s.discharge allocation with
          replacements := s.replacements.insert replacement ⟨state, none⟩
          releasing := s.releasing.insert permit allocation.capacity }
      else none
    | _ => none
  | .finishAbort replacement =>
    match s.replacements.lookup replacement with
    | some ⟨state, none⟩ =>
      some { s.clearReplacing state with replacements := s.replacements.erase replacement }
    | _ => none
  | .dropPermit permit =>
    match s.permits.lookup permit with
    | some allocation =>
      some { s.discharge allocation with
        permits := s.permits.erase permit
        releasing := s.releasing.insert permit allocation.capacity }
    | none => none
  | .releasePermit permit =>
    match s.releasing.lookup permit with
    | some bytes =>
      some { s with memory := s.memory + bytes, releasing := s.releasing.erase permit }
    | none => none
  | _ => none

/-- One step of a call. -/
def perform (limits : Limits) (s : Connections) (action : ConnectionAction) : Option Connections :=
  (s.performLease limits action).orElse fun _ => s.performRead limits action

end Connections

end Netbaiot.Quota
