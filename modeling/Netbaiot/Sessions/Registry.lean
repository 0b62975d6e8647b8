import Mathlib.Data.Finset.Insert
import Netbaiot.Lib.Run
import Netbaiot.Lib.Table
import Netbaiot.Limits

/-!
# The session registry

The registry keeps one live session per device, an ordered index of the devices with a
session, a connection count per tenant, and an observation of every device seen lately.  All
four are written under one lock, by registration, by the drop of a lease and by observations.
The wall clock is whatever each call reads; it may go back.
-/

namespace Netbaiot.Sessions

open Lib Op

/-- A live session. -/
structure SessionEndpoint where
  generation : ℕ
  transport : Transport
  auth : AuthenticatedDevice
deriving DecidableEq

/-- What is kept for a tenant. -/
structure TenantState where
  connections : ℕ
deriving DecidableEq

/-- What was last observed of a device. -/
structure Presence where
  connected : Bool
  connectedAt : Option Int64
  lastSeen : Int64
  transport : Transport
  sessionGeneration : Option ℕ
deriving DecidableEq

/-- The tables under the lock. -/
structure SessionState where
  generation : ℕ
  sessions : Table DeviceKey SessionEndpoint
  orderedSessions : Finset DeviceKey
  tenants : Table TenantId TenantState
  presence : Table DeviceKey Presence

abbrev SessionM := Op SessionState Error

/-- A registry without sessions. -/
def SessionState.new : SessionState := ⟨0, ∅, ∅, ∅, ∅⟩

/-! ## Observations -/

variable (limits : Limits) (now : Int64)

/-- The instant before which an observation of an absent device is out of date. -/
def presenceCutoff : Int64 :=
  let ttl : ℤ := min (limits.presenceTtlMs : ℤ) (2 ^ 63 - 1)
  Int64.ofInt (clampSigned 64 (now.toInt - ttl))

/-- An observation is kept while the device is connected or was seen lately. -/
def Presence.current (presence : Presence) : Bool :=
  presence.connected || presenceCutoff limits now ≤ presence.lastSeen

/-- Forget devices that are neither connected nor seen lately. -/
def prunePresence (presence : Table DeviceKey Presence) : Table DeviceKey Presence :=
  presence.retain fun _ p => p.current limits now

/-- Forget one device if it is neither connected nor seen lately. -/
def prunePresenceEntry (device : DeviceKey)
    (presence : Table DeviceKey Presence) : Table DeviceKey Presence :=
  match presence.lookup device with
  | some p => if p.current limits now then presence else presence.erase device
  | none => presence

/-- The absent devices that were not seen for longest. -/
def oldestOffline (presence : Table DeviceKey Presence) : List DeviceKey :=
  let offline := presence.entries.filter fun e => !e.2.connected
  (offline.filter fun e => offline.all fun other => e.2.lastSeen ≤ other.2.lastSeen).map Sigma.fst

/-- The one of them that iteration meets first, which is any of them. -/
def firstOldest (preferred : DeviceKey) (presence : Table DeviceKey Presence) : Option DeviceKey :=
  if preferred ∈ oldestOffline presence then some preferred else (oldestOffline presence).head?

/-- Make room to observe a device: forget what is out of date, or else the absent device that
was not seen for longest. -/
def ensurePresenceSlot (preferred device : DeviceKey) : SessionM Unit := do
  let s ← get
  if device ∈ s.presence ∨ s.presence.size < limits.maxDevices then pure ()
  else
    let presence := prunePresence limits now s.presence
    modify fun s => { s with presence := presence }
    if presence.size < limits.maxDevices then pure ()
    else
      let oldest ← someOr (firstOldest preferred presence) .overloaded
      modify fun s => { s with presence := s.presence.erase oldest }

/-- Note that a device was heard of.  Making room reads the clock again. -/
def touch (pruneNow : Int64) (preferred device : DeviceKey)
    (transport : Transport) : SessionM Unit := do
  let s ← get
  match s.presence.lookup device with
  | some p =>
    if p.current limits now then
      modify fun s => { s with presence := s.presence.insert device { p with lastSeen := now } }
    else
      modify fun s => { s with presence := s.presence.erase device }
      ensurePresenceSlot limits pruneNow preferred device
      modify fun s => { s with
        presence := s.presence.insert device ⟨false, none, now, transport, none⟩ }
  | none =>
    ensurePresenceSlot limits pruneNow preferred device
    modify fun s => { s with
      presence := s.presence.insert device ⟨false, none, now, transport, none⟩ }

/-! ## Registration -/

/-- The connections counted for a tenant. -/
def SessionState.connections (s : SessionState) (tenant : TenantId) : ℕ :=
  (s.tenants.lookup tenant).elim 0 TenantState.connections

/-- Make room for a tenant: forget tenants without connections that nothing refers to any more,
neither a byte budget nor command slots. -/
def ensureTenantSlot (referenced : TenantId → Bool) (tenant : TenantId) : SessionM Unit := do
  let s ← get
  if tenant ∈ s.tenants then pure ()
  else
    whenever (limits.maxDevices ≤ s.tenants.size) do
      modify fun s => { s with
        tenants := s.tenants.retain fun id t => 0 < t.connections || referenced id }
    ensure ((← get).tenants.size < limits.maxDevices) .overloaded

/-- Enter a session in all four tables. -/
def SessionState.install (s : SessionState) (auth : AuthenticatedDevice) (transport : Transport)
    (generation : ℕ) (connectedAt : Int64) : SessionState :=
  let device := auth.deviceKey
  let replacing : Bool := device ∈ s.sessions
  { generation := generation
    sessions := s.sessions.insert device ⟨generation, transport, auth⟩
    orderedSessions := if replacing then s.orderedSessions else insert device s.orderedSessions
    tenants := s.tenants.insert device.tenantId
      ⟨s.connections device.tenantId + if replacing then 0 else 1⟩
    presence := s.presence.insert device
      ⟨true, some connectedAt, connectedAt, transport, some generation⟩ }

/-- What a registration meets: the clock, the order of iteration, which tenants are referred to,
and whether the transport can be attached. -/
structure Surroundings where
  now : Int64
  connectedAt : Int64
  preferred : DeviceKey
  referenced : TenantId → Bool
  finalize : AuthenticatedDevice → ℕ → Except Error Unit

/-- Register a session for a device, replacing the one it has. -/
def registerWith (auth : AuthenticatedDevice) (transport : Transport)
    (around : Surroundings) : SessionM ℕ := do
  ensure (transport = .mqtt ∨ transport = .tcp) .invalid
  let device := auth.deviceKey
  let s ← get
  ensure (device ∈ s.sessions ∨ s.sessions.size < limits.maxConnections) .overloaded
  ensurePresenceSlot limits around.now around.preferred device
  let generation ← someOr (checkedAdd 64 s.generation 1) .overloaded
  ensureTenantSlot limits around.referenced device.tenantId
  let tenant := (← get).tenants.lookup device.tenantId
  ensure (device ∈ s.sessions ∨
    ¬ tenant.any fun tenant => limits.maxConnectionsPerTenant ≤ tenant.connections) .overloaded
  fromExcept (around.finalize auth generation)
  modify fun s => s.install auth transport generation around.connectedAt
  return generation

/-! ## The end of a session -/

/-- Take a session out of all four tables. -/
def SessionState.remove (s : SessionState) (device : DeviceKey) (now : Int64) : SessionState :=
  { s with
    sessions := s.sessions.erase device
    orderedSessions := s.orderedSessions.erase device
    tenants :=
      match s.tenants.lookup device.tenantId with
      | some tenant => s.tenants.insert device.tenantId ⟨tenant.connections - 1⟩
      | none => s.tenants
    presence :=
      match s.presence.lookup device with
      | some p => s.presence.insert device
          { p with
            connected := false, connectedAt := none, lastSeen := now, sessionGeneration := none }
      | none => s.presence }

/-- Drop a lease: its session ends unless another one has replaced it. -/
def SessionState.dropLease (s : SessionState) (device : DeviceKey) (generation : ℕ) (now : Int64) :
    SessionState :=
  if (s.sessions.lookup device).any fun endpoint => endpoint.generation = generation then
    s.remove device now
  else s

/-! ## Runs -/

/-- The registry and the leases that are still held, by their generation. -/
structure Registry where
  state : SessionState
  leases : Table ℕ DeviceKey

/-- What may happen to the registry. -/
inductive Action where
  | registerWith (auth : AuthenticatedDevice) (transport : Transport) (around : Surroundings)
  | dropLease (generation : ℕ) (now : Int64)
  | touch (device : DeviceKey) (transport : Transport) (now pruneNow : Int64)
      (preferred : DeviceKey)
  -- `presence` and `connection` forget the device they ask about if it is out of date
  | presence (device : DeviceKey) (now : Int64)
  -- `registry_counts` forgets every device that is out of date
  | registryCounts (now : Int64)

namespace Registry

/-- A registry without sessions and leases. -/
def new : Registry := ⟨.new, ∅⟩

/-- One call. -/
def perform (r : Registry) : Action → Registry
  | .registerWith auth transport around =>
    match exec (Sessions.registerWith limits auth transport around) r.state with
    | (.ok generation, state) => ⟨state, r.leases.insert generation auth.deviceKey⟩
    | (.error _, state) => { r with state := state }
  | .dropLease generation now =>
    match r.leases.lookup generation with
    | some device => ⟨r.state.dropLease device generation now, r.leases.erase generation⟩
    | none => r
  | .touch device transport now pruneNow preferred =>
    { r with
      state := (exec (Sessions.touch limits now pruneNow preferred device transport) r.state).2 }
  | .presence device now =>
    { r with state := { r.state with
        presence := prunePresenceEntry limits now device r.state.presence } }
  | .registryCounts now =>
    { r with state := { r.state with presence := prunePresence limits now r.state.presence } }

end Registry

/-- Calls interleave at the lock. -/
def system : System Registry Action where
  start r := r = .new
  step r a r' := r' = r.perform limits a

end Netbaiot.Sessions
