import Netbaiot.Lib.Run
import Netbaiot.Lib.Semaphore
import Netbaiot.Limits

/-!
# Ingress admission

Every device and every tenant has a semaphore for concurrent ingress and a window for its
rate.  A call looks both semaphores up under a lock, takes its permits one by one without
the lock, and records the message under the lock again before it becomes a lease.  Calls
of any number of tasks interleave between these steps.  Semaphores are shared by
reference, so a table entry and the calls that looked it up name the same semaphore by its
number; instants are counted in nanoseconds.
-/

namespace Netbaiot.Quota

open Lib Op

/-- The nanoseconds of a second. -/
def second : ℕ := 1000000000

/-- Messages counted since an instant. -/
structure Window where
  start : ℕ
  count : ℕ
deriving DecidableEq

/-- Count messages in the current second; a new second begins even if they are refused. -/
def Window.takeN (window : Window) (now limit units : ℕ) : Except Error Unit × Window :=
  let window := if now - window.start ≥ second then ⟨now, 0⟩ else window
  let next := window.count + units
  if next > limit then (.error .overloaded, window) else (.ok (), { window with count := next })

/-- The semaphore and the rate window of a device or tenant. -/
structure AdmissionEntry where
  slots : ℕ
  rate : Window
deriving DecidableEq

/-- The tables guarded by the lock, and all semaphores ever made. -/
structure Registry where
  global : Window
  devices : Table DeviceKey AdmissionEntry
  tenants : Table TenantId AdmissionEntry
  semaphores : Table ℕ Semaphore
  nextSlots : ℕ

abbrev RegistryM := Op Registry Error

/-! ## Sections under the lock -/

/-- The permits of a semaphore nobody holds or waits for. -/
def Registry.availablePermits (r : Registry) (slots : ℕ) : ℕ :=
  ((r.semaphores.lookup slots).map Semaphore.availablePermits).getD 0

section Entries

variable {κ : Type} [DecidableEq κ]

/-- Whether a key can be entered: it is present or the table is not full. -/
def hasRoom (limits : Limits) (key : κ) (entries : Table κ AdmissionEntry) : Bool :=
  key ∈ entries || entries.size < limits.maxDevices

/-- Drop entries that look idle when a new key needs room. -/
def prune (limits : Limits) (r : Registry) (now capacity : ℕ) (key : κ)
    (entries : Table κ AdmissionEntry) : Table κ AdmissionEntry :=
  if hasRoom limits key entries then entries
  else entries.retain fun _ entry =>
    r.availablePermits entry.slots < capacity || now - entry.rate.start < second

/-- The entry of a key, made with a new semaphore if there is none. -/
def orInsert (now capacity : ℕ) (key : κ) (entries : Table κ AdmissionEntry) (r : Registry) :
    AdmissionEntry × Table κ AdmissionEntry × Registry :=
  match entries.lookup key with
  | some entry => (entry, entries, r)
  | none =>
    let entry : AdmissionEntry := ⟨r.nextSlots, ⟨now, 0⟩⟩
    (entry, entries.insert key entry,
      { r with
        semaphores := r.semaphores.insert r.nextSlots (.new capacity)
        nextSlots := r.nextSlots + 1 })

end Entries

/-- Make room for a device and its tenant, or fail. -/
def makeRoom (limits : Limits) (now : ℕ) (device : DeviceKey) : RegistryM Unit := do
  modify fun r => { r with
    devices := prune limits r now limits.maxIngressPerDevice device r.devices }
  modify fun r => { r with
    tenants := prune limits r now limits.maxIngressPerTenant device.tenantId r.tenants }
  let r ← get
  ensure (hasRoom limits device r.devices ∧ hasRoom limits device.tenantId r.tenants) .overloaded

/-- The entry of a device. -/
def deviceEntry (limits : Limits) (now : ℕ) (device : DeviceKey) : RegistryM AdmissionEntry := do
  let r ← get
  let (entry, devices, r) := orInsert now limits.maxIngressPerDevice device r.devices r
  set { r with devices := devices }
  return entry

/-- The entry of a tenant. -/
def tenantEntry (limits : Limits) (now : ℕ) (tenant : TenantId) : RegistryM AdmissionEntry := do
  let r ← get
  let (entry, tenants, r) := orInsert now limits.maxIngressPerTenant tenant r.tenants r
  set { r with tenants := tenants }
  return entry

/-- Look up the semaphores of a device and of its tenant. -/
def entrySlots (limits : Limits) (now : ℕ) (device : DeviceKey) : RegistryM (ℕ × ℕ) := do
  makeRoom limits now device
  let deviceSlots := (← deviceEntry limits now device).slots
  let tenantSlots := (← tenantEntry limits now device.tenantId).slots
  return (deviceSlots, tenantSlots)

/-- Count messages against the whole gateway. -/
def takeGlobal (limits : Limits) (now units : ℕ) : RegistryM Unit := do
  let (result, window) := (← get).global.takeN now limits.requestsPerSecond units
  modify fun r => { r with global := window }
  fromExcept result

/-- Count messages against a device, which must have an entry. -/
def takeDevice (limits : Limits) (now units : ℕ) (device : DeviceKey) : RegistryM Unit := do
  let entry ← someOr ((← get).devices.lookup device) .internal
  let (result, window) := entry.rate.takeN now limits.messagesPerDeviceSecond units
  modify fun r => { r with devices := r.devices.insert device { entry with rate := window } }
  fromExcept result

/-- Count messages against a tenant, which must have an entry. -/
def takeTenant (limits : Limits) (now units : ℕ) (tenant : TenantId) : RegistryM Unit := do
  let entry ← someOr ((← get).tenants.lookup tenant) .internal
  let (result, window) := entry.rate.takeN now limits.messagesPerTenantSecond units
  modify fun r => { r with tenants := r.tenants.insert tenant { entry with rate := window } }
  fromExcept result

/-- Apply the rate tables alone. -/
def checkRateWeighted (limits : Limits) (now : ℕ) (device : DeviceKey) (units : ℕ) :
    RegistryM Unit := do
  ensure (units ≠ 0) .invalid
  takeGlobal limits now units
  makeRoom limits now device
  let _ ← deviceEntry limits now device
  takeDevice limits now units device
  let _ ← tenantEntry limits now device.tenantId
  takeTenant limits now units device.tenantId

/-- Count a message whose permits are all held. -/
def finishAcquire (limits : Limits) (now : ℕ) (device : DeviceKey) : RegistryM Unit := do
  takeGlobal limits now 1
  takeDevice limits now 1 device
  takeTenant limits now 1 device.tenantId

/-! ## Calls and leases -/

/-- Permits of one semaphore: its number and how many. -/
abbrev Permit := ℕ × ℕ

/-- How far a call has come. -/
inductive Stage where
  /-- Reserves its place among the waiting calls. -/
  | entering
  /-- Has looked up its semaphores and takes its permits in order. -/
  | acquiring
  /-- Is over and gives its permits back one by one. -/
  | dropping
deriving DecidableEq

/-- A call of `acquire` or `acquire_wait`. -/
structure Call where
  device : DeviceKey
  bytes : ℕ
  waits : Bool
  stage : Stage
  slots : ℕ × ℕ
  todo : List Permit
  held : List Permit
  waiter : List Permit
deriving DecidableEq

/-- A live admission lease, with its permits in the order in which they were taken. -/
structure AdmissionLease where
  device : DeviceKey
  slots : ℕ × ℕ
  held : List Permit
deriving DecidableEq

structure Admission extends Registry where
  calls : Table ℕ Call
  leases : Table ℕ AdmissionLease
  nextCall : ℕ

/-- The semaphores every call shares: slots, bytes, and those of waiting calls. -/
def slots : ℕ := 0
def bytes : ℕ := 1
def waiterSlots : ℕ := 2
def waiterBytes : ℕ := 3

def Admission.new (limits : Limits) (now : ℕ) : Admission where
  global := ⟨now, 0⟩
  devices := ∅
  tenants := ∅
  semaphores := (((∅ : Table ℕ Semaphore).insert slots (.new limits.maxIngress)).insert bytes
    (.new limits.maxIngressBytes)).insert waiterSlots (.new limits.maxIngressWaiters) |>.insert
    waiterBytes (.new limits.maxIngressWaitBytes)
  nextSlots := 4
  calls := ∅
  leases := ∅
  nextCall := 0

/-- The permits of a lease, in the order in which they are taken. -/
def leasePermits (found : ℕ × ℕ) (amount : ℕ) : List Permit :=
  [(found.1, 1), (found.2, 1), (slots, 1), (bytes, amount)]

namespace Call

/-- A call that has ended: what it holds is still to be given back. -/
def ended (call : Call) : Call :=
  { call with stage := .dropping, todo := [], held := call.held ++ call.waiter, waiter := [] }

/-- A call that was given the permits it asked for next. -/
def granted (call : Call) (permit : Permit) : Call :=
  match call.todo with
  | [] => call
  | next :: rest =>
    if call.stage = .acquiring ∧ next = permit then
      { call with todo := rest, held := permit :: call.held }
    else call

end Call

variable (limits : Limits) (s : Admission)

namespace Admission

/-- Run a section under the lock and go on with its result. -/
def locked {α : Type} (body : RegistryM α) : Except Error α × Admission :=
  let (result, registry) := exec body s.toRegistry
  (result, { s with toRegistry := registry })

def setCall (id : ℕ) (call : Call) : Admission :=
  { s with calls := s.calls.insert id call }

/-- Hand permits of a semaphore to a waiting call. -/
def grant (number : ℕ) (calls : Table ℕ Call) (waiter : ℕ × ℕ) : Table ℕ Call :=
  match calls.lookup waiter.1 with
  | some call => calls.insert waiter.1 (call.granted (number, waiter.2))
  | none => calls

/-- Store a semaphore after its waiters were served. -/
def serve (s : Admission) (number : ℕ) (semaphore : Semaphore) : Admission :=
  let (granted, pool, waiters) := Semaphore.serve semaphore.pool semaphore.waiters
  { s with
    semaphores := s.semaphores.insert number { semaphore with pool := pool, waiters := waiters }
    calls := granted.foldl (grant number) s.calls }

/-- Give permits back to their semaphore. -/
def release (permit : Permit) : Admission :=
  match s.semaphores.lookup permit.1 with
  | some semaphore => s.serve permit.1 { semaphore with pool := semaphore.pool + permit.2 }
  | none => s

/-- Leave the queue of a semaphore. -/
def withdraw (id number : ℕ) : Admission :=
  match s.semaphores.lookup number with
  | some semaphore =>
    s.serve number { semaphore with waiters := semaphore.waiters.filter fun w => w.1 ≠ id }
  | none => s

/-- Begin a call; one that may wait first reserves a place among the waiting calls. -/
def begin (device : DeviceKey) (amount : ℕ) (waits : Bool) : Admission :=
  { s with
    calls := s.calls.insert s.nextCall
      { device := device, bytes := amount, waits := waits, stage := .entering, slots := (0, 0),
        todo := if waits then [(waiterSlots, 1), (waiterBytes, amount)] else [],
        held := [], waiter := [] }
    nextCall := s.nextCall + 1 }

/-- Take the next permits of a call at once, if they are free. -/
def tryTake (permit : Permit) : Option (Table ℕ Semaphore) :=
  if permit.2 < 2 ^ 32 then
    (s.semaphores.lookup permit.1).bind fun semaphore =>
      (semaphore.tryAcquire permit.2).map fun semaphore => s.semaphores.insert permit.1 semaphore
  else none

/-- Reserve the next place of a call that may wait, or end the call. -/
def enter (id : ℕ) (call : Call) : Admission :=
  match call.todo with
  | [] => s
  | next :: rest =>
    match s.tryTake next with
    | some semaphores =>
      { s with semaphores := semaphores }.setCall id
        { call with todo := rest, waiter := next :: call.waiter }
    | none => s.setCall id call.ended

/-- Look up the semaphores of a call. -/
def lookup (id : ℕ) (call : Call) (now : ℕ) : Admission :=
  match s.locked (entrySlots limits now call.device) with
  | (.ok found, s) => s.setCall id { call with
      stage := .acquiring, slots := found, todo := leasePermits found call.bytes, held := [] }
  | (.error _, s) => s.setCall id call.ended

/-- Take the next permits of a call, wait for them, or end the call. -/
def take (id : ℕ) (call : Call) : Admission :=
  match call.todo with
  | [] => s
  | next :: rest =>
    match s.semaphores.lookup next.1 with
    | none => s
    | some semaphore =>
      -- A call that is queued already goes on only when it is served.
      if (id, next.2) ∈ semaphore.waiters then s
      else
        match s.tryTake next with
        | some semaphores =>
          { s with semaphores := semaphores }.setCall id
            { call with todo := rest, held := next :: call.held }
        | none =>
          if call.waits ∧ next.2 < 2 ^ 32 then
            { s with semaphores := s.semaphores.insert next.1 (semaphore.enqueue id next.2) }
          else s.setCall id call.ended

/-- Give up waiting, at the deadline or because the task was cancelled. -/
def timeout (id : ℕ) (call : Call) : Admission :=
  match call.todo with
  | [] => s.setCall id call.ended
  | next :: _ => (s.setCall id call.ended).withdraw id next.1

/-- Turn a call with all its permits into a lease; its place among the waiting calls is left. -/
def finish (id : ℕ) (call : Call) (now : ℕ) : Admission :=
  match s.locked (finishAcquire limits now call.device) with
  | (.ok _, s) =>
    { s.setCall id { call with held := [] }.ended with
      leases := s.leases.insert id ⟨call.device, call.slots, call.held.reverse⟩ }
  | (.error _, s) => s.setCall id call.ended

/-- Give back the first permits of a call that is over. -/
def dropPermit (id : ℕ) (call : Call) : Admission :=
  match call.held with
  | [] => { s with calls := s.calls.erase id }
  | permit :: rest => (s.setCall id { call with held := rest }).release permit

/-- Drop a lease: it is no longer live, and its permits are given back one by one. -/
def dropLease (id : ℕ) (lease : AdmissionLease) : Admission :=
  { s with
    leases := s.leases.erase id
    calls := s.calls.insert s.nextCall
      { device := lease.device, bytes := 0, waits := false, stage := .dropping,
        slots := lease.slots, todo := [], held := lease.held, waiter := [] }
    nextCall := s.nextCall + 1 }

end Admission

/-- One step of a task, with the clock reading it makes. -/
inductive Action where
  | acquire (device : DeviceKey) (amount : ℕ)
  | acquireWait (device : DeviceKey) (amount : ℕ)
  | enter (id : ℕ)
  | lookup (id now : ℕ)
  | take (id : ℕ)
  | timeout (id : ℕ)
  | finish (id now : ℕ)
  | dropPermit (id : ℕ)
  | dropLease (id : ℕ)
  | checkRate (device : DeviceKey) (units now : ℕ)

/-- Go on with a call that has come to the given stage. -/
def Admission.withCall (id : ℕ) (stage : Stage) (next : Call → Admission) : Admission :=
  match s.calls.lookup id with
  | some call => if call.stage = stage then next call else s
  | none => s

/-- Take one step. -/
def perform : Action → Admission
  | .acquire device amount => s.begin device amount false
  | .acquireWait device amount => s.begin device amount true
  | .enter id => s.withCall id .entering fun call => s.enter id call
  | .lookup id now => s.withCall id .entering fun call =>
      if call.todo = [] then s.lookup limits id call now else s
  | .take id => s.withCall id .acquiring fun call => s.take id call
  | .timeout id => s.withCall id .acquiring fun call =>
      if call.waits then s.timeout id call else s
  | .finish id now => s.withCall id .acquiring fun call =>
      if call.todo = [] then s.finish limits id call now else s
  | .dropPermit id => s.withCall id .dropping fun call => s.dropPermit id call
  | .dropLease id =>
    match s.leases.lookup id with
    | some lease => s.dropLease id lease
    | none => s
  | .checkRate device units now => (s.locked (checkRateWeighted limits now device units)).2

/-- All interleavings of calls, lease drops and rate checks. -/
def admitting : System Admission Action where
  start s := ∃ now, s = .new limits now
  step s action s' := s' = perform limits s action

/-- The number of live leases of a device. -/
def Admission.deviceLeases (device : DeviceKey) : ℕ :=
  s.leases.total fun _ lease => if lease.device = device then 1 else 0

/-- The number of live leases of a tenant. -/
def Admission.tenantLeases (tenant : TenantId) : ℕ :=
  s.leases.total fun _ lease => if lease.device.tenantId = tenant then 1 else 0

end Netbaiot.Quota
