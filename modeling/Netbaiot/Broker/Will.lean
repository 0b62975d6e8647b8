import Mathlib.Data.List.Sort
import Netbaiot.Broker.Routing

/-!
# Wills

An accepted Will owns one responsibility slot, its bytes and, if it is to be retained, a
retained reservation until it is published or cancelled.  A Will that cannot be routed
yet waits in the pending queue and is retried when other operations free resources.
-/

namespace Netbaiot.Broker

open Lib Mqtt

def modifyWills (f : WillStore → WillStore) : BrokerM Unit :=
  modify fun s => { s with wills := f s.wills }

/-- The deadline that many seconds from now. -/
def secondsFrom (now : Int64) (seconds : UInt32) : Int64 :=
  saturatingAdd64 now (Int64.ofNat (seconds.toNat * 1000))

variable (w : WillStore) (limits : Limits)

namespace WillStore

/-- Store a Will: delayed ones by deadline, all others at the end of the queue. -/
def insertPendingWill (pending : PendingWill) : WillStore :=
  match pending.dueAtMs with
  | none => { w with pending := w.pending ++ [pending] }
  | some deadline =>
      let bucket := (w.future.lookup deadline).getD ∅
      let token := bucket.freshToken bucket.size w.nextToken
      { w with
        nextToken := token
        bySession :=
          match pending.cancelOnResume with
          | none => w.bySession
          | some (owner, _) => w.bySession.insert owner
              (((w.bySession.lookup owner).getD []).insert (deadline, token))
        future := w.future.insert deadline (bucket.insert token pending) }

/-- Take the delayed Wills at the given places. -/
def takeAt : List (Int64 × UInt64) → WillStore → List PendingWill × WillStore
  | [], w => ([], w)
  | (deadline, token) :: rest, w =>
      match w.future.lookup deadline with
      | none => takeAt rest w
      | some bucket =>
          let left := bucket.erase token
          let taken := takeAt rest
            { w with future := w.future.put deadline (if left.size = 0 then none else some left) }
          ((bucket.lookup token).toList ++ taken.1, taken.2)

/-- Take all delayed Wills that a session can still cancel. -/
def takeOwnedFutureWills (key : SessionKey) : List PendingWill × WillStore :=
  takeAt (((w.bySession.lookup key).getD []).insertionSort fun a b => toLex a ≤ toLex b)
    { w with bySession := w.bySession.erase key }

/-- A clean start ends the delay of the session's Wills. -/
def releaseCleanStartDelays (key : SessionKey) : WillStore :=
  let (owned, w) := w.takeOwnedFutureWills key
  { w with
    pending := w.pending ++
      owned.map fun pending => { pending with dueAtMs := none, cancelOnResume := none } }

/-- Forget where a delayed Will was stored. -/
def dropLocation (pending : PendingWill) (place : Int64 × UInt64) : WillStore :=
  match pending.cancelOnResume with
  | none => w
  | some (owner, _) =>
      match w.bySession.lookup owner with
      | none => w
      | some locations =>
          { w with
            bySession := w.bySession.put owner
              (if (locations.erase place).isEmpty then none else some (locations.erase place)) }

/-- Move the Wills of one due bucket to the queue, at most that many. -/
def promoteBucket (deadline : Int64) : ℕ → Table UInt64 PendingWill → WillStore →
    ℕ × Table UInt64 PendingWill × WillStore
  | 0, bucket, w => (0, bucket, w)
  | budget + 1, bucket, w =>
      match bucket.popFirst with
      | none => (budget + 1, bucket, w)
      | some (token, pending, bucket) =>
          let w := w.dropLocation pending (deadline, token)
          promoteBucket deadline budget bucket
            { w with
              pending := w.pending ++ [{ pending with dueAtMs := none, cancelOnResume := none }] }

/-- Move due Wills to the queue.  `rounds` bounds the number of buckets visited. -/
def promoteDue (now : Int64) : (rounds budget : ℕ) → WillStore → WillStore
  | 0, _, w => w
  | _, 0, w => w
  | rounds + 1, budget + 1, w =>
      match w.future.popFirst with
      | none => w
      | some (deadline, bucket, future) =>
          if deadline > now then w
          else
            let (left, bucket, w) := promoteBucket deadline (budget + 1) bucket { w with future }
            promoteDue now rounds left
              (if bucket.size = 0 then w else { w with future := w.future.insert deadline bucket })

def promoteDueWills (now : Int64) (budget : ℕ) : WillStore :=
  promoteDue now (w.future.size + budget) budget w

/-- The responsibilities of a tenant: their count and bytes. -/
def tenant (w : WillStore) (tenant : TenantId) : ℕ × ℕ :=
  (w.responsibilityTenants.lookup tenant).getD (0, 0)

def reserve (tenant : TenantId) (bytes : ℕ) : WillStore :=
  { w with
    responsibilityCount := w.responsibilityCount + 1
    responsibilityBytes := w.responsibilityBytes + bytes
    responsibilityTenants := w.responsibilityTenants.insert tenant
      ((w.tenant tenant).1 + 1, (w.tenant tenant).2 + bytes) }

def release (tenant : TenantId) (bytes : ℕ) : WillStore :=
  { w with
    responsibilityCount := w.responsibilityCount - 1
    responsibilityBytes := w.responsibilityBytes - bytes
    responsibilityTenants :=
      match w.responsibilityTenants.lookup tenant with
      | none => w.responsibilityTenants
      | some usage =>
          let left := (usage.1 - 1, usage.2 - bytes)
          w.responsibilityTenants.put tenant (if left = (0, 0) then none else some left) }

end WillStore

/-- Reserve the responsibility slot and bytes of a Will. -/
def reserveWillCapacity (tenant : TenantId) (bytes : ℕ) (limits : Limits) : BrokerM Unit := do
  let s ← get
  Op.ensure
    (s.wills.responsibilityCount < limits.maxConnections ∧
      s.accounts.sessionBytes + s.wills.responsibilityBytes + bytes ≤
        limits.globalMqttSessionBytes ∧
      (s.wills.tenant tenant).1 < limits.maxConnectionsPerTenant ∧
      s.tenantSessionBytes tenant + (s.wills.tenant tenant).2 + bytes ≤
        limits.maxMqttSessionStateBytesPerTenant)
    .overloaded
  modifyWills fun w => w.reserve tenant bytes

def releaseWillCapacity (tenant : TenantId) (bytes : ℕ) : BrokerM Unit :=
  modifyWills fun w => w.release tenant bytes

/-- A Will of a resumed session: one that is already due is published, any other ends. -/
def cancelWill (key : SessionKey) (incarnation : UInt64) (now : Int64) (will : PendingWill) :
    BrokerM Unit := do
  if will.cancelOnResume ≠ some (key, incarnation) then
    modifyWills fun w => w.insertPendingWill will
  else if will.dueAtMs.any (· ≤ now) then
    modifyWills fun w => { w with
      pending := w.pending ++ [{ will with dueAtMs := none, cancelOnResume := none }] }
  else
    releaseRetainedReservation will.owner.tenantId will.retainedReservation
    releaseWillCapacity will.owner.tenantId will.bytes

def cancelWills (key : SessionKey) (incarnation : UInt64) (now : Int64) :
    List PendingWill → BrokerM Unit
  | [] => pure ()
  | will :: rest => do
      cancelWill key incarnation now will
      cancelWills key incarnation now rest

def cancelResumedWills (key : SessionKey) (incarnation : UInt64) : BrokerM Unit := do
  let now ← nowMs
  let s ← get
  let (owned, wills) := s.wills.takeOwnedFutureWills key
  set { s with wills }
  cancelWills key incarnation now owned

/-! ## Publishing -/

/-- Publish a ready Will, or put it back with its reservation if it cannot be routed. -/
def publishPending (pending : PendingWill) : BrokerM Unit := do
  releaseRetainedReservation pending.owner.tenantId pending.retainedReservation
  match ← Op.attempt (routeLocked pending.owner pending.origin pending.message limits) with
  | .ok _ => releaseWillCapacity pending.owner.tenantId pending.bytes
  | .error _ =>
      addRetainedReservation pending.owner.tenantId pending.retainedReservation
      modifyWills fun w => { w with pending := w.pending ++ [pending] }

/-- The Will as it is published now: without delay, its message expiry counted from here. -/
def PendingWill.ready (pending : PendingWill) (now : Int64) : PendingWill :=
  { pending with
    dueAtMs := none
    cancelOnResume := none
    messageExpiryInterval := none
    message :=
      match pending.messageExpiryInterval with
      | none => pending.message
      | some expiry => pending.message.expireAt (secondsFrom now expiry) }

/-- Try one Will taken from the queue. -/
def retryWill (pending : PendingWill) : BrokerM Unit := do
  let now ← nowMs
  if pending.dueAtMs.any (· > now) then modifyWills fun w => w.insertPendingWill pending
  else
    let now ← nowMs
    publishPending limits (pending.ready now)

/-- Try the Wills at the head of the queue, that many of them. -/
def retryWills (limits : Limits) : ℕ → BrokerM Unit
  | 0 => pure ()
  | attempts + 1 => do
      let s ← get
      match s.wills.pending with
      | [] => pure ()
      | pending :: rest =>
          set { s with wills := { s.wills with pending := rest } }
          retryWill limits pending
          retryWills limits attempts

def retryPendingWillsBounded (budget : ℕ) : BrokerM Unit := do
  let now ← nowMs
  modifyWills fun w => w.promoteDueWills now budget
  let s ← get
  retryWills limits (min s.wills.pending.length budget)

def retryPendingWills : BrokerM Unit :=
  retryPendingWillsBounded limits hotMaintenanceBudget

/-! ## The Will of a live connection -/

/-- Accept the Will of a connection and reserve what its publication will need. -/
def reserveWillWithOrigin (owner : DeviceKey) (origin : Option SessionKey)
    (message : BrokerMessage) (limits : Limits) : BrokerM ℕ := do
  Op.ensure
    (validBrokerMessage message limits ∧ message.payload.length ≤ limits.maxWillPayloadBytes ∧
      origin.all fun key => key.device = owner && key.clientId.length ≤ limits.maxClientIdBytes)
    .invalid
  let charge := willCharge message origin
  reserveWillCapacity owner.tenantId charge limits
  match ← Op.attempt (reserveRetained owner.tenantId origin message limits) with
  | .error e =>
      releaseWillCapacity owner.tenantId charge
      throw e
  | .ok reservation =>
      let s ← get
      let id := s.wills.guards.freshToken s.wills.guards.size 0
      modifyWills fun w => { w with
        guards := w.guards.insert id { owner, origin, message, reservation } }
      return id

/-- Change the Will of a connection. -/
def modifyGuard (id : ℕ) (f : WillGuard → WillGuard) : BrokerM Unit :=
  modifyWills fun w => { w with guards := w.guards.put id ((w.guards.lookup id).map f) }

def dropGuard (id : ℕ) : BrokerM Unit := modifyWills fun w => { w with guards := w.guards.erase id }

/-- The connection ended without its Will. -/
def releaseWillReservation (id : ℕ) : BrokerM Unit := do
  let s ← get
  let guard ← Op.someOr (s.wills.guards.lookup id) .conflict
  releaseRetainedReservation guard.owner.tenantId guard.reservation
  releaseWillCapacity guard.owner.tenantId (willCharge guard.message guard.origin)
  dropGuard id

/-- What becomes of a Will. -/
inductive WillSchedule where
  | delayed
  | suppressed
  | publishNow
deriving DecidableEq

/-- Settle the Will of a closed connection whose delay has not begun: let it wait, drop it
if the session was resumed, or leave it to be published at once. -/
def scheduleReservedWill (id : ℕ) : BrokerM WillSchedule := do
  let s ← get
  let guard ← Op.someOr (s.wills.guards.lookup id) .conflict
  match guard.delay.filter fun d => 0 < d.delay && 0 < d.sessionExpiry with
  | none => return .publishNow
  | some d =>
      let now ← nowMs
      let s ← get
      if (s.session? d.key).all fun session => session.incarnation ≠ d.incarnation then
        modifyGuard id fun g => { g with delay := none }
        return .publishNow
      else if (s.active.lookup d.key).any fun active => active.generation ≠ d.generation then
        releaseRetainedReservation guard.owner.tenantId guard.reservation
        releaseWillCapacity guard.owner.tenantId (willCharge guard.message guard.origin)
        dropGuard id
        return .suppressed
      else
        dropGuard id
        modifyWills fun w => w.insertPendingWill
          { owner := guard.owner, origin := guard.origin, message := guard.message
            dueAtMs := some (secondsFrom now (min d.delay d.sessionExpiry))
            cancelOnResume := some (d.key, d.incarnation)
            messageExpiryInterval := guard.messageExpiryInterval
            retainedReservation := guard.reservation }
        return .delayed

/-- Publish the Will of a closed connection at once, or queue it if it cannot be routed. -/
def publishReservedWill (id : ℕ) (limits : Limits) : BrokerM Unit := do
  let s ← get
  let guard ← Op.someOr (s.wills.guards.lookup id) .conflict
  let now ← nowMs
  dropGuard id
  let pending : PendingWill :=
    { owner := guard.owner, origin := guard.origin, message := guard.message
      dueAtMs := none, cancelOnResume := none
      messageExpiryInterval := guard.messageExpiryInterval
      retainedReservation := guard.reservation }
  publishPending limits
    { pending.ready now with messageExpiryInterval := guard.messageExpiryInterval }

end Netbaiot.Broker
