import Netbaiot.Lib.Table
import Netbaiot.Limits
import Mathlib.Data.Finset.Sort

/-!
# State of the event bus

An accepted event is stored once and owed to a set of sinks.  Each sink owns a
ready queue and deadline buckets of delayed retries; deliveries taken by a worker
are known only through the operation number recorded with the stored event.
Instants and durations are counted in nanoseconds.
-/

namespace Netbaiot.EventBus

open Lib

/-- Sinks are sorted by their names. -/
instance instIsTransSinkId : IsTrans SinkId (· ≤ ·) := inferInstance

instance instAntisymmSinkId : Std.Antisymm fun id id' : SinkId => id ≤ id' := inferInstance

/-- Whether a sink must confirm every event or may drop it. -/
inductive SinkDeliveryMode where
  | confirmedRequired
  | bestEffort
deriving DecidableEq, Repr

inductive SinkError where
  | retryable
  | permanent
deriving DecidableEq, Repr

/-- The closed failure vocabulary of runtime diagnostics. -/
inductive SinkFailureReason where
  | other
  | network
  | timeout
  | http429
  | http5xx
  | httpAuth
  | http4xx
  | invalidResponse
  | responseTooLarge
  | panic
deriving DecidableEq, Repr

/-- A failed delivery, with an optional delay hint of the sink. -/
structure SinkFailure where
  error : SinkError
  reason : SinkFailureReason
  retryAfter : Option ℕ
deriving DecidableEq, Repr

/-- An event of a device together with the JSON text the serializer writes for it. -/
structure DeviceEvent where
  eventId : EventId
  device : DeviceKey
  json : List UInt8
deriving DecidableEq

/-- The configuration of one sink. -/
structure SinkDefinition where
  id : SinkId
  mode : SinkDeliveryMode
  maxCount : ℕ
  maxBytes : ℕ
  concurrency : ℕ
  timeout : ℕ
  maxAttempts : ℕ
  maxAge : ℕ
deriving DecidableEq

/-- One responsibility as it waits in a queue of a sink or travels with a worker. -/
structure DeliveryRecord where
  event : DeviceEvent
  bytes : ℕ
  acceptedAt : Int64
  attempt : UInt32
  nextAttempt : ℕ
  operation : ℕ
deriving DecidableEq

/-- The queues of one sink and the usage charged for them. -/
structure SinkQueue where
  definition : SinkDefinition
  ready : List DeliveryRecord
  delayed : Table ℕ (List DeliveryRecord)
  usedCount : ℕ
  usedBytes : ℕ
  inflight : ℕ
  pendingAges : Table Int64 ℕ

/-- The queues, usage and health of one sink. -/
structure SinkState extends SinkQueue where
  consecutiveFailures : ℕ
  pausedUntil : Option ℕ
  lastFailure : Option SinkFailureReason
  retries : ℕ
  failures : ℕ
  drops : ℕ
  retryAfterUsed : ℕ

/-- A stored event with the sinks it is still owed to. -/
structure ActiveEvent where
  event : DeviceEvent
  bytes : ℕ
  remaining : Finset SinkId
  required : Finset SinkId
  attempts : Table SinkId UInt32
  acceptedAt : Int64
  routingRevision : UInt64
  operations : Table SinkId ℕ

/-- Outstanding events and bytes of one tenant. -/
structure TenantBacklog where
  count : ℕ := 0
  bytes : ℕ := 0
deriving DecidableEq

structure RouteDefinition where
  tenant : Option TenantId
  sinks : List SinkId
deriving DecidableEq

/-- The sorted effective fan-out of every tenant. -/
structure CompiledRoutes where
  global : List SinkId
  tenants : Table TenantId (List SinkId)

/-- The sinks an event of this tenant is routed to. -/
def CompiledRoutes.forTenant (routes : CompiledRoutes) (tenant : TenantId) : List SinkId :=
  (routes.tenants.lookup tenant).getD routes.global

/-- The state guarded by the bus mutex. -/
structure State where
  sinks : Table SinkId SinkState
  routes : CompiledRoutes
  routingRevision : UInt64
  active : Table EventId ActiveEvent
  activeBytes : ℕ
  pendingRequired : ℕ
  accepting : Bool
  nextOperation : ℕ
  tenants : Table TenantId TenantBacklog

/-- What a restart spool keeps of an event. -/
structure SpoolRecord where
  event : DeviceEvent
  pendingSinks : List SinkId
  routingRevision : UInt64
  acceptedAt : Int64
  attempts : Table SinkId UInt32

structure EventAccepted where
  eventId : EventId
  acceptedAt : Int64
  requiredDeliveries : ℕ
  bestEffortDeliveries : ℕ

/-- Bus operations run under the mutex; a failure keeps what was written before it. -/
abbrev BusM := Op State Error

namespace State

/-- Store the state of one sink. -/
def setSink (s : State) (id : SinkId) (sink : SinkState) : State :=
  { s with sinks := s.sinks.insert id sink }

/-- Change a stored event in place, if there is one. -/
def updateActive (s : State) (eventId : EventId) (f : ActiveEvent → ActiveEvent) : State :=
  match s.active.lookup eventId with
  | some active => { s with active := s.active.insert eventId (f active) }
  | none => s

end State

namespace SinkQueue

variable (sink : SinkQueue)

/-- Whether a sink has room for one more event of this size. -/
def available (bytes : ℕ) : Bool :=
  sink.usedCount < sink.definition.maxCount && sink.usedBytes + bytes ≤ sink.definition.maxBytes

/-- Charge a new responsibility to a sink and queue it. -/
def enqueue (record : DeliveryRecord) : SinkQueue :=
  { sink with
    usedCount := sink.usedCount + 1
    usedBytes := sink.usedBytes + record.bytes
    pendingAges := sink.pendingAges.insert record.acceptedAt
      ((sink.pendingAges.lookup record.acceptedAt).getD 0 + 1)
    ready := sink.ready ++ [record] }

/-- Queue a record for its next attempt. -/
def delay (record : DeliveryRecord) : SinkQueue :=
  { sink with
    delayed := sink.delayed.insert record.nextAttempt
      ((sink.delayed.lookup record.nextAttempt).getD [] ++ [record]) }

/-- Forget one responsibility of this acceptance time in the age histogram. -/
def forgetAge (ages : Table Int64 ℕ) (acceptedAt : Int64) : Table Int64 ℕ :=
  match ages.lookup acceptedAt with
  | some n => if n - 1 = 0 then ages.erase acceptedAt else ages.insert acceptedAt (n - 1)
  | none => ages

/-- Give back what a finished responsibility occupied. -/
def release (record : DeliveryRecord) : SinkQueue :=
  { sink with
    usedCount := sink.usedCount - 1
    usedBytes := sink.usedBytes - record.bytes
    pendingAges := forgetAge sink.pendingAges record.acceptedAt }

/-- One delivery of the sink is no longer in flight. -/
def land : SinkQueue := { sink with inflight := sink.inflight - 1 }

/-- Every record waiting at the sink, ready or delayed. -/
def queued : List DeliveryRecord :=
  sink.ready ++ sink.delayed.values.flatten

end SinkQueue

namespace SinkState

/-- Change the queues of a sink and leave its health alone. -/
def onQueue (sink : SinkState) (f : SinkQueue → SinkQueue) : SinkState :=
  { sink with toSinkQueue := f sink.toSinkQueue }

/-- Count one dropped delivery. -/
def noteDrop (sink : SinkState) : SinkState :=
  { sink with drops := saturatingAdd 64 sink.drops 1 }

/-- Count one scheduled retry. -/
def noteRetry (sink : SinkState) : SinkState :=
  { sink with retries := saturatingAdd 64 sink.retries 1 }

@[simp] theorem onQueue_toSinkQueue (sink : SinkState) (f : SinkQueue → SinkQueue) :
    (sink.onQueue f).toSinkQueue = f sink.toSinkQueue := rfl

@[simp] theorem noteDrop_toSinkQueue (sink : SinkState) :
    sink.noteDrop.toSinkQueue = sink.toSinkQueue := rfl

@[simp] theorem noteRetry_toSinkQueue (sink : SinkState) :
    sink.noteRetry.toSinkQueue = sink.toSinkQueue := rfl

end SinkState

end Netbaiot.EventBus
