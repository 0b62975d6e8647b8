import Netbaiot.Broker.Delivery

/-!
# Inbound QoS 2

An inbound QoS 2 publish is stored until its PUBREL, handed to the event pipeline under
an operation identifier, and routed once the pipeline has accepted it.  A retain publish
holds a retained reservation from its PUBREC until it is routed.
-/

namespace Netbaiot.Broker

open Lib Mqtt

/-- The wrapping counter after this one; zero is never used. -/
def followingCounter (n : UInt64) : UInt64 := if n + 1 = 0 then 1 else n + 1

variable (key : SessionKey) (generation : UInt64) (limits : Limits)

/-- The receive window of a connection for QoS 2 publishes. -/
def receiveWindow : ℕ :=
  min limits.maxInflightQos1PerSession limits.maxInflightQos2PerSession

/-- A publish repeated on a new connection takes a slot of that connection's window. -/
def beginInboundQos2Retransmission (packetId : PacketId) (limits : Limits) : BrokerM Bool := do
  checkOwner key generation .conflict
  let session ← storedSession key .internal
  match session.inboundQos2.lookup packetId with
  | some (.awaitPubrel _) =>
      if packetId ∈ session.inboundWindow then return true
      else if session.inboundWindow.card ≥ receiveWindow limits then return false
      else
        putSession key { session with inboundWindow := insert packetId session.inboundWindow }
        return true
  | _ => throw .conflict

/-- Store a new inbound message in a session. -/
def StoredSession.receive (session : StoredSession) (packetId : PacketId)
    (message : BrokerMessage) (reservation : RetainedReservation) : StoredSession :=
  { session with
    stateBytes := session.stateBytes + message.bytes
    inboundQos2 := session.inboundQos2.insert packetId (.awaitPubrel message)
    inboundWindow :=
      if session.version = .v5 then insert packetId session.inboundWindow
      else session.inboundWindow
    inboundReservations :=
      if reservation = {} then session.inboundReservations
      else session.inboundReservations.insert packetId reservation }

/-- Accept a QoS 2 publish; false if its identifier already carries it. -/
def inboundQos2 (key : SessionKey) (generation : UInt64) (packetId : PacketId)
    (message : BrokerMessage) (limits : Limits) : BrokerM Bool := do
  Op.ensure (message.qos = 2) .invalid
  checkOwner key generation .conflict
  let session ← storedSession key .internal
  match session.inboundQos2.lookup packetId with
  | some existing =>
      -- MQTT 5 keeps the first message whatever the repetition says.
      if session.version = .v5 then return false
      else if existing.message = message then return false
      else throw .invalid
  | none =>
      Op.ensure (validBrokerMessage message limits) .invalid
      Op.ensure (session.inboundQos2.size + session.outboundCount (fun o => !o.isPuback) <
        limits.maxInflightQos2PerSession) .overloaded
      Op.ensure (session.version = .v5 → session.inboundWindow.card < receiveWindow limits)
        .overloaded
      let charge := message.bytes
      let tenantId := key.device.tenantId
      let reservation ← reserveRetained tenantId (some key) message limits
      let s ← get
      if session.stateBytes + charge ≤ limits.maxMqttSessionStateBytes ∧
          s.tenantInflight tenantId 2 < limits.maxInflightQos2PerTenant ∧
          s.tenantTotalSessionBytes tenantId + charge ≤
            limits.maxMqttSessionStateBytesPerTenant ∧
          s.totalSessionBytes + charge ≤ limits.globalMqttSessionBytes then
        putSession key (session.receive packetId message reservation)
        modifyAccounts fun a => { a with sessionBytes := a.sessionBytes + charge }
        syncSessionUsage key
        return true
      else
        releaseRetainedReservation tenantId reservation
        throw .overloaded

def finishInboundPubcomp (packetId : PacketId) : BrokerM Unit := do
  checkOwner key generation .conflict
  let session ← storedSession key .internal
  putSession key { session with inboundWindow := session.inboundWindow.erase packetId }

/-- What a PUBREL asks of its caller. -/
inductive InboundQos2Action where
  | deliver (message : BrokerMessage) (sessionIncarnation operationId : UInt64)
  | eventAccepted (sessionIncarnation operationId : UInt64)
  | deliveryInProgress
  | unknown
deriving DecidableEq

def beginInboundQos2Delivery (packetId : PacketId) : BrokerM InboundQos2Action := do
  checkOwner key generation .conflict
  modify fun s => { s with operationId := followingCounter s.operationId }
  let s ← get
  let session ← storedSession key .internal
  match session.inboundQos2.lookup packetId with
  | none => return .unknown
  | some (.awaitPubrel message) =>
      putSession key { session with
        inboundQos2 := session.inboundQos2.insert packetId (.delivering message s.operationId) }
      return .deliver message session.incarnation s.operationId
  | some (.delivering _ _) => return .deliveryInProgress
  | some (.eventAccepted _) =>
      let operationId := (session.inboundOperations.lookup packetId).getD s.operationId
      putSession key { session with
        inboundOperations := session.inboundOperations.insert packetId operationId }
      return .eventAccepted session.incarnation operationId

/-- The event pipeline accepted the message. -/
def finishInboundQos2Delivery (sessionIncarnation : UInt64)
    (packetId : PacketId) (operationId : UInt64) : BrokerM Unit := do
  let session ← storedSession key .internal
  Op.ensure (session.incarnation = sessionIncarnation) .conflict
  let entry ← Op.someOr (session.inboundQos2.lookup packetId) .invalid
  match entry with
  | .delivering message current =>
      Op.ensure (current = operationId) .conflict
      putSession key { session with
        inboundQos2 := session.inboundQos2.insert packetId (.eventAccepted message)
        inboundOperations := session.inboundOperations.insert packetId operationId }
  | .eventAccepted _ =>
      Op.ensure (session.inboundOperations.lookup packetId = some operationId) .conflict
  | .awaitPubrel _ => throw .conflict

/-- The event pipeline did not accept the message. -/
def abandonInboundQos2Delivery (sessionIncarnation : UInt64)
    (packetId : PacketId) (operationId : UInt64) : BrokerM Unit := do
  let session ← storedSession key .internal
  Op.ensure (session.incarnation = sessionIncarnation) .conflict
  let entry ← Op.someOr (session.inboundQos2.lookup packetId) .invalid
  match entry with
  | .delivering message current =>
      Op.ensure (current = operationId) .conflict
      putSession key { session with
        inboundQos2 := session.inboundQos2.insert packetId (.awaitPubrel message) }
  | _ => throw .conflict

/-- Take the reservation of an inbound message out of its session and release it. -/
def releaseInboundReservation (packetId : PacketId) : BrokerM Unit := do
  let s ← get
  match s.session? key with
  | none => pure ()
  | some session =>
      putSession key { session with
        inboundReservations := session.inboundReservations.erase packetId }
      releaseRetainedReservation key.device.tenantId
        ((session.inboundReservations.lookup packetId).getD {})

/-- Forget an inbound message and give its charge back. -/
def dropInbound (packetId : PacketId) (charge : ℕ) : BrokerM Unit := do
  let session ← storedSession key .internal
  putSession key { session with
    inboundQos2 := session.inboundQos2.erase packetId
    inboundOperations := session.inboundOperations.erase packetId
    stateBytes := session.stateBytes - charge }
  modifyAccounts fun a => { a with sessionBytes := a.sessionBytes - charge }

/-- Forget an inbound message with its reservation. -/
def settleInbound (packetId : PacketId) :
    Option InboundQos2State → BrokerM Unit
  | none => dropInbound key packetId 0
  | some entry => do
      releaseInboundReservation key packetId
      dropInbound key packetId entry.message.bytes

/-- The client released the message without a delivery. -/
def completeInboundQos2 (packetId : PacketId) (limits : Limits) : BrokerM Unit := do
  checkOwner key generation .conflict
  let session ← storedSession key .internal
  settleInbound key packetId (session.inboundQos2.lookup packetId)
  syncSessionUsage key
  driveCapacityWakes limits
  retryPendingWills limits

/-- Route an accepted inbound message and forget it. -/
def routeInboundQos2 (sessionIncarnation : UInt64) (packetId : PacketId)
    (operationId : UInt64) (owner : DeviceKey) (limits : Limits) : BrokerM ℕ := do
  let session ← storedSession key .conflict
  Op.ensure (session.incarnation = sessionIncarnation ∧
    session.inboundOperations.lookup packetId = some operationId) .conflict
  match session.inboundQos2.lookup packetId with
  | some (.eventAccepted message) =>
      releaseInboundReservation key packetId
      match ← Op.attempt (routeLocked owner (some key) message limits) with
      | .error e =>
          let restored ← reserveRetained key.device.tenantId (some key) message limits
          if restored = {} then throw e
          else
            let session ← storedSession key .internal
            putSession key { session with
              inboundReservations := session.inboundReservations.insert packetId restored }
            throw e
      | .ok delivered =>
          let session ← storedSession key .internal
          Op.whenever (session.inboundQos2.lookup packetId).isSome
            (dropInbound key packetId message.bytes)
          syncSessionUsage key
          driveCapacityWakes limits
          retryPendingWills limits
          return delivered
  | _ => throw .conflict

end Netbaiot.Broker
