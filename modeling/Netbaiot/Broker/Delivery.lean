import Netbaiot.Broker.Will

/-!
# Outbound exchanges

Commands are sent live to the connection that subscribed to them.  The connection then
reports transfers and acknowledgements, each of which ends an exchange or moves it on.
-/

namespace Netbaiot.Broker

open Lib Mqtt

/-- Publish the subscription counts for the routing shortcut. -/
def publishSubscriptionCount : BrokerM Unit :=
  modify fun s => { s with
    publishedSubscriptions := s.accounts.subscriptionCount
    publishedUplinks := s.trie.uplinkSubscriptions }

variable (key : SessionKey) (generation : UInt64) (limits : Limits)

/-- End an exchange and give its charge back. -/
def releaseOutbound (packetId : PacketId) : BrokerM Unit := do
  let session ← storedSession key .internal
  let (removed, session) := session.removeOutbound packetId
  putSession key session
  let outbound ← Op.someOr removed .internal
  putSession key { session with stateBytes := session.stateBytes - outbound.bytes }
  modifyAccounts fun a => { a with sessionBytes := a.sessionBytes - outbound.bytes }
  syncSessionUsage key

/-- Begin an exchange for a session with the next free identifier, within the limits. -/
def beginExchange (message : BrokerMessage) (limits : Limits) (command : Bool)
    (progress : Option ProgressId) : BrokerM PacketId := do
  let s ← get
  let session ← storedSession key .internal
  match session.allocatePacketId with
  | (none, session) =>
      putSession key session
      throw .overloaded
  | (some id, session) =>
      putSession key session
      Op.ensure
        (session.stateBytes + message.bytes ≤ limits.maxMqttSessionStateBytes ∧
          s.tenantTotalSessionBytes key.device.tenantId + message.bytes ≤
            limits.maxMqttSessionStateBytesPerTenant ∧
          s.totalSessionBytes + message.bytes ≤ limits.globalMqttSessionBytes)
        .overloaded
      let session :=
        if command then
          { session with
            commandOutbound := insert id session.commandOutbound
            commandProgress := (progress.map fun p => session.commandProgress.insert id p).getD
              session.commandProgress }
        else session
      commitSend key session id message
      return id

/-- Hand a message to a session: live if its connection has room, else offline. -/
def enqueue (message : BrokerMessage) (limits : Limits) (budget : Bool)
    (command : Bool) (progress : Option ProgressId) : BrokerM Unit := do
  let now ← nowMs
  if message.expired now then return
  else
    let active ← channel key
    match active with
    | none => queueOffline key message limits
    | some active =>
        Op.ensure (message.bytes ≤ limits.maxOutboundBytesPerConnection) .overloaded
        if active.free = 0 then queueOffline key message limits
        else
          let granted ← reserveUnless budget message.bytes
          let s ← get
          if !granted then queueOffline key message limits
          else if message.qos = 0 then
            let _ ← storedSession key .internal
            let sent ← trySend key (freshFrame message none command progress)
            if sent then return
            else if command then throw .unavailable
            else throw .overloaded
          else if s.tenantInflight key.device.tenantId message.qos ≥
              inflightPerTenant limits message.qos then
            queueOffline key message limits
          else
            let session ← storedSession key .internal
            if !session.hasOutboundCapacity message.qos limits || !session.hasSendQuota then
              queueOffline key message limits
            else
              let id ← beginExchange key message limits command progress
              let sent ← trySend key (freshFrame message (some id) command progress)
              -- A persistent exchange is resumed by the next connection; a command is not.
              if sent || !command then return
              else
                releaseOutbound key id
                throw .unavailable

def sendLiveTracked (message : BrokerMessage)
    (progress : Option ProgressId) (limits : Limits) : BrokerM Unit := do
  checkOwner key generation .unavailable
  let s ← get
  let subscribed := (s.session? key).any fun session =>
    session.subscriptions.keys.any fun filter => topicMatches filter message.topic
  let now ← nowMs
  if message.expired now then
    if progress.isSome then return else throw .unavailable
  else
    Op.ensure subscribed .unavailable
    let active ← channel key
    let active ← Op.someOr active .unavailable
    Op.ensure (active.free ≠ 0 ∧ message.bytes ≤ limits.maxOutboundBytesPerConnection) .overloaded
    let granted ← reserveFrame message.bytes
    Op.ensure granted .overloaded
    Op.whenever (message.qos > 0) do
      let session ← storedSession key .internal
      let s ← get
      Op.ensure
        (s.tenantInflight key.device.tenantId message.qos < inflightPerTenant limits message.qos ∧
          session.hasOutboundCapacity message.qos limits ∧ session.hasSendQuota)
        .overloaded
    enqueue key message limits true true progress

/-- The connection asks for the next frame itself. -/
def nextOffline : BrokerM (Option BrokerFrame) := do
  checkOwner key generation .conflict
  let now ← nowMs
  let s ← get
  Op.whenever (s.messageExpiryDue key now) do
    let now ← nowMs
    let _ ← pruneExpiredMessagesForSession key now
    driveCapacityWakes limits
  match ← nextUnsentFrame key with
  | some frame =>
      markPending key
      return some frame
  | none =>
      let s ← get
      if ((s.session? key).bind StoredSession.unsentOutboundQos).isSome then
        markPending key
        return none
      else if ((s.session? key).bind fun session => session.offline.head?).any fun message =>
          s.tenantInflight key.device.tenantId message.qos ≥ inflightPerTenant limits message.qos
      then
        markPending key
        return none
      else
        let frame ← promoteOffline key limits
        markPending key
        retryPendingWills limits
        return frame

/-- What the connection does with the frame it was given. -/
def handOver : Option BrokerFrame → BrokerM Unit
  | none => pure ()
  | some frame => modify fun s => { s with handed := s.handed ++ [⟨key, generation, frame⟩] }

def outboundBytesReleased : BrokerM Unit := wakeGlobalBytePending limits

/-- The exchange still carries the message of a delivery. -/
def StoredSession.carries (session : StoredSession) (packetId : PacketId)
    (message : BrokerMessage) : Bool :=
  match session.outbound.lookup packetId with
  | some (.awaitPuback m) | some (.awaitPubrec m) => m = message
  | _ => false

/-- Cross the first-transfer boundary of a queued publish.  `began` is what the command
tracker says about beginning the transfer. -/
def beginOutboundTransfer (delivery : BrokerDelivery)
    (began : Bool) (limits : Limits) : BrokerM Bool := do
  let packetId ← Op.someOr delivery.packetId .invalid
  checkOwner key generation .conflict
  let session ← storedSession key .internal
  let now ← nowMs
  if !session.carries packetId delivery.message then return false
  else if packetId ∉ session.startedOutbound ∧
      (delivery.message.expired now ∨ (delivery.progress.isSome ∧ !began)) then
    releaseOutbound key packetId
    driveCapacityWakes limits
    return false
  else
    putSession key { session with startedOutbound := insert packetId session.startedOutbound }
    syncSessionUsage key
    return true

/-- Settle a copy that the peer's Maximum Packet Size cannot carry. -/
def discardOutbound (delivery : BrokerDelivery) (limits : Limits) : BrokerM Bool := do
  let packetId ← Op.someOr delivery.packetId .invalid
  checkOwner key generation .conflict
  let session ← storedSession key .internal
  if !session.carries packetId delivery.message then return false
  else
    releaseOutbound key packetId
    driveCapacityWakes limits
    retryPendingWills limits
    return true

def pubrec (packetId : PacketId) : BrokerM BrokerFrame := do
  checkOwner key generation .conflict
  let session ← storedSession key .internal
  match session.outbound.lookup packetId with
  | some (.awaitPubrec message) =>
      putSession key { session with
        outbound := session.outbound.insert packetId (.awaitPubcomp message)
        startedOutbound := insert packetId session.startedOutbound }
      syncSessionUsage key
      return .pubrel packetId false
  | some (.awaitPubcomp _) =>
      syncSessionUsage key
      return .pubrel packetId true
  | some (.awaitPuback _) => throw .conflict
  | none => throw .invalid

def pubrecRejected (packetId : PacketId) (limits : Limits) : BrokerM Bool := do
  checkOwner key generation .conflict
  let session ← storedSession key .internal
  match session.outbound.lookup packetId with
  | some (.awaitPubrec _) =>
      releaseOutbound key packetId
      driveCapacityWakes limits
      return packetId ∈ session.commandOutbound
  | some _ => throw .conflict
  | none => throw .invalid

/-- The acknowledgements that end an exchange. -/
inductive OutboundAck where
  | puback
  | pubcomp
deriving DecidableEq

/-- The acknowledgement that ends an exchange in this state. -/
def OutboundState.endsWith : OutboundState → OutboundAck → Bool
  | .awaitPuback _, .puback => true
  | .awaitPubcomp _, .pubcomp => true
  | _, _ => false

def completeOutbound (packetId : PacketId)
    (ack : OutboundAck) (limits : Limits) : BrokerM Bool := do
  checkOwner key generation .conflict
  let session ← storedSession key .internal
  let outbound ← Op.someOr (session.outbound.lookup packetId) .invalid
  Op.ensure (outbound.endsWith ack) .invalid
  releaseOutbound key packetId
  driveCapacityWakes limits
  retryPendingWills limits
  return packetId ∈ session.commandOutbound

end Netbaiot.Broker
