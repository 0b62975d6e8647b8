import Netbaiot.Lib.Table
import Netbaiot.Broker.Message

/-!
# Stored sessions

A stored session owns its subscriptions, its offline queue and the QoS 1 and QoS 2
exchanges in both directions.  The functions here work on one session; the broker calls
them while it holds its lock and brings its counters up to date afterwards.
-/

namespace Netbaiot.Broker

open Lib Mqtt

abbrev PacketId := UInt16

/-- The handle through which the progress of one command is reported. -/
abbrev ProgressId := ℕ

inductive MqttVersion where
  | v311
  | v5
deriving DecidableEq

/-- The authorization profile under which a session was created. -/
structure SessionAuthorization where
  credentialVersion : UInt32
  authGeneration : UInt64
  permissions : Permissions
  codecId : CodecId
  codecVersion : UInt16
deriving DecidableEq

def SessionAuthorization.ofAuth (auth : AuthenticatedDevice) : SessionAuthorization where
  credentialVersion := auth.credentialVersion
  authGeneration := auth.authGeneration
  permissions := auth.permissions
  codecId := auth.codecId
  codecVersion := auth.codecVersion

/-- Retained capacity set aside for a promised retained update. -/
structure RetainedReservation where
  globalCount : ℕ := 0
  globalBytes : ℕ := 0
  tenantCount : ℕ := 0
  tenantBytes : ℕ := 0
deriving DecidableEq

/-- A QoS 2 publish received from the client. -/
inductive InboundQos2State where
  | awaitPubrel (message : BrokerMessage)
  | delivering (message : BrokerMessage) (operationId : UInt64)
  | eventAccepted (message : BrokerMessage)
deriving DecidableEq

def InboundQos2State.message : InboundQos2State → BrokerMessage
  | .awaitPubrel m | .delivering m _ | .eventAccepted m => m

/-- A QoS 1 or QoS 2 publish sent to the client and not yet settled. -/
inductive OutboundState where
  | awaitPuback (message : BrokerMessage)
  | awaitPubrec (message : BrokerMessage)
  | awaitPubcomp (message : BrokerMessage)
deriving DecidableEq

namespace OutboundState

def message : OutboundState → BrokerMessage
  | .awaitPuback m | .awaitPubrec m | .awaitPubcomp m => m

def bytes (o : OutboundState) : ℕ := o.message.bytes

/-- The exchange is a QoS 1 exchange. -/
def isPuback : OutboundState → Bool
  | .awaitPuback _ => true
  | _ => false

/-- The client has taken over the message; only its release is outstanding. -/
def isPubcomp : OutboundState → Bool
  | .awaitPubcomp _ => true
  | _ => false

/-- The QoS of the exchange. -/
def qos (o : OutboundState) : ℕ := if o.isPuback then 1 else 2

/-- The first state of the exchange that delivers a message. -/
def start (m : BrokerMessage) : OutboundState :=
  if m.qos = 1 then .awaitPuback m else .awaitPubrec m

end OutboundState

/-- The state the broker keeps for one client session. -/
structure StoredSession where
  key : SessionKey
  version : MqttVersion
  sessionExpiryInterval : UInt32
  expiresAtMs : Option Int64
  incarnation : UInt64
  authorization : Option SessionAuthorization
  subscriptions : Table Text Subscription
  offline : List BrokerMessage
  offlineBytes : ℕ
  inboundQos2 : Table PacketId InboundQos2State
  inboundOperations : Table PacketId UInt64
  inboundReservations : Table PacketId RetainedReservation
  outbound : Table PacketId OutboundState
  commandOutbound : Finset PacketId
  commandProgress : Table PacketId ProgressId
  /-- Original transmission order for reconnect retransmission. -/
  outboundOrder : List PacketId
  nextPacketId : PacketId
  stateBytes : ℕ
  lastSeenMs : Int64
  activeGeneration : Option UInt64
  sendQuota : UInt16
  sent : Finset PacketId
  /-- Publishes occupying the connection's Receive Maximum. -/
  sendWindow : Finset PacketId
  /-- Inbound QoS 2 publishes of this connection not yet answered with PUBCOMP. -/
  inboundWindow : Finset PacketId
  /-- Publishes whose first transfer has begun. -/
  startedOutbound : Finset PacketId

/-- What one session contributes to the counters of its tenant and of the broker. -/
structure SessionUsage where
  stateBytes : ℕ := 0
  subscriptions : ℕ := 0
  offlineCount : ℕ := 0
  offlineBytes : ℕ := 0
  qos1Inflight : ℕ := 0
  qos2Inflight : ℕ := 0
deriving DecidableEq

/-- The charge of one subscription. -/
def subscriptionCharge (filter : Text) : ℕ := filter.length + stateOverhead

variable (s : StoredSession)

namespace StoredSession

def new (key : SessionKey) (incarnation : UInt64) (authorization : Option SessionAuthorization)
    (now : Int64) : StoredSession where
  key
  version := .v311
  sessionExpiryInterval := 0
  expiresAtMs := none
  incarnation
  authorization
  subscriptions := ∅
  offline := []
  offlineBytes := 0
  inboundQos2 := ∅
  inboundOperations := ∅
  inboundReservations := ∅
  outbound := ∅
  commandOutbound := ∅
  commandProgress := ∅
  outboundOrder := []
  nextPacketId := 1
  stateBytes := key.bytes + stateOverhead
  lastSeenMs := now
  activeGeneration := none
  sendQuota := 65535
  sent := ∅
  sendWindow := ∅
  inboundWindow := ∅
  startedOutbound := ∅

/-- The identifier after this one; zero is never used. -/
def followingId (id : PacketId) : PacketId := if id = 65535 then 1 else id + 1

/-- Try that many identifiers from the next one on. -/
def allocateWithin : ℕ → StoredSession → Option PacketId × StoredSession
  | 0, s => (none, s)
  | fuel + 1, s =>
      let id := s.nextPacketId
      let s := { s with nextPacketId := followingId id }
      if (s.outbound.lookup id).isSome then allocateWithin fuel s else (some id, s)

/-- Take the next identifier that no exchange uses; all of them may be taken. -/
def allocatePacketId : Option PacketId × StoredSession :=
  allocateWithin 65535 s

/-- The number of outbound exchanges with a property. -/
def outboundCount (p : OutboundState → Bool) : ℕ :=
  s.outbound.total fun _ o => if p o then 1 else 0

def hasOutboundCapacity (qos : ℕ) (limits : Limits) : Bool :=
  let outbound := s.outboundCount fun o =>
    match qos with
    | 1 => o.isPuback
    | 2 => !o.isPuback
    | _ => false
  let used := if qos = 2 then outbound + s.inboundQos2.size else outbound
  used < if qos = 1 then limits.maxInflightQos1PerSession else limits.maxInflightQos2PerSession

def hasSendQuota : Bool := s.sendWindow.card < s.sendQuota.toNat

def insertOutbound (packetId : PacketId) (state : OutboundState) : StoredSession :=
  { s with
    outboundOrder :=
      if (s.outbound.lookup packetId).isSome then s.outboundOrder else s.outboundOrder ++ [packetId]
    outbound := s.outbound.insert packetId state }

def removeOutbound (packetId : PacketId) : Option OutboundState × StoredSession :=
  let removed := s.outbound.lookup packetId
  (removed,
    { s with
      commandOutbound := s.commandOutbound.erase packetId
      commandProgress := s.commandProgress.erase packetId
      sent := s.sent.erase packetId
      sendWindow := s.sendWindow.erase packetId
      startedOutbound := s.startedOutbound.erase packetId
      outbound := s.outbound.erase packetId
      outboundOrder :=
        if removed.isSome then s.outboundOrder.filter (· ≠ packetId) else s.outboundOrder })

/-- The first exchange that was not sent on this connection. -/
def firstUnsent : Option (PacketId × OutboundState) :=
  s.outboundOrder.findSome? fun id =>
    if id ∈ s.sent then none else (s.outbound.lookup id).map fun o => (id, o)

def unsentOutboundQos : Option ℕ := s.firstUnsent.map fun e => e.2.qos

/-- The QoS of what the session would hand over next. -/
def nextQos : Option ℕ :=
  s.unsentOutboundQos.or (s.offline.head?.map BrokerMessage.qos)

/-- The deadline of one outbound exchange, unless its first transfer has begun. -/
def outboundDeadline (id : PacketId) : OutboundState → Option Int64
  | .awaitPuback m | .awaitPubrec m =>
      if id ∈ s.startedOutbound then none else m.properties.expiresAtMs
  | .awaitPubcomp m => m.properties.expiresAtMs

def nextMessageExpiry : Option Int64 :=
  (s.offline.filterMap (·.properties.expiresAtMs) ++
    s.outbound.entries.filterMap fun e => s.outboundDeadline e.1 e.2).min?

/-- The exchange was handed to the connection; a publish occupies its window. -/
def markSent (id : PacketId) (o : OutboundState) : StoredSession :=
  { s with
    sent := insert id s.sent
    sendWindow := if o.isPubcomp then s.sendWindow else insert id s.sendWindow }

/-- Move the head of the offline queue into a new exchange on this connection. -/
def promote (id : PacketId) (message : BrokerMessage) (rest : List BrokerMessage) : StoredSession :=
  ({ s with offline := rest, offlineBytes := s.offlineBytes - message.bytes }.insertOutbound id
    (.start message)).markSent id (.start message)

def usage : SessionUsage where
  stateBytes := s.stateBytes
  subscriptions := s.subscriptions.size
  offlineCount := s.offline.length
  offlineBytes := s.offlineBytes
  qos1Inflight := s.outboundCount OutboundState.isPuback
  qos2Inflight := s.inboundQos2.size + s.outboundCount fun o => !o.isPuback

end StoredSession

/-! ## Expiry within one session -/

/-- What expiry released: offline count and bytes, all state bytes, and whether an unsent
exchange freed inflight capacity. -/
structure Pruned where
  count : ℕ
  offlineBytes : ℕ
  sessionBytes : ℕ
  releasedOutbound : Bool

/-- The exchange expires as a whole: it has a passed deadline and was never transferred. -/
def outboundExpired (now : Int64) (id : PacketId) : OutboundState → Bool
  | .awaitPuback m | .awaitPubrec m => m.expired now && id ∉ s.startedOutbound
  | .awaitPubcomp _ => false

/-- Remove exchanges one by one and add up their charges. -/
def removeOutbounds : List PacketId → StoredSession → StoredSession × ℕ
  | [], s => (s, 0)
  | id :: ids, s =>
      let removed := s.removeOutbound id
      let rest := removeOutbounds ids removed.2
      (rest.1, (removed.1.map OutboundState.bytes).getD 0 + rest.2)

/-- An expired message whose client already owns it keeps only its topic. -/
def clearExpired (now : Int64) : OutboundState → OutboundState
  | .awaitPubcomp m =>
      if m.expired now then .awaitPubcomp m.cleared
      else .awaitPubcomp m
  | o => o

/-- The session without its expired offline messages. -/
def dropExpiredOffline (now : Int64) : StoredSession :=
  { s with
    offline := s.offline.filter fun m => !m.expired now
    offlineBytes :=
      s.offlineBytes - ((s.offline.filter (·.expired now)).map BrokerMessage.bytes).sum }

/-- The identifiers of the exchanges that expire. -/
def expiredIds (now : Int64) : List PacketId :=
  (s.outbound.entries.filter fun e => outboundExpired s now e.1 e.2).map (·.1)

def pruneSessionMessages (now : Int64) : StoredSession × Pruned :=
  let offlineBytes := ((s.offline.filter (·.expired now)).map BrokerMessage.bytes).sum
  let s₁ := dropExpiredOffline s now
  let (s₂, outboundBytes) := removeOutbounds (expiredIds s₁ now) s₁
  let cleared := s₂.outbound.total fun _ o => o.bytes - (clearExpired now o).bytes
  let sessionBytes := offlineBytes + outboundBytes + cleared
  ({ s₂ with
      outbound := s₂.outbound.mapValues fun _ o => clearExpired now o
      stateBytes := s₂.stateBytes - sessionBytes },
    { count := s.offline.length - s₁.offline.length
      offlineBytes
      sessionBytes
      releasedOutbound := !(expiredIds s₁ now).isEmpty })

end Netbaiot.Broker
