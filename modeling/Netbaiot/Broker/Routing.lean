import Netbaiot.Broker.Outbound

/-!
# Routing

A publish is planned for all of its recipients before anything changes: each gets a live
frame or an offline slot within the limits, or the whole publish fails.  Committing the
plan then only writes what was planned.
-/

namespace Netbaiot.Broker

open Lib Mqtt

variable (session : StoredSession) (limits : Limits)

/-- Append a message to the offline queue of a session. -/
def StoredSession.queueOffline (message : BrokerMessage) : StoredSession :=
  { session with
    offline := session.offline ++ [message]
    offlineBytes := session.offlineBytes + message.bytes
    stateBytes := session.stateBytes + message.bytes }

/-- Begin the exchange that delivers a message on the current connection. -/
def StoredSession.send (id : PacketId) (message : BrokerMessage) : StoredSession :=
  let session := (session.insertOutbound id (.start message)).markSent id (.start message)
  { session with stateBytes := session.stateBytes + message.bytes }

/-- Store a changed session whose offline queue grew by a message. -/
def commitOffline (key : SessionKey) (session : StoredSession) (message : BrokerMessage) :
    BrokerM Unit := do
  putSession key (session.queueOffline message)
  modifyAccounts fun a => { a with
    offlineCount := a.offlineCount + 1
    offlineBytes := a.offlineBytes + message.bytes
    sessionBytes := a.sessionBytes + message.bytes }
  syncSessionUsage key
  markPending key

/-- Store a changed session that began an exchange. -/
def commitSend (key : SessionKey) (session : StoredSession) (id : PacketId)
    (message : BrokerMessage) : BrokerM Unit := do
  putSession key (session.send id message)
  modifyAccounts fun a => { a with sessionBytes := a.sessionBytes + message.bytes }
  syncSessionUsage key

/-- Queue a message offline if the session, its tenant and the broker have room. -/
def queueOffline (key : SessionKey) (message : BrokerMessage) (limits : Limits) : BrokerM Unit := do
  if message.qos = 0 then return
  else
    let s ← get
    let bytes := message.bytes
    let tenant := s.tenant key.device.tenantId
    let session ← storedSession key .unavailable
    Op.ensure
      (session.offline.length < limits.maxOfflineMessagesPerSession ∧
        session.offlineBytes + bytes ≤ limits.maxOfflineBytesPerSession ∧
        tenant.offlineCount < limits.maxOfflineMessagesPerTenant ∧
        tenant.offlineBytes + bytes ≤ limits.maxOfflineBytesPerTenant ∧
        s.accounts.offlineCount < limits.maxOfflineMessages ∧
        s.accounts.offlineBytes + bytes ≤ limits.maxOfflineBytes ∧
        session.stateBytes + bytes ≤ limits.maxMqttSessionStateBytes ∧
        s.tenantTotalSessionBytes key.device.tenantId + bytes ≤
          limits.maxMqttSessionStateBytesPerTenant ∧
        s.totalSessionBytes + bytes ≤ limits.globalMqttSessionBytes)
      .overloaded
    commitOffline key session message

/-! ## Planning -/

inductive PlannedRouteMode where
  | qos0
  | live (packetId : PacketId)
  | offline

/-- One session of a route. -/
structure PlannedRouteTarget where
  key : SessionKey
  qos : ℕ
  retainAsPublished : Bool
  mode : PlannedRouteMode

/-- The usage of a tenant as the plan so far would leave it. -/
structure TenantRouteUsage where
  sessionBytes : ℕ
  offlineCount : ℕ
  offlineBytes : ℕ
  qos1Inflight : ℕ
  qos2Inflight : ℕ

/-- The usage of the broker as the plan so far would leave it. -/
structure RouteUsage where
  tenants : Table TenantId TenantRouteUsage
  stateBytes : ℕ
  offlineCount : ℕ
  offlineBytes : ℕ

/-- The usage a tenant has before the plan. -/
def tenantRouteUsage (s : BrokerState) (tenant : TenantId) : TenantRouteUsage where
  sessionBytes := s.tenantTotalSessionBytes tenant
  offlineCount := (s.tenant tenant).offlineCount
  offlineBytes := (s.tenant tenant).offlineBytes
  qos1Inflight := (s.tenant tenant).qos1Inflight
  qos2Inflight := (s.tenant tenant).qos2Inflight

/-- Look for a free identifier from a candidate on. -/
def projectWithin (session : StoredSession) : ℕ → PacketId → Option PacketId
  | 0, _ => none
  | fuel + 1, candidate =>
      if (session.outbound.lookup candidate).isSome then
        projectWithin session fuel (StoredSession.followingId candidate)
      else some candidate

/-- The identifier the session would allocate next. -/
def projectedPacketId : Option PacketId :=
  projectWithin session 65535 session.nextPacketId

/-- A channel that can take a frame now. -/
def ActiveSession.ready (a : ActiveSession) : Bool := !a.closed && 0 < a.free

/-- Whether the live path has room for one more exchange. -/
def liveRoom (usage : TenantRouteUsage) (qos : ℕ) (limits : Limits) : Bool :=
  (if qos = 1 then usage.qos1Inflight else usage.qos2Inflight) < inflightPerTenant limits qos &&
    session.hasOutboundCapacity qos limits && session.hasSendQuota

/-- Whether one more stored message fits into the session, its tenant and the broker. -/
def stateRoom (usage : RouteUsage) (tenant : TenantRouteUsage)
    (charge : ℕ) (limits : Limits) : Bool :=
  session.stateBytes + charge ≤ limits.maxMqttSessionStateBytes &&
    tenant.sessionBytes + charge ≤ limits.maxMqttSessionStateBytesPerTenant &&
    usage.stateBytes + charge ≤ limits.globalMqttSessionBytes

/-- Whether one more offline message fits into the session, its tenant and the broker. -/
def offlineRoom (usage : RouteUsage) (tenant : TenantRouteUsage)
    (charge : ℕ) (limits : Limits) : Bool :=
  session.offline.length < limits.maxOfflineMessagesPerSession &&
    session.offlineBytes + charge ≤ limits.maxOfflineBytesPerSession &&
    tenant.offlineCount < limits.maxOfflineMessagesPerTenant &&
    tenant.offlineBytes + charge ≤ limits.maxOfflineBytesPerTenant &&
    usage.offlineCount < limits.maxOfflineMessages &&
    usage.offlineBytes + charge ≤ limits.maxOfflineBytes

/-- The usage of a tenant after one more message, live or offline. -/
def TenantRouteUsage.add (usage : TenantRouteUsage) (qos charge : ℕ) (live : Bool) :
    TenantRouteUsage where
  sessionBytes := usage.sessionBytes + charge
  offlineCount := if live then usage.offlineCount else usage.offlineCount + 1
  offlineBytes := if live then usage.offlineBytes else usage.offlineBytes + charge
  qos1Inflight := if live && qos = 1 then usage.qos1Inflight + 1 else usage.qos1Inflight
  qos2Inflight := if live && qos ≠ 1 then usage.qos2Inflight + 1 else usage.qos2Inflight

/-- The usage after one more message, live or offline, for a session of a tenant. -/
def RouteUsage.add (usage : RouteUsage) (tenantId : TenantId) (tenant : TenantRouteUsage)
    (qos charge : ℕ) (live : Bool) : RouteUsage where
  tenants := usage.tenants.insert tenantId (tenant.add qos charge live)
  stateBytes := usage.stateBytes + charge
  offlineCount := if live then usage.offlineCount else usage.offlineCount + 1
  offlineBytes := if live then usage.offlineBytes else usage.offlineBytes + charge

/-- How one recipient of QoS 1 or 2 gets the message. -/
def planMode (usage : RouteUsage) (tenant : TenantRouteUsage)
    (charge : ℕ) (limits : Limits) (useLive : Bool) : BrokerM PlannedRouteMode := do
  if useLive then
    let packetId ← Op.someOr (projectedPacketId session) .overloaded
    return .live packetId
  else
    Op.ensure (offlineRoom session usage tenant charge limits) .overloaded
    return .offline

/-- Plan one recipient of QoS 1 or 2. -/
def planStored (charge : ℕ) (key : SessionKey) (qos : ℕ) (subscription : Subscription)
    (usage : RouteUsage) (ready : Bool) : BrokerM (PlannedRouteTarget × RouteUsage) := do
  Op.ensure (charge ≤ limits.maxOutboundBytesPerConnection) .overloaded
  let session ← storedSession key .internal
  let s ← get
  let tenantId := key.device.tenantId
  let tenant := (usage.tenants.lookup tenantId).getD (tenantRouteUsage s tenantId)
  let budget ← reserveIf ready charge
  let useLive := budget && liveRoom session tenant qos limits
  Op.ensure (stateRoom session usage tenant charge limits) .overloaded
  let mode ← planMode session usage tenant charge limits useLive
  return (⟨key, qos, subscription.retainAsPublished, mode⟩,
    usage.add tenantId tenant qos charge useLive)

/-- Plan the recipients one after the other. -/
def planTargets (limits : Limits) (origin : Option SessionKey) (message : BrokerMessage)
    (charge : ℕ) : List (SessionKey × Subscription) → RouteUsage → BrokerM (List PlannedRouteTarget)
  | [], _ => return []
  | (key, subscription) :: rest, usage => do
      if subscription.noLocal ∧ origin = some key then
        planTargets limits origin message charge rest usage
      else
        let qos := min message.qos subscription.qos
        let active ← channel key
        let ready := active.any ActiveSession.ready
        if qos = 0 then
          let budget ← reserveIf ready charge
          let targets ← planTargets limits origin message charge rest usage
          return if budget then ⟨key, qos, subscription.retainAsPublished, .qos0⟩ :: targets
            else targets
        else
          let (target, usage) ← planStored limits charge key qos subscription usage ready
          let targets ← planTargets limits origin message charge rest usage
          return target :: targets

def preflightRoute (owner : DeviceKey) (origin : Option SessionKey) (message : BrokerMessage)
    (limits : Limits) (charge : ℕ) : BrokerM (List PlannedRouteTarget) := do
  let s ← get
  Op.ensure (!message.retain || checkRetainedUpdate s owner origin message limits) .overloaded
  let found ← unordered ((s.trie.matching message.topic).entries.map fun e => (e.1, e.2))
  planTargets limits origin message charge found
    ⟨∅, s.totalSessionBytes, s.accounts.offlineCount, s.accounts.offlineBytes⟩

/-! ## Committing -/

/-- Write one planned recipient; whether it counts as delivered. -/
def commitTarget (message : BrokerMessage) (target : PlannedRouteTarget) : BrokerM Bool := do
  let routed := message.routedTo target.qos (target.retainAsPublished && message.retain)
  match target.mode with
  | .qos0 => trySend target.key (freshFrame routed none false none)
  | .live packetId =>
      let session ← storedSession target.key .internal
      let session := { session with nextPacketId := StoredSession.followingId packetId }
      commitSend target.key session packetId routed
      let _ ← trySend target.key (freshFrame routed (some packetId) false none)
      return true
  | .offline =>
      let session ← storedSession target.key .internal
      commitOffline target.key session routed
      return true

/-- Write the plan; the number of recipients. -/
def commitTargets (message : BrokerMessage) : List PlannedRouteTarget → BrokerM ℕ
  | [] => return 0
  | target :: rest => do
      let delivered ← commitTarget message target
      let others ← commitTargets message rest
      return others + if delivered then 1 else 0

/-- Expire the messages of a list of sessions. -/
def pruneSessions (now : Int64) : List SessionKey → BrokerM Unit
  | [] => pure ()
  | key :: rest => do
      let _ ← pruneExpiredMessagesForSession key now
      pruneSessions now rest

/-- Expire the messages of the sessions a topic matches, if any session is due. -/
def pruneMatching (now : Int64) (topic : Text) : BrokerM Unit := do
  let s ← get
  Op.whenever (s.deadlines.messages.hasDue now) do
    let found ← unordered (s.trie.matching topic).keys
    pruneSessions now found

/-- Route a message to all matching sessions and retain it if asked to. -/
def routeLocked (owner : DeviceKey) (origin : Option SessionKey) (message : BrokerMessage)
    (limits : Limits) : BrokerM ℕ := do
  let now ← nowMs
  if message.expired now then return 0
  else
    pruneMatching now message.topic
    let plan ← preflightRoute owner origin message limits message.bytes
    Op.whenever message.retain (updateRetained owner origin message limits)
    commitTargets message plan

/-- Route a publish, from a session or from the gateway itself. -/
def routeWithOrigin (owner : DeviceKey) (origin : Option SessionKey) (message : BrokerMessage)
    (limits : Limits) : BrokerM ℕ := do
  Op.ensure (validBrokerMessage message limits) .invalid
  let now ← nowMs
  if message.expired now then return 0
  else
    let s ← get
    if !message.retain &&
        (s.publishedSubscriptions = 0 ||
          ((ascii "/up").isSuffixOf message.topic && s.publishedUplinks = 0)) then
      return 0
    else
      let now ← nowMs
      pruneExpiredMessages now hotMaintenanceBudget
      let result ← Op.attempt (routeLocked owner origin message limits)
      let _ ← Op.attempt (driveCapacityWakes limits)
      Op.fromExcept result

end Netbaiot.Broker
