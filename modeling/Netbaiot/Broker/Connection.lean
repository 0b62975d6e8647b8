import Netbaiot.Broker.Subscribe

/-!
# Sessions and connections

Attaching creates or resumes the session of a client, replays its exchanges on the new
connection and promotes offline messages while there is room.  Detaching ends the
connection and, for a clean session, the session with it.
-/

namespace Netbaiot.Broker

open Lib Mqtt

/-- Release a list of reservations of one tenant. -/
def releaseReservations (tenant : TenantId) (r : RetainedStore) :
    List RetainedReservation → RetainedStore
  | [] => r
  | reservation :: rest => releaseReservations tenant (r.releaseReservation tenant reservation) rest

/-- Remove the subscriptions of a session to a list of filters. -/
def removeFilters (key : SessionKey) (trie : SubscriptionTrie) : List Text → SubscriptionTrie
  | [] => trie
  | filter :: rest => removeFilters key (trie.remove filter key) rest

/-- Give back everything a removed session held. -/
def dropSession (key : SessionKey) : Option StoredSession → BrokerM Unit
  | none => pure ()
  | some session => do
      modifyRetained fun r =>
        releaseReservations key.device.tenantId r session.inboundReservations.values
      modify fun s => { s with trie := removeFilters key s.trie session.subscriptions.keys }
      modifyAccounts fun a => { a with
        sessions := a.sessions.erase key
        subscriptionCount := a.subscriptionCount - session.subscriptions.size
        offlineCount := a.offlineCount - session.offline.length
        offlineBytes := a.offlineBytes - session.offlineBytes
        sessionBytes := a.sessionBytes - session.stateBytes }

def removeSession (key : SessionKey) : BrokerM Unit := do
  unmarkPending key
  modify fun s => { s with active := s.active.erase key }
  let s ← get
  dropSession key (s.session? key)
  syncSessionUsage key

/-- Remove a session whose indexed deadline was due, unless it has moved. -/
def expireSession (now : Int64) (key : SessionKey) : BrokerM Unit := do
  let s ← get
  if (s.sessionExpiryDeadline key).any (· ≤ now) then removeSession key
  else syncSessionUsage key

/-- Remove sessions whose deadline has passed, at most that many. -/
def pruneExpiredSessions (now : Int64) : ℕ → BrokerM Unit
  | 0 => pure ()
  | budget + 1 => do
      let reading ← observe
      let s ← get
      match s.deadlines.sessions.popDue now reading.order with
      | none => pure ()
      | some (key, index) =>
          set { s with deadlines := { s.deadlines with sessions := index } }
          expireSession now key
          pruneExpiredSessions now budget

def pruneExpired (budget : ℕ) : BrokerM Unit := do
  let now ← nowMs
  pruneExpiredSessions now budget

/-! ## Resuming -/

/-- The frames resumed so far, and what was promoted for them. -/
structure Resumed where
  session : StoredSession
  frames : List BrokerFrame := []
  count : ℕ := 0
  bytes : ℕ := 0
  promotedQos1 : ℕ := 0
  promotedQos2 : ℕ := 0

/-- Repeat the exchanges of the session in their order; false if one is missing. -/
def resumeOutbound (limits : Limits) : List PacketId → Resumed → BrokerM (Resumed × Bool)
  | [], r => return (r, true)
  | id :: rest, r => do
      if r.frames.length ≥ limits.maxOutboundMessagesPerConnection then return (r, true)
      else
        match r.session.outbound.lookup id with
        | none => return (r, false)
        | some outbound =>
            if !outbound.isPubcomp && !r.session.hasSendQuota then resumeOutbound limits rest r
            else
              let granted ← reserveUnless outbound.isPubcomp outbound.bytes
              if !granted then return (r, true)
              else
                resumeOutbound limits rest { r with
                  frames := r.frames ++ [r.session.repeatFrame id outbound]
                  session := r.session.markSent id outbound }

/-- Promote offline messages while the connection, the session and the tenant have room;
`fuel` bounds their number. -/
def resumeOffline (limits : Limits) (availableQos1 availableQos2 : ℕ) :
    ℕ → Resumed → BrokerM Resumed
  | 0, r => return r
  | fuel + 1, r => do
      if r.frames.length ≥ limits.maxOutboundMessagesPerConnection ∨ !r.session.hasSendQuota then
        return r
      else
        match r.session.offline with
        | [] => return r
        | message :: rest =>
            let tenantCapacity : Bool :=
              if message.qos = 1 then r.promotedQos1 < availableQos1
              else r.promotedQos2 < availableQos2
            if !r.session.hasOutboundCapacity message.qos limits || !tenantCapacity then return r
            else
              let granted ← reserveFrame message.bytes
              if !granted then return r
              else
                match r.session.allocatePacketId with
                | (none, session) => return { r with session }
                | (some id, session) =>
                    resumeOffline limits availableQos1 availableQos2 fuel
                      { session := session.promote id message rest
                        frames := r.frames ++ [freshFrame message (some id) false none]
                        count := r.count + 1
                        bytes := r.bytes + message.bytes
                        promotedQos1 :=
                          if message.qos = 1 then r.promotedQos1 + 1 else r.promotedQos1
                        promotedQos2 :=
                          if message.qos = 1 then r.promotedQos2 else r.promotedQos2 + 1 }

/-- The frames a new connection starts with; false if the exchanges are inconsistent. -/
def resumeFrames (session : StoredSession) (limits : Limits)
    (availableQos1 availableQos2 : ℕ) : BrokerM (Resumed × Bool) := do
  let (r, complete) ← resumeOutbound limits session.outboundOrder { session }
  if !complete then return (r, false)
  else
    let r ← resumeOffline limits availableQos1 availableQos2 r.session.offline.length r
    return (r, true)

/-! ## Attaching -/

/-- Whether a new session fits. -/
def newSessionRoom (s : BrokerState) (key : SessionKey) (bytes : ℕ) (limits : Limits) : Bool :=
  s.accounts.sessions.size < limits.maxPersistentSessions &&
    (s.tenant key.device.tenantId).sessionCount < limits.maxPersistentSessionsPerTenant &&
    s.tenantTotalSessionBytes key.device.tenantId + bytes ≤
      limits.maxMqttSessionStateBytesPerTenant &&
    s.totalSessionBytes + bytes ≤ limits.globalMqttSessionBytes

/-- The first generated client identifier that no session uses. -/
def generatedClientId (s : BrokerState) (limits : Limits) : Option Text :=
  ((List.range 1024).map fun offset =>
    ascii "generated-" ++ decimal (s.generation + UInt64.ofNat (offset + 1)).toNat).find?
      fun candidate => candidate.length ≤ limits.maxClientIdBytes &&
        s.accounts.sessions.keys.all fun key => key.clientId ≠ candidate

/-- Who connects, and how. -/
structure Connect where
  auth : AuthenticatedDevice
  clientId : Option Text
  cleanSession : Bool
  version : MqttVersion
  sessionExpiryInterval : UInt32
  receiveMaximum : UInt16
  /-- What the caller thinks of a generated client identifier. -/
  preflight : Text → Option Error

variable (c : Connect)

/-- Create the session of a key. -/
def createSession (key : SessionKey) (limits : Limits) : BrokerM Unit := do
  modify fun s => { s with generation := followingCounter s.generation }
  let now ← nowMs
  let s ← get
  let session := { StoredSession.new key s.generation (some (.ofAuth c.auth)) now with
    version := c.version
    sessionExpiryInterval := c.sessionExpiryInterval }
  Op.ensure (newSessionRoom s key session.stateBytes limits) .overloaded
  modifyAccounts fun a => { a with
    sessionBytes := a.sessionBytes + session.stateBytes
    sessions := a.sessions.insert key session }
  syncSessionUsage key

/-- Give up a resumption whose exchanges are inconsistent. -/
def failResume (key : SessionKey) (session : StoredSession) (limits : Limits) : BrokerM UInt64 := do
  Op.whenever c.cleanSession (removeSession key)
  Op.whenever (!c.cleanSession) (putSession key { session with activeGeneration := none })
  syncSessionUsage key
  driveCapacityWakes limits
  throw .internal

/-- Take over the session with a new connection. -/
def resumeSession (key : SessionKey) (limits : Limits) : BrokerM UInt64 := do
  modify fun s => { s with
    active := s.active.erase key
    generation := followingCounter s.generation }
  let s ← get
  let generation := s.generation
  let capacity := limits.maxOutboundMessagesPerConnection
  -- The channel cannot be created without a slot.
  Op.ensure (capacity ≠ 0) .internal
  let session ← storedSession key .internal
  let now ← nowMs
  let session := { session with
    activeGeneration := some generation
    lastSeenMs := now
    expiresAtMs := none
    sessionExpiryInterval := c.sessionExpiryInterval
    sendQuota := c.receiveMaximum
    sent := ∅
    sendWindow := ∅
    inboundWindow := ∅ }
  let available := fun qos =>
    inflightPerTenant limits qos - s.tenantInflight key.device.tenantId qos
  let (r, complete) ← resumeFrames session limits (available 1) (available 2)
  putSession key r.session
  if !complete then
    failResume c key r.session limits
  else
    let frames := r.frames.take capacity
    Op.ensure (frames.length ≤ capacity) .internal
    modify fun s => { s with
      active := s.active.insert key
        { generation, capacity, free := capacity - frames.length, closed := false }
      handed := s.handed ++ frames.map fun frame => ⟨key, generation, frame⟩ }
    modifyAccounts fun a => { a with
      offlineCount := a.offlineCount - r.count
      offlineBytes := a.offlineBytes - r.bytes }
    syncSessionUsage key
    driveCapacityWakes limits
    markPending key
    publishSubscriptionCount
    return generation

/-- Remove the previous session for a clean start, or if it was created under another
protocol version or authorization profile. -/
def startClean (key : SessionKey) (limits : Limits) : BrokerM Unit := do
  if c.cleanSession then
    modifyWills fun w => w.releaseCleanStartDelays key
    retryPendingWills limits
    removeSession key
  else
    let s ← get
    Op.whenever ((s.session? key).any fun session =>
      session.version ≠ c.version || session.authorization ≠ some (.ofAuth c.auth))
      (removeSession key)

/-- What attaching returns: the session key, the generation of the connection, the
incarnation of the session and whether it was resumed. -/
structure Attachment where
  key : SessionKey
  generation : UInt64
  sessionIncarnation : UInt64
  sessionPresent : Bool

def attachProfile (limits : Limits) : BrokerM Attachment := do
  Op.ensure (c.receiveMaximum ≠ 0) .invalid
  pruneExpired hotMaintenanceBudget
  let now ← nowMs
  pruneExpiredMessages now hotMaintenanceBudget
  let s ← get
  let clientId ← Op.someOr (c.clientId.or (generatedClientId s limits)) .overloaded
  Op.fromExcept ((c.preflight clientId).elim (.ok ()) .error)
  let key : SessionKey := ⟨c.auth.deviceKey, clientId⟩
  let now ← nowMs
  let s ← get
  Op.whenever ((s.sessionExpiryDeadline key).any (· ≤ now)) (removeSession key)
  pruneIfDue key
  startClean c key limits
  let s ← get
  let sessionPresent := !c.cleanSession && (s.session? key).isSome
  Op.whenever (s.session? key).isNone (createSession c key limits)
  retryPendingWills limits
  let session ← storedSession key .internal
  cancelResumedWills key session.incarnation
  let generation ← resumeSession c key limits
  return ⟨key, generation, session.incarnation, sessionPresent⟩

/-- What a session becomes when its connection ends. -/
def leaveSession (key : SessionKey) (cleanSession : Bool) : Option StoredSession → BrokerM Unit
  | none => pure ()
  | some session => do
      if (if session.version = .v5 then session.sessionExpiryInterval = 0 else cleanSession) then
        removeSession key
      else
        let seen ← nowMs
        let now ← nowMs
        putSession key { session with
          activeGeneration := none
          sent := ∅
          sendWindow := ∅
          inboundWindow := ∅
          lastSeenMs := seen
          expiresAtMs :=
            if session.version = .v5 ∧ session.sessionExpiryInterval ≠ 0xFFFFFFFF then
              some (secondsFrom now session.sessionExpiryInterval)
            else session.expiresAtMs }

/-- End a connection; an older connection than the current one is ignored. -/
def detach (key : SessionKey) (generation : UInt64) (cleanSession : Bool) (limits : Limits) :
    BrokerM Unit := do
  let s ← get
  if (s.active.lookup key).all fun active => active.generation ≠ generation then return
  else
    modify fun s => { s with active := s.active.erase key }
    unmarkPending key
    leaveSession key cleanSession (s.session? key)
    syncSessionUsage key
    driveCapacityWakes limits
    publishSubscriptionCount

def setV5DisconnectExpiry (key : SessionKey) (generation : UInt64) (interval : UInt32) :
    BrokerM Unit := do
  checkOwner key generation .conflict
  let session ← storedSession key .internal
  Op.ensure (session.version = .v5 ∧ (session.sessionExpiryInterval = 0 → interval = 0)) .invalid
  putSession key { session with sessionExpiryInterval := interval }

/-! ## Maintenance -/

def tick (limits : Limits) : BrokerM Unit := do
  pruneExpired tickMaintenanceBudget
  let now ← nowMs
  pruneExpiredMessages now tickMaintenanceBudget
  wakeGlobalBytePending limits
  retryPendingWillsBounded limits tickMaintenanceBudget
  publishSubscriptionCount

/-- Whether an invalidation ends a session. -/
def invalidates (invalidation : AuthInvalidation) (session : StoredSession) : Bool :=
  match invalidation with
  | .device device => session.key.device = device
  | .product tenantId productId =>
      session.key.device.tenantId = tenantId && session.key.device.productId = productId
  | .tenant tenantId => session.key.device.tenantId = tenantId
  | .credentialVersion version =>
      session.authorization.all fun authorization => authorization.credentialVersion = version
  | .authGeneration generation =>
      session.authorization.all fun authorization => authorization.authGeneration = generation
  | .all => true

/-- Remove a list of sessions. -/
def removeSessions : List SessionKey → BrokerM Unit
  | [] => pure ()
  | key :: rest => do
      removeSession key
      removeSessions rest

def invalidateSessions (invalidation : AuthInvalidation) (limits : Limits) : BrokerM ℕ := do
  let s ← get
  let ended ← unordered (s.accounts.sessions.values.filter (invalidates invalidation))
  removeSessions (ended.map StoredSession.key)
  driveCapacityWakes limits
  retryPendingWills limits
  publishSubscriptionCount
  return ended.length

end Netbaiot.Broker
