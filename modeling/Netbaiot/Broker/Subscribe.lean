import Netbaiot.Broker.Inbound

/-!
# Subscribing

A new subscription replays the retained messages it matches.  The replay is planned
against the limits first; if a frame is refused all the same, the session, the trie and
the counters are put back as they were.
-/

namespace Netbaiot.Broker

open Lib Mqtt

/-- What the plan of a replay has used so far. -/
structure ReplayUsage where
  session : StoredSession
  tenantStateBytes : ℕ
  globalStateBytes : ℕ
  tenantQos1 : ℕ
  tenantQos2 : ℕ
  tenantOfflineCount : ℕ
  tenantOfflineBytes : ℕ
  globalOfflineCount : ℕ
  globalOfflineBytes : ℕ
  liveFrames : ℕ

/-- Where a replayed message goes. -/
inductive RetainedReplayAdmission where
  | live
  | offline
deriving DecidableEq

/-- Plan the replay of one message. -/
def planReplay (key : SessionKey) (limits : Limits) (message : BrokerMessage)
    (u : ReplayUsage) : BrokerM (RetainedReplayAdmission × ReplayUsage) := do
  let active ← channel key
  let free := (active.map (·.free)).getD 0
  let charge := message.bytes
  if message.qos = 0 then
    Op.ensure (u.liveFrames < free) .overloaded
    let granted ← reserveFrame charge
    Op.ensure granted .overloaded
    return (.live, { u with liveFrames := u.liveFrames + 1 })
  else
    Op.ensure (charge ≤ limits.maxOutboundBytesPerConnection) .overloaded
    let inflight := if message.qos = 1 then u.tenantQos1 else u.tenantQos2
    let canLive := inflight < inflightPerTenant limits message.qos ∧ u.liveFrames < free ∧
      u.session.hasOutboundCapacity message.qos limits ∧ u.session.hasSendQuota
    let granted ← reserveIf canLive charge
    Op.ensure
      (u.session.stateBytes + charge ≤ limits.maxMqttSessionStateBytes ∧
        u.tenantStateBytes + charge ≤ limits.maxMqttSessionStateBytesPerTenant ∧
        u.globalStateBytes + charge ≤ limits.globalMqttSessionBytes)
      .overloaded
    let grown := { u with
      tenantStateBytes := u.tenantStateBytes + charge
      globalStateBytes := u.globalStateBytes + charge }
    if granted then
      match u.session.allocatePacketId with
      | (none, _) => throw .overloaded
      | (some id, session) =>
          return (.live, { grown with
            session := session.send id message
            tenantQos1 := if message.qos = 1 then u.tenantQos1 + 1 else u.tenantQos1
            tenantQos2 := if message.qos = 1 then u.tenantQos2 else u.tenantQos2 + 1
            liveFrames := u.liveFrames + 1 })
    else
      Op.ensure
        (u.session.offline.length < limits.maxOfflineMessagesPerSession ∧
          u.session.offlineBytes + charge ≤ limits.maxOfflineBytesPerSession ∧
          u.tenantOfflineCount < limits.maxOfflineMessagesPerTenant ∧
          u.tenantOfflineBytes + charge ≤ limits.maxOfflineBytesPerTenant ∧
          u.globalOfflineCount < limits.maxOfflineMessages ∧
          u.globalOfflineBytes + charge ≤ limits.maxOfflineBytes)
        .overloaded
      return (.offline, { grown with
        session := u.session.queueOffline message
        tenantOfflineCount := u.tenantOfflineCount + 1
        tenantOfflineBytes := u.tenantOfflineBytes + charge
        globalOfflineCount := u.globalOfflineCount + 1
        globalOfflineBytes := u.globalOfflineBytes + charge })

def planReplays (key : SessionKey) (limits : Limits) :
    List BrokerMessage → ReplayUsage → BrokerM (List RetainedReplayAdmission)
  | [], _ => return []
  | message :: rest, u => do
      let (admission, u) ← planReplay key limits message u
      let others ← planReplays key limits rest u
      return admission :: others

def preflightRetainedReplay (key : SessionKey) (messages : List BrokerMessage)
    (charge : ℕ) (limits : Limits) : BrokerM (List RetainedReplayAdmission) := do
  let session ← storedSession key .internal
  let s ← get
  let tenantId := key.device.tenantId
  let tenant := s.tenant tenantId
  let u : ReplayUsage :=
    { session := { session with stateBytes := session.stateBytes + charge }
      tenantStateBytes := s.tenantTotalSessionBytes tenantId + charge
      globalStateBytes := s.totalSessionBytes + charge
      tenantQos1 := tenant.qos1Inflight
      tenantQos2 := tenant.qos2Inflight
      tenantOfflineCount := tenant.offlineCount
      tenantOfflineBytes := tenant.offlineBytes
      globalOfflineCount := s.accounts.offlineCount
      globalOfflineBytes := s.accounts.offlineBytes
      liveFrames := 0 }
  Op.ensure
    (u.session.stateBytes ≤ limits.maxMqttSessionStateBytes ∧
      u.tenantStateBytes ≤ limits.maxMqttSessionStateBytesPerTenant ∧
      u.globalStateBytes ≤ limits.globalMqttSessionBytes)
    .overloaded
  if messages.isEmpty then return []
  else
    let _ ← Op.someOr (s.active.lookup key) .conflict
    planReplays key limits messages u

/-- The retained messages a subscription replays, in the order the store yields them. -/
def replayMessages (s : BrokerState) (key : SessionKey) (filter : Text)
    (subscription : Subscription) (replacement : Bool) (now : Int64) (order : ℕ) :
    List BrokerMessage :=
  let allowed := fun (retained : RetainedMessage) =>
    !(retained.message.expired now || (subscription.noLocal && retained.origin == some key))
  let replay := fun (retained : RetainedMessage) =>
    retained.message.routedTo (min retained.message.qos subscription.qos) true
  if subscription.retainHandling = 2 ∨ (subscription.retainHandling = 1 ∧ replacement) then []
  else if filter.contains 43 || filter.contains 35 then
    ((permute order s.retained.entries.values).filter fun retained =>
      topicMatches filter retained.message.topic && allowed retained).map replay
  else ((s.retained.entries.lookup filter).filter allowed).toList.map replay

/-- Hand over one replayed message as planned. -/
def replayOne (key : SessionKey) (limits : Limits) (message : BrokerMessage) :
    RetainedReplayAdmission → BrokerM Unit
  | .live => enqueue key message limits true false none
  | .offline => queueOffline key message limits

/-- Hand over the replayed messages as planned. -/
def replay (key : SessionKey) (limits : Limits) :
    List (BrokerMessage × RetainedReplayAdmission) → BrokerM Unit
  | [] => pure ()
  | (message, admission) :: rest => do
      replayOne key limits message admission
      replay key limits rest

/-- The subscription limits of a session, its device, its tenant and the broker. -/
def subscriptionRoom (s : BrokerState) (session : StoredSession) (key : SessionKey)
    (filter : Text) (limits : Limits) : Bool :=
  session.subscriptions.size < limits.maxSubscriptionsPerSession &&
    (s.accounts.deviceSubscriptionCount.lookup key.device).getD 0 <
      limits.maxSubscriptionsPerDevice &&
    s.accounts.subscriptionCount < limits.maxSubscriptions &&
    (s.tenant key.device.tenantId).subscriptionCount < limits.maxSubscriptionsPerTenant &&
    session.stateBytes + subscriptionCharge filter ≤ limits.maxMqttSessionStateBytes

/-- Put the session, the trie and the counters back to where a subscription began. -/
def rollback (key : SessionKey) (filter : Text) (before : Accounts)
    (session : StoredSession) : BrokerM Unit := do
  modifyAccounts fun a => { a with
    sessions := a.sessions.insert key session
    subscriptionCount := before.subscriptionCount
    sessionBytes := before.sessionBytes
    offlineCount := before.offlineCount
    offlineBytes := before.offlineBytes }
  modify fun s => { s with
    trie := ((session.subscriptions.lookup filter).map fun previous =>
      (s.trie.remove filter key).insert filter key previous).getD (s.trie.remove filter key) }
  syncSessionUsage key

def subscribeOptions (key : SessionKey) (generation : UInt64) (filter : Text)
    (subscription : Subscription) (limits : Limits) : BrokerM ℕ := do
  Op.ensure (subscription.qos ≤ 2 ∧ subscription.retainHandling ≤ 2 ∧
    validTopic filter limits true) .invalid
  let now ← nowMs
  pruneExpiredMessages now hotMaintenanceBudget
  driveCapacityWakes limits
  checkOwner key generation .conflict
  pruneIfDue key
  let reading ← observe
  let s ← get
  let replacement :=
    (s.session? key).any fun session => (session.subscriptions.lookup filter).isSome
  let retained := replayMessages s key filter subscription replacement reading.now reading.order
  Op.whenever (!replacement) do
    let session ← storedSession key .internal
    Op.ensure (subscriptionRoom s session key filter limits) .overloaded
  let charge := if replacement then 0 else subscriptionCharge filter
  let plan ← preflightRetainedReplay key retained charge limits
  let session ← storedSession key .internal
  let before ← get
  Op.ensure
    (replacement ∨
      (before.tenantTotalSessionBytes key.device.tenantId + charge ≤
          limits.maxMqttSessionStateBytesPerTenant ∧
        before.totalSessionBytes + charge ≤ limits.globalMqttSessionBytes))
    .overloaded
  putSession key { session with
    stateBytes := session.stateBytes + charge
    subscriptions := session.subscriptions.insert filter subscription }
  modifyAccounts fun a => { a with
    sessionBytes := a.sessionBytes + charge
    subscriptionCount := if replacement then a.subscriptionCount else a.subscriptionCount + 1 }
  modify fun s => { s with trie := s.trie.insert filter key subscription }
  syncSessionUsage key
  match ← Op.attempt (replay key limits (retained.zip plan)) with
  | .error e =>
      rollback key filter before.accounts session
      throw e
  | .ok () =>
      publishSubscriptionCount
      return subscription.qos

def unsubscribe (key : SessionKey) (generation : UInt64) (filter : Text) (limits : Limits) :
    BrokerM Bool := do
  checkOwner key generation .conflict
  let s ← get
  match (s.session? key).filter fun session => (session.subscriptions.lookup filter).isSome with
  | none => return false
  | some session =>
      putSession key { session with
        subscriptions := session.subscriptions.erase filter
        stateBytes := session.stateBytes - subscriptionCharge filter }
      modifyAccounts fun a => { a with
        sessionBytes := a.sessionBytes - subscriptionCharge filter
        subscriptionCount := a.subscriptionCount - 1 }
      modify fun s => { s with trie := s.trie.remove filter key }
      syncSessionUsage key
      retryPendingWills limits
      publishSubscriptionCount
      return true

end Netbaiot.Broker
