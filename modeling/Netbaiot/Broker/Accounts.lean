import Netbaiot.Broker.State

/-!
# Cached counters

`syncSessionUsage` brings the counters of a session's tenant and device up to date with
the session, from the usage it cached for it the last time.  It also refreshes the
session's deadlines and notes when inflight capacity was released.
-/

namespace Netbaiot.Broker

open Lib Mqtt

/-- Move a counter by the difference of two contributions. -/
def applyUsageDelta (value before after : ℕ) : Except Error ℕ :=
  if before ≤ after then .ok (value + (after - before))
  else if before - after ≤ value then .ok (value - (before - after))
  else .error .internal

/-- Move the counters of a tenant from an old to a new usage of one of its sessions. -/
def TenantUsage.apply (usage : TenantUsage) (before after : Option SessionUsage) :
    Except Error TenantUsage := do
  let old := before.getD {}
  let new := after.getD {}
  let sessionCount ← applyUsageDelta usage.sessionCount (if before.isSome then 1 else 0)
    (if after.isSome then 1 else 0)
  let sessionBytes ← applyUsageDelta usage.sessionBytes old.stateBytes new.stateBytes
  let subscriptionCount ←
    applyUsageDelta usage.subscriptionCount old.subscriptions new.subscriptions
  let offlineCount ← applyUsageDelta usage.offlineCount old.offlineCount new.offlineCount
  let offlineBytes ← applyUsageDelta usage.offlineBytes old.offlineBytes new.offlineBytes
  let qos1Inflight ← applyUsageDelta usage.qos1Inflight old.qos1Inflight new.qos1Inflight
  let qos2Inflight ← applyUsageDelta usage.qos2Inflight old.qos2Inflight new.qos2Inflight
  return ⟨sessionCount, sessionBytes, subscriptionCount, offlineCount, offlineBytes,
    qos1Inflight, qos2Inflight⟩

variable (s : BrokerState)

namespace BrokerState

def session? (key : SessionKey) : Option StoredSession :=
  s.accounts.sessions.lookup key

/-- The counters of a tenant; a tenant without sessions has none. -/
def tenant (s : BrokerState) (tenant : TenantId) : TenantUsage :=
  (s.accounts.tenantUsage.lookup tenant).getD {}

/-- The Will responsibilities of a tenant: their count and bytes. -/
def willTenant (tenant : TenantId) : ℕ × ℕ :=
  (s.wills.responsibilityTenants.lookup tenant).getD (0, 0)

def tenantSessionBytes (tenant : TenantId) : ℕ := (s.tenant tenant).sessionBytes

def totalSessionBytes : ℕ := s.accounts.sessionBytes + s.wills.responsibilityBytes

def tenantTotalSessionBytes (tenant : TenantId) : ℕ :=
  s.tenantSessionBytes tenant + (s.willTenant tenant).2

def tenantInflight (tenant : TenantId) (qos : ℕ) : ℕ :=
  if qos = 1 then (s.tenant tenant).qos1Inflight else (s.tenant tenant).qos2Inflight

/-- When a disconnected session expires. -/
def sessionExpiryDeadline (key : SessionKey) : Option Int64 :=
  if (s.active.lookup key).isSome then none
  else
    match s.session? key with
    | none => none
    | some session =>
        if session.version = .v5 then session.expiresAtMs
        else some (saturatingAdd64 (saturatingAdd64 session.lastSeenMs s.sessionIdleTtlMs) 1)

def messageExpiryDue (key : SessionKey) (now : Int64) : Bool :=
  (s.deadlines.messages.byKey.lookup key).any (· ≤ now)

end BrokerState

/-- The inflight ceiling of a tenant for one QoS. -/
def inflightPerTenant (limits : Limits) (qos : ℕ) : ℕ :=
  if qos = 1 then limits.maxInflightQos1PerTenant else limits.maxInflightQos2PerTenant

/-- Change the session accounts. -/
def modifyAccounts (f : Accounts → Accounts) : BrokerM Unit :=
  modify fun s => { s with accounts := f s.accounts }

def putSession (key : SessionKey) (session : StoredSession) : BrokerM Unit :=
  modifyAccounts fun a => { a with sessions := a.sessions.insert key session }

/-- The stored session of a key, or a failure. -/
def storedSession (key : SessionKey) (e : Error) : BrokerM StoredSession := do
  let s ← get
  Op.someOr (s.session? key) e

/-- The connection with that generation owns the session. -/
def checkOwner (key : SessionKey) (generation : UInt64) (e : Error) : BrokerM Unit := do
  let s ← get
  Op.ensure ((s.active.lookup key).any fun active => active.generation = generation) e

/-- Note that a tenant's inflight count fell. -/
def noteReleased (tenant : TenantId) (qos : ℕ) (released : Bool) : BrokerM Unit :=
  modify fun s => { s with
    capacityWakes :=
      if released then s.capacityWakes.insert (toLex (tenant, qos)) () else s.capacityWakes }

/-- Refresh the deadlines of a session. -/
def refreshDeadlines (key : SessionKey) : BrokerM Unit :=
  modify fun s => { s with
    deadlines := { s.deadlines with
      messages :=
        s.deadlines.messages.update key ((s.session? key).bind StoredSession.nextMessageExpiry)
      sessions := s.deadlines.sessions.update key (s.sessionExpiryDeadline key) } }

/-- Reconcile one changed session with the counters derived from it. -/
def syncSessionUsage (key : SessionKey) : BrokerM Unit := do
  let s ← get
  let before := s.accounts.sessionUsage.lookup key
  let after := (s.session? key).map StoredSession.usage
  refreshDeadlines key
  if before = after then return
  else
    let tenant := key.device.tenantId
    let stored := s.tenant tenant
    let usage ← Op.fromExcept (stored.apply before after)
    noteReleased tenant 1 (usage.qos1Inflight < stored.qos1Inflight)
    noteReleased tenant 2 (usage.qos2Inflight < stored.qos2Inflight)
    let subscriptions ← Op.fromExcept (applyUsageDelta
      ((s.accounts.deviceSubscriptionCount.lookup key.device).getD 0)
      (before.getD {}).subscriptions (after.getD {}).subscriptions)
    modifyAccounts fun a => { a with
      sessionUsage := a.sessionUsage.put key after
      tenantUsage := a.tenantUsage.put tenant (if usage.sessionCount = 0 then none else some usage)
      deviceSubscriptionCount := a.deviceSubscriptionCount.put key.device
        (if subscriptions = 0 then none else some subscriptions) }

end Netbaiot.Broker
