import Netbaiot.Broker.Retained

/-!
# Waiting sessions and message expiry

`markPending` keeps the index of connected sessions that have something to hand over.
Expiry removes the messages of one session, or of the sessions and retained topics whose
indexed deadline has passed, a bounded number at a time.
-/

namespace Netbaiot.Broker

open Lib Mqtt

/-! ## The pending index -/

namespace PendingIndex

def unmark (p : PendingIndex) (key : SessionKey) : PendingIndex :=
  match p.sessions.lookup key with
  | none => p
  | some (qos, token) =>
      let queueKey := (key.device.tenantId, qos)
      { p with
        sessions := p.sessions.erase key
        global := p.global.erase token
        byTenant :=
          match p.byTenant.lookup queueKey with
          | none => p.byTenant
          | some queue =>
              p.byTenant.put queueKey
                (if (queue.erase token).size = 0 then none else some (queue.erase token)) }

/-- Let a session wait under a QoS, or not at all; one that already does keeps its place. -/
def mark (p : PendingIndex) (key : SessionKey) (qos : Option ℕ) : PendingIndex :=
  if (p.sessions.lookup key).map (·.1) = qos then p
  else
    let p := p.unmark key
    match qos with
    | none => p
    | some qos =>
        let token := p.global.freshToken p.global.size p.nextToken
        let queueKey := (key.device.tenantId, qos)
        { nextToken := token
          byTenant := p.byTenant.insert queueKey
            (((p.byTenant.lookup queueKey).getD ∅).insert token key)
          global := p.global.insert token key
          sessions := p.sessions.insert key (qos, token) }

end PendingIndex

def modifyPending (f : PendingIndex → PendingIndex) : BrokerM Unit :=
  modify fun s => { s with pending := f s.pending }

def unmarkPending (key : SessionKey) : BrokerM Unit := modifyPending fun p => p.unmark key

def markPending (key : SessionKey) : BrokerM Unit := do
  let s ← get
  let qos :=
    if (s.active.lookup key).isSome then (s.session? key).bind StoredSession.nextQos else none
  modifyPending fun p => p.mark key qos

/-! ## Expiry -/

/-- Expire the messages of one session; whether inflight capacity was released. -/
def pruneExpiredMessagesForSession (key : SessionKey) (now : Int64) : BrokerM Bool := do
  let session ← storedSession key .internal
  let pruned := pruneSessionMessages session now
  putSession key pruned.1
  modifyAccounts fun a => { a with
    offlineCount := a.offlineCount - pruned.2.count
    offlineBytes := a.offlineBytes - pruned.2.offlineBytes
    sessionBytes := a.sessionBytes - pruned.2.sessionBytes }
  syncSessionUsage key
  Op.whenever pruned.1.offline.isEmpty (unmarkPending key)
  return pruned.2.releasedOutbound

/-- Expire the messages of a session if its indexed deadline has passed. -/
def pruneIfDue (key : SessionKey) : BrokerM Unit := do
  let now ← nowMs
  let s ← get
  Op.whenever (s.messageExpiryDue key now) do
    let now ← nowMs
    let _ ← pruneExpiredMessagesForSession key now

/-- Expire the messages of due sessions, at most that many. -/
def pruneDueSessions (now : Int64) : ℕ → BrokerM Unit
  | 0 => pure ()
  | budget + 1 => do
      let reading ← observe
      let s ← get
      match s.deadlines.messages.popDue now reading.order with
      | none => pure ()
      | some (key, index) =>
          set { s with deadlines := { s.deadlines with messages := index } }
          let _ ← pruneExpiredMessagesForSession key now
          pruneDueSessions now budget

/-- Remove one retained topic whose deadline was due. -/
def expireRetained (now : Int64) (topic : Text) : BrokerM Unit := do
  let s ← get
  match s.retained.entries.lookup topic with
  | none => pure ()
  | some retained =>
      if !retained.message.expired now then
        updateRetainedExpiry topic retained.message.properties.expiresAtMs
      else
        Op.ensure (retained.bytes ≤ s.retained.bytes) .internal
        modifyRetained fun r => { r with entries := r.entries.erase topic }
        retainedUsageRemove retained
        modifyRetained fun r => { r with bytes := s.retained.bytes - retained.bytes }

/-- Remove due retained topics, at most that many. -/
def pruneDueRetained (now : Int64) : ℕ → BrokerM Unit
  | 0 => pure ()
  | budget + 1 => do
      let reading ← observe
      let s ← get
      match s.deadlines.retained.popDue now reading.order with
      | none => pure ()
      | some (topic, index) =>
          set { s with deadlines := { s.deadlines with retained := index } }
          expireRetained now topic
          pruneDueRetained now budget

def pruneExpiredMessages (now : Int64) (budget : ℕ) : BrokerM Unit := do
  pruneDueSessions now budget
  pruneDueRetained now budget

end Netbaiot.Broker
