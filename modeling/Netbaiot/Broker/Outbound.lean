import Netbaiot.Broker.Expiry

/-!
# Handing messages to connections

A message for a session is sent live, or queued offline and promoted when the session
has an inflight slot, send quota, byte budget and channel space.  Releases of capacity
wake the sessions that wait for it.
-/

namespace Netbaiot.Broker

open Lib Mqtt

/-- The frame that carries a message for the first time. -/
def freshFrame (message : BrokerMessage) (packetId : Option PacketId) (command : Bool)
    (progress : Option ProgressId) : BrokerFrame :=
  .publish { message, packetId, dup := false, command, progress }

/-- The frame that carries an exchange again. -/
def StoredSession.repeatFrame (session : StoredSession) (id : PacketId) :
    OutboundState → BrokerFrame
  | .awaitPuback message | .awaitPubrec message =>
      .publish { message, packetId := some id, dup := true, command := id ∈ session.commandOutbound
                 progress := session.commandProgress.lookup id }
  | .awaitPubcomp _ => .pubrel id true

/-- Hand over the first exchange not yet sent on this connection. -/
def nextUnsentFrame (key : SessionKey) : BrokerM (Option BrokerFrame) := do
  let s ← get
  let _ ← Op.someOr (s.active.lookup key) .unavailable
  let session ← storedSession key .unavailable
  match session.firstUnsent with
  | none => return none
  | some (id, outbound) =>
      if outbound.isPubcomp then
        putSession key (session.markSent id outbound)
        return some (session.repeatFrame id outbound)
      else if !session.hasSendQuota then return none
      else
        let granted ← reserveFrame outbound.bytes
        if !granted then return none
        else
          putSession key (session.markSent id outbound)
          return some (session.repeatFrame id outbound)

/-- Move the head of the offline queue into an exchange, if there is room for it. -/
def promoteOffline (key : SessionKey) (limits : Limits) : BrokerM (Option BrokerFrame) := do
  let s ← get
  match (s.session? key).bind fun session => session.offline.head? with
  | none => return none
  | some message =>
      let _ ← Op.someOr (s.active.lookup key) .unavailable
      let granted ← reserveFrame message.bytes
      if !granted then return none
      else
        let session ← storedSession key .unavailable
        match session.offline with
        | [] => return none
        | message :: rest =>
            if !session.hasOutboundCapacity message.qos limits || !session.hasSendQuota then
              return none
            else
              match session.allocatePacketId with
              | (none, session) =>
                  -- Every identifier is in use: the message stays in the queue.
                  putSession key session
                  return none
              | (some id, session) =>
                  putSession key (session.promote id message rest)
                  modifyAccounts fun a => { a with
                    offlineCount := a.offlineCount - 1
                    offlineBytes := a.offlineBytes - message.bytes }
                  syncSessionUsage key
                  return some (freshFrame message (some id) false none)

/-- The frame a session would hand over next. -/
def nextFrame (key : SessionKey) (limits : Limits) : BrokerM (Option BrokerFrame) := do
  let s ← get
  if ((s.session? key).bind StoredSession.unsentOutboundQos).isSome then nextUnsentFrame key
  else promoteOffline key limits

/-- Serve one waiting session of a tenant. -/
def wakeSession (tenant : TenantId) (qos : ℕ) (limits : Limits) (key : SessionKey) :
    BrokerM Unit := do
  modifyPending fun p => { p with
    sessions := p.sessions.erase key
    global := ((p.sessions.lookup key).map fun e => p.global.erase e.2).getD p.global }
  pruneIfDue key
  let active ← channel key
  let s ← get
  if (s.session? key).bind StoredSession.nextQos ≠ some qos ∨ active.all (·.free = 0) ∨
      s.tenantInflight tenant qos ≥ inflightPerTenant limits qos then
    markPending key
  else
    match ← nextFrame key limits with
    | none => markPending key
    | some frame =>
        -- A refused frame belongs to a closed connection; its exchange is resumed later.
        let _ ← trySend key frame
        markPending key

/-- Serve the waiting sessions of a tenant while it has inflight capacity; returns those
not reached. -/
def wakeSessions (tenant : TenantId) (qos : ℕ) (limits : Limits) :
    ℕ → Table UInt64 SessionKey → BrokerM (Table UInt64 SessionKey)
  | 0, pending => return pending
  | attempts + 1, pending => do
      let s ← get
      if s.tenantInflight tenant qos ≥ inflightPerTenant limits qos then return pending
      else
        match pending.popFirst with
        | none => return pending
        | some (_, key, pending) =>
            wakeSession tenant qos limits key
            wakeSessions tenant qos limits attempts pending

def wakeTenantPending (tenant : TenantId) (qos : ℕ) (limits : Limits) : BrokerM Unit := do
  let s ← get
  if s.tenantInflight tenant qos ≥ inflightPerTenant limits qos then return
  else
    let queueKey := (tenant, qos)
    let pending := (s.pending.byTenant.lookup queueKey).getD ∅
    modifyPending fun p => { p with byTenant := p.byTenant.erase queueKey }
    let left ← wakeSessions tenant qos limits pending.size pending
    if left.size = 0 then return
    else
      modifyPending fun p => { p with
        byTenant := p.byTenant.insert queueKey (((p.byTenant.lookup queueKey).getD ∅) ∪ left) }

/-- Serve the tenants whose inflight count fell, at most that many. -/
def driveWakes (limits : Limits) : ℕ → BrokerM Unit
  | 0 => pure ()
  | budget + 1 => do
      let s ← get
      match s.capacityWakes.popFirst with
      | none => pure ()
      | some (wake, _, left) =>
          set { s with capacityWakes := left }
          match ← Op.attempt (wakeTenantPending (ofLex wake).1 (ofLex wake).2 limits) with
          | .ok () => driveWakes limits budget
          | .error e =>
              modify fun s => { s with capacityWakes := s.capacityWakes.insert wake () }
              throw e

def driveCapacityWakes (limits : Limits) : BrokerM Unit := driveWakes limits hotMaintenanceBudget

/-- Serve one waiting session after byte budget was released. -/
def wakeAny (limits : Limits) (key : SessionKey) : BrokerM Unit := do
  unmarkPending key
  pruneIfDue key
  let active ← channel key
  let s ← get
  match (s.session? key).bind StoredSession.nextQos with
  | none => markPending key
  | some qos =>
      if active.all (·.free = 0) ∨
          (((s.session? key).bind StoredSession.unsentOutboundQos).isNone ∧
            s.tenantInflight key.device.tenantId qos ≥ inflightPerTenant limits qos) then
        markPending key
      else
        match ← nextFrame key limits with
        | none => markPending key
        | some frame =>
            let _ ← trySend key frame
            markPending key

def wakeGlobal (limits : Limits) : ℕ → BrokerM Unit
  | 0 => pure ()
  | attempts + 1 => do
      let s ← get
      match s.pending.global.popFirst with
      | none => pure ()
      | some (_, key, global) =>
          set { s with pending := { s.pending with global } }
          wakeAny limits key
          wakeGlobal limits attempts

def wakeGlobalBytePending (limits : Limits) : BrokerM Unit := do
  let s ← get
  wakeGlobal limits (min s.pending.global.size hotMaintenanceBudget)
  driveCapacityWakes limits

end Netbaiot.Broker
