import Netbaiot.Broker.Closure
import Netbaiot.Lib.Run

/-!
# Calls of the broker

Everything that connections, the command service and the maintenance task may ask of the
broker, each call under one acquisition of its lock.  `brokering` is the system of all runs
from an empty broker; `Closed.performCall` says that every call, apart from those about inbound
messages and the Wills of live connections, follows a closed relation.
-/

namespace Netbaiot.Broker

open Lib Mqtt Op

variable {s s' : BrokerState} {key : SessionKey} {limits : Limits}

namespace Closed

variable {R : BrokerState → BrokerState → Prop} (h : Closed limits R)

include h

theorem nextOffline (key : SessionKey) (generation : UInt64) :
    Follows R (nextOffline key generation limits) := by
  refine h.bind (h.of_aside (quiet_checkOwner key generation _).aside) fun _ => ?_
  refine h.bind (h.of_aside quiet_nowMs.aside) fun now s => followsAt_get_bind ?_
  refine h.bind (h.whenever (h.of_aside ?_)) (fun _ => ?_) s
  · refine quiet_nowMs.aside.bind fun now => ?_
    exact (aside_pruneExpiredMessagesForSession key now).bind fun _ =>
      aside_driveCapacityWakes limits
  · refine h.bind (h.of_aside (aside_nextUnsentFrame key)) fun frame => ?_
    cases frame with
    | some frame =>
      exact h.bind (h.of_aside (quiet_markPending key).aside) fun _ => h.pure _
    | none =>
      intro s
      refine followsAt_get_bind (followsAt_ite (fun _ => ?_) fun _ => ?_)
      · exact h.bind (h.of_aside (quiet_markPending key).aside) (fun _ => h.pure _) s
      · refine followsAt_ite (fun _ => ?_) fun _ => ?_
        · exact h.bind (h.of_aside (quiet_markPending key).aside) (fun _ => h.pure _) s
        · refine h.bind (h.of_aside (aside_promoteOffline key limits)) (fun frame => ?_) s
          refine h.bind (h.of_aside (quiet_markPending key).aside) fun _ => ?_
          exact h.bind (h.retryPendingWills _) fun _ => h.pure _

theorem discardOutbound (key : SessionKey) (generation : UInt64) (delivery : BrokerDelivery) :
    Follows R (discardOutbound key generation delivery limits) := by
  have := h.isRefl
  intro s
  refine followsAt_someOr_bind fun packetId _ => ?_
  refine h.bind (h.of_aside (quiet_checkOwner key generation _).aside) (fun _ s => ?_) s
  refine followsAt_read_bind fun session _ => followsAt_ite (fun _ => h.refl s) fun _ => ?_
  refine h.bind (h.of_aside (aside_releaseOutbound key packetId)) (fun _ => ?_) s
  refine h.bind (h.of_aside (aside_driveCapacityWakes limits)) fun _ => ?_
  exact h.bind (h.retryPendingWills _) fun _ => h.pure _

theorem completeOutbound (key : SessionKey) (generation : UInt64) (packetId : PacketId)
    (ack : OutboundAck) : Follows R (completeOutbound key generation packetId ack limits) := by
  have := h.isRefl
  refine h.bind (h.of_aside (quiet_checkOwner key generation _).aside) fun _ s => ?_
  refine followsAt_read_bind fun session _ => followsAt_someOr_bind fun outbound _ => ?_
  refine followsAt_ensure_bind fun _ => ?_
  refine h.bind (h.of_aside (aside_releaseOutbound key packetId)) (fun _ => ?_) s
  refine h.bind (h.of_aside (aside_driveCapacityWakes limits)) fun _ => ?_
  exact h.bind (h.retryPendingWills _) fun _ => h.pure _

/-! ## Subscribing -/

theorem subscribeOptions (key : SessionKey) (generation : UInt64) (filter : Text)
    (subscription : Subscription) :
    Follows R (subscribeOptions key generation filter subscription limits) := by
  have := h.isRefl
  intro s
  refine followsAt_ensure_bind fun _ => ?_
  refine h.bind (h.of_aside quiet_nowMs.aside) (fun now => ?_) s
  refine h.bind (h.pruneExpiredMessages now _) fun _ => ?_
  refine h.of_aside ?_
  refine (aside_driveCapacityWakes limits).bind fun _ => ?_
  refine (quiet_checkOwner key generation _).aside.bind fun _ => ?_
  refine (aside_pruneIfDue key).bind fun _ => ?_
  refine quiet_observe.aside.bind fun reading s => followsAt_get_bind ?_
  refine followsAt_bind (followsAt_whenever fun _ => ?_) fun _ s' _ => ?_
  · exact followsAt_read_bind fun session _ => followsAt_ensure _ _ s
  refine (quiet_preflightRetainedReplay _ _ _ _).aside.bind (fun plan s => ?_) s'
  refine followsAt_read_bind fun session hold => followsAt_get_bind ?_
  refine followsAt_ensure_bind fun _ => ?_
  refine aside_bind (aside_putSession hold rfl) fun _ s₁ h₁ => ?_
  refine aside_bind ⟨rfl, rfl, fun _ => rfl⟩ fun _ s₂ h₂ => ?_
  refine aside_bind ⟨rfl, rfl, fun _ => rfl⟩ fun _ s₃ h₃ => ?_
  refine aside_bind (aside_syncSessionUsage key s₃) fun _ s₄ h₄ => ?_
  refine aside_bind (followsAt_attempt (aside_replay key limits _ s₄)) fun result s₅ h₅ => ?_
  cases result with
  | ok _ => exact quiet_publishSubscriptionCount.aside.bind (fun _ s => followsAt_pure _ s) s₅
  | error e =>
    -- the replay has not touched the inbound part, so the old session fits
    have hall : Aside s s₅ := IsTrans.trans _ _ _ h₁ (IsTrans.trans _ _ _ h₂
      (IsTrans.trans _ _ _ h₃ (IsTrans.trans _ _ _ h₄ h₅)))
    obtain ⟨session', hsession', hsame⟩ := hall.session hold
    exact followsAt_bind (aside_rollback hsession' hsame.symm filter _) fun _ _ _ =>
      followsAt_throw _ _

theorem unsubscribe (key : SessionKey) (generation : UInt64) (filter : Text) :
    Follows R (unsubscribe key generation filter limits) := by
  refine h.bind (h.of_aside (quiet_checkOwner key generation _).aside) fun _ s => ?_
  refine followsAt_get_bind ?_
  split
  · exact h.refl s
  · next session hfound =>
    have hold : s.session? key = some session := (Option.filter_eq_some_iff.mp hfound).1
    refine h.bindAt (h.aside (aside_putSession hold rfl)) fun _ s₁ _ => ?_
    refine h.bindAt (h.aside ⟨rfl, rfl, fun _ => rfl⟩) fun _ s₂ _ => ?_
    refine h.bindAt (h.aside ⟨rfl, rfl, fun _ => rfl⟩) fun _ s₃ _ => ?_
    refine h.bind (h.of_aside (aside_syncSessionUsage key)) (fun _ => ?_) s₃
    refine h.bind (h.retryPendingWills _) fun _ => ?_
    exact h.bind (h.of_aside quiet_publishSubscriptionCount.aside) fun _ => h.pure _

/-! ## Sessions and connections -/

theorem expireSession (now : Int64) (key : SessionKey) : Follows R (expireSession now key) := by
  intro s
  exact followsAt_get_bind (followsAt_ite (fun _ => h.removeSession key s) fun _ =>
    h.of_aside (aside_syncSessionUsage key) s)

theorem pruneExpiredSessions (now : Int64) (budget : ℕ) :
    Follows R (pruneExpiredSessions now budget) := by
  induction budget with
  | zero => exact h.pure ()
  | succ budget ih =>
    refine h.bind (h.of_aside quiet_observe.aside) fun reading s => followsAt_get_bind ?_
    split
    · exact h.refl s
    · refine h.bindAt (h.aside ⟨rfl, rfl, fun _ => rfl⟩) fun _ s' _ => ?_
      exact h.bind (h.expireSession now _) (fun _ => ih) s'

theorem pruneExpired (budget : ℕ) : Follows R (pruneExpired budget) :=
  h.bind (h.of_aside quiet_nowMs.aside) fun now => h.pruneExpiredSessions now budget

theorem startClean (c : Connect) (key : SessionKey) : Follows R (startClean c key limits) := by
  intro s
  refine followsAt_ite (fun _ => ?_) fun _ => ?_
  · refine h.bind (h.releaseCleanStartDelays key) (fun _ => ?_) s
    exact h.bind (h.retryPendingWills _) fun _ => h.removeSession key
  · exact followsAt_get_bind (h.whenever (h.removeSession key) s)

/-- Giving a resumption up stores the session with its inbound part, or removes it. -/
theorem failResume (c : Connect) {old session : StoredSession} (hold : s.session? key = some old)
    (hsession : session.inbound = old.inbound) :
    FollowsAt R (failResume c key session limits) s := by
  unfold Broker.failResume
  have hend : Follows R (do
      syncSessionUsage key
      driveCapacityWakes limits
      (throw .internal : BrokerM UInt64)) :=
    h.of_aside ((aside_syncSessionUsage key).bind fun _ =>
      (aside_driveCapacityWakes limits).bind fun _ s => followsAt_throw _ s)
  cases c.cleanSession with
  | true =>
    refine h.bind (h.whenever (h.removeSession key)) (fun _ => ?_) s
    exact h.bind (h.pure ()) fun _ => hend
  | false =>
    refine h.bindAt (h.refl s) fun _ s' hexec => ?_
    cases hexec
    exact h.bindAt (h.aside (aside_putSession hold hsession)) fun _ s' _ => hend s'

theorem resumeSession (c : Connect) (key : SessionKey) :
    Follows R (resumeSession c key limits) := by
  have := h.isRefl
  intro s
  refine h.bindAt (h.aside ⟨rfl, rfl, fun _ => rfl⟩) fun _ s₁ _ => followsAt_get_bind ?_
  refine followsAt_ensure_bind fun _ => followsAt_read_bind fun session hold => ?_
  refine h.bindAt (h.of_aside quiet_nowMs.aside s₁) fun now s₂ hnow => ?_
  refine h.bindAt (h.of_aside (quiet_resumeFrames _ _ _ _).aside s₂)
    fun ⟨r, complete⟩ s₃ hresume => ?_
  have hquiet : SameCore s₂ s₃ := (quiet_resumeFrames _ _ _ _).sameCore hresume
  have hold₃ : s₃.session? key = some session := by
    cases hnow
    exact (hquiet.session? key).trans hold
  have hresumed := inbound_resumeFrames hresume
  have hinbound : r.session.inbound = session.inbound := hresumed
  refine h.bindAt (h.aside (aside_putSession hold₃ hinbound)) fun _ s₄ hput => ?_
  have hold₄ : s₄.session? key = some r.session := by
    cases hput
    exact AList.lookup_insert _
  refine followsAt_ite (fun _ => h.failResume c hold₄ rfl) fun _ => ?_
  refine followsAt_ensure_bind fun _ => ?_
  refine h.bindAt (h.aside ⟨rfl, rfl, fun _ => rfl⟩) fun _ s₅ _ => ?_
  refine h.bindAt (h.aside ⟨rfl, rfl, fun _ => rfl⟩) fun _ s₆ _ => ?_
  refine h.of_aside ((aside_syncSessionUsage key).bind fun _ => ?_) s₆
  refine (aside_driveCapacityWakes limits).bind fun _ => ?_
  refine (quiet_markPending key).aside.bind fun _ => ?_
  exact quiet_publishSubscriptionCount.aside.bind fun _ s => followsAt_pure _ s

theorem attachProfile (c : Connect) : Follows R (attachProfile c limits) := by
  have := h.isRefl
  intro s
  refine followsAt_ensure_bind fun _ => h.bind (h.pruneExpired _) (fun _ => ?_) s
  refine h.bind (h.of_aside quiet_nowMs.aside) fun now => ?_
  refine h.bind (h.pruneExpiredMessages now _) fun _ s => followsAt_get_bind ?_
  refine followsAt_someOr_bind fun clientId _ => ?_
  refine h.bind (h.fromExcept _) (fun _ => ?_) s
  refine h.bind (h.of_aside quiet_nowMs.aside) fun now s => followsAt_get_bind ?_
  refine h.bind (h.whenever (h.removeSession _)) (fun _ => ?_) s
  refine h.bind (h.of_aside (aside_pruneIfDue _)) fun _ => ?_
  refine h.bind (h.startClean c _) fun _ s => followsAt_get_bind ?_
  refine h.bindAt (followsAt_whenever fun hnone => ?_) fun _ s₁ _ => ?_
  · exact h.createSession c _ s (Option.isNone_iff_eq_none.mp hnone)
  refine h.bind (h.retryPendingWills _) (fun _ s => followsAt_read_bind fun session _ => ?_) s₁
  refine h.bind (h.cancelResumedWills _ _) (fun _ => ?_) s
  exact h.bind (h.resumeSession c _) fun _ => h.pure _

theorem leaveSession (key : SessionKey) (cleanSession : Bool) :
    FollowsAt R (leaveSession key cleanSession (s.session? key)) s := by
  cases hold : s.session? key with
  | none => exact h.refl s
  | some session =>
    refine followsAt_ite (fun _ => h.removeSession key s) fun _ => ?_
    refine h.bindAt (h.of_aside quiet_nowMs.aside s) fun seen s₁ hseen => ?_
    refine h.bindAt (h.of_aside quiet_nowMs.aside s₁) fun now s₂ hnow => ?_
    cases hseen
    cases hnow
    exact h.aside (aside_putSession (show s.tick.tick.session? key = some session from hold) rfl)

theorem detach (key : SessionKey) (generation : UInt64) (cleanSession : Bool) :
    Follows R (detach key generation cleanSession limits) := by
  intro s
  refine followsAt_get_bind (followsAt_ite (fun _ => h.refl s) fun _ => ?_)
  refine h.bindAt (h.aside ⟨rfl, rfl, fun _ => rfl⟩) fun _ s₁ h₁ => ?_
  refine h.bindAt (h.of_aside (quiet_unmarkPending key).aside s₁) fun _ s₂ h₂ => ?_
  have hsession : s.session? key = s₂.session? key := by
    cases h₁
    cases h₂
    rfl
  rw [hsession]
  refine h.bindAt (h.leaveSession key cleanSession) fun _ s₃ _ => ?_
  refine h.of_aside ((aside_syncSessionUsage key).bind fun _ => ?_) s₃
  exact (aside_driveCapacityWakes limits).bind fun _ => quiet_publishSubscriptionCount.aside

/-! ## Maintenance -/

theorem tick : Follows R (tick limits) := by
  refine h.bind (h.pruneExpired _) fun _ => ?_
  refine h.bind (h.of_aside quiet_nowMs.aside) fun now => ?_
  refine h.bind (h.pruneExpiredMessages now _) fun _ => ?_
  refine h.bind (h.of_aside (aside_wakeGlobalBytePending limits)) fun _ => ?_
  refine h.bind (h.retryPendingWills _) fun _ => ?_
  exact h.of_aside quiet_publishSubscriptionCount.aside

theorem removeSessions (keys : List SessionKey) : Follows R (removeSessions keys) := by
  induction keys with
  | nil => exact h.pure ()
  | cons key rest ih => exact h.bind (h.removeSession key) fun _ => ih

theorem invalidateSessions (invalidation : AuthInvalidation) :
    Follows R (invalidateSessions invalidation limits) := by
  intro s
  refine followsAt_get_bind (h.bind (h.of_aside (quiet_unordered _).aside) (fun ended => ?_) s)
  refine h.bind (h.removeSessions _) fun _ => ?_
  refine h.bind (h.of_aside (aside_driveCapacityWakes limits)) fun _ => ?_
  refine h.bind (h.retryPendingWills _) fun _ => ?_
  exact h.bind (h.of_aside quiet_publishSubscriptionCount.aside) fun _ => h.pure _

end Closed

/-! ## The system -/

/-- What callers ask of the broker beside inbound QoS 2 messages and the Wills of live
connections. -/
inductive Call where
  | attachProfile (c : Connect)
  | detach (key : SessionKey) (generation : UInt64) (cleanSession : Bool)
  | setV5DisconnectExpiry (key : SessionKey) (generation : UInt64) (interval : UInt32)
  | subscribeOptions (key : SessionKey) (generation : UInt64) (filter : Text)
      (subscription : Subscription)
  | unsubscribe (key : SessionKey) (generation : UInt64) (filter : Text)
  | route (owner : DeviceKey) (origin : Option SessionKey) (message : BrokerMessage)
  | sendLiveTracked (key : SessionKey) (generation : UInt64) (message : BrokerMessage)
      (progress : Option ProgressId)
  | nextOffline (key : SessionKey) (generation : UInt64)
  | outboundBytesReleased
  | beginOutboundTransfer (key : SessionKey) (generation : UInt64) (delivery : BrokerDelivery)
      (began : Bool)
  | discardOutbound (key : SessionKey) (generation : UInt64) (delivery : BrokerDelivery)
  | pubrec (key : SessionKey) (generation : UInt64) (packetId : PacketId)
  | pubrecRejected (key : SessionKey) (generation : UInt64) (packetId : PacketId)
  | completeOutbound (key : SessionKey) (generation : UInt64) (packetId : PacketId)
      (ack : OutboundAck)
  | beginInboundQos2Retransmission (key : SessionKey) (generation : UInt64) (packetId : PacketId)
  | finishInboundPubcomp (key : SessionKey) (generation : UInt64) (packetId : PacketId)
  | tick
  | invalidateSessions (invalidation : AuthInvalidation)

/-- What a connection asks about an inbound QoS 2 message. -/
inductive InboundCall where
  | publish (key : SessionKey) (generation : UInt64) (packetId : PacketId)
      (message : BrokerMessage)
  | beginDelivery (key : SessionKey) (generation : UInt64) (packetId : PacketId)
  | finishDelivery (key : SessionKey) (sessionIncarnation : UInt64) (packetId : PacketId)
      (operationId : UInt64)
  | abandonDelivery (key : SessionKey) (sessionIncarnation : UInt64) (packetId : PacketId)
      (operationId : UInt64)
  | complete (key : SessionKey) (generation : UInt64) (packetId : PacketId)
  | route (key : SessionKey) (sessionIncarnation : UInt64) (packetId : PacketId)
      (operationId : UInt64)

/-- What a connection does with its Will.  Settling takes two calls when the delay of the Will
turns out not to apply. -/
inductive WillCall where
  | reserve (owner : DeviceKey) (origin : Option SessionKey) (message : BrokerMessage)
  -- a connection that passes an interval has reserved the Will with an expiry property
  | arm (id : ℕ) (delay : Option WillDelay) (messageExpiryInterval : Option UInt32)
  | setV5SessionExpiry (id : ℕ) (interval : UInt32)
  | settle (id : ℕ)
  | suppress (id : ℕ)

inductive Action where
  | call (c : Call)
  | inbound (c : InboundCall)
  | will (c : WillCall)

def performCall (limits : Limits) (s : BrokerState) : Call → BrokerState
  | .attachProfile c => (exec (attachProfile c limits) s).2
  | .detach key generation cleanSession => (exec (detach key generation cleanSession limits) s).2
  | .setV5DisconnectExpiry key generation interval =>
      (exec (setV5DisconnectExpiry key generation interval) s).2
  | .subscribeOptions key generation filter subscription =>
      (exec (subscribeOptions key generation filter subscription limits) s).2
  | .unsubscribe key generation filter => (exec (unsubscribe key generation filter limits) s).2
  | .route owner origin message => (exec (routeWithOrigin owner origin message limits) s).2
  | .sendLiveTracked key generation message progress =>
      (exec (sendLiveTracked key generation message progress limits) s).2
  | .nextOffline key generation =>
      (exec (do handOver key generation (← nextOffline key generation limits)) s).2
  | .outboundBytesReleased => (exec (outboundBytesReleased limits) s).2
  | .beginOutboundTransfer key generation delivery began =>
      (exec (beginOutboundTransfer key generation delivery began limits) s).2
  | .discardOutbound key generation delivery =>
      (exec (discardOutbound key generation delivery limits) s).2
  | .pubrec key generation packetId => (exec (pubrec key generation packetId) s).2
  | .pubrecRejected key generation packetId =>
      (exec (pubrecRejected key generation packetId limits) s).2
  | .completeOutbound key generation packetId ack =>
      (exec (completeOutbound key generation packetId ack limits) s).2
  | .beginInboundQos2Retransmission key generation packetId =>
      (exec (beginInboundQos2Retransmission key generation packetId limits) s).2
  | .finishInboundPubcomp key generation packetId =>
      (exec (finishInboundPubcomp key generation packetId) s).2
  | .tick => (exec (tick limits) s).2
  | .invalidateSessions invalidation => (exec (invalidateSessions invalidation limits) s).2

/-- What a call about an inbound message returns. -/
inductive InboundOutcome where
  | published (new : Bool)
  | begun (action : InboundQos2Action)
  | done
  | routed (delivered : ℕ)

def performInbound (limits : Limits) : InboundCall → BrokerM InboundOutcome
  | .publish key generation packetId message =>
      .published <$> inboundQos2 key generation packetId message limits
  | .beginDelivery key generation packetId =>
      .begun <$> beginInboundQos2Delivery key generation packetId
  | .finishDelivery key sessionIncarnation packetId operationId =>
      (fun _ => .done) <$> finishInboundQos2Delivery key sessionIncarnation packetId operationId
  | .abandonDelivery key sessionIncarnation packetId operationId =>
      (fun _ => .done) <$> abandonInboundQos2Delivery key sessionIncarnation packetId operationId
  | .complete key generation packetId =>
      (fun _ => .done) <$> completeInboundQos2 key generation packetId limits
  -- the connection routes for its own device
  | .route key sessionIncarnation packetId operationId =>
      .routed <$> routeInboundQos2 key sessionIncarnation packetId operationId key.device limits

/-- Arm the Will of a connection. -/
def armWill (id : ℕ) (delay : Option WillDelay) (messageExpiryInterval : Option UInt32) :
    BrokerM Unit :=
  modifyGuard id fun g => { g with delay, messageExpiryInterval, armed := true }

def setV5SessionExpiry (id : ℕ) (interval : UInt32) : BrokerM Unit :=
  modifyGuard id fun g =>
    { g with delay := g.delay.map fun d => { d with sessionExpiry := interval } }

/-- Whether the Will of a connection has to wait when the connection closes. -/
def WillGuard.waits (g : WillGuard) : Bool :=
  g.delay.any fun d => 0 < d.delay && 0 < d.sessionExpiry

/-- Settle the Will of a closed connection: schedule it if it has to wait, else publish it. -/
def settleWill (id : ℕ) (limits : Limits) : BrokerM Unit := do
  let s ← get
  if (s.wills.guards.lookup id).any WillGuard.waits then
    let _ ← scheduleReservedWill id
  else publishReservedWill id limits

def performWill (limits : Limits) : WillCall → BrokerM Unit
  | .reserve owner origin message => do
      let _ ← reserveWillWithOrigin owner origin message limits
  | .arm id delay messageExpiryInterval => armWill id delay messageExpiryInterval
  | .setV5SessionExpiry id interval => setV5SessionExpiry id interval
  | .settle id => settleWill id limits
  | .suppress id => releaseWillReservation id

def perform (limits : Limits) (s : BrokerState) : Action → BrokerState
  | .call c => performCall limits s c
  | .inbound c => (exec (performInbound limits c) s).2
  | .will c => (exec (performWill limits c) s).2

/-- A broker that holds nothing. -/
def BrokerState.Empty (s : BrokerState) : Prop :=
  ∃ sessionIdleTtlMs readings, s = { sessionIdleTtlMs, readings }

/-- All runs from an empty broker. -/
def brokering (limits : Limits) : System BrokerState Action where
  start := BrokerState.Empty
  step s a s' := s' = perform limits s a

/-- Every call beside inbound messages and live Wills follows a closed relation. -/
theorem Closed.performCall {R : BrokerState → BrokerState → Prop} (h : Closed limits R) (c : Call)
    (s : BrokerState) : R s (Broker.performCall limits s c) := by
  cases c with
  | attachProfile c => exact h.attachProfile c s
  | detach key generation cleanSession => exact h.detach key generation cleanSession s
  | setV5DisconnectExpiry key generation interval =>
    exact h.of_aside (aside_setV5DisconnectExpiry key generation interval) s
  | subscribeOptions key generation filter subscription =>
    exact h.subscribeOptions key generation filter subscription s
  | unsubscribe key generation filter => exact h.unsubscribe key generation filter s
  | route owner origin message => exact h.routeWithOrigin owner origin message s
  | sendLiveTracked key generation message progress =>
    exact h.of_aside (aside_sendLiveTracked key generation message progress limits) s
  | nextOffline key generation =>
    refine h.bind (h.nextOffline key generation) (fun frame => h.of_aside ?_) s
    cases frame with
    | none => exact fun s => followsAt_pure _ s
    | some frame => exact aside_modify (fun _ => rfl) (fun _ => rfl) fun _ => rfl
  | outboundBytesReleased => exact h.of_aside (aside_wakeGlobalBytePending limits) s
  | beginOutboundTransfer key generation delivery began =>
    exact h.of_aside (aside_beginOutboundTransfer key generation delivery began limits) s
  | discardOutbound key generation delivery => exact h.discardOutbound key generation delivery s
  | pubrec key generation packetId => exact h.of_aside (aside_pubrec key generation packetId) s
  | pubrecRejected key generation packetId =>
    exact h.of_aside (aside_pubrecRejected key generation packetId limits) s
  | completeOutbound key generation packetId ack =>
    exact h.completeOutbound key generation packetId ack s
  | beginInboundQos2Retransmission key generation packetId =>
    exact h.of_aside (aside_beginInboundQos2Retransmission key generation packetId limits) s
  | finishInboundPubcomp key generation packetId =>
    exact h.of_aside (aside_finishInboundPubcomp key generation packetId) s
  | tick => exact h.tick s
  | invalidateSessions invalidation => exact h.invalidateSessions invalidation s

end Netbaiot.Broker
