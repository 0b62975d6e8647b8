import Netbaiot.Broker.Aside

/-!
# Relations that every operation follows

A preorder that contains `Aside` and is followed by the few operations that touch Wills,
retained messages or the existence of sessions is followed by every operation made of them.
`Closed` collects what has to be shown for such a relation; the lemmas here carry it over to
the calls of the broker, so that an invariant is checked only where it can be broken.
-/

namespace Netbaiot.Broker

open Lib Mqtt Op

variable {α β : Type} {s s' : BrokerState} {key : SessionKey} {limits : Limits}

/-! ## Outbound exchanges -/

section

variable (key : SessionKey)

theorem aside_releaseOutbound (packetId : PacketId) :
    Follows Aside (releaseOutbound key packetId) := by
  intro s
  refine followsAt_read_bind fun session hold => ?_
  have hremoved : (session.removeOutbound packetId).2.inbound = session.inbound := rfl
  refine followsAt_bind (aside_putSession hold hremoved) fun _ s' hexec => ?_
  have hnew : s'.session? key = some (session.removeOutbound packetId).2 := by
    cases hexec
    exact AList.lookup_insert _
  refine followsAt_someOr_bind fun outbound _ => ?_
  refine followsAt_bind (aside_putSession hnew rfl) fun _ s'' _ => ?_
  refine Follows.bind (aside_modifyAccounts ?_) (fun _ => aside_syncSessionUsage key) s''
  exact fun _ => rfl

theorem aside_beginExchange (message : BrokerMessage) (limits : Limits)
    (command : Bool) (progress : Option ProgressId) :
    Follows Aside (beginExchange key message limits command progress) := by
  intro s
  refine followsAt_get_bind (followsAt_read_bind fun session hold => ?_)
  split
  · next session' halloc =>
    obtain ⟨next, rfl, _⟩ := StoredSession.allocatePacketId_none halloc
    exact followsAt_bind (aside_putSession hold rfl) fun _ _ _ => followsAt_throw _ _
  · next id session' halloc =>
    obtain ⟨rfl, _⟩ := StoredSession.allocatePacketId_some halloc
    refine followsAt_bind (aside_putSession hold rfl) fun _ s' hexec => ?_
    have hnew : s'.session? key =
        some { session with nextPacketId := StoredSession.followingId id } := by
      cases hexec
      exact AList.lookup_insert _
    refine followsAt_ensure_bind fun _ => ?_
    refine followsAt_bind (aside_commitSend hnew ?_ _ _) fun _ _ _ => followsAt_pure _ _
    split <;> rfl

theorem aside_enqueue (message : BrokerMessage) (limits : Limits)
    (budget command : Bool) (progress : Option ProgressId) :
    Follows Aside (enqueue key message limits budget command progress) := by
  intro s
  refine quiet_nowMs.aside.bind (fun now s => ?_) s
  refine followsAt_ite (fun _ => followsAt_pure _ s) fun _ => ?_
  refine (quiet_channel key).aside.bind (fun active s => ?_) s
  cases active with
  | none => exact aside_queueOffline key message limits s
  | some active =>
    refine followsAt_ensure_bind fun _ => ?_
    refine followsAt_ite (fun _ => aside_queueOffline key message limits s) fun _ => ?_
    refine (quiet_reserveUnless _ _).aside.bind (fun granted s => followsAt_get_bind ?_) s
    refine followsAt_ite (fun _ => aside_queueOffline key message limits s) fun _ => ?_
    refine followsAt_ite (fun _ => ?_) fun _ => ?_
    · refine (quiet_storedSession key _).aside.bind (fun _ => ?_) s
      refine (aside_trySend _ _).bind fun sent s => ?_
      refine followsAt_ite (fun _ => followsAt_pure _ s) fun _ => ?_
      exact followsAt_ite (fun _ => followsAt_throw _ s) fun _ => followsAt_throw _ s
    · refine followsAt_ite (fun _ => aside_queueOffline key message limits s) fun _ => ?_
      refine followsAt_read_bind fun session _ => ?_
      refine followsAt_ite (fun _ => aside_queueOffline key message limits s) fun _ => ?_
      refine (aside_beginExchange key message limits command progress).bind (fun id => ?_) s
      refine (aside_trySend _ _).bind fun sent s => ?_
      refine followsAt_ite (fun _ => followsAt_pure _ s) fun _ => ?_
      exact (aside_releaseOutbound key id).bind (fun _ s => followsAt_throw _ s) s

section

variable (generation : UInt64)

theorem aside_sendLiveTracked (message : BrokerMessage) (progress : Option ProgressId)
    (limits : Limits) : Follows Aside (sendLiveTracked key generation message progress limits) := by
  refine (quiet_checkOwner key generation _).aside.bind fun _ s => followsAt_get_bind ?_
  refine quiet_nowMs.aside.bind (fun now s => ?_) s
  refine followsAt_ite (fun _ => ?_) fun _ => ?_
  · exact followsAt_ite (fun _ => followsAt_pure _ s) fun _ => followsAt_throw _ s
  · refine followsAt_ensure_bind fun _ => (quiet_channel key).aside.bind (fun active s => ?_) s
    refine followsAt_someOr_bind fun active _ => followsAt_ensure_bind fun _ => ?_
    refine (quiet_reserveFrame _).aside.bind (fun granted s => ?_) s
    refine followsAt_ensure_bind fun _ => followsAt_bind ?_ fun _ s' _ =>
      aside_enqueue key message limits true true progress s'
    refine followsAt_whenever fun _ => followsAt_read_bind fun session _ => ?_
    exact followsAt_get_bind (followsAt_ensure _ _ s)

theorem aside_beginOutboundTransfer (delivery : BrokerDelivery) (began : Bool) (limits : Limits) :
    Follows Aside (beginOutboundTransfer key generation delivery began limits) := by
  intro s
  refine followsAt_someOr_bind fun packetId _ => ?_
  refine (quiet_checkOwner key generation _).aside.bind (fun _ s => ?_) s
  refine followsAt_read_bind fun session hold => ?_
  refine followsAt_bind (quiet_nowMs.aside s) fun now s' hexec => ?_
  have hold' : s'.session? key = some session := by
    cases hexec
    exact hold
  refine followsAt_ite (fun _ => followsAt_pure _ _) fun _ => ?_
  refine followsAt_ite (fun _ => ?_) fun _ => ?_
  · refine (aside_releaseOutbound key packetId).bind (fun _ => ?_) s'
    exact (aside_driveCapacityWakes limits).bind fun _ s => followsAt_pure _ s
  · refine followsAt_bind (aside_putSession hold' rfl) fun _ s'' _ => ?_
    exact (aside_syncSessionUsage key).bind (fun _ s => followsAt_pure _ s) s''

theorem aside_pubrec (packetId : PacketId) : Follows Aside (pubrec key generation packetId) := by
  refine (quiet_checkOwner key generation _).aside.bind fun _ s => ?_
  refine followsAt_read_bind fun session hold => ?_
  split
  · refine followsAt_bind (aside_putSession hold rfl) fun _ s' _ => ?_
    exact (aside_syncSessionUsage key).bind (fun _ s => followsAt_pure _ s) s'
  · exact (aside_syncSessionUsage key).bind (fun _ s => followsAt_pure _ s) s
  · exact followsAt_throw _ s
  · exact followsAt_throw _ s

theorem aside_pubrecRejected (packetId : PacketId)
    (limits : Limits) : Follows Aside (pubrecRejected key generation packetId limits) := by
  refine (quiet_checkOwner key generation _).aside.bind fun _ s => ?_
  refine followsAt_read_bind fun session hold => ?_
  split
  · refine (aside_releaseOutbound key packetId).bind (fun _ => ?_) s
    exact (aside_driveCapacityWakes limits).bind fun _ s => followsAt_pure _ s
  · exact followsAt_throw _ s
  · exact followsAt_throw _ s

/-! ## Receive windows -/

theorem aside_beginInboundQos2Retransmission (packetId : PacketId) (limits : Limits) :
    Follows Aside (beginInboundQos2Retransmission key generation packetId limits) := by
  refine (quiet_checkOwner key generation _).aside.bind fun _ s => ?_
  refine followsAt_read_bind fun session hold => ?_
  split
  · refine followsAt_ite (fun _ => followsAt_pure _ s) fun _ => ?_
    refine followsAt_ite (fun _ => followsAt_pure _ s) fun _ => ?_
    exact followsAt_bind (aside_putSession hold rfl) fun _ _ _ => followsAt_pure _ _
  · exact followsAt_throw _ s

theorem aside_finishInboundPubcomp
    (packetId : PacketId) : Follows Aside (finishInboundPubcomp key generation packetId) := by
  refine (quiet_checkOwner key generation _).aside.bind fun _ s => ?_
  exact followsAt_read_bind fun session hold => aside_putSession hold rfl

theorem aside_setV5DisconnectExpiry
    (interval : UInt32) : Follows Aside (setV5DisconnectExpiry key generation interval) := by
  refine (quiet_checkOwner key generation _).aside.bind fun _ s => ?_
  refine followsAt_read_bind fun session hold => followsAt_ensure_bind fun _ => ?_
  exact aside_putSession hold rfl

end

/-! ## Replaying retained messages -/

theorem quiet_planReplay (limits : Limits) (message : BrokerMessage)
    (u : ReplayUsage) : Quiet (planReplay key limits message u) := by
  refine (quiet_channel key).bind fun active s => ?_
  refine followsAt_ite (fun _ => ?_) fun _ => ?_
  · refine followsAt_ensure_bind fun _ => (quiet_reserveFrame _).bind (fun granted s => ?_) s
    exact followsAt_ensure_bind fun _ => followsAt_pure _ s
  · refine followsAt_ensure_bind fun _ => (quiet_reserveIf _ _).bind (fun granted s => ?_) s
    refine followsAt_ensure_bind fun _ => followsAt_ite (fun _ => ?_) fun _ => ?_
    · split
      · exact followsAt_throw _ s
      · exact followsAt_pure _ s
    · exact followsAt_ensure_bind fun _ => followsAt_pure _ s

theorem quiet_planReplays (limits : Limits) (messages : List BrokerMessage)
    (u : ReplayUsage) : Quiet (planReplays key limits messages u) := by
  induction messages generalizing u with
  | nil => exact fun s => followsAt_pure _ s
  | cons message rest ih =>
    exact (quiet_planReplay key limits message u).bind fun planned =>
      (ih planned.2).bind fun _ s => followsAt_pure _ s

theorem quiet_preflightRetainedReplay (messages : List BrokerMessage) (charge : ℕ)
    (limits : Limits) : Quiet (preflightRetainedReplay key messages charge limits) := by
  intro s
  refine followsAt_read_bind fun session _ => followsAt_get_bind ?_
  refine followsAt_ensure_bind fun _ => ?_
  refine followsAt_ite (fun _ => followsAt_pure _ s) fun _ => ?_
  exact followsAt_someOr_bind fun _ _ => quiet_planReplays _ _ _ _ s

theorem aside_replay (limits : Limits) (messages : List (BrokerMessage × RetainedReplayAdmission)) :
    Follows Aside (replay key limits messages) := by
  induction messages with
  | nil => exact fun s => followsAt_pure _ s
  | cons entry rest ih =>
    obtain ⟨message, admission⟩ := entry
    refine Follows.bind ?_ fun _ => ih
    cases admission with
    | live => exact aside_enqueue key message limits true false none
    | offline => exact aside_queueOffline key message limits

end

/-- Putting a session back whose inbound part has not changed since. -/
theorem aside_rollback {old session : StoredSession} (hold : s.session? key = some old)
    (hsession : session.inbound = old.inbound) (filter : Text) (before : Accounts) :
    FollowsAt Aside (rollback key filter before session) s := by
  refine followsAt_modify_bind ⟨rfl, rfl, fun key' => ?_⟩ ?_
  · exact (aside_putSession hold hsession).inbound key'
  · refine followsAt_modify_bind ⟨rfl, rfl, fun _ => rfl⟩ ?_
    exact aside_syncSessionUsage key _

/-! ## Resuming -/

theorem quiet_resumeOutbound (limits : Limits) (ids : List PacketId) (r : Resumed) :
    Quiet (resumeOutbound limits ids r) := by
  induction ids generalizing r with
  | nil => exact fun s => followsAt_pure _ s
  | cons id rest ih =>
    intro s
    refine followsAt_ite (fun _ => followsAt_pure _ s) fun _ => ?_
    split
    · exact followsAt_pure _ s
    · refine followsAt_ite (fun _ => ih r s) fun _ => ?_
      refine (quiet_reserveUnless _ _).bind (fun granted s => ?_) s
      exact followsAt_ite (fun _ => followsAt_pure _ s) fun _ => ih _ s

theorem quiet_resumeOffline (limits : Limits) (availableQos1 availableQos2 fuel : ℕ)
    (r : Resumed) : Quiet (resumeOffline limits availableQos1 availableQos2 fuel r) := by
  induction fuel generalizing r with
  | zero => exact fun s => followsAt_pure _ s
  | succ fuel ih =>
    intro s
    refine followsAt_ite (fun _ => followsAt_pure _ s) fun _ => ?_
    split
    · exact followsAt_pure _ s
    · refine followsAt_ite (fun _ => followsAt_pure _ s) fun _ => ?_
      refine (quiet_reserveFrame _).bind (fun granted s => ?_) s
      refine followsAt_ite (fun _ => followsAt_pure _ s) fun _ => ?_
      split
      · exact followsAt_pure _ s
      · exact ih _ s

theorem quiet_resumeFrames (session : StoredSession) (limits : Limits)
    (availableQos1 availableQos2 : ℕ) :
    Quiet (resumeFrames session limits availableQos1 availableQos2) := by
  refine (quiet_resumeOutbound _ _ _).bind fun resumed s => ?_
  refine followsAt_ite (fun _ => followsAt_pure _ s) fun _ => ?_
  exact (quiet_resumeOffline _ _ _ _ _).bind (fun _ s => followsAt_pure _ s) s

/-- Repeating exchanges leaves the inbound part of the session alone. -/
theorem inbound_resumeOutbound {ids : List PacketId} {r r' : Resumed} {complete : Bool}
    (h : exec (resumeOutbound limits ids r) s = (.ok (r', complete), s')) :
    r'.session.inbound = r.session.inbound := by
  revert h
  fun_induction resumeOutbound limits ids r generalizing s with
  | case4 _ _ _ _ _ _ _ ih => exact ih
  | case5 _ _ _ _ _ _ _ ih =>
    intro h
    obtain ⟨granted, t, _, h⟩ := exec_bind_eq_ok.mp h
    split at h
    · cases h
      rfl
    · exact ih h
  | _ =>
    rintro ⟨⟩
    rfl

theorem inbound_resumeOffline {availableQos1 availableQos2 fuel : ℕ} {r r' : Resumed}
    (h : exec (resumeOffline limits availableQos1 availableQos2 fuel r) s = (.ok r', s')) :
    r'.session.inbound = r.session.inbound := by
  revert h
  fun_induction resumeOffline limits availableQos1 availableQos2 fuel r generalizing s with
  | case5 =>
    rename_i ih
    intro h
    obtain ⟨granted, t, _, h⟩ := exec_bind_eq_ok.mp h
    split at h
    · cases h
      rfl
    · split at h
      · next halloc =>
        obtain ⟨next, rfl, _⟩ := StoredSession.allocatePacketId_none halloc
        cases h
        rfl
      · next halloc =>
        obtain ⟨hsession, _⟩ := StoredSession.allocatePacketId_some halloc
        refine (ih _ _ h).trans ?_
        rw [hsession]
        rfl
  | _ =>
    rintro ⟨⟩
    rfl

theorem inbound_resumeFrames {session : StoredSession} {availableQos1 availableQos2 : ℕ}
    {r : Resumed} {complete : Bool}
    (h : exec (resumeFrames session limits availableQos1 availableQos2) s =
      (.ok (r, complete), s')) : r.session.inbound = session.inbound := by
  obtain ⟨⟨resumed, _⟩, t, hout, h⟩ := exec_bind_eq_ok.mp h
  have hsame := inbound_resumeOutbound hout
  dsimp only at h
  split at h
  · cases h
    exact hsame
  · obtain ⟨r', t', hoff, h⟩ := exec_bind_eq_ok.mp h
    cases h
    exact (inbound_resumeOffline hoff).trans hsame

/-! ## Retained messages -/

/-- States that agree on everything but the retained messages. -/
structure Filing (s s' : BrokerState) : Prop where
  accounts : s'.accounts = s.accounts
  wills : s'.wills = s.wills

instance : Std.Refl Filing where
  refl _ := ⟨rfl, rfl⟩

instance : IsTrans BrokerState Filing where
  trans _ _ _ h h' := ⟨h'.accounts.trans h.accounts, h'.wills.trans h.wills⟩

theorem filing_modifyRetained (f : RetainedStore → RetainedStore) :
    Follows Filing (modifyRetained f) := fun _ => ⟨rfl, rfl⟩

theorem filing_updateRetainedExpiry (topic : Text) (deadline : Option Int64) :
    Follows Filing (updateRetainedExpiry topic deadline) := fun _ => ⟨rfl, rfl⟩

theorem filing_retainedUsageRemove (retained : RetainedMessage) :
    Follows Filing (retainedUsageRemove retained) := by
  intro s
  refine followsAt_get_bind (followsAt_someOr_bind fun usage _ => ?_)
  refine followsAt_ensure_bind fun _ => ?_
  refine (filing_modifyRetained _).bind (fun _ t => ?_) s
  exact followsAt_ensure_bind fun _ => filing_modifyRetained _ t

theorem filing_releaseUsage (old : Option RetainedMessage) : Follows Filing (releaseUsage old) := by
  cases old with
  | none => exact fun s => followsAt_pure _ s
  | some old => exact filing_retainedUsageRemove old

theorem filing_expireRetained (now : Int64) (topic : Text) :
    Follows Filing (expireRetained now topic) := by
  intro s
  refine followsAt_get_bind ?_
  split
  · exact followsAt_pure _ s
  · next retained _ =>
    refine followsAt_ite (fun _ => filing_updateRetainedExpiry _ _ s) fun _ => ?_
    refine followsAt_ensure_bind fun _ => ?_
    refine (filing_modifyRetained _).bind (fun _ => ?_) s
    exact (filing_retainedUsageRemove retained).bind fun _ => filing_modifyRetained _

theorem filing_updateRetained (owner : DeviceKey) (origin : Option SessionKey)
    (message : BrokerMessage) (limits : Limits) :
    Follows Filing (updateRetained owner origin message limits) := by
  intro s
  refine followsAt_get_bind (followsAt_ite (fun _ => ?_) fun _ => ?_)
  · refine (filing_modifyRetained _).bind (fun _ => ?_) s
    exact (filing_releaseUsage _).bind fun _ => filing_updateRetainedExpiry _ _
  · refine followsAt_ensure_bind fun _ => (filing_modifyRetained _).bind (fun _ => ?_) s
    refine (filing_releaseUsage _).bind fun _ => ?_
    refine (filing_modifyRetained _).bind fun _ => ?_
    refine (filing_modifyRetained _).bind fun _ => ?_
    exact (filing_modifyRetained _).bind fun _ => filing_updateRetainedExpiry _ _

theorem filing_reserveRetained (tenant : TenantId) (origin : Option SessionKey)
    (message : BrokerMessage) (limits : Limits) :
    Follows Filing (reserveRetained tenant origin message limits) := by
  intro s
  refine followsAt_ite (fun _ => followsAt_pure _ s) fun _ => followsAt_ensure_bind fun _ => ?_
  refine followsAt_get_bind ?_
  refine followsAt_ensure_bind fun _ => (filing_modifyRetained _).bind (fun _ t => ?_) s
  exact followsAt_pure _ t

/-! ## Closed relations -/

/-- A preorder that contains `Aside`, and that changes of the retained messages follow. -/
structure Routes (limits : Limits) (R : BrokerState → BrokerState → Prop) : Prop where
  refl : ∀ s, R s s
  trans : ∀ {s s' s''}, R s s' → R s' s'' → R s s''
  aside : ∀ {s s'}, Aside s s' → R s s'
  expireRetained : ∀ now topic, Follows R (expireRetained now topic)
  updateRetained : ∀ owner origin message, Follows R (updateRetained owner origin message limits)

/-- A relation that also the changes of Wills and the creation and removal of sessions
follow. -/
structure Closed (limits : Limits) (R : BrokerState → BrokerState → Prop) : Prop
    extends Routes limits R where
  retryPendingWills : ∀ budget, Follows R (retryPendingWillsBounded limits budget)
  releaseCleanStartDelays : ∀ key,
    Follows R (modifyWills fun w => w.releaseCleanStartDelays key)
  cancelResumedWills : ∀ key incarnation, Follows R (cancelResumedWills key incarnation)
  removeSession : ∀ key, Follows R (removeSession key)
  createSession : ∀ c key s, s.session? key = none → FollowsAt R (createSession c key limits) s

namespace Routes

variable {R : BrokerState → BrokerState → Prop} (h : Routes limits R)

include h

/-- What happens beside Wills and inbound messages follows the relation. -/
theorem of_aside {x : BrokerM α} (hx : Follows Aside x) : Follows R x := fun s => h.aside (hx s)

theorem isRefl : Std.Refl R := ⟨h.refl⟩

theorem isTrans : IsTrans BrokerState R := ⟨fun _ _ _ => h.trans⟩

theorem bind {x : BrokerM α} {f : α → BrokerM β} (hx : Follows R x)
    (hf : ∀ a, Follows R (f a)) : Follows R (x >>= f) :=
  have := h.isTrans
  hx.bind hf

theorem bindAt {x : BrokerM α} {f : α → BrokerM β} (hx : FollowsAt R x s)
    (hf : ∀ a s', exec x s = (.ok a, s') → FollowsAt R (f a) s') : FollowsAt R (x >>= f) s :=
  have := h.isTrans
  followsAt_bind hx hf

theorem pure (a : α) : Follows R (Pure.pure a : BrokerM α) := fun s => h.refl s

theorem whenever {c : Prop} [Decidable c] {x : BrokerM Unit} (hx : Follows R x) :
    Follows R (whenever c x) := by
  intro s
  unfold Op.whenever
  split
  · exact hx s
  · exact h.refl s

theorem pruneDueRetained (now : Int64) (budget : ℕ) : Follows R (pruneDueRetained now budget) := by
  induction budget with
  | zero => exact h.pure ()
  | succ budget ih =>
    refine h.bind (h.of_aside quiet_observe.aside) fun reading s => followsAt_get_bind ?_
    split
    · exact h.refl s
    · refine h.bindAt (h.aside ⟨rfl, rfl, fun _ => rfl⟩) fun _ s' _ => ?_
      exact h.bind (h.expireRetained now _) (fun _ => ih) s'

theorem pruneExpiredMessages (now : Int64) (budget : ℕ) :
    Follows R (pruneExpiredMessages now budget) :=
  h.bind (h.of_aside (aside_pruneDueSessions now budget)) fun _ => h.pruneDueRetained now budget

theorem routeLocked (owner : DeviceKey) (origin : Option SessionKey) (message : BrokerMessage) :
    Follows R (routeLocked owner origin message limits) := by
  refine h.bind (h.of_aside quiet_nowMs.aside) fun now s => ?_
  refine followsAt_ite (fun _ => h.refl s) fun _ => ?_
  refine h.bind (h.of_aside (aside_pruneMatching now message.topic)) (fun _ => ?_) s
  refine h.bind (h.of_aside (quiet_preflightRoute _ _ _ _ _).aside) fun plan => ?_
  refine h.bind (h.whenever (h.updateRetained owner origin message)) fun _ => ?_
  exact h.of_aside (aside_commitTargets message plan)

theorem fromExcept (v : Except Error α) : Follows R (fromExcept v : BrokerM α) := by
  intro s
  cases v <;> exact h.refl s

theorem routeWithOrigin (owner : DeviceKey) (origin : Option SessionKey)
    (message : BrokerMessage) : Follows R (routeWithOrigin owner origin message limits) := by
  have := h.isRefl
  intro s
  refine followsAt_ensure_bind fun _ => ?_
  refine h.bind (h.of_aside quiet_nowMs.aside) (fun now s => ?_) s
  refine followsAt_ite (fun _ => h.refl s) fun _ => followsAt_get_bind ?_
  refine followsAt_ite (fun _ => h.refl s) fun _ => ?_
  refine h.bind (h.of_aside quiet_nowMs.aside) (fun now => ?_) s
  refine h.bind (h.pruneExpiredMessages now _) fun _ => ?_
  refine h.bind (x := attempt _) (h.routeLocked owner origin message) fun result => ?_
  refine h.bind (x := attempt _) (h.of_aside (aside_driveCapacityWakes limits)) fun _ => ?_
  exact h.fromExcept result

end Routes

end Netbaiot.Broker
