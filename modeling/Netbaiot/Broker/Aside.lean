import Netbaiot.Broker.Quiet

/-!
# Operations beside Wills and inbound messages

Most operations of the broker change neither the Wills nor the retained messages nor the
inbound part of any session: they queue, send and expire outbound messages.  `Aside` relates
the states before and after such an operation, and is what every invariant about inbound
messages, Wills and reservations gets from them.
-/

namespace Netbaiot.Broker

open Lib Mqtt Op

/-- The part of a session that belongs to its inbound QoS 2 messages. -/
structure InboundPart where
  incarnation : UInt64
  entries : Table PacketId InboundQos2State
  operations : Table PacketId UInt64
  reservations : Table PacketId RetainedReservation

def StoredSession.inbound (s : StoredSession) : InboundPart :=
  ⟨s.incarnation, s.inboundQos2, s.inboundOperations, s.inboundReservations⟩

/-- The inbound part of the session of a key. -/
def BrokerState.inbound? (s : BrokerState) (key : SessionKey) : Option InboundPart :=
  (s.session? key).map StoredSession.inbound

/-- States that agree on Wills, retained messages and inbound messages. -/
structure Aside (s s' : BrokerState) : Prop where
  wills : s'.wills = s.wills
  retained : s'.retained = s.retained
  inbound : ∀ key, s'.inbound? key = s.inbound? key

instance : Std.Refl Aside where
  refl _ := ⟨rfl, rfl, fun _ => rfl⟩

instance : IsTrans BrokerState Aside where
  trans _ _ _ h h' := ⟨h'.wills.trans h.wills, h'.retained.trans h.retained,
    fun key => (h'.inbound key).trans (h.inbound key)⟩

variable {α β : Type} {s s' : BrokerState} {key : SessionKey} {limits : Limits}

theorem SameCore.aside (h : SameCore s s') : Aside s s' :=
  ⟨h.wills, h.retained, fun key => by rw [BrokerState.inbound?, h.session?]; rfl⟩

theorem Quiet.aside {x : BrokerM α} (h : Quiet x) : Follows Aside x := fun s => (h s).aside

theorem Quiet.sameCore {x : BrokerM α} (h : Quiet x) {r : Except Error α}
    (hexec : exec x s = (r, s')) : SameCore s s' := by
  have hsame := h s
  rwa [FollowsAt, hexec] at hsame

/-- A session that was there is still there, with the same inbound part. -/
theorem Aside.session (h : Aside s s') {session : StoredSession}
    (hsession : s.session? key = some session) :
    ∃ session', s'.session? key = some session' ∧ session'.inbound = session.inbound := by
  have hsame := h.inbound key
  rw [BrokerState.inbound?, BrokerState.inbound?, hsession, Option.map_some,
    Option.map_eq_some_iff] at hsame
  exact hsame

/-- What comes after starts from a state that still agrees with the first one. -/
theorem aside_bind {x : BrokerM α} {f : α → BrokerM β} (hx : FollowsAt Aside x s)
    (hf : ∀ a s', Aside s s' → FollowsAt Aside (f a) s') : FollowsAt Aside (x >>= f) s := by
  refine followsAt_bind hx fun a s' hexec => hf a s' ?_
  rwa [FollowsAt, hexec] at hx

/-! ## Sessions -/

/-- Storing a session with the inbound part of the one that is there. -/
theorem aside_putSession {old new : StoredSession} (hold : s.session? key = some old)
    (hnew : new.inbound = old.inbound) : FollowsAt Aside (putSession key new) s := by
  refine ⟨rfl, rfl, fun key' => ?_⟩
  show ((s.accounts.sessions.insert key new).lookup key').map _ = (s.session? key').map _
  rw [AList.lookup_insert_eq]
  split
  · next heq => rw [heq, hold, Option.map_some, Option.map_some, hnew]
  · rfl

theorem aside_modifyAccounts {f : Accounts → Accounts} (h : ∀ a, (f a).sessions = a.sessions) :
    Follows Aside (modifyAccounts f) := by
  intro s
  refine ⟨rfl, rfl, fun key => ?_⟩
  show ((f s.accounts).sessions.lookup key).map _ = (s.session? key).map _
  rw [h]
  rfl

theorem aside_modify {f : BrokerState → BrokerState} (hwills : ∀ s, (f s).wills = s.wills)
    (hretained : ∀ s, (f s).retained = s.retained)
    (haccounts : ∀ s, (f s).accounts = s.accounts) : Follows Aside (modify f : BrokerM PUnit) :=
  fun s => ⟨hwills s, hretained s, fun key => by
    show (((f s).accounts.sessions).lookup key).map _ = _
    rw [haccounts]
    rfl⟩

theorem aside_noteReleased (tenant : TenantId) (qos : ℕ) (released : Bool) :
    Follows Aside (noteReleased tenant qos released) :=
  aside_modify (fun _ => rfl) (fun _ => rfl) fun _ => rfl

theorem aside_syncSessionUsage (key : SessionKey) : Follows Aside (syncSessionUsage key) := by
  intro s
  refine followsAt_get_bind (followsAt_modify_bind ⟨rfl, rfl, fun _ => rfl⟩ ?_)
  refine followsAt_ite (fun _ => followsAt_pure _ _) fun _ => ?_
  refine followsAt_fromExcept_bind fun usage _ => ?_
  refine (aside_noteReleased _ _ _).bind (fun _ => ?_) _
  refine (aside_noteReleased _ _ _).bind fun _ s => ?_
  refine followsAt_fromExcept_bind fun subscriptions _ => ?_
  refine aside_modifyAccounts ?_ s
  exact fun _ => rfl

/-- Change a session beside its inbound part, move the counters and synchronise. -/
theorem aside_edit {old new : StoredSession} {f : Accounts → Accounts} {rest : BrokerM β}
    (hold : s.session? key = some old) (hnew : new.inbound = old.inbound)
    (hf : ∀ a, (f a).sessions = a.sessions) (hrest : Follows Aside rest) :
    FollowsAt Aside (do
      putSession key new
      modifyAccounts f
      syncSessionUsage key
      rest) s :=
  followsAt_bind (aside_putSession hold hnew) fun _ _ _ =>
    (aside_modifyAccounts hf).bind (fun _ => (aside_syncSessionUsage key).bind fun _ => hrest) _

/-! ## Expiry -/

theorem inbound_pruneSessionMessages (session : StoredSession) (now : Int64) :
    (pruneSessionMessages session now).1.inbound = session.inbound := by
  obtain ⟨_, _, _, _, _, _, heq⟩ := pruneSessionMessages_eq session now
  rw [heq]
  rfl

theorem aside_pruneExpiredMessagesForSession (key : SessionKey) (now : Int64) :
    Follows Aside (pruneExpiredMessagesForSession key now) := by
  intro s
  refine followsAt_read_bind fun session hold => ?_
  refine aside_edit hold (inbound_pruneSessionMessages session now) (fun _ => rfl) fun s => ?_
  exact followsAt_bind (followsAt_whenever fun _ => (quiet_unmarkPending key).aside s)
    fun _ _ _ => followsAt_pure _ _

theorem aside_pruneIfDue (key : SessionKey) : Follows Aside (pruneIfDue key) := by
  intro s
  refine quiet_nowMs.aside.bind (fun now s => followsAt_get_bind ?_) s
  refine followsAt_whenever fun _ => quiet_nowMs.aside.bind (fun now => ?_) s
  exact (aside_pruneExpiredMessagesForSession key now).bind fun _ s => followsAt_pure _ s

theorem aside_pruneDueSessions (now : Int64) (budget : ℕ) :
    Follows Aside (pruneDueSessions now budget) := by
  induction budget with
  | zero => exact fun s => followsAt_pure _ s
  | succ budget ih =>
    intro s
    refine quiet_observe.aside.bind (fun reading s => followsAt_get_bind ?_) s
    split
    · exact followsAt_pure _ _
    · refine followsAt_set_bind ⟨rfl, rfl, fun _ => rfl⟩ ?_
      exact (aside_pruneExpiredMessagesForSession _ now).bind (fun _ => ih) _

theorem aside_pruneSessions (now : Int64) (keys : List SessionKey) :
    Follows Aside (pruneSessions now keys) := by
  induction keys with
  | nil => exact fun s => followsAt_pure _ s
  | cons key rest ih => exact (aside_pruneExpiredMessagesForSession key now).bind fun _ => ih

theorem aside_pruneMatching (now : Int64) (topic : Text) :
    Follows Aside (pruneMatching now topic) := by
  intro s
  refine followsAt_get_bind (followsAt_whenever fun _ => ?_)
  exact (quiet_unordered _).aside.bind (fun keys => aside_pruneSessions now keys) s

/-! ## Handing over -/

theorem aside_trySend (key : SessionKey) (frame : BrokerFrame) :
    Follows Aside (trySend key frame) := by
  intro s
  rcases exec_trySend key frame s with ⟨s', hexec, hsame⟩ | ⟨s', generation, hexec, h'⟩
  · exact followsAt_of_exec hexec hsame.aside
  · obtain ⟨haccounts, hretained, hwills, _⟩ := h'
    refine followsAt_of_exec hexec ⟨hwills, hretained, fun key => ?_⟩
    simp only [BrokerState.inbound?, BrokerState.session?, haccounts]

theorem aside_nextUnsentFrame (key : SessionKey) : Follows Aside (nextUnsentFrame key) := by
  intro s
  rcases exec_nextUnsentFrame key s with ⟨r, s', hexec, hsame, _⟩ |
    ⟨session, id, o, t, hold, _, _, hsame, hexec⟩
  · exact followsAt_of_exec hexec hsame.aside
  · refine followsAt_of_exec hexec (IsTrans.trans _ _ _ hsame.aside ?_)
    exact aside_putSession ((hsame.session? key).trans hold) rfl

theorem aside_promoteOffline (key : SessionKey) (limits : Limits) :
    Follows Aside (promoteOffline key limits) := by
  intro s
  rcases exec_promoteOffline key limits s with ⟨r, s', hexec, hsame, _⟩ |
    ⟨session, t, hold, hsame, ⟨session', halloc, hexec⟩ |
      ⟨session', id, message, rest, _, _, _, halloc, hexec⟩⟩
  · exact followsAt_of_exec hexec hsame.aside
  · obtain ⟨next, rfl, _⟩ := StoredSession.allocatePacketId_none halloc
    refine followsAt_of_exec hexec (IsTrans.trans _ _ _ hsame.aside ?_)
    exact aside_putSession ((hsame.session? key).trans hold) rfl
  · obtain ⟨rfl, _⟩ := StoredSession.allocatePacketId_some halloc
    rw [FollowsAt, hexec]
    refine IsTrans.trans _ _ _ hsame.aside ?_
    exact aside_edit ((hsame.session? key).trans hold) rfl (fun _ => rfl) fun s =>
      followsAt_pure _ s

theorem aside_nextFrame (key : SessionKey) (limits : Limits) :
    Follows Aside (nextFrame key limits) := by
  intro s
  exact followsAt_get_bind (followsAt_ite (fun _ => aside_nextUnsentFrame key s) fun _ =>
    aside_promoteOffline key limits s)

/-- Hand over the next frame of a session, if there is one, and let it wait. -/
theorem aside_sendNext (key : SessionKey) (limits : Limits) :
    Follows Aside (do
      match ← nextFrame key limits with
      | none => markPending key
      | some frame =>
        let _ ← trySend key frame
        markPending key) := by
  refine (aside_nextFrame key limits).bind fun frame => ?_
  cases frame with
  | none => exact (quiet_markPending key).aside
  | some frame => exact (aside_trySend key frame).bind fun _ => (quiet_markPending key).aside

/-! ## Waking sessions -/

/-- Changing the pending index leaves the rest alone. -/
theorem aside_modifyPending (f : PendingIndex → PendingIndex) : Follows Aside (modifyPending f) :=
  aside_modify (fun _ => rfl) (fun _ => rfl) fun _ => rfl

theorem aside_wakeSession (tenant : TenantId) (qos : ℕ) (limits : Limits) (key : SessionKey) :
    Follows Aside (wakeSession tenant qos limits key) := by
  refine (aside_modifyPending _).bind fun _ => (aside_pruneIfDue key).bind fun _ => ?_
  refine (quiet_channel key).aside.bind fun active s => followsAt_get_bind ?_
  exact followsAt_ite (fun _ => (quiet_markPending key).aside s) fun _ =>
    aside_sendNext key limits s

theorem aside_wakeSessions (tenant : TenantId) (qos : ℕ) (limits : Limits) (attempts : ℕ)
    (pending : Table UInt64 SessionKey) :
    Follows Aside (wakeSessions tenant qos limits attempts pending) := by
  induction attempts generalizing pending with
  | zero => exact fun s => followsAt_pure _ s
  | succ attempts ih =>
    intro s
    refine followsAt_get_bind (followsAt_ite (fun _ => followsAt_pure _ s) fun _ => ?_)
    split
    · exact followsAt_pure _ s
    · exact (aside_wakeSession tenant qos limits _).bind (fun _ => ih _) s

theorem aside_wakeTenantPending (tenant : TenantId) (qos : ℕ) (limits : Limits) :
    Follows Aside (wakeTenantPending tenant qos limits) := by
  intro s
  refine followsAt_get_bind (followsAt_ite (fun _ => followsAt_pure _ s) fun _ => ?_)
  refine (aside_modifyPending _).bind (fun _ => ?_) s
  refine (aside_wakeSessions tenant qos limits _ _).bind fun left s => ?_
  exact followsAt_ite (fun _ => followsAt_pure _ s) fun _ => aside_modifyPending _ s

theorem aside_driveWakes (limits : Limits) (budget : ℕ) :
    Follows Aside (driveWakes limits budget) := by
  induction budget with
  | zero => exact fun s => followsAt_pure _ s
  | succ budget ih =>
    intro s
    refine followsAt_get_bind ?_
    split
    · exact followsAt_pure _ s
    · next wake _ left _ =>
      refine followsAt_set_bind ⟨rfl, rfl, fun _ => rfl⟩ ?_
      refine followsAt_bind (followsAt_attempt (aside_wakeTenantPending _ _ limits _))
        fun result s' _ => ?_
      cases result with
      | ok _ => exact ih s'
      | error e =>
        refine followsAt_modify_bind ⟨rfl, rfl, fun _ => rfl⟩ ?_
        exact followsAt_throw e _

theorem aside_driveCapacityWakes (limits : Limits) : Follows Aside (driveCapacityWakes limits) :=
  aside_driveWakes limits hotMaintenanceBudget

theorem aside_wakeAny (limits : Limits) (key : SessionKey) :
    Follows Aside (wakeAny limits key) := by
  refine (quiet_unmarkPending key).aside.bind fun _ => (aside_pruneIfDue key).bind fun _ => ?_
  refine (quiet_channel key).aside.bind fun active s => followsAt_get_bind ?_
  split
  · exact (quiet_markPending key).aside s
  · exact followsAt_ite (fun _ => (quiet_markPending key).aside s) fun _ =>
      aside_sendNext key limits s

theorem aside_wakeGlobal (limits : Limits) (attempts : ℕ) :
    Follows Aside (wakeGlobal limits attempts) := by
  induction attempts with
  | zero => exact fun s => followsAt_pure _ s
  | succ attempts ih =>
    intro s
    refine followsAt_get_bind ?_
    split
    · exact followsAt_pure _ s
    · refine followsAt_set_bind ⟨rfl, rfl, fun _ => rfl⟩ ?_
      exact (aside_wakeAny limits _).bind (fun _ => ih) _

theorem aside_wakeGlobalBytePending (limits : Limits) :
    Follows Aside (wakeGlobalBytePending limits) := by
  intro s
  exact followsAt_get_bind ((aside_wakeGlobal limits _).bind
    (fun _ => aside_driveCapacityWakes limits) s)

/-! ## Storing messages -/

theorem aside_commitOffline {old session : StoredSession} (hold : s.session? key = some old)
    (hsession : session.inbound = old.inbound) (message : BrokerMessage) :
    FollowsAt Aside (commitOffline key session message) s :=
  aside_edit hold hsession (fun _ => rfl) (quiet_markPending key).aside

theorem aside_commitSend {old session : StoredSession} (hold : s.session? key = some old)
    (hsession : session.inbound = old.inbound) (id : PacketId) (message : BrokerMessage) :
    FollowsAt Aside (commitSend key session id message) s := by
  have hsent : (session.send id message).inbound = old.inbound := hsession
  refine followsAt_bind (aside_putSession hold hsent) fun _ s' _ => ?_
  refine Follows.bind (aside_modifyAccounts ?_) (fun _ => aside_syncSessionUsage key) s'
  exact fun _ => rfl

theorem aside_queueOffline (key : SessionKey) (message : BrokerMessage) (limits : Limits) :
    Follows Aside (queueOffline key message limits) := by
  intro s
  refine followsAt_ite (fun _ => followsAt_pure _ s) fun _ => followsAt_get_bind ?_
  refine followsAt_read_bind fun session hold => followsAt_ensure_bind fun _ => ?_
  exact aside_commitOffline hold rfl message

theorem aside_commitTarget (message : BrokerMessage) (target : PlannedRouteTarget) :
    Follows Aside (commitTarget message target) := by
  intro s
  unfold commitTarget
  split
  · exact aside_trySend _ _ s
  · next packetId _ =>
    refine followsAt_read_bind fun session hold => ?_
    have hinbound : ({ session with
      nextPacketId := StoredSession.followingId packetId } : StoredSession).inbound =
        session.inbound := rfl
    refine followsAt_bind (aside_commitSend hold hinbound _ _) fun _ s' _ => ?_
    exact (aside_trySend _ _).bind (fun _ s => followsAt_pure _ s) s'
  · refine followsAt_read_bind fun session hold => ?_
    exact followsAt_bind (aside_commitOffline hold rfl _) fun _ _ _ => followsAt_pure _ _

theorem aside_commitTargets (message : BrokerMessage) (plan : List PlannedRouteTarget) :
    Follows Aside (commitTargets message plan) := by
  induction plan with
  | nil => exact fun s => followsAt_pure _ s
  | cons target rest ih =>
    exact (aside_commitTarget message target).bind fun _ => ih.bind fun _ s => followsAt_pure _ s

end Netbaiot.Broker
