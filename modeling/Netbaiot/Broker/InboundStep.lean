import Netbaiot.Broker.Calls

/-!
# Stages of inbound messages

An inbound QoS 2 message is admitted under a packet identifier, delivered to the event pipeline
and routed, in calls that old and new connections of its session interleave at will.
`InboundStep` says what one call can do to the messages of all sessions, and
`stale_performInbound` that a call about anything but the current connection, incarnation and
delivery does nothing.
-/

namespace Netbaiot.Broker

open Lib Mqtt Op AList BrokerState

variable {new old : StoredSession} {β : Type} {s s' : BrokerState} {key : SessionKey}
  {packetId : PacketId} {limits : Limits}

/-- The inbound message that a session holds under a packet identifier. -/
def BrokerState.transaction? (s : BrokerState) (key : SessionKey) (packetId : PacketId) :
    Option InboundQos2State :=
  (s.session? key).bind fun session => session.inboundQos2.lookup packetId

/-- The message under an identifier of a session that is there. -/
theorem BrokerState.transaction?_of_session {session : StoredSession}
    (h : s.session? key = some session) :
    s.transaction? key packetId = session.inboundQos2.lookup packetId := by
  rw [transaction?, h, Option.bind_some]

/-! ## Calls that admit and deliver nothing -/

/-- Every inbound message of the later state is in the earlier one, at the same stage. -/
def InboundKept (s s' : BrokerState) : Prop :=
  ∀ key packetId entry, s'.transaction? key packetId = some entry →
    s.transaction? key packetId = some entry

/-- Calls that leave the sessions alone keep all messages. -/
theorem kept_of_sessions (h : s'.accounts.sessions = s.accounts.sessions) : InboundKept s s' := by
  intro key packetId entry hentry
  rwa [transaction?, session?, h] at hentry

/-- Work aside from inbound messages leaves them as they are. -/
theorem Aside.transaction? (h : Aside s s') (key : SessionKey) (packetId : PacketId) :
    s'.transaction? key packetId = s.transaction? key packetId := by
  have hsame (t : BrokerState) : t.transaction? key packetId =
      (t.inbound? key).bind fun part => part.entries.lookup packetId := by
    rw [inbound?, Option.bind_map]
    rfl
  rw [hsame, hsame, h.inbound]

/-- Work aside keeps all messages. -/
theorem Aside.kept (h : Aside s s') : InboundKept s s' := by
  intro key packetId entry hentry
  rwa [h.transaction?] at hentry

instance : Std.Refl InboundKept where
  refl _ _ _ _ h := h

instance : IsTrans BrokerState InboundKept where
  trans _ _ _ h h' key packetId entry hentry := h key packetId entry (h' key packetId entry hentry)

/-- Filing retained messages keeps all inbound ones. -/
theorem Filing.kept (h : Filing s s') : InboundKept s s' :=
  kept_of_sessions (congrArg Accounts.sessions h.accounts)

/-- Inbound messages are not in the retained store. -/
theorem kept_modifyRetained (f : RetainedStore → RetainedStore) :
    Follows InboundKept (modifyRetained f) := fun _ => kept_of_sessions rfl

/-- Inbound messages are not in the store of Wills. -/
theorem kept_modifyWills (f : WillStore → WillStore) : Follows InboundKept (modifyWills f) :=
  fun _ => kept_of_sessions rfl

/-- Routing keeps all messages. -/
theorem kept_routes : Routes limits InboundKept where
  refl _ := Std.Refl.refl _
  trans h h' := IsTrans.trans _ _ _ h h'
  aside := Aside.kept
  expireRetained now topic s := (filing_expireRetained now topic s).kept
  updateRetained owner origin message s :=
    (filing_updateRetained owner origin message limits s).kept

/-- A Will is routed, or put back if that fails. -/
theorem kept_publishPending (pending : PendingWill) :
    Follows InboundKept (publishPending limits pending) := by
  refine (kept_modifyRetained _).bind fun _ => ?_
  refine Follows.bind (fun s => followsAt_attempt (kept_routes.routeLocked _ _ _ s)) fun r => ?_
  cases r with
  | error e => exact (kept_modifyRetained _).bind fun _ => kept_modifyWills _
  | ok n => exact kept_modifyWills _

/-- A Will that is due is published. -/
theorem kept_retryWill (pending : PendingWill) :
    Follows InboundKept (retryWill limits pending) := by
  have hnow : Follows InboundKept nowMs := fun s => (quiet_nowMs s).aside.kept
  refine hnow.bind fun now s => followsAt_ite (fun _ => kept_modifyWills _ s) fun _ => ?_
  exact hnow.bind (fun now => kept_publishPending _) s

/-- Wills are retried one after the other. -/
theorem kept_retryWills (attempts : ℕ) : Follows InboundKept (retryWills limits attempts) := by
  induction attempts with
  | zero => exact fun s => followsAt_pure _ s
  | succ attempts ih =>
    intro s
    refine followsAt_get_bind ?_
    split
    · exact followsAt_pure _ s
    · next pending rest _ =>
      refine followsAt_set_bind (kept_of_sessions rfl) ?_
      exact (kept_retryWill pending).bind (fun _ => ih) _

/-- Wills that are due are promoted and retried. -/
theorem kept_retryPendingWillsBounded (budget : ℕ) :
    Follows InboundKept (retryPendingWillsBounded limits budget) := by
  refine Follows.bind (fun s => (quiet_nowMs s).aside.kept) fun now => ?_
  refine (kept_modifyWills _).bind fun _ s => followsAt_get_bind ?_
  exact kept_retryWills _ s

/-- The Wills of a resumed session are cancelled one by one. -/
theorem kept_cancelWills (key : SessionKey) (incarnation : UInt64) (now : Int64)
    (wills : List PendingWill) : Follows InboundKept (cancelWills key incarnation now wills) := by
  induction wills with
  | nil => exact fun s => followsAt_pure _ s
  | cons will rest ih =>
    refine Follows.bind (fun s => ?_) fun _ => ih
    refine followsAt_ite (fun _ => kept_modifyWills _ s) fun _ => ?_
    refine followsAt_ite (fun _ => kept_modifyWills _ s) fun _ => ?_
    exact (kept_modifyRetained _).bind (fun _ => kept_modifyWills _) s

/-- A session that is resumed in time cancels its Wills. -/
theorem kept_cancelResumedWills (key : SessionKey) (incarnation : UInt64) :
    Follows InboundKept (cancelResumedWills key incarnation) := by
  refine Follows.bind (fun s => (quiet_nowMs s).aside.kept) fun now s => followsAt_get_bind ?_
  exact followsAt_set_bind (kept_of_sessions rfl) (kept_cancelWills key incarnation now _ _)

/-- Accounting keeps all messages. -/
theorem kept_syncSessionUsage (key : SessionKey) : Follows InboundKept (syncSessionUsage key) :=
  fun s => (aside_syncSessionUsage key s).kept

/-- A removed session takes its messages along. -/
theorem kept_removeSession (key : SessionKey) : Follows InboundKept (removeSession key) := by
  refine Follows.bind (fun s => (quiet_unmarkPending key s).aside.kept) fun _ s => ?_
  refine followsAt_modify_bind (kept_of_sessions rfl) (followsAt_get_bind ?_)
  refine Follows.bind (fun t => ?_) (fun _ => kept_syncSessionUsage key) _
  unfold dropSession
  split
  · exact followsAt_pure _ t
  · refine followsAt_modify_bind (kept_of_sessions rfl) ?_
    refine followsAt_modify_bind (kept_of_sessions rfl) (followsAt_modify ?_)
    intro key' packetId entry hentry
    rw [transaction?, session?, lookup_erase_eq] at hentry
    split at hentry
    · cases hentry
    · exact hentry

/-- A new session has no messages. -/
theorem kept_createSession (c : Connect) (key : SessionKey) :
    Follows InboundKept (createSession c key limits) := by
  intro s
  refine followsAt_modify_bind (kept_of_sessions rfl) ?_
  refine followsAt_bind (quiet_nowMs _).aside.kept fun now t _ => ?_
  refine followsAt_get_bind (followsAt_ensure_bind fun _ => ?_)
  refine followsAt_modify_bind ?_ (kept_syncSessionUsage key _)
  intro key' packetId entry hentry
  rw [transaction?, session?, lookup_insert_eq] at hentry
  split at hentry
  · cases hentry
  · exact hentry

/-- All calls that are not about inbound messages keep them. -/
theorem kept_closed : Closed limits InboundKept where
  toRoutes := kept_routes
  retryPendingWills := kept_retryPendingWillsBounded
  releaseCleanStartDelays _ := kept_modifyWills _
  cancelResumedWills := kept_cancelResumedWills
  removeSession := kept_removeSession
  createSession c key s _ := kept_createSession c key s

/-- A Will is reserved when its connection starts. -/
theorem kept_reserveWillWithOrigin (owner : DeviceKey) (origin : Option SessionKey)
    (message : BrokerMessage) :
    Follows InboundKept (reserveWillWithOrigin owner origin message limits) := by
  intro s
  refine followsAt_ensure_bind fun _ => followsAt_bind ?_ fun _ t _ => ?_
  · exact followsAt_get_bind (followsAt_ensure_bind fun _ => kept_modifyWills _ s)
  · refine followsAt_bind (filing_reserveRetained _ _ _ _ t).kept fun r t' _ => ?_
    cases r with
    | error e => exact (kept_modifyWills _).bind (fun _ t => followsAt_throw e t) t'
    | ok reservation =>
      refine followsAt_get_bind ((kept_modifyWills _).bind (fun _ t => ?_) t')
      exact followsAt_pure _ t

/-- A Will with a delay waits for it. -/
theorem kept_scheduleReservedWill (id : ℕ) : Follows InboundKept (scheduleReservedWill id) := by
  intro s
  refine followsAt_get_bind (followsAt_someOr_bind fun guard _ => ?_)
  split
  · exact followsAt_pure _ s
  · refine followsAt_bind (quiet_nowMs s).aside.kept fun now t _ => followsAt_get_bind ?_
    refine followsAt_ite (fun _ => ?_) fun _ => followsAt_ite (fun _ => ?_) fun _ => ?_
    · exact (kept_modifyWills _).bind (fun _ t => followsAt_pure _ t) t
    · refine (kept_modifyRetained _).bind (fun _ => ?_) t
      refine (kept_modifyWills _).bind fun _ => ?_
      exact (kept_modifyWills _).bind fun _ t => followsAt_pure _ t
    · refine (kept_modifyWills _).bind (fun _ => ?_) t
      exact (kept_modifyWills _).bind fun _ t => followsAt_pure _ t

/-- A Will without a delay is published at once. -/
theorem kept_publishReservedWill (id : ℕ) :
    Follows InboundKept (publishReservedWill id limits) := by
  intro s
  refine followsAt_get_bind (followsAt_someOr_bind fun guard _ => ?_)
  refine followsAt_bind (quiet_nowMs s).aside.kept fun now t _ => ?_
  exact (kept_modifyWills _).bind (fun _ => kept_publishPending _) t

/-- Calls about Wills keep all messages. -/
theorem kept_performWill (c : WillCall) : Follows InboundKept (performWill limits c) := by
  intro s
  cases c with
  | reserve owner origin message =>
    exact (kept_reserveWillWithOrigin owner origin message).bind (fun _ t => followsAt_pure _ t) s
  | arm | setV5SessionExpiry => exact kept_modifyWills _ s
  | settle id =>
    refine followsAt_get_bind (followsAt_ite (fun _ => ?_) fun _ => ?_)
    · exact (kept_scheduleReservedWill id).bind (fun _ t => followsAt_pure _ t) s
    · exact kept_publishReservedWill id s
  | suppress id =>
    refine followsAt_get_bind (followsAt_someOr_bind fun guard _ => ?_)
    refine (kept_modifyRetained _).bind (fun _ => ?_) s
    exact (kept_modifyWills _).bind fun _ => kept_modifyWills _

/-! ## Calls about inbound messages -/

/-- What happens to an inbound message. -/
inductive InboundEvent where
  | started (operationId : UInt64)
  | accepted (operationId : UInt64)
  | abandoned (operationId : UInt64)
  | routed
deriving DecidableEq

/-- What a call with that outcome did to which message. -/
def InboundCall.event : InboundCall → Except Error InboundOutcome →
    Option (SessionKey × PacketId × InboundEvent)
  | .beginDelivery key _ packetId, .ok (.begun (.deliver _ _ operationId)) =>
      some (key, packetId, .started operationId)
  | .finishDelivery key _ packetId operationId, .ok _ => some (key, packetId, .accepted operationId)
  | .abandonDelivery key _ packetId operationId, .ok _ =>
      some (key, packetId, .abandoned operationId)
  | .route key _ packetId _, .ok _ => some (key, packetId, .routed)
  | _, _ => none

/-- How the stage of a message moves at an event. -/
inductive InboundEvent.Moves :
    InboundEvent → InboundQos2State → Option InboundQos2State → Prop where
  | started (message operationId) :
      Moves (.started operationId) (.awaitPubrel message) (some (.delivering message operationId))
  | accepted (message operationId) :
      Moves (.accepted operationId) (.delivering message operationId)
        (some (.eventAccepted message))
  -- the pipeline may confirm again what it has accepted
  | confirmed (message operationId) :
      Moves (.accepted operationId) (.eventAccepted message) (some (.eventAccepted message))
  | abandoned (message operationId) :
      Moves (.abandoned operationId) (.delivering message operationId)
        (some (.awaitPubrel message))
  | routed (message) : Moves .routed (.eventAccepted message) none

/-- Every inbound message of the later state is in the earlier one, up to one identifier. -/
def KeptElsewhere (key : SessionKey) (packetId : PacketId) (s s' : BrokerState) : Prop :=
  ∀ key' packetId' entry, ¬ (key' = key ∧ packetId' = packetId) →
    s'.transaction? key' packetId' = some entry → s.transaction? key' packetId' = some entry

/-- What one call does: nothing is admitted, a new message is, or the message of the event moves
while all others are kept. -/
inductive InboundStep (s s' : BrokerState) :
    Option (SessionKey × PacketId × InboundEvent) → Prop where
  | kept (h : InboundKept s s') : InboundStep s s' none
  | admitted {key : SessionKey} {packetId : PacketId} {message : BrokerMessage}
      (first : s.transaction? key packetId = none)
      (last : s'.transaction? key packetId = some (.awaitPubrel message))
      (others : KeptElsewhere key packetId s s') : InboundStep s s' none
  | moved {key : SessionKey} {packetId : PacketId} {event : InboundEvent}
      {entry : InboundQos2State} (first : s.transaction? key packetId = some entry)
      (moves : event.Moves entry (s'.transaction? key packetId))
      (others : KeptElsewhere key packetId s s') :
      InboundStep s s' (some (key, packetId, event))

/-- Storing a session with one more or another entry changes that entry alone. -/
theorem transaction?_put {entry : InboundQos2State} (hold : s.session? key = some old)
    (hnew : new.inboundQos2 = old.inboundQos2.insert packetId entry)
    (hs' : s'.accounts.sessions = s.accounts.sessions.insert key new) :
    s'.transaction? key packetId = some entry ∧ KeptElsewhere key packetId s s' := by
  have hsession : s'.session? key = some new := by
    rw [session?, hs', lookup_insert]
  refine ⟨?_, fun key' packetId' other hne hentry => ?_⟩
  · rw [transaction?_of_session hsession, hnew, lookup_insert]
  · by_cases hkey : key' = key
    · subst hkey
      have hid : packetId' ≠ packetId := fun h => hne ⟨rfl, h⟩
      rw [transaction?_of_session hsession, hnew, lookup_insert_ne hid] at hentry
      rwa [transaction?_of_session hold]
    · rwa [transaction?, session?, hs', lookup_insert_ne hkey] at hentry

/-- Storing a session with fewer entries keeps the rest. -/
theorem kept_put (hold : s.session? key = some old)
    (hs' : s'.accounts.sessions = s.accounts.sessions.insert key new)
    (hnew : ∀ packetId entry, new.inboundQos2.lookup packetId = some entry →
      old.inboundQos2.lookup packetId = some entry) :
    InboundKept s s' := by
  intro key' packetId entry hentry
  by_cases hkey : key' = key
  · subst hkey
    rw [transaction?, session?, hs', lookup_insert] at hentry
    rw [transaction?_of_session hold]
    exact hnew packetId entry hentry
  · rwa [transaction?, session?, hs', lookup_insert_ne hkey] at hentry

/-- A new message is admitted even if what comes after fails. -/
theorem inboundStep_admitted {t : BrokerState} {message : BrokerMessage} (haside : Aside t s')
    (hold : s.session? key = some old) (hfree : old.inboundQos2.lookup packetId = none)
    (hnew : new.inboundQos2 = old.inboundQos2.insert packetId (.awaitPubrel message))
    (ht : t.accounts.sessions = s.accounts.sessions.insert key new) : InboundStep s s' none := by
  obtain ⟨hlast, hothers⟩ := transaction?_put hold hnew ht
  refine .admitted ?_ ((haside.transaction? key packetId).trans hlast) ?_
  · rw [transaction?_of_session hold, hfree]
  · intro key' packetId' entry hne hentry
    rw [haside.transaction?] at hentry
    exact hothers key' packetId' entry hne hentry

/-- Storing a session with one entry moved is a step of that message. -/
theorem inboundStep_moved {entry entry' : InboundQos2State} {event : InboundEvent}
    (hold : s.session? key = some old) (hentry : old.inboundQos2.lookup packetId = some entry)
    (hnew : new.inboundQos2 = old.inboundQos2.insert packetId entry')
    (hmoves : event.Moves entry (some entry'))
    (hs' : s'.accounts.sessions = s.accounts.sessions.insert key new) :
    InboundStep s s' (some (key, packetId, event)) := by
  obtain ⟨hlast, hothers⟩ := transaction?_put hold hnew hs'
  refine .moved ?_ (hlast ▸ hmoves) hothers
  rw [transaction?_of_session hold, hentry]

/-- A publish admits a message or does nothing. -/
theorem inboundStep_publish (key : SessionKey) (generation : UInt64) (packetId : PacketId)
    (message : BrokerMessage) (s : BrokerState) :
    Ends (inboundQos2 key generation packetId message limits) s fun _ s' =>
      InboundStep s s' none := by
  have hkept : InboundStep s s none := .kept (Std.Refl.refl s)
  refine ends_ensure_bind (fun _ => ?_) fun _ => hkept
  refine ends_checkOwner_bind (fun _ => ?_) fun _ => hkept
  refine ends_read_bind (fun session hsession => ?_) fun _ => hkept
  split
  · refine ends_ite (fun _ => hkept) fun _ => ends_ite (fun _ => hkept) fun _ => hkept
  · next hfree =>
    refine ends_ensure_bind (fun _ => ?_) fun _ => hkept
    refine ends_ensure_bind (fun _ => ?_) fun _ => hkept
    refine ends_ensure_bind (fun _ => ?_) fun _ => hkept
    refine ends_bind (filing_reserveRetained _ _ _ _ s).ends (fun reservation t hfiling => ?_)
      fun e t hfiling => .kept hfiling.kept
    have hsessions : t.accounts.sessions = s.accounts.sessions :=
      congrArg Accounts.sessions hfiling.accounts
    refine ends_get_bind (ends_ite (fun _ => ?_) fun _ => ?_)
    · -- synchronisation may still fail, with the message stored
      refine ends_modify_bind (ends_modify_bind ?_)
      have hsync := Follows.bind (aside_syncSessionUsage key) fun _ t => followsAt_pure true t
      refine (hsync _).ends.mono fun _ s' haside => ?_
      have hnew : (session.receive packetId message reservation).inboundQos2 =
          session.inboundQos2.insert packetId (.awaitPubrel message) := rfl
      exact inboundStep_admitted haside hsession hfree hnew (congrArg (insert key _) hsessions)
    · exact .kept fun key packetId entry hentry => hfiling.kept key packetId entry hentry

/-- A delivery starts under the next operation number. -/
theorem inboundStep_beginDelivery (key : SessionKey) (generation : UInt64) (packetId : PacketId)
    (s : BrokerState) :
    Ends (beginInboundQos2Delivery key generation packetId) s fun r s' =>
      InboundStep s s' (InboundCall.event (.beginDelivery key generation packetId)
        (r.map .begun)) := by
  refine ends_checkOwner_bind (fun _ => ?_) fun _ => .kept (Std.Refl.refl s)
  refine ends_modify_bind (ends_get_bind ?_)
  -- from here on only the operation counter has moved
  have hkept (t : BrokerState) (ht : t.accounts.sessions = s.accounts.sessions) :
      InboundStep s t none := .kept (kept_of_sessions ht)
  refine ends_read_bind (fun session hsession => ?_) fun _ => hkept _ rfl
  split
  · exact hkept _ rfl
  · next message hentry =>
    exact ends_modify_bind (inboundStep_moved hsession hentry rfl (.started message _) rfl)
  · exact hkept _ rfl
  · exact ends_modify_bind (.kept (kept_put hsession rfl fun _ _ h => h))

/-- The end of a delivery: the session and the transaction it names are there, or nothing is
done. -/
theorem ends_delivery_bind {Q : Except Error β → BrokerState → Prop}
    {f : StoredSession → InboundQos2State → BrokerM β} {sessionIncarnation : UInt64}
    (hkept : ∀ e, Q (.error e) s)
    (h : ∀ session entry, s.session? key = some session →
      session.incarnation = sessionIncarnation →
      session.inboundQos2.lookup packetId = some entry → Ends (f session entry) s Q) :
    Ends (do
      let session ← storedSession key .internal
      Op.ensure (session.incarnation = sessionIncarnation) .conflict
      let entry ← Op.someOr (session.inboundQos2.lookup packetId) .invalid
      f session entry) s Q := by
  refine ends_read_bind (fun session hsession => ?_) fun _ => hkept _
  refine ends_ensure_bind (fun hincarnation => ?_) fun _ => hkept _
  refine ends_someOr_bind (fun entry hentry => ?_) fun _ => hkept _
  exact h session entry hsession hincarnation hentry

/-- The pipeline accepts the message of the current operation. -/
theorem inboundStep_finishDelivery (key : SessionKey) (sessionIncarnation : UInt64)
    (packetId : PacketId) (operationId : UInt64) (s : BrokerState) :
    Ends (finishInboundQos2Delivery key sessionIncarnation packetId operationId) s fun r s' =>
      InboundStep s s' (InboundCall.event
        (.finishDelivery key sessionIncarnation packetId operationId) (r.map fun _ => .done)) := by
  have hkept : InboundStep s s none := .kept (Std.Refl.refl s)
  refine ends_delivery_bind (fun _ => hkept) fun session entry hsession _ hentry => ?_
  split
  · next message current =>
    refine ends_ensure_bind (fun hcurrent => ?_) fun _ => hkept
    subst hcurrent
    exact inboundStep_moved hsession hentry rfl (.accepted message current) rfl
  · next message =>
    rw [Ends, exec_ensure]
    split
    · refine .moved ((transaction?_of_session hsession).trans hentry) ?_ fun _ _ _ _ h => h
      rw [transaction?_of_session hsession, hentry]
      exact .confirmed message operationId
    · exact hkept
  · exact hkept

/-- An abandoned message waits for its next delivery. -/
theorem inboundStep_abandonDelivery (key : SessionKey) (sessionIncarnation : UInt64)
    (packetId : PacketId) (operationId : UInt64) (s : BrokerState) :
    Ends (abandonInboundQos2Delivery key sessionIncarnation packetId operationId) s fun r s' =>
      InboundStep s s' (InboundCall.event
        (.abandonDelivery key sessionIncarnation packetId operationId) (r.map fun _ => .done)) := by
  have hkept : InboundStep s s none := .kept (Std.Refl.refl s)
  refine ends_delivery_bind (fun _ => hkept) fun session entry hsession _ hentry => ?_
  split
  · next message current =>
    refine ends_ensure_bind (fun hcurrent => ?_) fun _ => hkept
    subst hcurrent
    exact inboundStep_moved hsession hentry rfl (.abandoned message current) rfl
  · exact hkept

/-- Giving up a reservation keeps the message. -/
theorem kept_releaseInboundReservation (key : SessionKey) (packetId : PacketId) :
    Follows InboundKept (releaseInboundReservation key packetId) := by
  intro s
  refine followsAt_get_bind ?_
  split
  · exact followsAt_pure _ s
  · next session hsession =>
    refine followsAt_modify_bind (kept_put hsession rfl fun _ _ h => h) ?_
    exact kept_modifyRetained _ _

/-- A dropped message is gone, and all others are kept. -/
theorem ends_dropInbound (key : SessionKey) (packetId : PacketId) (charge : ℕ) (s : BrokerState) :
    Ends (dropInbound key packetId charge) s fun _ s' =>
      InboundKept s s' ∧ s'.transaction? key packetId = none := by
  refine ends_read_bind (fun session hsession => ends_modify_bind ⟨?_, ?_⟩) fun hnone => ?_
  · exact kept_put hsession rfl fun id entry h => (of_lookup_erase h).2
  · show ((lookup key (insert key _ _)).bind _) = none
    rw [lookup_insert, Option.bind_some, lookup_erase]
  · refine ⟨Std.Refl.refl s, ?_⟩
    rw [transaction?, hnone, Option.bind_none]

/-- A message is gone, whether it was there or not. -/
theorem ends_dropPresent {session : StoredSession} {charge : ℕ}
    (hsession : s.session? key = some session) :
    Ends (Op.whenever (session.inboundQos2.lookup packetId).isSome
        (dropInbound key packetId charge)) s
      fun _ s' => InboundKept s s' ∧ s'.transaction? key packetId = none := by
  refine ends_ite (fun _ => ends_dropInbound key packetId charge s) fun hnone => ?_
  refine ⟨Std.Refl.refl s, ?_⟩
  show s.transaction? key packetId = none
  rwa [transaction?_of_session hsession, ← Option.not_isSome_iff_eq_none]

/-- Settling drops a message with its reservation. -/
theorem kept_settleInbound (key : SessionKey) (packetId : PacketId)
    (entry : Option InboundQos2State) : Follows InboundKept (settleInbound key packetId entry) := by
  have hdrop (charge : ℕ) : Follows InboundKept (dropInbound key packetId charge) :=
    fun s => (ends_dropInbound key packetId charge s).1
  cases entry with
  | none => exact hdrop 0
  | some entry => exact (kept_releaseInboundReservation key packetId).bind fun _ => hdrop _

/-- Waking sessions keeps all messages. -/
theorem kept_driveCapacityWakes : Follows InboundKept (driveCapacityWakes limits) :=
  fun s => (aside_driveCapacityWakes limits s).kept

/-- A completed message is dropped, and nothing is admitted. -/
theorem kept_completeInboundQos2 (key : SessionKey) (generation : UInt64) (packetId : PacketId) :
    Follows InboundKept (completeInboundQos2 key generation packetId limits) := by
  refine Follows.bind (fun s => (quiet_checkOwner key generation _ s).aside.kept) fun _ s => ?_
  refine followsAt_read_bind fun session _ => ?_
  refine (kept_settleInbound key packetId _).bind (fun _ => ?_) s
  refine (kept_syncSessionUsage key).bind fun _ => ?_
  exact kept_driveCapacityWakes.bind fun _ => kept_retryPendingWillsBounded _

/-- A message whose routing failed is kept, and the failure is passed on. -/
theorem ends_restoreInbound (key : SessionKey) (packetId : PacketId) (message : BrokerMessage)
    (e : Error) (s : BrokerState) :
    Ends (do
      let restored ← reserveRetained key.device.tenantId (some key) message limits
      if restored = {} then throw e
      else
        let session ← storedSession key .internal
        putSession key { session with
          inboundReservations := session.inboundReservations.insert packetId restored }
        throw e : BrokerM ℕ) s fun r s' => (∃ e', r = .error e') ∧ InboundKept s s' := by
  refine ends_bind (filing_reserveRetained _ _ _ _ s).ends (fun restored t ht => ?_)
    fun e' t ht => ⟨⟨e', rfl⟩, ht.kept⟩
  refine ends_ite (fun _ => ⟨⟨e, rfl⟩, ht.kept⟩) fun _ => ?_
  refine ends_read_bind (fun session hsession => ?_) fun _ => ⟨⟨_, rfl⟩, ht.kept⟩
  refine ends_modify_bind ⟨⟨e, rfl⟩, IsTrans.trans _ _ _ ht.kept ?_⟩
  exact kept_put hsession rfl fun _ _ h => h

/-- What follows a routed message keeps it gone. -/
theorem inboundStep_routed {t : BrokerState} {message : BrokerMessage}
    (hfirst : s.transaction? key packetId = some (.eventAccepted message)) (ht : InboundKept s t)
    (hgone : t.transaction? key packetId = none) (hs' : InboundKept t s') :
    InboundStep s s' (some (key, packetId, .routed)) := by
  refine .moved hfirst ?_ fun key' id entry _ h => ht key' id entry (hs' key' id entry h)
  have hlast : s'.transaction? key packetId = none := by
    by_contra hsome
    obtain ⟨entry, hentry⟩ := Option.ne_none_iff_exists'.mp hsome
    have hearlier := hs' key packetId entry hentry
    rw [hgone] at hearlier
    cases hearlier
  rw [hlast]
  exact .routed message

/-- What follows a routed message keeps all others. -/
theorem kept_afterRoute (key : SessionKey) (delivered : ℕ) : Follows InboundKept (do
    syncSessionUsage key
    driveCapacityWakes limits
    retryPendingWills limits
    return delivered) := by
  refine (kept_syncSessionUsage key).bind fun _ => kept_driveCapacityWakes.bind fun _ => ?_
  exact (kept_retryPendingWillsBounded _).bind fun _ t => followsAt_pure delivered t

/-- A message is routed, or kept if that fails. -/
theorem inboundStep_route (key : SessionKey) (sessionIncarnation : UInt64) (packetId : PacketId)
    (operationId : UInt64) (owner : DeviceKey) (s : BrokerState) :
    Ends (routeInboundQos2 key sessionIncarnation packetId operationId owner limits) s fun r s' =>
      InboundStep s s' (InboundCall.event (.route key sessionIncarnation packetId operationId)
        (r.map .routed)) := by
  have hkept : InboundStep s s none := .kept (Std.Refl.refl s)
  refine ends_read_bind (fun session hsession => ?_) fun _ => hkept
  refine ends_ensure_bind (fun _ => ?_) fun _ => hkept
  split
  · next message hentry =>
    refine ends_bind (kept_releaseInboundReservation key packetId s).ends (fun _ t ht => ?_)
      fun _ t ht => .kept ht
    refine ends_bind (P := fun _ t' => InboundKept t t') (kept_routes.routeLocked _ _ _ t)
      (fun r t' ht' => ?_) fun _ t' ht' => .kept (IsTrans.trans _ _ _ ht ht')
    replace ht := IsTrans.trans _ _ _ ht ht'
    cases r with
    | error e =>
      refine (ends_restoreInbound key packetId message e t').mono fun r s' h => ?_
      obtain ⟨⟨e', rfl⟩, hs'⟩ := h
      exact .kept (IsTrans.trans _ _ _ ht hs')
    | ok delivered =>
      refine ends_read_bind (fun session' hsession' => ?_) fun _ => .kept ht
      refine ends_bind (ends_dropPresent hsession') (fun _ u hu => ?_)
        fun _ u hu => .kept (IsTrans.trans _ _ _ ht hu.1)
      obtain ⟨hdropped, hgone⟩ := hu
      replace ht := IsTrans.trans _ _ _ ht hdropped
      refine (kept_afterRoute key delivered u).ends.mono fun r s' hs' => ?_
      cases r with
      | error e => exact .kept (IsTrans.trans _ _ _ ht hs')
      | ok n =>
        exact inboundStep_routed ((transaction?_of_session hsession).trans hentry) ht hgone hs'
  · exact hkept

/-- Every call about inbound messages is a step of them. -/
theorem inboundStep_performInbound (c : InboundCall) (s : BrokerState) :
    Ends (performInbound limits c) s fun r s' => InboundStep s s' (c.event r) := by
  cases c with
  | publish key generation packetId message =>
    refine ends_map ((inboundStep_publish key generation packetId message s).mono fun r s' h => ?_)
    cases r <;> exact h
  | beginDelivery key generation packetId =>
    exact ends_map (inboundStep_beginDelivery key generation packetId s)
  | finishDelivery key sessionIncarnation packetId operationId =>
    exact ends_map (inboundStep_finishDelivery key sessionIncarnation packetId operationId s)
  | abandonDelivery key sessionIncarnation packetId operationId =>
    exact ends_map (inboundStep_abandonDelivery key sessionIncarnation packetId operationId s)
  | complete key generation packetId =>
    refine ends_map
      ((kept_completeInboundQos2 key generation packetId s).ends.mono fun r s' h => ?_)
    cases r <;> exact .kept h
  | route key sessionIncarnation packetId operationId =>
    exact ends_map (inboundStep_route key sessionIncarnation packetId operationId _ s)

/-! ## Stale calls -/

/-- The operation under which an inbound message is being, or has been, delivered. -/
def StoredSession.currentOperation (session : StoredSession) (packetId : PacketId) :
    Option UInt64 :=
  match session.inboundQos2.lookup packetId with
  | some (.delivering _ operationId) => some operationId
  | some (.eventAccepted _) => session.inboundOperations.lookup packetId
  | _ => none

/-- Whether the generation is that of the connection of a session. -/
def BrokerState.Current (s : BrokerState) (key : SessionKey) (generation : UInt64) : Prop :=
  (s.active.lookup key).any fun active => active.generation = generation

/-- A call of an old connection, or about another delivery or incarnation than the current. -/
def InboundCall.Stale (s : BrokerState) : InboundCall → Prop
  | .publish key generation _ _ => ¬ s.Current key generation
  | .beginDelivery key generation _ => ¬ s.Current key generation
  | .complete key generation _ => ¬ s.Current key generation
  | .finishDelivery key sessionIncarnation packetId operationId
  | .abandonDelivery key sessionIncarnation packetId operationId
  | .route key sessionIncarnation packetId operationId =>
      ∀ session, s.session? key = some session →
        session.incarnation ≠ sessionIncarnation ∨
          session.currentOperation packetId ≠ some operationId

/-- A stale call does nothing. -/
theorem stale_performInbound {c : InboundCall} (hstale : c.Stale s) :
    (exec (performInbound limits c) s).2 = s := by
  suffices h : Ends (performInbound limits c) s fun _ s' => s' = s from h
  cases c with
  | publish key generation packetId message =>
    refine ends_map (ends_ensure_bind (fun _ => ?_) fun _ => rfl)
    exact ends_checkOwner_bind (fun h => absurd h hstale) fun _ => rfl
  | beginDelivery | complete =>
    exact ends_map (ends_checkOwner_bind (fun h => absurd h hstale) fun _ => rfl)
  | finishDelivery key sessionIncarnation packetId operationId =>
    refine ends_map (ends_delivery_bind (fun _ => rfl) ?_)
    intro session entry hsession hincarnation hentry
    have hother := (hstale session hsession).resolve_left (not_not.mpr hincarnation)
    rw [StoredSession.currentOperation, hentry] at hother
    split
    · exact ends_ensure_bind (fun h => absurd (congrArg some h) hother) fun _ => rfl
    · rw [Ends, exec_ensure, if_neg hother]
    · rfl
  | abandonDelivery key sessionIncarnation packetId operationId =>
    refine ends_map (ends_delivery_bind (fun _ => rfl) ?_)
    intro session entry hsession hincarnation hentry
    have hother := (hstale session hsession).resolve_left (not_not.mpr hincarnation)
    rw [StoredSession.currentOperation, hentry] at hother
    split
    · exact ends_ensure_bind (fun h => absurd (congrArg some h) hother) fun _ => rfl
    · rfl
  | route key sessionIncarnation packetId operationId =>
    refine ends_map (ends_read_bind (fun session hsession => ?_) fun _ => rfl)
    refine ends_ensure_bind (fun hcurrent => ?_) fun _ => rfl
    have hother := (hstale session hsession).resolve_left (not_not.mpr hcurrent.1)
    split
    · next message hentry =>
      rw [StoredSession.currentOperation, hentry] at hother
      exact absurd hcurrent.2 hother
    · rfl

/-- A connection that was taken over does not detach its session. -/
theorem stale_detach {generation : UInt64} (cleanSession : Bool)
    (hstale : ¬ s.Current key generation) :
    (exec (detach key generation cleanSession limits) s).2 = s := by
  have hignored : (s.active.lookup key).all fun active => active.generation ≠ generation := by
    rw [BrokerState.Current] at hstale
    cases hactive : s.active.lookup key with
    | none => rfl
    | some active => simpa [hactive] using hstale
  unfold detach
  rw [exec_get_bind, if_pos hignored]
  rfl

end Netbaiot.Broker
