import Netbaiot.Broker.Connection
import Netbaiot.Broker.PacketId
import Netbaiot.Lib.Ends

/-!
# Operations that leave the core of the broker alone

Looking something up, planning a route and keeping the index of waiting sessions change
neither what is stored nor what has been handed over.  `SameCore` relates the states before
and after such an operation; the remaining operations are described by what they change.
-/

namespace Netbaiot.Broker

open Lib Mqtt Op AList

variable {s s' s'' : BrokerState} {α β : Type}

/-- Waiting sessions are filed under their own tenant. -/
def PendingIndex.Filed (index : PendingIndex) : Prop :=
  ∀ tenant qos queue token key, index.byTenant.lookup (tenant, qos) = some queue →
    queue.lookup token = some key → key.device.tenantId = tenant

/-- States that differ only in caches, indexes and connections. -/
structure SameCore (s s' : BrokerState) : Prop where
  accounts : s'.accounts = s.accounts
  retained : s'.retained = s.retained
  wills : s'.wills = s.wills
  trie : s'.trie = s.trie
  handed : s'.handed = s.handed
  filed : s.pending.Filed → s'.pending.Filed

/-! ## Operations that only look -/

instance : Std.Refl SameCore where
  refl _ := ⟨rfl, rfl, rfl, rfl, rfl, id⟩

theorem SameCore.trans (h : SameCore s s') (h' : SameCore s' s'') : SameCore s s'' :=
  ⟨h'.accounts.trans h.accounts, h'.retained.trans h.retained, h'.wills.trans h.wills,
    h'.trie.trans h.trie, h'.handed.trans h.handed, h'.filed ∘ h.filed⟩

instance : IsTrans BrokerState SameCore where
  trans _ _ _ := SameCore.trans

theorem SameCore.tick (s : BrokerState) : SameCore s s.tick := ⟨rfl, rfl, rfl, rfl, rfl, id⟩

theorem SameCore.session? (h : SameCore s s') (key : SessionKey) :
    s'.session? key = s.session? key := by
  simp only [BrokerState.session?, h.accounts]

/-- An operation that leaves the core of the state alone. -/
abbrev Quiet (x : BrokerM α) : Prop := Follows SameCore x

theorem quiet_modify {f : BrokerState → BrokerState} (h : ∀ s, SameCore s (f s)) :
    Quiet (modify f : BrokerM PUnit) := fun s => h s

theorem quiet_pure (a : α) : Quiet (pure a) := followsAt_pure a

theorem quiet_observe : Quiet observe := fun _ => ⟨rfl, rfl, rfl, rfl, rfl, id⟩

theorem quiet_nowMs : Quiet nowMs := quiet_observe.bind fun _ => quiet_pure _

theorem quiet_reserveFrame (bytes : ℕ) : Quiet (reserveFrame bytes) :=
  quiet_observe.bind fun _ => quiet_pure _

theorem quiet_reserveIf (c : Bool) (bytes : ℕ) : Quiet (reserveIf c bytes) := by
  cases c
  · exact quiet_pure _
  · exact quiet_reserveFrame bytes

theorem quiet_reserveUnless (c : Bool) (bytes : ℕ) : Quiet (reserveUnless c bytes) := by
  cases c
  · exact quiet_reserveFrame bytes
  · exact quiet_pure _

theorem quiet_channel (key : SessionKey) : Quiet (channel key) :=
  fun _ => ⟨rfl, rfl, rfl, rfl, rfl, id⟩

theorem quiet_unordered (l : List α) : Quiet (unordered l) :=
  quiet_observe.bind fun _ => quiet_pure _

theorem quiet_modifyPending {f : PendingIndex → PendingIndex}
    (hf : ∀ index, index.Filed → (f index).Filed) : Quiet (modifyPending f) :=
  quiet_modify fun _ => ⟨rfl, rfl, rfl, rfl, rfl, hf _⟩

/-- A session that no longer waits leaves the others filed as they are. -/
theorem PendingIndex.Filed.unmark {index : PendingIndex} (h : index.Filed) (key : SessionKey) :
    (index.unmark key).Filed := by
  unfold PendingIndex.unmark
  split
  · exact h
  · intro tenant qos queue token key' hqueue hkey
    simp only at hqueue
    split at hqueue
    · exact h tenant qos queue token key' hqueue hkey
    · next qos' token' _ old hold =>
      rw [lookup_put] at hqueue
      split at hqueue
      · next heq =>
        -- The queue of the session itself, without its token.
        split at hqueue
        · cases hqueue
        · cases hqueue
          rw [lookup_erase_eq] at hkey
          split at hkey
          · cases hkey
          · exact (h _ _ old token key' hold hkey).trans (congrArg Prod.fst heq).symm
      · exact h tenant qos queue token key' hqueue hkey

/-- A session that begins to wait is filed under its own tenant. -/
theorem PendingIndex.Filed.mark {index : PendingIndex} (h : index.Filed) (key : SessionKey)
    (qos : Option ℕ) : (index.mark key qos).Filed := by
  unfold PendingIndex.mark
  split
  · exact h
  · have hunmark := h.unmark key
    split
    · exact hunmark
    · intro tenant qos' queue token key' hqueue hkey
      simp only [lookup_insert_eq] at hqueue
      split at hqueue
      · next heq =>
        cases hqueue
        rw [lookup_insert_eq] at hkey
        split at hkey
        · cases hkey
          exact (congrArg Prod.fst heq).symm
        · cases hold : (index.unmark key).byTenant.lookup (key.device.tenantId, _) with
          | none =>
            rw [hold] at hkey
            simp at hkey
          | some old =>
            rw [hold] at hkey
            exact (hunmark _ _ old token key' hold hkey).trans (congrArg Prod.fst heq).symm
      · exact hunmark tenant qos' queue token key' hqueue hkey

theorem quiet_unmarkPending (key : SessionKey) : Quiet (unmarkPending key) :=
  quiet_modifyPending fun _ h => h.unmark key

theorem quiet_markPending (key : SessionKey) : Quiet (markPending key) :=
  fun s => followsAt_get_bind (quiet_modifyPending (fun _ h => h.mark key _) s)

theorem quiet_checkOwner (key : SessionKey) (generation : UInt64) (e : Error) :
    Quiet (checkOwner key generation e) :=
  fun s => followsAt_get_bind (followsAt_ensure _ _ s)

theorem quiet_storedSession (key : SessionKey) (e : Error) : Quiet (storedSession key e) :=
  fun s => followsAt_get_bind (followsAt_someOr _ _ s)

theorem quiet_publishSubscriptionCount : Quiet publishSubscriptionCount :=
  quiet_modify fun _ => ⟨rfl, rfl, rfl, rfl, rfl, id⟩

/-! ## Reading -/

section Read

variable {key : SessionKey} {generation : UInt64} {e : Error}

/-- A stored session is read, or the operation stops. -/
theorem followsAt_read_bind {R : BrokerState → BrokerState → Prop} [Std.Refl R]
    {f : StoredSession → BrokerM β}
    (hf : ∀ session, s.session? key = some session → FollowsAt R (f session) s) :
    FollowsAt R (storedSession key e >>= f) s := by
  unfold storedSession
  rw [bind_assoc]
  exact followsAt_get_bind (followsAt_someOr_bind hf)

theorem ends_read_bind {Q : Except Error β → BrokerState → Prop} {f : StoredSession → BrokerM β}
    (found : ∀ session, s.session? key = some session → Ends (f session) s Q)
    (missing : s.session? key = none → Q (.error e) s) : Ends (storedSession key e >>= f) s Q := by
  unfold storedSession
  rw [bind_assoc]
  exact ends_get_bind (ends_someOr_bind found missing)

theorem ends_checkOwner_bind {Q : Except Error β → BrokerState → Prop} {f : Unit → BrokerM β}
    (owner : (s.active.lookup key).any (fun active => active.generation = generation) →
      Ends (f ()) s Q)
    (stale : ¬ (s.active.lookup key).any (fun active => active.generation = generation) →
      Q (.error e) s) : Ends (checkOwner key generation e >>= f) s Q := by
  unfold checkOwner
  rw [bind_assoc]
  exact ends_get_bind (ends_ensure_bind owner stale)

end Read

/-! ## Planning a route -/

theorem quiet_planMode (session : StoredSession) (usage : RouteUsage) (tenant : TenantRouteUsage)
    (charge : ℕ) (limits : Limits) (useLive : Bool) :
    Quiet (planMode session usage tenant charge limits useLive) := by
  intro s
  refine followsAt_ite (fun _ => ?_) fun _ => ?_
  · exact followsAt_someOr_bind fun _ _ => followsAt_pure _ s
  · exact followsAt_ensure_bind fun _ => followsAt_pure _ s

theorem quiet_planStored (limits : Limits) (charge : ℕ) (key : SessionKey) (qos : ℕ)
    (subscription : Subscription) (usage : RouteUsage) (ready : Bool) :
    Quiet (planStored limits charge key qos subscription usage ready) := by
  intro s
  refine followsAt_ensure_bind fun _ => followsAt_read_bind fun session _ => ?_
  refine followsAt_get_bind ((quiet_reserveIf _ _).bind (fun budget s => ?_) s)
  refine followsAt_ensure_bind fun _ => ?_
  exact (quiet_planMode _ _ _ _ _ _).bind (fun _ s => followsAt_pure _ s) s

/-- Planning only looks. -/
theorem quiet_planTargets (limits : Limits) (origin : Option SessionKey) (message : BrokerMessage)
    (charge : ℕ) (found : List (SessionKey × Subscription)) (usage : RouteUsage) :
    Quiet (planTargets limits origin message charge found usage) := by
  induction found generalizing usage with
  | nil => exact fun s => followsAt_pure _ s
  | cons entry rest ih =>
    intro s
    refine followsAt_ite (fun _ => ih usage s) fun _ => ?_
    refine (quiet_channel _).bind (fun active s => ?_) s
    refine followsAt_ite (fun _ => ?_) fun _ => ?_
    · refine (quiet_reserveIf _ _).bind (fun budget => ?_) s
      exact (ih usage).bind fun _ s => followsAt_pure _ s
    · refine (quiet_planStored _ _ _ _ _ _ _).bind (fun planned => ?_) s
      exact (ih planned.2).bind fun _ s => followsAt_pure _ s

theorem quiet_preflightRoute (owner : DeviceKey) (origin : Option SessionKey)
    (message : BrokerMessage) (limits : Limits) (charge : ℕ) :
    Quiet (preflightRoute owner origin message limits charge) := by
  intro s
  refine followsAt_get_bind (followsAt_ensure_bind fun _ => ?_)
  exact (quiet_unordered _).bind (fun _ => quiet_planTargets _ _ _ _ _ _) s

/-! ## Handing over a frame -/

/-- Putting a frame into a channel either changes nothing of the core or hands it over. -/
theorem exec_trySend (key : SessionKey) (frame : BrokerFrame) (s : BrokerState) :
    (∃ s', exec (trySend key frame) s = (.ok false, s') ∧ SameCore s s') ∨
    ∃ s' generation, exec (trySend key frame) s = (.ok true, s') ∧ s'.accounts = s.accounts ∧
      s'.retained = s.retained ∧ s'.wills = s.wills ∧ s'.trie = s.trie ∧
      s'.handed = s.handed ++ [⟨key, generation, frame⟩] ∧ s'.pending = s.pending := by
  have hchannel : ∃ active s', exec (channel key) s = (.ok active, s') ∧ SameCore s s' ∧
      s'.pending = s.pending := ⟨_, _, rfl, ⟨rfl, rfl, rfl, rfl, rfl, id⟩, rfl⟩
  obtain ⟨active, s', hexec, hsame, hpending⟩ := hchannel
  unfold trySend
  rw [exec_bind_of_ok hexec]
  cases active with
  | none => exact .inl ⟨s', rfl, hsame⟩
  | some active =>
    by_cases hfull : (active.closed || decide (active.free = 0)) = true
    · left
      simp only [hfull, if_true]
      exact ⟨s', rfl, hsame⟩
    · right
      simp only [hfull]
      refine ⟨_, active.generation, rfl, hsame.accounts, hsame.retained, hsame.wills, hsame.trie,
        ?_, hpending⟩
      simp only [hsame.handed]

/-- The first exchange not yet sent is one of the session's exchanges. -/
theorem StoredSession.firstUnsent_some {session : StoredSession} {id : PacketId}
    {o : OutboundState} (h : session.firstUnsent = some (id, o)) :
    session.outbound.lookup id = some o ∧ id ∉ session.sent := by
  obtain ⟨id', _, hid⟩ := List.exists_of_findSome?_eq_some h
  split at hid
  · cases hid
  · next hsent =>
    rw [Option.map_eq_some_iff] at hid
    obtain ⟨o', ho, heq⟩ := hid
    cases heq
    exact ⟨ho, hsent⟩

/-- What handing over an unsent exchange does: nothing, or the exchange is marked as sent. -/
theorem exec_nextUnsentFrame (key : SessionKey) (s : BrokerState) :
    (∃ r s', exec (nextUnsentFrame key) s = (r, s') ∧ SameCore s s' ∧ ∀ f, r ≠ .ok (some f)) ∨
    ∃ session id o t, s.session? key = some session ∧ session.outbound.lookup id = some o ∧
      (o.isPubcomp = true ∨ session.hasSendQuota = true) ∧ SameCore s t ∧
      exec (nextUnsentFrame key) s = (.ok (some (session.repeatFrame id o)),
        { t with accounts := { t.accounts with
          sessions := t.accounts.sessions.insert key (session.markSent id o) } }) := by
  unfold nextUnsentFrame storedSession
  rw [exec_get_bind, exec_someOr_bind]
  cases s.active.lookup key with
  | none => exact .inl ⟨_, s, rfl, Std.Refl.refl s, by simp⟩
  | some active =>
    simp only [bind_assoc, exec_get_bind, exec_someOr_bind]
    cases hold : s.session? key with
    | none => exact .inl ⟨_, s, rfl, Std.Refl.refl s, by simp⟩
    | some session =>
      simp only
      cases hunsent : session.firstUnsent with
      | none => exact .inl ⟨_, s, rfl, Std.Refl.refl s, by simp⟩
      | some entry =>
        obtain ⟨id, o⟩ := entry
        obtain ⟨hid, _⟩ := StoredSession.firstUnsent_some hunsent
        simp only
        by_cases hpubcomp : o.isPubcomp = true
        · right
          rw [if_pos hpubcomp]
          exact ⟨session, id, o, s, rfl, hid, .inl hpubcomp, Std.Refl.refl s, rfl⟩
        · rw [if_neg hpubcomp]
          by_cases hquota : session.hasSendQuota = true
          · simp only [hquota, Bool.not_true, Bool.false_eq_true, if_false, exec_reserveFrame_bind]
            by_cases hgranted : o.bytes ≤ (s.readings s.cursor).budget
            · right
              simp only [hgranted, decide_true, Bool.not_true, Bool.false_eq_true, if_false]
              exact ⟨session, id, o, s.tick, rfl, hid, .inr hquota, .tick s, rfl⟩
            · left
              simp only [hgranted, decide_false, Bool.not_false, if_true]
              exact ⟨_, s.tick, rfl, .tick s, by simp⟩
          · left
            simp only [hquota]
            exact ⟨_, s, rfl, Std.Refl.refl s, by simp⟩

/-- The end of a promotion: the session takes the message out of the queue. -/
def promoteWith (key : SessionKey) (session : StoredSession) (id : PacketId)
    (message : BrokerMessage) (rest : List BrokerMessage) : BrokerM (Option BrokerFrame) := do
  putSession key (session.promote id message rest)
  modifyAccounts fun a => { a with
    offlineCount := a.offlineCount - 1
    offlineBytes := a.offlineBytes - message.bytes }
  syncSessionUsage key
  return some (freshFrame message (some id) false none)

/-- What promoting does: nothing, a fruitless search for an identifier, or the head of the
queue becomes an exchange. -/
theorem exec_promoteOffline (key : SessionKey) (limits : Limits) (s : BrokerState) :
    (∃ r s', exec (promoteOffline key limits) s = (r, s') ∧ SameCore s s' ∧
      ∀ f, r ≠ .ok (some f)) ∨
    ∃ session t, s.session? key = some session ∧ SameCore s t ∧
      ((∃ session', session.allocatePacketId = (none, session') ∧
        exec (promoteOffline key limits) s = (.ok none, { t with accounts := { t.accounts with
          sessions := t.accounts.sessions.insert key session' } })) ∨
      ∃ session' id message rest, session.offline = message :: rest ∧
        session.hasOutboundCapacity message.qos limits = true ∧ session.hasSendQuota = true ∧
        session.allocatePacketId = (some id, session') ∧
        exec (promoteOffline key limits) s =
          exec (promoteWith key session' id message rest) t) := by
  have hsame : SameCore s s.tick := .tick s
  unfold promoteOffline
  rw [exec_get_bind]
  cases hold : s.session? key with
  | none => exact .inl ⟨_, s, rfl, Std.Refl.refl s, by simp⟩
  | some session =>
    cases hoffline : session.offline with
    | nil =>
      simp only [Option.bind_some, hoffline, List.head?_nil]
      exact .inl ⟨_, s, rfl, Std.Refl.refl s, by simp⟩
    | cons message rest =>
      simp only [Option.bind_some, hoffline, List.head?_cons, exec_someOr_bind]
      cases s.active.lookup key with
      | none => exact .inl ⟨_, s, rfl, Std.Refl.refl s, by simp⟩
      | some active =>
        simp only [exec_reserveFrame_bind]
        by_cases hgranted : message.bytes ≤ (s.readings s.cursor).budget
        · have hold' : s.tick.session? key = some session := hold
          simp only [hgranted, decide_true, Bool.not_true, Bool.false_eq_true, if_false,
            storedSession, bind_assoc, exec_get_bind, exec_someOr_bind, hold', hoffline]
          by_cases hroom : (!session.hasOutboundCapacity message.qos limits ||
              !session.hasSendQuota) = true
          · rw [if_pos hroom]
            exact .inl ⟨_, s.tick, rfl, hsame, by simp⟩
          · rw [if_neg hroom]
            simp only [Bool.or_eq_true, Bool.not_eq_true', not_or, Bool.not_eq_false] at hroom
            rcases halloc : session.allocatePacketId with ⟨_ | id, session'⟩
            · exact .inr ⟨session, s.tick, rfl, hsame, .inl ⟨session', halloc, rfl⟩⟩
            · exact .inr ⟨session, s.tick, rfl, hsame,
                .inr ⟨session', id, message, rest, hoffline, hroom.1, hroom.2, halloc, rfl⟩⟩
        · simp only [hgranted, decide_false, Bool.not_false, if_true]
          exact .inl ⟨_, s.tick, rfl, hsame, by simp⟩

/-! ## Dropping expired messages -/

/-- Removing exchanges touches nothing but the exchanges and what is kept along with them. -/
theorem removeOutbounds_eq (ids : List PacketId) (s : StoredSession) :
    ∃ commands progress sent window started outbound order,
      (removeOutbounds ids s).1 = { s with
        commandOutbound := commands, commandProgress := progress, sent := sent
        sendWindow := window, startedOutbound := started, outbound := outbound
        outboundOrder := order } := by
  induction ids generalizing s with
  | nil => exact ⟨_, _, _, _, _, _, _, rfl⟩
  | cons id ids ih =>
    obtain ⟨_, _, _, _, _, _, _, h⟩ := ih (s.removeOutbound id).2
    exact ⟨_, _, _, _, _, _, _, h⟩

/-- What an expired session looks like: only its queue, its exchanges and what is kept along
with them have changed. -/
theorem pruneSessionMessages_eq (s : StoredSession) (now : Int64) :
    ∃ commands progress sent window started order,
      (pruneSessionMessages s now).1 = { s with
        offline := s.offline.filter fun m => !m.expired now
        offlineBytes := s.offlineBytes - (pruneSessionMessages s now).2.offlineBytes
        outbound := (pruneSessionMessages s now).1.outbound
        stateBytes := s.stateBytes - (pruneSessionMessages s now).2.sessionBytes
        commandOutbound := commands, commandProgress := progress, sent := sent
        sendWindow := window, startedOutbound := started, outboundOrder := order } := by
  obtain ⟨commands, progress, sent, window, started, outbound, order, h⟩ :=
    removeOutbounds_eq (expiredIds (dropExpiredOffline s now) now) (dropExpiredOffline s now)
  refine ⟨commands, progress, sent, window, started, order, ?_⟩
  simp only [pruneSessionMessages]
  rw [h]
  rfl

end Netbaiot.Broker
