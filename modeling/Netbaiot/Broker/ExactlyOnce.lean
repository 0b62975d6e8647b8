import Netbaiot.Broker.InboundStep

/-!
# Inbound messages are handed over once

The ghost system `tracking` runs the broker, numbers every inbound QoS 2 message that it admits
and logs what happens to it, so that two messages under one packet identifier are told apart.
-/

namespace Netbaiot.Broker

open Lib Mqtt Op

variable {n : ℕ} {operationId : UInt64} {log : List (ℕ × InboundEvent)} {event : InboundEvent}
  {entry : InboundQos2State}

variable {limits : Limits} {key : SessionKey} {packetId : PacketId}

/-- A broker with the number of each inbound message it holds, and what happened to the messages
so far, newest first. -/
structure Tracked where
  broker : BrokerState
  number : SessionKey → PacketId → Option ℕ := fun _ _ => none
  next : ℕ := 0
  log : List (ℕ × InboundEvent) := []

namespace Tracked

/-- Follow one call to the state after it.  A message that was not there gets a new number, one
that is gone loses its own. -/
def observe (t : Tracked) (broker : BrokerState)
    (event : Option (SessionKey × PacketId × InboundEvent)) : Tracked where
  broker
  number key packetId :=
    (broker.transaction? key packetId).map fun _ => (t.number key packetId).getD t.next
  next := t.next + 1
  log :=
    match event with
    | none => t.log
    | some (key, packetId, event) => ((t.number key packetId).map (·, event)).toList ++ t.log

/-- Do one call and follow it. -/
def perform (limits : Limits) (t : Tracked) : Action → Tracked
  | .inbound c =>
      let (outcome, broker) := exec (performInbound limits c) t.broker
      t.observe broker (c.event outcome)
  | a => t.observe (Broker.perform limits t.broker a) none

end Tracked

/-- All runs of the broker, with its inbound messages numbered. -/
def tracking (limits : Limits) : System Tracked Action where
  start t := ∃ s : BrokerState, s.Empty ∧ t = { broker := s }
  step t a t' := t' = t.perform limits a

/-- Following the broker does not change what it does. -/
theorem brokering_iff_tracking {s : BrokerState} :
    (brokering limits).Reachable s ↔ ∃ t, (tracking limits).Reachable t ∧ t.broker = s := by
  have hperform : ∀ (t : Tracked) a, (t.perform limits a).broker = perform limits t.broker a := by
    intro t a
    cases a <;> rfl
  constructor
  · intro h
    induction h with
    | start hempty => exact ⟨_, .start ⟨_, hempty, rfl⟩, rfl⟩
    | step _ hstep ih =>
      obtain ⟨t, ht, rfl⟩ := ih
      exact ⟨_, ht.step rfl, (hperform t _).trans hstep.symm⟩
  · rintro ⟨t, ht, rfl⟩
    induction ht with
    | start hstart =>
      obtain ⟨s, hempty, rfl⟩ := hstart
      exact .start hempty
    | step _ hstep ih =>
      subst hstep
      exact ih.step (hperform _ _)

/-- The message of that number was handed to the pipeline under an operation that has neither
been accepted nor abandoned since. -/
def Delivering (number : ℕ) (operationId : UInt64) : List (ℕ × InboundEvent) → Prop
  | [] => False
  | event :: earlier =>
      event = (number, .started operationId) ∨
        event ≠ (number, .accepted operationId) ∧ event ≠ (number, .abandoned operationId) ∧
          Delivering number operationId earlier

theorem Delivering.started (h : Delivering n operationId log) :
    (n, .started operationId) ∈ log := by
  induction log with
  | nil => exact h.elim
  | cons event earlier ih =>
    rcases h with rfl | ⟨_, _, h⟩
    · exact List.mem_cons_self
    · exact List.mem_cons_of_mem _ (ih h)

/-- An event of another message changes nothing. -/
theorem Delivering.of_other {m : ℕ} (hne : m ≠ n)
    (h : Delivering n operationId ((m, event) :: log)) : Delivering n operationId log := by
  rcases h with h | ⟨_, _, h⟩
  · exact absurd (congrArg Prod.fst h) hne
  · exact h

/-- A message is at the delivering stage exactly as long as its log says so. -/
theorem InboundEvent.Moves.delivering {last : Option InboundQos2State}
    (moves : event.Moves entry last) (hlast : last ≠ none)
    (hold : Delivering n operationId log → ∃ message, entry = .delivering message operationId)
    (h : Delivering n operationId ((n, event) :: log)) :
    ∃ message, last = some (.delivering message operationId) := by
  rcases h with h | ⟨haccepted, habandoned, h⟩
  · cases h
    cases moves with
    | started message _ => exact ⟨message, rfl⟩
  · obtain ⟨message, rfl⟩ := hold h
    cases moves with
    | accepted _ _ => exact absurd rfl haccepted
    | abandoned _ _ => exact absurd rfl habandoned

/-- The ghost state agrees with the broker. -/
structure Tracked.Coherent (t : Tracked) : Prop where
  known : ∀ key packetId,
    (t.number key packetId).isSome = (t.broker.transaction? key packetId).isSome
  fresh : ∀ key packetId n, t.number key packetId = some n → n < t.next
  logged : ∀ n event, (n, event) ∈ t.log → n < t.next
  unique : ∀ key packetId key' packetId' n, t.number key packetId = some n →
    t.number key' packetId' = some n → key' = key ∧ packetId' = packetId
  delivering : ∀ key packetId n operationId, t.number key packetId = some n →
    Delivering n operationId t.log →
      ∃ message, t.broker.transaction? key packetId = some (.delivering message operationId)
  unrouted : ∀ key packetId n, t.number key packetId = some n → (n, .routed) ∉ t.log
  once : ∀ n, t.log.count (n, .routed) ≤ 1

namespace Tracked.Coherent

variable {t : Tracked} (h : t.Coherent) {s' : BrokerState}

include h

/-- A message that is there has a number. -/
theorem number_of_transaction (hentry : t.broker.transaction? key packetId = some entry) :
    ∃ n, t.number key packetId = some n := by
  rw [← Option.isSome_iff_exists, h.known, hentry, Option.isSome_some]

/-- A message that was there before the call keeps its number. -/
theorem number_observe_of_transaction {event : Option (SessionKey × PacketId × InboundEvent)}
    (hentry : t.broker.transaction? key packetId = some entry)
    (hnumber : (t.observe s' event).number key packetId = some n) :
    t.number key packetId = some n := by
  obtain ⟨m, hm⟩ := h.number_of_transaction hentry
  obtain ⟨_, _, rfl⟩ := Option.map_eq_some_iff.mp hnumber
  rw [hm, Option.getD_some]

theorem kept (hkept : InboundKept t.broker s') : (t.observe s' none).Coherent := by
  -- a message that is there was there before, under the same number and at the same stage
  have hnumber {key : SessionKey} {packetId : PacketId} {n : ℕ}
      (hn : (t.observe s' none).number key packetId = some n) :
      t.number key packetId = some n ∧
        s'.transaction? key packetId = t.broker.transaction? key packetId := by
    obtain ⟨entry, hentry, _⟩ := Option.map_eq_some_iff.mp hn
    have hbefore := hkept key packetId entry hentry
    exact ⟨h.number_observe_of_transaction hbefore hn, hentry.trans hbefore.symm⟩
  constructor
  case known => exact fun key packetId => Option.isSome_map
  case fresh => exact fun key packetId n hn =>
    Nat.lt_succ_of_lt (h.fresh key packetId n (hnumber hn).1)
  case logged => exact fun n event hmem => Nat.lt_succ_of_lt (h.logged n event hmem)
  case unique =>
    intro key packetId key' packetId' n hn hn'
    exact h.unique key packetId key' packetId' n (hnumber hn).1 (hnumber hn').1
  case delivering =>
    intro key packetId n operationId hn hdelivering
    obtain ⟨message, hmessage⟩ := h.delivering key packetId n operationId (hnumber hn).1 hdelivering
    exact ⟨message, (hnumber hn).2.trans hmessage⟩
  case unrouted => exact fun key packetId n hn => h.unrouted key packetId n (hnumber hn).1
  case once => exact h.once

theorem admitted {message : BrokerMessage} (first : t.broker.transaction? key packetId = none)
    (last : s'.transaction? key packetId = some (.awaitPubrel message))
    (others : KeptElsewhere key packetId t.broker s') : (t.observe s' none).Coherent := by
  have hnone : t.number key packetId = none := by
    rw [← Option.not_isSome_iff_eq_none, h.known, first]
    exact Bool.false_ne_true
  -- the new message gets the next number, the others keep theirs
  have hnumber {key' : SessionKey} {packetId' : PacketId} {n : ℕ}
      (hn : (t.observe s' none).number key' packetId' = some n) :
      (key' = key ∧ packetId' = packetId ∧ n = t.next) ∨
        t.number key' packetId' = some n ∧
          s'.transaction? key' packetId' = t.broker.transaction? key' packetId' := by
    obtain ⟨entry, hentry, hget⟩ := Option.map_eq_some_iff.mp hn
    by_cases hplace : key' = key ∧ packetId' = packetId
    · obtain ⟨rfl, rfl⟩ := hplace
      rw [hnone, Option.getD_none] at hget
      exact Or.inl ⟨rfl, rfl, hget.symm⟩
    · have hbefore := others key' packetId' entry hplace hentry
      exact Or.inr ⟨h.number_observe_of_transaction hbefore hn, hentry.trans hbefore.symm⟩
  constructor
  case known => exact fun key packetId => Option.isSome_map
  case fresh =>
    intro key' packetId' n hn
    show n < t.next + 1
    rcases hnumber hn with ⟨_, _, rfl⟩ | ⟨hold, _⟩
    · omega
    · have := h.fresh key' packetId' n hold
      omega
  case logged => exact fun n event hmem => Nat.lt_succ_of_lt (h.logged n event hmem)
  case unique =>
    intro key₁ packetId₁ key₂ packetId₂ n hn₁ hn₂
    rcases hnumber hn₁ with ⟨rfl, rfl, rfl⟩ | ⟨hold₁, _⟩ <;>
      rcases hnumber hn₂ with ⟨rfl, rfl, hn⟩ | ⟨hold₂, _⟩
    · exact ⟨rfl, rfl⟩
    · exact absurd (h.fresh _ _ _ hold₂) (lt_irrefl _)
    · exact absurd (h.fresh _ _ _ hold₁) (by omega)
    · exact h.unique _ _ _ _ n hold₁ hold₂
  case delivering =>
    intro key' packetId' n operationId hn hdelivering
    rcases hnumber hn with ⟨_, _, rfl⟩ | ⟨hold, hsame⟩
    · exact absurd (h.logged _ _ hdelivering.started) (lt_irrefl _)
    · obtain ⟨message, hmessage⟩ := h.delivering key' packetId' n operationId hold hdelivering
      exact ⟨message, hsame.trans hmessage⟩
  case unrouted =>
    intro key' packetId' n hn hmem
    rcases hnumber hn with ⟨_, _, rfl⟩ | ⟨hold, _⟩
    · exact absurd (h.logged _ _ hmem) (lt_irrefl _)
    · exact h.unrouted key' packetId' n hold hmem
  case once => exact h.once

theorem moved (first : t.broker.transaction? key packetId = some entry)
    (moves : event.Moves entry (s'.transaction? key packetId))
    (others : KeptElsewhere key packetId t.broker s') :
    (t.observe s' (some (key, packetId, event))).Coherent := by
  obtain ⟨n, hn⟩ := h.number_of_transaction first
  have hlog : (t.observe s' (some (key, packetId, event))).log = (n, event) :: t.log := by
    simp only [observe, hn, Option.map_some, Option.toList_some, List.singleton_append]
  have hbefore {key' : SessionKey} {packetId' : PacketId} {entry' : InboundQos2State}
      (hentry : s'.transaction? key' packetId' = some entry') :
      ∃ entry, t.broker.transaction? key' packetId' = some entry := by
    by_cases hplace : key' = key ∧ packetId' = packetId
    · obtain ⟨rfl, rfl⟩ := hplace
      exact ⟨entry, first⟩
    · exact ⟨entry', others key' packetId' entry' hplace hentry⟩
  have hnumber {key' : SessionKey} {packetId' : PacketId} {m : ℕ}
      (hm : (t.observe s' (some (key, packetId, event))).number key' packetId' = some m) :
      t.number key' packetId' = some m := by
    obtain ⟨entry', hentry', _⟩ := Option.map_eq_some_iff.mp hm
    obtain ⟨entry, hentry⟩ := hbefore hentry'
    exact h.number_observe_of_transaction hentry hm
  constructor
  case known => exact fun key packetId => Option.isSome_map
  case fresh => exact fun key' packetId' m hm => Nat.lt_succ_of_lt (h.fresh _ _ m (hnumber hm))
  case logged =>
    intro m event' hmem
    refine Nat.lt_succ_of_lt ?_
    rw [hlog] at hmem
    rcases List.mem_cons.mp hmem with heq | hmem
    · cases heq
      exact h.fresh key packetId _ hn
    · exact h.logged m event' hmem
  case unique =>
    intro key₁ packetId₁ key₂ packetId₂ m hm₁ hm₂
    exact h.unique _ _ _ _ m (hnumber hm₁) (hnumber hm₂)
  case delivering =>
    intro key' packetId' m operationId hm hdelivering
    rw [hlog] at hdelivering
    obtain ⟨entry', hentry', _⟩ := Option.map_eq_some_iff.mp hm
    by_cases hplace : key' = key ∧ packetId' = packetId
    · obtain ⟨rfl, rfl⟩ := hplace
      obtain rfl : n = m := Option.some_inj.mp (hn.symm.trans (hnumber hm))
      refine moves.delivering (Option.ne_none_iff_exists'.mpr ⟨entry', hentry'⟩) (fun hd => ?_)
        hdelivering
      obtain ⟨message, hmessage⟩ := h.delivering _ _ _ operationId hn hd
      exact ⟨message, Option.some_inj.mp (first.symm.trans hmessage)⟩
    · have hne : n ≠ m := fun heq => hplace (h.unique _ _ _ _ n hn (heq ▸ hnumber hm))
      obtain ⟨message, hmessage⟩ := h.delivering _ _ _ operationId (hnumber hm)
        (hdelivering.of_other hne)
      have hsame := (others key' packetId' entry' hplace hentry').symm.trans hmessage
      exact ⟨message, hentry'.trans hsame⟩
  case unrouted =>
    intro key' packetId' m hm hmem
    rw [hlog] at hmem
    rcases List.mem_cons.mp hmem with heq | hmem
    · -- the routed message is gone, so that no message has its number
      cases heq
      obtain ⟨rfl, rfl⟩ := h.unique _ _ _ _ n hn (hnumber hm)
      obtain ⟨entry', hentry', _⟩ := Option.map_eq_some_iff.mp hm
      rw [hentry'] at moves
      cases moves
    · exact h.unrouted key' packetId' m (hnumber hm) hmem
  case once =>
    intro m
    rw [hlog, List.count_cons]
    split
    · next heq =>
      obtain ⟨rfl, rfl⟩ := Prod.mk.injEq .. ▸ (beq_iff_eq.mp heq)
      have habsent := List.count_eq_zero.mpr (h.unrouted key packetId _ hn)
      omega
    · exact h.once m

end Tracked.Coherent

/-- The ghost state agrees with the broker in every run. -/
theorem coherent_of_reachable {t : Tracked} (h : (tracking limits).Reachable t) : t.Coherent := by
  refine h.invariant (I := Tracked.Coherent) ?_ ?_
  · rintro _ ⟨_, ⟨_, _, rfl⟩, rfl⟩
    exact ⟨fun _ _ => rfl, nofun, nofun, nofun, nofun, nofun, fun _ => Nat.zero_le _⟩
  · rintro t a _ hcoherent rfl
    cases a with
    | call c => exact hcoherent.kept (kept_closed.performCall c t.broker)
    | will c => exact hcoherent.kept (kept_performWill c t.broker)
    | inbound c =>
      have hstep : Ends (performInbound limits c) t.broker _ :=
        inboundStep_performInbound c t.broker
      simp only [Tracked.perform]
      rw [Ends] at hstep
      generalize c.event _ = event at hstep ⊢
      cases hstep with
      | kept hkept => exact hcoherent.kept hkept
      | admitted first last others => exact hcoherent.admitted first last others
      | moved first moves others => exact hcoherent.moved first moves others

/-- In every run, whatever connections, removals and reuses of identifiers lie between the calls:
a delivery is started only of a message that is not being delivered, every message is routed at
most once, and calls of old connections or about old deliveries change nothing. -/
theorem inbound_handed_over_once {t : Tracked} (h : (tracking limits).Reachable t) :
    (∀ key generation packetId message sessionIncarnation operationId,
      (exec (beginInboundQos2Delivery key generation packetId) t.broker).1 =
          .ok (.deliver message sessionIncarnation operationId) →
        ∃ n, t.number key packetId = some n ∧ ∀ other, ¬ Delivering n other t.log) ∧
      (∀ key sessionIncarnation packetId operationId owner delivered,
        (exec (routeInboundQos2 key sessionIncarnation packetId operationId owner limits)
            t.broker).1 = .ok delivered →
          ∃ n, t.number key packetId = some n ∧ (n, .routed) ∉ t.log) ∧
      (∀ n, t.log.count (n, .routed) ≤ 1) ∧
      (∀ c : InboundCall, c.Stale t.broker →
        (exec (performInbound limits c) t.broker).2 = t.broker) ∧
      ∀ key generation cleanSession, ¬ t.broker.Current key generation →
        (exec (detach key generation cleanSession limits) t.broker).2 = t.broker := by
  have hcoherent := coherent_of_reachable h
  refine ⟨?_, ?_, hcoherent.once, fun c => stale_performInbound,
    fun key generation cleanSession => stale_detach cleanSession⟩
  · intro key generation packetId message sessionIncarnation operationId hbegin
    have hstep := inboundStep_beginDelivery key generation packetId t.broker
    rw [Ends, hbegin] at hstep
    cases hstep with
    | moved first moves others =>
      generalize BrokerState.transaction? _ key packetId = last at moves
      cases moves with
      | started message _ =>
        obtain ⟨n, hn⟩ := hcoherent.number_of_transaction first
        refine ⟨n, hn, fun other hdelivering => ?_⟩
        obtain ⟨_, hentry⟩ := hcoherent.delivering _ _ _ other hn hdelivering
        rw [first] at hentry
        cases hentry
  · intro key sessionIncarnation packetId operationId owner delivered hroute
    have hstep : Ends (routeInboundQos2 _ _ _ _ owner limits) t.broker _ :=
      inboundStep_route key sessionIncarnation packetId operationId owner t.broker
    rw [Ends, hroute] at hstep
    cases hstep with
    | moved first moves others =>
      obtain ⟨n, hn⟩ := hcoherent.number_of_transaction first
      exact ⟨n, hn, hcoherent.unrouted _ _ n hn⟩

/-- A device that may do everything. -/
def sampleAuth : AuthenticatedDevice :=
  ⟨⟨.a, .b, .c⟩, 1, 1, .d, 1,
    ⟨true, true⟩⟩

def sampleKey : SessionKey := ⟨sampleAuth.deviceKey, [107]⟩

def sampleConnect : Call :=
  .attachProfile ⟨sampleAuth, some [107], false, .v311, 0, 10, fun _ => none⟩

def samplePublish (generation : UInt64) : InboundCall :=
  .publish sampleKey generation 1 ⟨[116], [1], 2, false, {}⟩

/-- A message is being delivered when the session is taken over.  The old connection finishes the
delivery and routes the message, the new one uses the identifier again. -/
def sampleActions : List Action :=
  [.call sampleConnect, .inbound (samplePublish 2), .inbound (.beginDelivery sampleKey 2 1),
    .call sampleConnect, .inbound (.beginDelivery sampleKey 3 1),
    .inbound (.finishDelivery sampleKey 1 1 1), .inbound (.route sampleKey 1 1 1),
    .inbound (samplePublish 3)]

def sampleTracked : Tracked :=
  sampleActions.foldl (Tracked.perform Limits.default)
    { broker := { sessionIdleTtlMs := 1000, readings := fun _ => { clock := 5 } } }

/-- The first message was routed; the second one, under the same identifier, can be delivered. -/
theorem inbound_handed_over_once_sample :
    sampleTracked.log = [(1, .routed), (1, .accepted 1), (1, .started 1)] ∧
      ∃ n, sampleTracked.number sampleKey 1 = some n ∧
        ∀ other, ¬ Delivering n other sampleTracked.log := by
  have hreachable : (tracking Limits.default).Reachable sampleTracked :=
    System.Reachable.foldl (fun _ _ => rfl) sampleActions (.start ⟨_, ⟨_, _, rfl⟩, rfl⟩)
  refine ⟨by decide +kernel, ?_⟩
  refine (inbound_handed_over_once hreachable).1 sampleKey 3 1 ⟨[116], [1], 2, false, {}⟩ 1 3 ?_
  decide +kernel

end Netbaiot.Broker
