import Netbaiot.EventBus.Restart
import Netbaiot.Lib.Run

/-!
# Runs of the event bus

A run interleaves publishes, restores, route replacements, deliveries taken by workers
and their completions.  A completion may name any record handed out earlier, at any
sink, so stale, repeated and misdirected completions are all covered.
-/

namespace Netbaiot.EventBus

open Lib Op AList

/-- A bus together with the deliveries its workers were given. -/
structure Bus where
  state : State
  /-- Every delivery handed out so far, newest first. -/
  taken : List (SinkId × DeliveryRecord)
  /-- The deliveries each sink worker has not seen completed. -/
  tasks : SinkId → List DeliveryRecord

/-- One operation of a run with the clock readings it makes. -/
inductive Action where
  | publish (now : Int64) (instant : ℕ) (event : DeviceEvent)
  | restore (instant : ℕ) (records : List SpoolRecord)
  | takeReady (now : ℕ) (id : SinkId)
  | complete (clock : CompletionClock) (id : SinkId) (record : DeliveryRecord)
      (result : Except SinkFailure Unit)
  | replaceRoutes (revision : UInt64) (routes : List RouteDefinition)
  | closeAdmission

/-- Note a delivery handed to the worker of a sink. -/
def Bus.handOut (bus : Bus) (id : SinkId) (r : Except Error (Option DeliveryRecord))
    (s : State) : Bus :=
  match r with
  | .ok (some record) =>
    { state := s
      taken := (id, record) :: bus.taken
      tasks := Function.update bus.tasks id (record :: bus.tasks id) }
  | _ => { bus with state := s }

/-- One step of a run.  A worker completes with the definition its sink was registered with. -/
inductive Step (limits : Limits) : Bus → Action → Bus → Prop where
  | publish {bus : Bus} {now : Int64} {instant : ℕ} {event : DeviceEvent} {s : State}
      {r : Except Error EventAccepted}
      (ran : exec (publish limits now instant event) bus.state = (r, s)) :
      Step limits bus (.publish now instant event) { bus with state := s }
  | restore {bus : Bus} {instant : ℕ} {records : List SpoolRecord} {s : State} {r : Except Error ℕ}
      (ran : exec (restore limits instant records) bus.state = (r, s)) :
      Step limits bus (.restore instant records) { bus with state := s }
  | takeReady {bus : Bus} {now : ℕ} {id : SinkId} {s : State}
      {r : Except Error (Option DeliveryRecord)}
      (ran : exec (takeReady now id) bus.state = (r, s)) :
      Step limits bus (.takeReady now id) (bus.handOut id r s)
  | complete {bus : Bus} {clock : CompletionClock} {id owner : SinkId} {record : DeliveryRecord}
      {result : Except SinkFailure Unit} {sink : SinkState} {s : State} {r : Except Error Unit}
      (handed : (owner, record) ∈ bus.taken) (registered : bus.state.sinks.lookup id = some sink)
      (ran : exec (completeDetailed limits clock id record result sink.definition) bus.state =
        (r, s)) :
      Step limits bus (.complete clock id record result)
        { bus with
          state := s
          tasks := Function.update bus.tasks id ((bus.tasks id).erase record) }
  | replaceRoutes {bus : Bus} {revision : UInt64} {routes : List RouteDefinition} {s : State}
      {r : Except Error Unit}
      (ran : exec (replaceRoutes limits revision routes) bus.state = (r, s)) :
      Step limits bus (.replaceRoutes revision routes) { bus with state := s }
  | closeAdmission {bus : Bus} {s : State} {r : Except Error Unit}
      (ran : exec closeAdmission bus.state = (r, s)) :
      Step limits bus .closeAdmission { bus with state := s }

/-- Runs start from a bus that has accepted nothing. -/
def busSystem (limits : Limits) : System Bus Action where
  start bus := (∃ definitions routes revision,
      newPaused limits definitions routes revision = .ok bus.state) ∧
    bus.taken = [] ∧ bus.tasks = fun _ => []
  step := Step limits

/-- The delivery of an event most recently handed to the worker of a sink. -/
def Bus.latest (bus : Bus) (id : SinkId) (eventId : EventId) : Option DeliveryRecord :=
  (bus.taken.find? fun t => t.1 = id ∧ t.2.event.eventId = eventId).map Prod.snd

/-- What the deliveries handed out say about the operations in flight. -/
structure History (bus : Bus) : Prop where
  bounded : ∀ t ∈ bus.taken, t.2.operation ≤ bus.state.nextOperation
  distinct : (bus.taken.map fun t => t.2.operation).Nodup
  flying : ∀ eventId a id operation, bus.state.active.lookup eventId = some a →
    a.operations.lookup id = some operation → ∃ record, bus.latest id eventId = some record ∧
      record.operation = operation ∧ record.Carries a ∧ record ∈ bus.tasks id

variable {limits : Limits} {s s' : State} {bus bus' : Bus} {id : SinkId} {record : DeliveryRecord}
  {action : Action}

/-! ## The start -/

theorem addSink_idle {definitions : List SinkDefinition} {sinks sinks' : Table SinkId SinkState}
    (h : definitions.foldlM addSink sinks = .ok sinks')
    (hidle : ∀ id sink, sinks.lookup id = some sink → sink = .idle sink.definition) :
    ∀ id sink, sinks'.lookup id = some sink → sink = .idle sink.definition := by
  refine foldlM_preserves (P := fun sinks : Table SinkId SinkState =>
    ∀ id sink, sinks.lookup id = some sink → sink = .idle sink.definition) ?_ hidle h
  intro t definition t' ht hadd id sink hsink
  unfold addSink at hadd
  split at hadd
  · cases hadd
  · cases hadd
    rw [lookup_insert_eq] at hsink
    split at hsink
    · cases hsink
      rfl
    · exact ht id sink hsink

/-- The ledger of an idle sink is exact while nothing is stored. -/
theorem SinkExact.idle (id : SinkId) (definition : SinkDefinition) :
    SinkExact ∅ id (SinkState.idle definition).toSinkQueue := by
  constructor <;> simp [SinkState.idle, SinkQueue.aged, SinkQueue.waiting, SinkQueue.queued, values]

theorem newPaused_bookkeeping {definitions : List SinkDefinition} {routes : List RouteDefinition}
    {revision : UInt64} (h : newPaused limits definitions routes revision = .ok s) :
    Bookkeeping limits s ∧ s.active = ∅ := by
  simp only [newPaused, except_bind_eq_ok, check_eq_ok, pure, Except.pure, Except.ok.injEq] at h
  obtain ⟨_, -, sinks, hsinks, compiled, hcompiled, rfl⟩ := h
  have hidle := addSink_idle hsinks (by simp)
  have hqueue : ∀ id q, (sinks.lookup id).map SinkState.toSinkQueue = some q →
      ∃ definition, q = (SinkState.idle definition).toSinkQueue := by
    intro id q hq
    rw [Option.map_eq_some_iff] at hq
    obtain ⟨sink, hsink, rfl⟩ := hq
    exact ⟨sink.definition, by rw [← hidle id sink hsink]⟩
  refine ⟨⟨⟨by simp, fun id q hq => ?_⟩, ⟨by simp, by simp, by simp, by simp, by simp⟩,
    ⟨by simp [size], by simp, by simp, fun id q hq => ?_⟩, .compiled hcompiled⟩, rfl⟩
  · obtain ⟨definition, rfl⟩ := hqueue id q hq
    exact SinkExact.idle id definition
  · obtain ⟨definition, rfl⟩ := hqueue id q hq
    simp [SinkState.idle]

/-! ## Operations in flight -/

/-- A completed record that names a current attempt is the latest one of its sink. -/
theorem History.current (h : History bus) {owner : SinkId} {a : ActiveEvent} {q : SinkQueue}
    (hhanded : (owner, record) ∈ bus.taken) (hcurrent : Current bus.state id record a q) :
    bus.latest id record.event.eventId = some record ∧ record.Carries a := by
  obtain ⟨latest, hlatest, hop, hcarries, -⟩ := h.flying _ a id _ hcurrent.stored hcurrent.operation
  have hfound := hlatest
  simp only [Bus.latest, Option.map_eq_some_iff] at hfound
  obtain ⟨⟨id', r⟩, hfind, rfl⟩ := hfound
  have hsame := List.inj_on_of_nodup_map h.distinct (List.mem_of_find?_eq_some hfind) hhanded hop
  cases hsame
  exact ⟨hlatest, hcarries⟩

/-- Every operation in flight afterwards was in flight before, for the same event. -/
def FlyingKept (s s' : State) : Prop :=
  ∀ eventId a' id operation, s'.active.lookup eventId = some a' →
    a'.operations.lookup id = some operation → ∃ a, s.active.lookup eventId = some a ∧
      a.operations.lookup id = some operation ∧ a.event = a'.event ∧ a.bytes = a'.bytes ∧
      a.acceptedAt = a'.acceptedAt

theorem FlyingKept.of_active (h : s'.active = s.active) : FlyingKept s s' :=
  fun _ a' _ _ ha' hop => ⟨a', h ▸ ha', hop, rfl, rfl, rfl⟩

/-- History is kept when no operation in flight is new. -/
theorem History.keep (h : History bus) (htaken : bus'.taken = bus.taken)
    (hnext : bus'.state.nextOperation = bus.state.nextOperation)
    (hkept : FlyingKept bus.state bus'.state)
    (htasks : ∀ eventId a' id operation, bus'.state.active.lookup eventId = some a' →
      a'.operations.lookup id = some operation → ∀ record ∈ bus.tasks id,
      record.operation = operation → record.event.eventId = eventId → record ∈ bus'.tasks id) :
    History bus' where
  bounded t ht := by
    rw [hnext]
    exact h.bounded t (htaken ▸ ht)
  distinct := htaken ▸ h.distinct
  flying eventId a' id operation ha' hop := by
    obtain ⟨a, ha, hop', hevent, hbytes, hage⟩ := hkept eventId a' id operation ha' hop
    obtain ⟨record, hlatest, hrecord, ⟨h₁, h₂, h₃⟩, htask⟩ :=
      h.flying eventId a id operation ha hop'
    have hid : record.event.eventId = eventId := by
      simp only [Bus.latest, Option.map_eq_some_iff] at hlatest
      obtain ⟨t, hfind, rfl⟩ := hlatest
      have := List.find?_some hfind
      simp only [Bool.decide_and, Bool.and_eq_true, decide_eq_true_eq] at this
      exact this.2
    refine ⟨record, ?_, hrecord, ⟨h₁.trans hevent, h₂.trans hbytes, h₃.trans hage⟩,
      htasks eventId a' id operation ha' hop record htask hrecord hid⟩
    rw [Bus.latest, htaken]
    exact hlatest

/-! ## What a step can do -/

/-- Everything a step of a run can do to the state of a bus. -/
inductive Effect (limits : Limits) (bus : Bus) : Action → State → Prop where
  | same {action : Action} {s : State} (h : SameBacklog bus.state s) : Effect limits bus action s
  | rerouted {action : Action} {s : State} (h : ∃ routes revision,
      s = { bus.state with routes := routes, routingRevision := revision })
    (hroutes : RoutesOk limits s) :
      Effect limits bus action s
  | published {now : Int64} {instant : ℕ} {event : DeviceEvent} {s : State} {a : ActiveEvent}
      (h : Published limits now instant event bus.state s a) :
      Effect limits bus (.publish now instant event) s
  | restored {instant : ℕ} {records : List SpoolRecord} {s : State}
      (h : Restored limits records bus.state s) (hbooks : Bookkeeping limits s) :
      Effect limits bus (.restore instant records) s
  | taken {now : ℕ} {id : SinkId} {s : State} {head record : DeliveryRecord} {q q' : SinkQueue}
      (h : Taken id bus.state s head record q q') : Effect limits bus (.takeReady now id) s
  | requeued {clock : CompletionClock} {id : SinkId} {record record' : DeliveryRecord}
      {result : Except SinkFailure Unit} {s : State} {a a' : ActiveEvent} {q : SinkQueue}
      (h : Requeued id bus.state s record record' a a' q)
      (hlatest : bus.latest id record.event.eventId = some record) (hcarries : record.Carries a) :
      Effect limits bus (.complete clock id record result) s
  | released {clock : CompletionClock} {id : SinkId} {record : DeliveryRecord}
      {result : Except SinkFailure Unit} {s : State} {a a' : ActiveEvent} {q : SinkQueue}
      (h : Released id bus.state s record a a' q)
      (hlatest : bus.latest id record.event.eventId = some record) (hcarries : record.Carries a)
      (hresult : result = .ok () ∨ q.definition.mode ≠ .confirmedRequired) :
      Effect limits bus (.complete clock id record result) s

@[simp] theorem Bus.handOut_state (bus : Bus) (id : SinkId)
    (r : Except Error (Option DeliveryRecord)) (s : State) : (bus.handOut id r s).state = s := by
  unfold handOut
  split <;> rfl

/-- Every step of a consistent bus has one of the listed effects. -/
theorem step_effect (hbooks : Bookkeeping limits bus.state) (hhistory : History bus)
    (h : Step limits bus action bus') : Effect limits bus action bus'.state := by
  cases h with
  | publish ran =>
    rcases publish_spec hbooks.routes ran with ⟨-, hsame⟩ | ⟨-, a, hpub⟩
    · exact .same hsame
    · exact .published hpub
  | restore ran =>
    rcases restore_spec hbooks ran with ⟨-, hsame⟩ | ⟨-, hkept, hrestored⟩
    · exact .same (hsame ▸ .refl _)
    · exact .restored hrestored hkept
  | takeReady ran =>
    rw [Bus.handOut_state]
    rcases takeReady_spec ran with ⟨-, hsame⟩ | ⟨head, record, q, q', -, htaken⟩
    · exact .same hsame
    · exact .taken htaken
  | @complete _ _ _ _ _ sink _ _ handed registered ran =>
    rcases completeDetailed_spec ran with ⟨hsame, -⟩ |
        ⟨record', a, a', q, hre, -⟩ | ⟨a, a', q, hrel, hresult⟩
    · exact .same (hsame ▸ .refl _)
    · obtain ⟨hlatest, hcarries⟩ := hhistory.current handed hre.toCurrent
      exact .requeued hre hlatest hcarries
    · obtain ⟨hlatest, hcarries⟩ := hhistory.current handed hrel.toCurrent
      have hq : sink.toSinkQueue = q := by
        have := hrel.before
        simpa only [State.queueOf, registered, Option.map_some, Option.some.injEq] using this
      exact .released hrel hlatest hcarries (hq ▸ hresult)
  | replaceRoutes ran =>
    obtain rfl | ⟨compiled, hcompile, rfl⟩ := replaceRoutes_cases ran
    · exact .same (.refl _)
    · exact .rerouted ⟨_, _, rfl⟩ (.compiled hcompile)
  | closeAdmission ran =>
    cases ran
    exact .same ⟨rfl, rfl, rfl, rfl, rfl, rfl, fun _ => rel_shuffled_refl _⟩

/-- Every effect keeps the books. -/
theorem Bookkeeping.effect (h : Bookkeeping limits bus.state)
    (heffect : Effect limits bus action s) : Bookkeeping limits s := by
  cases heffect with
  | same hsame => exact h.same hsame
  | rerouted hs hroutes =>
    obtain ⟨routes, revision, rfl⟩ := hs
    exact ⟨h.toStored.of_eq rfl fun _ => rfl, { h.toTotals with }, { h.toWithin with }, hroutes⟩
  | published hpub => exact h.publish hpub
  | restored _ hbooks => exact hbooks
  | taken htaken => exact (h.take htaken).1
  | requeued hre _ hcarries => exact h.requeue hre hcarries
  | released hrel _ hcarries _ => exact h.release hrel hcarries

theorem Landed.flyingKept {a a' : ActiveEvent} {o : Option ActiveEvent} (h : Landed id a a')
    (ha : s.active.lookup record.event.eventId = some a) (ho : ∀ b, o = some b → b = a')
    (hactive : s'.active = s.active.put record.event.eventId o) : FlyingKept s s' := by
  intro e b id' operation hb hop
  rw [hactive, lookup_put] at hb
  split at hb
  · next he =>
    obtain rfl := ho b hb
    rw [h.operations, lookup_erase_eq] at hop
    split at hop
    · cases hop
    · exact ⟨a, he ▸ ha, hop, h.event.symm, h.bytes.symm, h.acceptedAt.symm⟩
  · exact ⟨b, hb, hop, rfl, rfl, rfl⟩

/-- Only handing out a delivery puts an operation in flight. -/
theorem Effect.flyingKept (h : Effect limits bus action s) :
    (∃ now id, action = .takeReady now id) ∨
      s.nextOperation = bus.state.nextOperation ∧ FlyingKept bus.state s := by
  cases h with
  | same hsame => exact .inr ⟨hsame.nextOperation, .of_active hsame.active⟩
  | rerouted hs _ =>
    obtain ⟨routes, revision, rfl⟩ := hs
    exact .inr ⟨rfl, .of_active rfl⟩
  | published hpub =>
    refine .inr ⟨hpub.rest.1, fun e b id operation hb hop => ?_⟩
    rw [hpub.active, lookup_insert_eq] at hb
    split at hb
    · cases hb
      simp [hpub.idle] at hop
    · exact ⟨b, hb, hop, rfl, rfl, rfl⟩
  | @restored _ records _ hrestored _ =>
    refine .inr ⟨hrestored.nextOperation, fun e b id operation hb hop => ?_⟩
    by_cases hnew : ∃ record ∈ records, record.event.eventId = e
    · obtain ⟨record, hrecord, rfl⟩ := hnew
      rw [hrestored.stored record hrecord] at hb
      cases hb
      simp [SpoolRecord.stored] at hop
    · rw [hrestored.kept e fun record hrecord he => hnew ⟨record, hrecord, he⟩] at hb
      exact ⟨b, hb, hop, rfl, rfl, rfl⟩
  | taken _ => exact .inl ⟨_, _, rfl⟩
  | requeued hre _ _ =>
    exact .inr ⟨hre.nextOperation, hre.toLanded.flyingKept hre.stored
      (fun b hb => (Option.some.inj hb).symm) hre.active⟩
  | released hrel _ _ _ =>
    refine .inr ⟨hrel.nextOperation, hrel.toLanded.flyingKept hrel.stored (fun b hb => ?_)
      hrel.active⟩
    split at hb <;> cases hb
    rfl

/-- A completed delivery is not in flight any more. -/
theorem completed_not_flying {clock : CompletionClock} {result : Except SinkFailure Unit}
    {definition : SinkDefinition} {r : Except Error Unit} {a' : ActiveEvent}
    (hbooks : Bookkeeping limits s)
    (ran : exec (completeDetailed limits clock id record result definition) s = (r, s'))
    (ha' : s'.active.lookup record.event.eventId = some a') :
    a'.operations.lookup id ≠ some record.operation := by
  intro hop
  rcases completeDetailed_spec ran with ⟨rfl, hignored⟩ | ⟨_, a, b, q, hre, -⟩ | ⟨a, b, q, hrel, -⟩
  · have hevent := hbooks.event _ a' ha'
    have howed : id ∈ a'.remaining := hevent.flying_subset id (mem_iff_lookup.mpr ⟨_, hop⟩)
    obtain ⟨q, hq⟩ := Option.isSome_iff_exists.mp (hevent.known id howed)
    obtain ⟨hrequired, hzero⟩ := hignored a' q ⟨ha', howed, hop, hq⟩
    have hle := le_total (f := requiredCard) ha'
    rw [← hbooks.pendingRequired, hzero] at hle
    have := Finset.card_pos.mpr ⟨id, hrequired⟩
    simp only [requiredCard] at hle
    omega
  · rw [hre.active, lookup_put] at ha'
    simp only [if_true, Option.some.injEq] at ha'
    rw [← ha', hre.operations, lookup_erase] at hop
    cases hop
  · rw [hrel.active, lookup_put] at ha'
    simp only [if_true] at ha'
    split at ha' <;> cases ha'
    rw [hrel.operations, lookup_erase] at hop
    cases hop

/-- Handing out a delivery extends the history by a fresh operation. -/
theorem History.take {head : DeliveryRecord} {q q' : SinkQueue} (h : History bus)
    (hbooks : Bookkeeping limits bus.state) (htaken : Taken id bus.state s head record q q') :
    History (bus.handOut id (.ok (some record)) s) := by
  obtain ⟨-, a, ha, hcarries, -⟩ := hbooks.take htaken
  have hop : record.operation = bus.state.nextOperation + 1 := by rw [htaken.stamped]
  have hevent : record.event = head.event := by rw [htaken.stamped]
  refine ⟨?_, ?_, ?_⟩
  · intro t ht
    rw [Bus.handOut_state, htaken.nextOperation]
    rcases List.mem_cons.mp ht with rfl | ht
    · exact hop.le
    · exact (h.bounded t ht).trans (Nat.le_succ _)
  · refine List.nodup_cons.mpr ⟨fun hin => ?_, h.distinct⟩
    obtain ⟨t, ht, heq⟩ := List.mem_map.mp hin
    have hbound := h.bounded t ht
    dsimp only at heq
    omega
  · intro e b id' operation hb hflying
    rw [Bus.handOut_state, htaken.active a ha, lookup_put] at hb
    by_cases hself : id' = id ∧ e = head.event.eventId
    · obtain ⟨rfl, rfl⟩ := hself
      simp only [if_true, Option.some.injEq] at hb
      subst hb
      simp only [lookup_insert, Option.some.injEq] at hflying
      refine ⟨record, ?_, hop.trans hflying, ?_, ?_⟩
      · simp [Bus.latest, Bus.handOut, hevent]
      · exact ⟨hevent.trans hcarries.1, by rw [htaken.stamped]; exact hcarries.2.1,
          by rw [htaken.stamped]; exact hcarries.2.2⟩
      · simp [Bus.handOut]
    · -- Any other operation in flight keeps its latest record.
      have hold : ∃ c, bus.state.active.lookup e = some c ∧
          c.operations.lookup id' = some operation ∧ c.event = b.event ∧ c.bytes = b.bytes ∧
          c.acceptedAt = b.acceptedAt := by
        split at hb
        · next he =>
          cases hb
          have hid : id' ≠ id := fun hid => hself ⟨hid, he⟩
          rw [lookup_insert_ne hid] at hflying
          exact ⟨a, he ▸ ha, hflying, rfl, rfl, rfl⟩
        · exact ⟨b, hb, hflying, rfl, rfl, rfl⟩
      obtain ⟨c, hc, hcop, hce, hcb, hca⟩ := hold
      obtain ⟨r, hlatest, hrop, ⟨h₁, h₂, h₃⟩, htask⟩ := h.flying e c id' operation hc hcop
      refine ⟨r, ?_, hrop, ⟨h₁.trans hce, h₂.trans hcb, h₃.trans hca⟩, ?_⟩
      · have hskip : ¬ (id = id' ∧ record.event.eventId = e) := by
          rintro ⟨rfl, he⟩
          exact hself ⟨rfl, by rw [← he, hevent]⟩
        simp only [Bus.latest, Bus.handOut, List.find?_cons, hskip, decide_false]
        exact hlatest
      · by_cases hid : id' = id
        · subst hid
          simp [Bus.handOut, htask]
        · simp [Bus.handOut, Function.update_of_ne hid, htask]

/-- History is kept by a step that hands out nothing and completes nothing. -/
theorem History.quiet (h : History bus)
    (hkept : s.nextOperation = bus.state.nextOperation ∧ FlyingKept bus.state s) :
    History { bus with state := s } :=
  h.keep rfl hkept.1 hkept.2 fun _ _ _ _ _ _ _ hrecord _ _ => hrecord

/-- Every step keeps the history of deliveries. -/
theorem History.step (hbooks : Bookkeeping limits bus.state) (h : History bus)
    (hstep : Step limits bus action bus') : History bus' := by
  have hkept := (step_effect hbooks h hstep).flyingKept
  cases hstep with
  | publish | restore | replaceRoutes | closeAdmission => exact h.quiet (by simpa using hkept)
  | @takeReady _ id _ _ ran =>
    rcases takeReady_spec ran with ⟨hr, hsame⟩ | ⟨head, record, q, q', rfl, htaken⟩
    · have hquiet := h.quiet ⟨hsame.nextOperation, .of_active hsame.active⟩
      unfold Bus.handOut
      split
      · next record => exact absurd rfl (hr record)
      · exact hquiet
    · exact h.take hbooks htaken
  | @complete _ id _ done _ _ s _ _ _ ran =>
    simp only [reduceCtorEq, exists_false, false_or] at hkept
    refine h.keep rfl hkept.1 hkept.2 ?_
    intro e a' id' operation ha' hop record hrecord hnumber hevent
    by_cases hid : id' = id
    · subst hid
      have hne : record ≠ done := by
        rintro rfl
        exact completed_not_flying hbooks ran (hevent ▸ ha') (hnumber ▸ hop)
      simpa using (List.mem_erase_of_ne hne).mpr hrecord
    · simpa [Function.update_of_ne hid] using hrecord

/-- A bus whose ledgers are exact and whose history explains what is in flight. -/
structure Consistent (limits : Limits) (bus : Bus) : Prop where
  books : Bookkeeping limits bus.state
  history : History bus

theorem Consistent.step (h : Consistent limits bus) (hstep : Step limits bus action bus') :
    Consistent limits bus' :=
  ⟨h.books.effect (step_effect h.books h.history hstep), h.history.step h.books hstep⟩

/-- Every bus a run reaches is consistent. -/
theorem consistent_of_reachable (h : (busSystem limits).Reachable bus) : Consistent limits bus := by
  refine h.invariant ?_ fun bus action bus' hbus hstep => hbus.step hstep
  rintro start ⟨⟨definitions, routes, revision, hnew⟩, htaken, htasks⟩
  obtain ⟨hbooks, hactive⟩ := newPaused_bookkeeping hnew
  refine ⟨hbooks, ⟨by simp [htaken], by simp [htaken], ?_⟩⟩
  simp [hactive]

end Netbaiot.EventBus
