import Netbaiot.EventBus.Invariants

/-!
# Required work is never lost

Once an event is accepted, each of its required sinks stays responsible for it until a
completion reports success for the attempt that is in flight for exactly this event and
sink.  Failures, late or repeated completions, capacity and route changes do not end it.
-/

namespace Netbaiot.EventBus

open Lib Op AList

/-- The bus stores the event and owes it to the sink, which must confirm it. -/
def Responsible (s : State) (event : DeviceEvent) (id : SinkId) : Prop :=
  ∃ a, s.active.lookup event.eventId = some a ∧ a.event = event ∧ id ∈ a.required ∧
    id ∈ a.remaining

/-- The sinks that must confirm an accepted event: for a published one the targets of its
tenant that require confirmation, for a restored one its pending sinks. -/
def RequiredBy (s : State) : Action → DeviceEvent → SinkId → Prop
  | .publish _ _ published, event, id =>
      published = event ∧ id ∈ s.routes.forTenant event.device.tenantId ∧
        ∃ sink, s.sinks.lookup id = some sink ∧ sink.definition.mode = .confirmedRequired
  | .restore _ records, event, id =>
      ∃ record ∈ records, record.event = event ∧ id ∈ record.pendingSinks
  | _, _, _ => False

/-- The operation was accepted: it is a publish or a restore that returned `Ok`. -/
def Accepted (limits : Limits) (s : State) : Action → Prop
  | .publish now instant event => ∃ accepted, (exec (publish limits now instant event) s).1 =
      .ok accepted
  | .restore instant records => ∃ count, (exec (restore limits instant records) s).1 = .ok count
  | _ => False

/-- A completion that reports success for the attempt of this event now in flight at this
sink: its record is the one the worker was given last and its operation is still current. -/
def SuccessOf (event : DeviceEvent) (id : SinkId) (bus : Bus) (action : Action) : Prop :=
  ∃ clock record a, action = .complete clock id record (.ok ()) ∧
    bus.latest id event.eventId = some record ∧
    bus.state.active.lookup event.eventId = some a ∧
    a.operations.lookup id = some record.operation

section Keep

variable {limits : Limits} {bus bus' : Bus} {action : Action} {event : DeviceEvent} {id : SinkId}

/-- A changed entry of the stored events leaves every other responsibility alone. -/
theorem Responsible.of_put {s s' : State} {e : EventId} {o : Option ActiveEvent}
    (h : Responsible s event id) (hactive : s'.active = s.active.put e o)
    (hsame : e = event.eventId → Responsible s' event id) : Responsible s' event id := by
  by_cases he : e = event.eventId
  · exact hsame he
  · obtain ⟨a, ha, hrest⟩ := h
    refine ⟨a, ?_, hrest⟩
    rw [hactive, lookup_put, if_neg (Ne.symm he), ha]

/-- Only a success of the attempt in flight ends a responsibility. -/
theorem Responsible.step (h : Responsible bus.state event id) (hbus : Consistent limits bus)
    (hnot : ¬ SuccessOf event id bus action) (hstep : Step limits bus action bus') :
    Responsible bus'.state event id := by
  have heffect := step_effect hbus.books hbus.history hstep
  obtain ⟨a, ha, hevent, hrequired, howed⟩ := h
  have hkeep : Responsible bus.state event id := ⟨a, ha, hevent, hrequired, howed⟩
  generalize bus'.state = s at heffect ⊢
  cases heffect with
  | same hsame => exact ⟨a, hsame.active ▸ ha, hevent, hrequired, howed⟩
  | rerouted hs _ =>
    obtain ⟨routes, revision, rfl⟩ := hs
    exact hkeep
  | @published _ _ _ _ b hpub =>
    have hne : event.eventId ≠ b.event.eventId := by
      intro he
      have hfresh := hpub.fresh
      rw [← he, ha] at hfresh
      cases hfresh
    refine ⟨a, ?_, hevent, hrequired, howed⟩
    rw [hpub.active, lookup_insert_ne hne, ha]
  | restored hrestored _ =>
    refine ⟨a, ?_, hevent, hrequired, howed⟩
    rw [hrestored.kept event.eventId, ha]
    intro record hrecord he
    have hfresh := hrestored.fresh record hrecord
    rw [he, ha] at hfresh
    cases hfresh
  | @taken _ id' _ head _ _ _ htaken =>
    obtain ⟨-, b, hb, -⟩ := hbus.books.take htaken
    refine hkeep.of_put (htaken.active b hb) fun he => ?_
    rw [he, ha, Option.some.injEq] at hb
    refine ⟨{ a with operations := a.operations.insert id' (bus.state.nextOperation + 1) }, ?_,
      hevent, hrequired, howed⟩
    rw [htaken.active a (he ▸ ha), lookup_put, if_pos he.symm]
  | @requeued _ _ done _ _ _ b b' _ hre _ _ =>
    refine hkeep.of_put hre.active fun he => ?_
    have hb := hre.stored
    rw [he, ha, Option.some.injEq] at hb
    subst hb
    refine ⟨b', ?_, hre.event.trans hevent, hre.required ▸ hrequired, hre.remaining ▸ howed⟩
    rw [hre.active, lookup_put, if_pos he.symm]
  | @released clock id' done result _ b b' q hrel hlatest _ hresult =>
    refine hkeep.of_put hrel.active fun he => ?_
    have hb := hrel.stored
    rw [he, ha, Option.some.injEq] at hb
    subst hb
    by_cases hid : id = id'
    · -- The sink must confirm, so it was settled by a success of its current attempt.
      subst hid
      have hmode := (hbus.books.event _ a ha).confirmed id hrequired q hrel.before
      rcases hresult with rfl | hresult
      · exact absurd ⟨clock, done, a, rfl, he ▸ hlatest, ha, hrel.operation⟩ hnot
      · exact absurd hmode hresult
    · have hrequired' : id ∈ b'.required := by
        rw [hrel.required]
        exact Finset.mem_erase.mpr ⟨hid, hrequired⟩
      have howed' : id ∈ b'.remaining := by
        rw [hrel.remaining]
        exact Finset.mem_erase.mpr ⟨hid, howed⟩
      refine ⟨b', ?_, hrel.event.trans hevent, hrequired', howed'⟩
      rw [hrel.active, lookup_put, if_pos he.symm, if_neg (Finset.ne_empty_of_mem howed')]

/-- An accepted event is owed to each of its required sinks. -/
theorem Responsible.accepted (hbus : Consistent limits bus)
    (haccepted : Accepted limits bus.state action)
    (hrequired : RequiredBy bus.state action event id)
    (hstep : Step limits bus action bus') : Responsible bus'.state event id := by
  cases hstep with
  | @publish now instant published _ _ ran =>
    obtain ⟨accepted, haccepted⟩ := haccepted
    obtain ⟨rfl, htarget, sink, hsink, hmode⟩ := hrequired
    rcases publish_spec hbus.books.routes ran with ⟨⟨e, rfl⟩, -⟩ | ⟨-, a, hpub⟩
    · rw [ran] at haccepted
      cases haccepted
    · have hrequired : id ∈ a.required := (hpub.required id).mpr
        ⟨htarget, _, State.queueOf_eq_some.mpr ⟨sink, hsink, rfl⟩, hmode⟩
      refine ⟨a, ?_, hpub.published, hrequired, hpub.required_subset hrequired⟩
      rw [hpub.active, hpub.published, lookup_insert]
  | @restore instant records _ _ ran =>
    obtain ⟨count, haccepted⟩ := haccepted
    obtain ⟨record, hrecord, rfl, hpending⟩ := hrequired
    rcases restore_spec hbus.books ran with ⟨⟨e, rfl⟩, -⟩ | ⟨-, -, hrestored⟩
    · rw [ran] at haccepted
      cases haccepted
    · exact ⟨record.stored, hrestored.stored record hrecord, rfl,
        List.mem_toFinset.mpr hpending, List.mem_toFinset.mpr hpending⟩
  | takeReady | complete | replaceRoutes | closeAdmission => exact haccepted.elim

/-- A snapshot for the restart spool lists every responsibility. -/
theorem Responsible.mem_spoolSnapshot {s : State} (h : Responsible s event id) :
    ∃ record ∈ spoolSnapshot s, record.event = event ∧ id ∈ record.pendingSinks := by
  obtain ⟨a, ha, rfl, hrequired, -⟩ := h
  refine ⟨⟨a.event, a.required.sort, a.routingRevision, a.acceptedAt, a.attempts⟩, ?_, rfl,
    (Finset.mem_sort _).mpr hrequired⟩
  rw [spoolSnapshot, List.mem_insertionSort]
  refine List.mem_map.mpr ⟨a, List.mem_filter.mpr ⟨mem_values_iff.mpr ⟨_, ha⟩, ?_⟩, rfl⟩
  simpa using Finset.ne_empty_of_mem hrequired

end Keep

/-- Accepted required work is never lost: in every run, from the publish or restore that
accepted an event, the responsibility of each of its required sinks stays in the bus and in
every snapshot for the restart spool, as long as no completion reports success for the
attempt of this event in flight at this sink. -/
theorem required_work_kept (limits : Limits) (bus accepted later : Bus) (action : Action)
    (event : DeviceEvent) (id : SinkId) (hreachable : (busSystem limits).Reachable bus)
    (hstep : Step limits bus action accepted) (haccepted : Accepted limits bus.state action)
    (hrequired : RequiredBy bus.state action event id)
    (hpath : (busSystem limits).Path (fun bus action => ¬ SuccessOf event id bus action)
      accepted later) :
    Responsible later.state event id ∧
      ∃ record ∈ spoolSnapshot later.state, record.event = event ∧ id ∈ record.pendingSinks := by
  have hstart := Responsible.accepted (consistent_of_reachable hreachable) haccepted hrequired hstep
  have hlater : Responsible later.state event id := by
    refine hpath.invariant (I := fun bus => Responsible bus.state event id)
      (hreachable.step hstep) (fun bus action bus' hbus hkept hnot hnext => ?_) hstart
    exact hkept.step (consistent_of_reachable hbus) hnot hnext
  exact ⟨hlater, hlater.mem_spoolSnapshot⟩

/-- The delivery the worker of the sample run was given. -/
def sampleRecord : DeliveryRecord where
  event := sampleEvent
  bytes := 2
  acceptedAt := 0
  attempt := 0
  nextAttempt := 0
  operation := 1

/-- A failure that is not worth retrying. -/
def sampleFailure : SinkFailure := ⟨.permanent, .http4xx, none⟩

/-- The sample run after the only attempt failed for good. -/
def sampleFailed : Bus where
  state := (exec (completeDetailed .default ⟨0, 0, 0⟩ sampleSinkId sampleRecord
    (.error sampleFailure) sampleSink) sampleTaken.state).2
  taken := sampleTaken.taken
  tasks := Function.update sampleTaken.tasks sampleSinkId
    ((sampleTaken.tasks sampleSinkId).erase sampleRecord)

theorem required_work_kept_sample : Responsible sampleFailed.state sampleEvent sampleSinkId ∧
    ∃ record ∈ spoolSnapshot sampleFailed.state, record.event = sampleEvent ∧
      sampleSinkId ∈ record.pendingSinks := by
  have hstart : (busSystem .default).Reachable ⟨sampleStart, [], fun _ => []⟩ :=
    .start ⟨⟨_, _, _, sampleStart_new .default rfl (by decide)⟩, rfl, rfl⟩
  obtain ⟨sink, hsink, hdefinition⟩ : ∃ sink, sampleTaken.state.sinks.lookup sampleSinkId =
      some sink ∧ sink.definition = sampleSink := by
    decide +kernel
  refine required_work_kept .default _ samplePublished sampleFailed (.publish 0 0 sampleEvent)
    sampleEvent sampleSinkId hstart (.publish rfl) ⟨_, rfl⟩
    ⟨rfl, by decide +kernel, _, rfl, rfl⟩ ?_
  refine .step (a := .complete ⟨0, 0, 0⟩ sampleSinkId sampleRecord (.error sampleFailure))
    (.step (a := .takeReady 0 sampleSinkId) .refl ?_ (.takeReady rfl)) ?_
    (.complete (by decide +kernel : (sampleSinkId, sampleRecord) ∈ sampleTaken.taken) hsink
      (by rw [hdefinition]; rfl))
  · rintro ⟨_, _, _, h, -⟩
    cases h
  · rintro ⟨_, _, _, h, -⟩
    cases h

end Netbaiot.EventBus
