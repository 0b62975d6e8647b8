import Netbaiot.EventBus.Restart

/-!
# Atomic admission

`publish` admits an event to all its required targets or to nobody, and `restore` admits
a whole snapshot or nothing of it.  Both hold in every state, whether or not it can be
reached: they follow from the order of checks and writes alone, which `publish_cases` and
`restore_cases` record.
-/

namespace Netbaiot.EventBus

open Lib Op AList

variable {record : DeliveryRecord} {sink : SinkState} {s : State}

/-! ## Refused events -/

/-- A sink without its drop counter. -/
def SinkState.forgetDrops (sink : SinkState) : SinkState := { sink with drops := 0 }

/-- Nothing changed but the drop counters of sinks. -/
structure UpToDrops (s s' : State) : Prop where
  frame : s' = { s with sinks := s'.sinks }
  sinks : ∀ id, (s'.sinks.lookup id).map SinkState.forgetDrops =
    (s.sinks.lookup id).map SinkState.forgetDrops

theorem UpToDrops.refl (s : State) : UpToDrops s s := ⟨rfl, fun _ => rfl⟩

/-- A sink without room counts drops, however often it is offered a record. -/
theorem SinkState.offer_full (hfull : sink.available record.bytes = false) (n : ℕ) :
    ((SinkState.offer record)^[n] sink).forgetDrops = sink.forgetDrops := by
  induction n generalizing sink with
  | zero => rfl
  | succ n ih =>
    have hoffer : sink.offer record = sink.noteDrop := by simp [offer, hfull]
    rw [Function.iterate_succ_apply, hoffer, ih (by simpa using hfull)]
    rfl

/-- A fan-out that nobody took has only counted drops. -/
theorem FannedOut.upToDrops {targets : List SinkId} {s' : State} {taken : Fanout}
    (h : FannedOut record targets s s' ⟨∅, ∅⟩ taken)
    (hnobody : ∀ id ∈ targets, ∀ sink, s.sinks.lookup id = some sink →
      sink.available record.bytes = false) :
    UpToDrops s s' where
  frame := h.frame
  sinks id := by
    rw [h.sinks]
    cases hsink : s.sinks.lookup id with
    | none => rfl
    | some sink =>
      simp only [Option.map_some, Option.some.injEq]
      by_cases htarget : id ∈ targets
      · exact SinkState.offer_full (hnobody id htarget sink hsink) _
      · rw [List.count_eq_zero_of_not_mem htarget, Function.iterate_zero, id_eq]

/-! ## Accepted events -/

/-- A sink the routes select for an event and that must confirm it. -/
def State.RequiredTarget (s : State) (event : DeviceEvent) (id : SinkId) : Prop :=
  id ∈ s.routes.forTenant event.device.tenantId ∧
    ∃ sink, s.sinks.lookup id = some sink ∧ sink.definition.mode = .confirmedRequired

/-- An event was stored and queued at its required targets and at the best-effort ones with
room. -/
structure Enqueued (now : Int64) (instant : ℕ) (event : DeviceEvent) (s s' : State) : Prop where
  stored : ∃ a, s'.active = s.active.insert event.eventId a ∧ a.event = event ∧
    (∀ id, id ∈ a.required ↔ s.RequiredTarget event id) ∧
    ∀ id, id ∈ a.remaining ↔ id ∈ s.routes.forTenant event.device.tenantId ∧
      ∃ sink, s.sinks.lookup id = some sink ∧ sink.available event.json.length = true
  queued : ∀ id, s.RequiredTarget event id → ∃ sink', s'.sinks.lookup id = some sink' ∧
    event.delivery now instant ∈ sink'.ready
  sinks : ∀ id, s'.sinks.lookup id = (s.sinks.lookup id).map
    (SinkState.offer (event.delivery now instant))^[
      (s.routes.forTenant event.device.tenantId).count id]

theorem SinkState.mem_ready_offer (h : record ∈ sink.ready) (n : ℕ) :
    record ∈ ((SinkState.offer record)^[n] sink).ready := by
  induction n generalizing sink with
  | zero => exact h
  | succ n ih =>
    refine ih ?_
    unfold offer
    split
    · exact List.mem_append_left _ h
    · exact h

/-- A sink with room has the record in its ready queue after it was offered it. -/
theorem SinkState.mem_ready_of_available (hroom : sink.available record.bytes = true) {n : ℕ}
    (hn : n ≠ 0) : record ∈ ((SinkState.offer record)^[n] sink).ready := by
  obtain ⟨n, rfl⟩ := Nat.exists_eq_succ_of_ne_zero hn
  refine mem_ready_offer ?_ n
  rw [offer, if_pos hroom]
  exact List.mem_append_right _ List.mem_cons_self

/-- An admissible event that some target took waits at all its required targets. -/
theorem FannedOut.enqueued {limits : Limits} {now : Int64} {instant : ℕ} {event : DeviceEvent}
    {t : State} {taken : Fanout} (hpassed : Admissible limits s event)
    (h : FannedOut (event.delivery now instant) (s.routes.forTenant event.device.tenantId) s t
      ⟨∅, ∅⟩ taken)
    (required : ℕ) :
    Enqueued now instant event s (s.store event now required taken t) where
  stored := by
    refine ⟨event.stored now s.routingRevision taken, rfl, rfl, fun id => ?_, fun id => ?_⟩
    · show id ∈ taken.required ↔ _
      rw [h.required_iff hpassed, State.RequiredTarget]
      simp [State.queueOf]
    · show id ∈ taken.remaining ↔ _
      rw [h.remaining]
      simp only [Finset.notMem_empty, false_or, DeviceEvent.delivery]
  queued id hid := by
    obtain ⟨htarget, sink, hsink, hmode⟩ := hid
    obtain ⟨sink', hsink', hroom⟩ := hpassed.required id htarget
    obtain rfl := Option.some.inj (hsink.symm.trans hsink')
    refine ⟨_, (h.sinks id).trans (by rw [hsink, Option.map_some]), ?_⟩
    exact SinkState.mem_ready_of_available (hroom hmode)
      (Nat.pos_iff_ne_zero.mp (List.count_pos_iff.mpr htarget))
  sinks := h.sinks

/-! ## Restored snapshots -/

/-- All records of a snapshot were stored and queued at the sinks they name. -/
structure Readmitted (instant : ℕ) (records : List SpoolRecord) (s s' : State) : Prop where
  stored : ∀ record ∈ records, s'.active.lookup record.event.eventId = some record.stored
  kept : ∀ e, (∀ record ∈ records, record.event.eventId ≠ e) →
    s'.active.lookup e = s.active.lookup e
  queued : ∀ record ∈ records, ∀ id ∈ record.pendingSinks, ∃ sink',
    s'.sinks.lookup id = some sink' ∧ record.delivery instant id ∈ sink'.ready
  sinks : ∀ id, s'.sinks.lookup id =
    (s.sinks.lookup id).map fun sink => sink.onQueue (·.requeue instant id records)

theorem SinkQueue.requeue_ready (instant : ℕ) (id : SinkId) (records : List SpoolRecord)
    (q : SinkQueue) : (q.requeue instant id records).ready = q.ready ++
      (records.filter fun record => id ∈ record.pendingSinks).map fun record =>
        record.delivery instant id := by
  unfold requeue
  induction records.filter fun record => id ∈ record.pendingSinks generalizing q with
  | nil => simp
  | cons record rest ih =>
    rw [List.foldl_cons, ih]
    simp [enqueue]

/-- Committing a checked snapshot admits all of it. -/
theorem Projected.readmitted {limits : Limits} {instant : ℕ} {records : List SpoolRecord}
    {checked : Preflight} (h : Projected limits s records checked) :
    Readmitted instant records s (commitRestore instant records checked s) where
  stored := (restoreRecords_active instant h.distinct s).2
  kept := (restoreRecords_active instant h.distinct s).1
  queued record hrecord id hid := by
    obtain ⟨q, hq, -⟩ := (h.restorable record hrecord).required id hid
    obtain ⟨sink, hsink, -⟩ := State.queueOf_eq_some.mp hq
    refine ⟨_, (restoreRecords_sinks instant records s id).trans
      (by rw [hsink, Option.map_some]), ?_⟩
    show record.delivery instant id ∈ (sink.requeue instant id records).ready
    rw [SinkQueue.requeue_ready]
    refine List.mem_append_right _ (List.mem_map.mpr ⟨record, ?_, rfl⟩)
    exact List.mem_filter.mpr ⟨hrecord, by simpa using hid⟩
  sinks := restoreRecords_sinks instant records s

/-- Admission is all or nothing.  A publish queues the event at every required target or leaves
everything but drop counters as it was, and an admissible event is refused only if no target at
all has room; a restore admits every record to all its sinks or changes nothing. -/
theorem admission_atomic (limits : Limits) (s : State) :
    (∀ now instant event,
      (∃ accepted s', exec (publish limits now instant event) s = (.ok accepted, s') ∧
        Enqueued now instant event s s') ∨
      ∃ e s', exec (publish limits now instant event) s = (.error e, s') ∧ UpToDrops s s' ∧
        (Admissible limits s event → ∀ id ∈ s.routes.forTenant event.device.tenantId, ∀ sink,
          s.sinks.lookup id = some sink → sink.available event.json.length = false)) ∧
    ∀ instant records,
      (∃ s', exec (restore limits instant records) s = (.ok records.length, s') ∧
        Readmitted instant records s s') ∨
      ∃ e, exec (restore limits instant records) s = (.error e, s) := by
  constructor
  · intro now instant event
    obtain ⟨r, s', hexec⟩ : ∃ r s', exec (publish limits now instant event) s = (r, s') :=
      ⟨_, _, rfl⟩
    rcases publish_cases hexec with ⟨⟨e, rfl⟩, rfl, hnot⟩ | ⟨hpassed, taken, t, hfan, hend⟩
    · exact .inr ⟨e, s', hexec, .refl s', fun hpassed => absurd hpassed hnot⟩
    rcases hend with ⟨hempty, ⟨e, rfl⟩, rfl⟩ | ⟨-, ⟨accepted, rfl⟩, rfl⟩
    · -- Nobody took the event: whoever had room would be among the remaining sinks.
      have hnobody : ∀ id ∈ s.routes.forTenant event.device.tenantId, ∀ sink,
          s.sinks.lookup id = some sink → sink.available event.json.length = false := by
        intro id hid sink hsink
        by_contra hroom
        have hmem := (hfan.remaining id).mpr
          (.inr ⟨hid, sink, hsink, by simpa [DeviceEvent.delivery] using hroom⟩)
        rw [hempty] at hmem
        exact Finset.notMem_empty _ hmem
      exact .inr ⟨e, s', hexec, hfan.upToDrops hnobody, fun _ => hnobody⟩
    · exact .inl ⟨accepted, _, hexec, hfan.enqueued hpassed _⟩
  · intro instant records
    obtain ⟨r, s', hexec⟩ : ∃ r s', exec (restore limits instant records) s = (r, s') := ⟨_, _, rfl⟩
    rcases restore_cases hexec with ⟨⟨e, rfl⟩, rfl⟩ | ⟨checked, rfl, rfl, hprojected, -⟩
    · exact .inr ⟨e, hexec⟩
    · exact .inl ⟨_, hexec, hprojected.readmitted⟩

end Netbaiot.EventBus
