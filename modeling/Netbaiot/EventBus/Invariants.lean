import Netbaiot.EventBus.Runs

/-!
# The invariants of the event bus

`EventBusInvariants` restates the bookkeeping in the terms of the queues themselves: each
remaining responsibility is at exactly one place, and every cached number is the sum it
stands for.  The number of deliveries a sink has in flight is bounded by its concurrency
because its worker takes no work while that many tasks run.
-/

namespace Netbaiot.EventBus

open Lib Op AList

variable {limits : Limits} {bus : Bus}

/-- How often an event waits in the ready queue of a sink. -/
def SinkQueue.readyCount (q : SinkQueue) (eventId : EventId) : ℕ :=
  q.ready.countP fun record => record.event.eventId = eventId

/-- How often an event waits in the delayed buckets of a sink. -/
def SinkQueue.delayedCount (q : SinkQueue) (eventId : EventId) : ℕ :=
  q.delayed.values.flatten.countP fun record => record.event.eventId = eventId

/-- How often a stored event is in flight at a sink: once or not at all. -/
def ActiveEvent.flyingCount (a : ActiveEvent) (id : SinkId) : ℕ :=
  if id ∈ a.operations then 1 else 0

/-- The state of the bus agrees with the events it stores. -/
structure EventBusInvariants (limits : Limits) (s : State) : Prop where
  /-- A remaining responsibility is ready, delayed or in flight, at one place and once. -/
  place : ∀ eventId a id, s.active.lookup eventId = some a → id ∈ a.remaining →
    ∃ sink, s.sinks.lookup id = some sink ∧
      sink.readyCount eventId + sink.delayedCount eventId + a.flyingCount id = 1
  /-- Nothing else is queued or in flight. -/
  owed : ∀ eventId id sink, s.sinks.lookup id = some sink →
    (∀ a, s.active.lookup eventId = some a → id ∉ a.remaining) →
    sink.readyCount eventId = 0 ∧ sink.delayedCount eventId = 0 ∧
      ∀ a, s.active.lookup eventId = some a → a.flyingCount id = 0
  remaining : ∀ eventId a, s.active.lookup eventId = some a →
    a.event.eventId = eventId ∧ a.remaining ≠ ∅ ∧ a.required ⊆ a.remaining
  pendingRequired : s.pendingRequired = s.active.total requiredCard
  count : s.active.size ≤ limits.globalEventMaxCount
  bytes : s.activeBytes = s.active.total eventBytes ∧ s.activeBytes ≤ limits.globalEventMaxBytes
  /-- A tenant has a backlog exactly when it has stored events. -/
  tenants : ∀ t backlog, s.tenants.lookup t = some backlog →
    backlog.count = s.active.total (tenantOne t) ∧ 0 < backlog.count ∧
      backlog.count ≤ limits.eventQueueMaxCountPerTenant ∧
      backlog.bytes = s.active.total (tenantBytes t) ∧
      backlog.bytes ≤ limits.eventQueueMaxBytesPerTenant
  idleTenants : ∀ t, s.tenants.lookup t = none → s.active.total (tenantOne t) = 0
  sinks : ∀ id sink, s.sinks.lookup id = some sink →
    sink.usedCount = s.active.total (owedOne id) ∧ sink.usedCount ≤ sink.definition.maxCount ∧
      sink.usedBytes = s.active.total (owedBytes id) ∧ sink.usedBytes ≤ sink.definition.maxBytes ∧
      sink.inflight = s.active.total (flyingOne id) ∧ sink.inflight ≤ sink.usedCount
  /-- The age histogram of a sink counts its responsibilities by acceptance time. -/
  ages : ∀ id sink, s.sinks.lookup id = some sink →
    (∀ t n, sink.pendingAges.lookup t = some n → n = s.active.total (agedOne id t) ∧ 0 < n) ∧
      ∀ t, sink.pendingAges.lookup t = none → s.active.total (agedOne id t) = 0

theorem SinkQueue.waiting_eq (q : SinkQueue) (eventId : EventId) :
    q.waiting eventId = q.readyCount eventId + q.delayedCount eventId := by
  simp [waiting, queued, readyCount, delayedCount]

section Books

variable {limits : Limits} {s : State} {id : SinkId} {sink : SinkState}

theorem Stored.ledgerOf (h : Stored s) (hsink : s.sinks.lookup id = some sink) :
    SinkExact s.active id sink.toSinkQueue :=
  h.ledger id _ (State.queueOf_eq_some.mpr ⟨sink, hsink, rfl⟩)

/-- Where a stored event stands with a registered sink. -/
theorem Stored.place (h : Stored s) {eventId : EventId} {a : ActiveEvent}
    (ha : s.active.lookup eventId = some a) (hsink : s.sinks.lookup id = some sink) :
    sink.readyCount eventId + sink.delayedCount eventId + a.flyingCount id =
      if id ∈ a.remaining then 1 else 0 := by
  have hlocated := (h.ledgerOf hsink).located eventId
  rw [ha, SinkQueue.waiting_eq] at hlocated
  exact hlocated

/-- Exact books are what the invariants say. -/
theorem Bookkeeping.invariants (h : Bookkeeping limits s) : EventBusInvariants limits s where
  place eventId a id ha hid := by
    obtain ⟨q, hq⟩ := Option.isSome_iff_exists.mp ((h.event eventId a ha).known id hid)
    obtain ⟨sink, hsink, rfl⟩ := State.queueOf_eq_some.mp hq
    exact ⟨sink, hsink, by rw [h.place ha hsink, if_pos hid]⟩
  owed eventId id sink hsink hnot := by
    cases ha : s.active.lookup eventId with
    | none =>
      have hlocated := (h.ledgerOf hsink).located eventId
      rw [ha, SinkQueue.waiting_eq] at hlocated
      simp only [weigh_none] at hlocated
      exact ⟨by omega, by omega, by simp⟩
    | some a =>
      have hplace := h.place ha hsink
      rw [if_neg (hnot a ha)] at hplace
      refine ⟨by omega, by omega, fun b hb => ?_⟩
      cases hb
      omega
  remaining eventId a ha :=
    have hevent := h.event eventId a ha
    ⟨hevent.identity, hevent.owed, hevent.required_subset⟩
  pendingRequired := h.pendingRequired
  count := h.count
  bytes := ⟨h.activeBytes, h.bytes⟩
  tenants t backlog hb := by
    have hcount := h.tenantCount t
    have hbytes := h.tenantBytes t
    rw [hb, Option.getD_some] at hcount hbytes
    exact ⟨hcount, h.tenantPositive t backlog hb, (h.tenant t backlog hb).1, hbytes,
      (h.tenant t backlog hb).2⟩
  idleTenants t ht := by
    rw [← h.tenantCount t, ht]
    rfl
  sinks id sink hsink := by
    have hledger := h.ledgerOf hsink
    have hroom := h.room id _ (State.queueOf_eq_some.mpr ⟨sink, hsink, rfl⟩)
    refine ⟨hledger.usedCount, hroom.1, hledger.usedBytes, hroom.2, hledger.inflight, ?_⟩
    rw [hledger.inflight, hledger.usedCount]
    refine total_le_total fun eventId a ha => ?_
    have hsubset := (h.event eventId a ha).flying_subset id
    simp only [flyingOne, owedOne]
    split <;> simp_all
  ages id sink hsink := by
    have hledger := h.ledgerOf hsink
    refine ⟨fun t n hn => ⟨?_, hledger.agedPositive t n hn⟩, fun t hn => ?_⟩
    · rw [← hledger.aged t, SinkQueue.aged, hn, Option.getD_some]
    · rw [← hledger.aged t, SinkQueue.aged, hn, Option.getD_none]

end Books

/-! ## Concurrency -/

/-- The loop of `run_sink` takes work only while fewer tasks run than the sink allows. -/
def WorkerGuard (bus : Bus) : Action → Prop
  | .takeReady _ id => ∀ sink, bus.state.sinks.lookup id = some sink →
      (bus.tasks id).length < sink.definition.concurrency
  | _ => True

/-- No step changes how a sink was registered. -/
theorem Effect.definition {action : Action} {s : State} (h : Effect limits bus action s)
    (id : SinkId) :
    (s.queueOf id).map SinkQueue.definition = (bus.state.queueOf id).map SinkQueue.definition := by
  cases h with
  | same hsame => exact hsame.definitions id
  | rerouted hs _ =>
    obtain ⟨routes, revision, rfl⟩ := hs
    rfl
  | published hpub => exact hpub.definitions id
  | restored hrestored _ => exact hrestored.definition id
  | taken htaken => exact definitions_of_queueOf htaken.before htaken.queueOf htaken.definition id
  | requeued hre _ _ => exact definitions_of_queueOf hre.before hre.queueOf rfl id
  | released hrel _ _ _ => exact definitions_of_queueOf hrel.before hrel.queueOf rfl id

/-- No sink runs more tasks than its concurrency. -/
def TasksBounded (bus : Bus) : Prop :=
  ∀ id q, bus.state.queueOf id = some q → (bus.tasks id).length ≤ q.definition.concurrency

theorem TasksBounded.step {bus' : Bus} {action : Action} (h : TasksBounded bus)
    (hconsistent : Consistent limits bus) (hguard : WorkerGuard bus action)
    (hstep : Step limits bus action bus') : TasksBounded bus' := by
  have hdefinition := (step_effect hconsistent.books hconsistent.history hstep).definition
  -- Only the worker's own step makes its task list longer.
  have hgrow : ∀ id, (bus'.tasks id).length ≤ (bus.tasks id).length ∨
      ∃ now, action = .takeReady now id ∧ (bus'.tasks id).length = (bus.tasks id).length + 1 := by
    intro id
    cases hstep with
    | publish | restore | replaceRoutes | closeAdmission => exact .inl le_rfl
    | @takeReady now id' _ r _ =>
      unfold Bus.handOut
      split
      · by_cases hid : id = id'
        · subst hid
          exact .inr ⟨now, rfl, by simp⟩
        · exact .inl (by simp [Function.update_of_ne hid])
      · exact .inl le_rfl
    | @complete _ id' _ _ _ _ _ _ _ _ =>
      by_cases hid : id = id'
      · subst hid
        exact .inl (by simpa using (List.erase_sublist).length_le)
      · exact .inl (by simp [Function.update_of_ne hid])
  intro id q' hq'
  obtain ⟨q, hq, hsame⟩ : ∃ q, bus.state.queueOf id = some q ∧ q.definition = q'.definition := by
    have := hdefinition id
    rw [hq', Option.map_some, eq_comm, Option.map_eq_some_iff] at this
    exact this
  rw [← hsame]
  rcases hgrow id with hle | ⟨now, rfl, hlength⟩
  · exact hle.trans (h id q hq)
  · obtain ⟨sink, hsink, rfl⟩ := State.queueOf_eq_some.mp hq
    have := hguard sink hsink
    omega

/-- The deliveries in flight at a sink are among its running tasks. -/
theorem Consistent.inflight_le (h : Consistent limits bus) {id : SinkId} {sink : SinkState}
    (hsink : bus.state.sinks.lookup id = some sink) : sink.inflight ≤ (bus.tasks id).length := by
  rw [(h.books.ledgerOf hsink).inflight,
    ← List.length_map (f := fun record : DeliveryRecord => record.event.eventId)]
  refine total_le_length fun eventId a ha hflying => ?_
  obtain ⟨operation, hop⟩ := mem_iff_lookup.mp hflying
  obtain ⟨record, -, -, hcarries, htask⟩ := h.history.flying eventId a id operation ha hop
  refine List.mem_map.mpr ⟨record, htask, ?_⟩
  rw [hcarries.1, (h.books.event eventId a ha).identity]

theorem tasksBounded_of_reachable (h : ((busSystem limits).restrict WorkerGuard).Reachable bus) :
    Consistent limits bus ∧ TasksBounded bus := by
  refine h.invariant (I := fun bus => Consistent limits bus ∧ TasksBounded bus) ?_ ?_
  · intro start hstart
    refine ⟨consistent_of_reachable (.start hstart), fun id q _ => ?_⟩
    rw [hstart.2.2]
    exact Nat.zero_le _
  · rintro bus action bus' ⟨hconsistent, hbounded⟩ ⟨hguard, hstep⟩
    exact ⟨hconsistent.step hstep, hbounded.step hconsistent hguard hstep⟩

/-- After every interleaving of publishes, restores, deliveries, completions and route
replacements the bus agrees with the events it stores; and while the workers keep to their
loop, no sink has more deliveries in flight than its concurrency. -/
theorem eventBus_invariants (limits : Limits) (bus : Bus) (h : (busSystem limits).Reachable bus) :
    EventBusInvariants limits bus.state ∧
      (((busSystem limits).restrict WorkerGuard).Reachable bus →
        ∀ id sink, bus.state.sinks.lookup id = some sink →
          sink.inflight ≤ sink.definition.concurrency) := by
  refine ⟨(consistent_of_reachable h).books.invariants, fun hguarded id sink hsink => ?_⟩
  obtain ⟨hconsistent, hbounded⟩ := tasksBounded_of_reachable hguarded
  exact (hconsistent.inflight_le hsink).trans
    (hbounded id _ (State.queueOf_eq_some.mpr ⟨sink, hsink, rfl⟩))

/-! ## A run of a bus with one sink -/

def sampleSinkId : SinkId := ⟨[115], by decide⟩

/-- A sink that must confirm what it is given. -/
def sampleSink : SinkDefinition where
  id := sampleSinkId
  mode := .confirmedRequired
  maxCount := 2
  maxBytes := 64
  concurrency := 1
  timeout := 1
  maxAttempts := 1
  maxAge := 1

def sampleEvent : DeviceEvent where
  eventId := ⟨1⟩
  device := ⟨.t, .p, .d⟩
  json := [123, 125]

/-- A bus that routes every event to the one sink. -/
def sampleStart : State where
  sinks := (∅ : Table SinkId SinkState).insert sampleSinkId (.idle sampleSink)
  routes := ⟨[sampleSinkId], ∅⟩
  routingRevision := 1
  active := ∅
  activeBytes := 0
  pendingRequired := 0
  accepting := true
  nextOperation := 0
  tenants := ∅

theorem sampleStart_new (limits : Limits)
    (hcompile : compileRoutes [⟨none, [sampleSinkId]⟩] sampleStart.sinks limits =
      .ok ⟨({sampleSinkId} : Finset SinkId).sort, ∅⟩) (hsinks : limits.maxSinks ≠ 0) :
    newPaused limits [sampleSink] [⟨none, [sampleSinkId]⟩] 1 = .ok sampleStart := by
  rw [Finset.sort_singleton] at hcompile
  simp only [newPaused, except_bind_eq_ok, check_eq_ok]
  exact ⟨(), by simpa using hsinks, _, rfl, _, hcompile, rfl⟩

/-- The bus after the event was published. -/
def samplePublished : Bus where
  state := (exec (publish .default 0 0 sampleEvent) sampleStart).2
  taken := []
  tasks := fun _ => []

/-- The bus after its worker took the event. -/
def sampleTaken : Bus :=
  samplePublished.handOut sampleSinkId (exec (takeReady 0 sampleSinkId) samplePublished.state).1
    (exec (takeReady 0 sampleSinkId) samplePublished.state).2

theorem samplePublished_reachable :
    ((busSystem .default).restrict WorkerGuard).Reachable samplePublished :=
  have hstart : ((busSystem .default).restrict WorkerGuard).start ⟨sampleStart, [], fun _ => []⟩ :=
    ⟨⟨_, _, _, sampleStart_new .default rfl (by decide)⟩, rfl, rfl⟩
  .step (a := .publish 0 0 sampleEvent) (.start hstart) ⟨trivial, .publish rfl⟩

theorem sampleTaken_reachable :
    ((busSystem .default).restrict WorkerGuard).Reachable sampleTaken := by
  refine .step (a := .takeReady 0 sampleSinkId) samplePublished_reachable ⟨?_, .takeReady rfl⟩
  intro sink hsink
  have hdefinition : (samplePublished.state.sinks.lookup sampleSinkId).map
      (fun sink => sink.definition.concurrency) = some 1 := by decide +kernel
  rw [hsink, Option.map_some, Option.some.injEq] at hdefinition
  rw [hdefinition]
  decide

theorem eventBus_invariants_sample :
    sampleTaken.state.active.size = 1 ∧ EventBusInvariants .default sampleTaken.state ∧
      ∀ id sink, sampleTaken.state.sinks.lookup id = some sink →
        sink.inflight ≤ sink.definition.concurrency :=
  ⟨by decide +kernel,
    (eventBus_invariants .default sampleTaken sampleTaken_reachable.of_restrict).1,
    (eventBus_invariants .default sampleTaken sampleTaken_reachable.of_restrict).2
      sampleTaken_reachable⟩

end Netbaiot.EventBus
