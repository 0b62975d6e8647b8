import Netbaiot.EventBus.Routes
import Netbaiot.EventBus.SinkLedger

/-!
# What the bus operations do

One specification per operation.  They speak about stored events and, through
`queueOf`, about the queues of each sink; health counters never appear, so the
invariants of the bus are insensitive to them.
-/

namespace Netbaiot.EventBus

open Lib Op AList State

variable {s s' : State} {id : SinkId} {sinks : Table SinkId SinkState} {limits : Limits}
  {routes : List RouteDefinition} {targets : List SinkId} {sink : SinkState} {now : Int64}
  {instant : ℕ} {event : DeviceEvent} {result : Except SinkFailure Unit}

/-- The queues of a registered sink. -/
def State.queueOf (s : State) (id : SinkId) : Option SinkQueue :=
  (s.sinks.lookup id).map SinkState.toSinkQueue

theorem State.queueOf_eq_some {q : SinkQueue} :
    s.queueOf id = some q ↔ ∃ sink, s.sinks.lookup id = some sink ∧ sink.toSinkQueue = q := by
  simp [queueOf]

theorem State.queueOf_setSink (s : State) (id id' : SinkId) (sink : SinkState) :
    (s.setSink id sink).queueOf id' =
      if id' = id then some sink.toSinkQueue else s.queueOf id' := by
  simp only [queueOf, setSink, lookup_insert_eq]
  split <;> rfl

/-- The same definition and usage with the queued records moved around. -/
structure SinkQueue.Shuffled (q q' : SinkQueue) : Prop where
  queued : q'.queued.Perm q.queued
  definition : q'.definition = q.definition
  usedCount : q'.usedCount = q.usedCount
  usedBytes : q'.usedBytes = q.usedBytes
  inflight : q'.inflight = q.inflight
  pendingAges : q'.pendingAges = q.pendingAges

theorem SinkQueue.Shuffled.refl (q : SinkQueue) : q.Shuffled q := ⟨.refl _, rfl, rfl, rfl, rfl, rfl⟩

/-- The same stored events and usage; records may only have moved within the queues of a sink. -/
structure SameBacklog (s s' : State) : Prop where
  active : s'.active = s.active
  activeBytes : s'.activeBytes = s.activeBytes
  pendingRequired : s'.pendingRequired = s.pendingRequired
  tenants : s'.tenants = s.tenants
  nextOperation : s'.nextOperation = s.nextOperation
  routes : s'.routes = s.routes
  queueOf : ∀ id, Option.Rel SinkQueue.Shuffled (s.queueOf id) (s'.queueOf id)

theorem rel_shuffled_refl (o : Option SinkQueue) : Option.Rel SinkQueue.Shuffled o o := by
  cases o with
  | none => exact .none
  | some q => exact .some (.refl q)

theorem SameBacklog.refl (s : State) : SameBacklog s s :=
  ⟨rfl, rfl, rfl, rfl, rfl, rfl, fun _ => rel_shuffled_refl _⟩

/-! ## Routes -/

/-- Every compiled fan-out names registered sinks, each once and not too many. -/
def RoutesOk (limits : Limits) (s : State) : Prop :=
  ∀ tenant, (s.routes.forTenant tenant).Nodup ∧
    (∀ id ∈ s.routes.forTenant tenant, (s.queueOf id).isSome) ∧
    (s.routes.forTenant tenant).length ≤ limits.maxFanoutPerEvent

/-- A freshly compiled route table is sound for the sinks it was compiled against. -/
theorem RoutesOk.compiled (h : compileRoutes routes s.sinks limits = .ok s.routes) :
    RoutesOk limits s := by
  intro tenant
  obtain ⟨hsorted, _, _, hwell, _, hsmall⟩ := compileRoutes_ok h
  rw [hsorted, Finset.length_sort]
  refine ⟨Finset.sort_nodup _ _, fun id hid => ?_, (not_fanoutExceeded.mp (hsmall tenant)).1⟩
  obtain ⟨route, hroute, hid⟩ : ∃ route ∈ routes, id ∈ route.sinks := by
    simp only [Finset.mem_sort, Finset.mem_union, mem_namedBy] at hid
    grind
  have hknown := (hwell route hroute).2.2 id hid
  simpa [queueOf, lookup_isSome] using hknown

/-- Routes stay sound while no sink is removed. -/
theorem RoutesOk.of_isSome (h : RoutesOk limits s) (hroutes : s'.routes = s.routes)
    (hsome : ∀ id, (s.queueOf id).isSome → (s'.queueOf id).isSome) : RoutesOk limits s' := by
  intro tenant
  obtain ⟨hnodup, hknown, hsmall⟩ := h tenant
  rw [hroutes]
  exact ⟨hnodup, fun id hid => hsome id (hknown id hid), hsmall⟩

/-- A newer route table is taken over if it compiles. -/
theorem replaceRoutes_cases {revision : UInt64} {r : Except Error Unit}
    (h : exec (replaceRoutes limits revision routes) s = (r, s')) :
    s' = s ∨ ∃ compiled, compileRoutes routes s.sinks limits = .ok compiled ∧
      s' = { s with routes := compiled, routingRevision := revision } := by
  simp only [replaceRoutes, exec_get_bind, exec_ensure_bind, exec_fromExcept_bind] at h
  refine guard_cases h (fun _ he => ?_) fun _ h => ?_
  · cases he
    exact .inl rfl
  · cases hcompile : compileRoutes routes s.sinks limits with
    | error e =>
      rw [hcompile] at h
      cases h
      exact .inl rfl
    | ok compiled =>
      rw [hcompile] at h
      cases h
      exact .inr ⟨compiled, rfl, rfl⟩

/-! ## Publishing -/

/-- What one target of a fan-out becomes. -/
def SinkState.offer (record : DeliveryRecord) (sink : SinkState) : SinkState :=
  if sink.available record.bytes then sink.onQueue (·.enqueue record) else sink.noteDrop

/-- A capacity check counts the required targets if all of them have room; otherwise it found an
unregistered target or a required one without room. -/
theorem checkRequired_cases (sinks : Table SinkId SinkState) (bytes : ℕ) (targets : List SinkId) :
    (checkRequired sinks bytes targets = .ok (targets.countP fun id =>
        (sinks.lookup id).any fun sink => sink.definition.mode = .confirmedRequired) ∧
      ∀ id ∈ targets, ∃ sink, sinks.lookup id = some sink ∧
        (sink.definition.mode = .confirmedRequired → sink.available bytes = true)) ∨
    (∃ e, checkRequired sinks bytes targets = .error e) ∧
      ∃ id ∈ targets, ∀ sink, sinks.lookup id = some sink →
        sink.definition.mode = .confirmedRequired ∧ sink.available bytes = false := by
  fun_induction checkRequired sinks bytes targets with
  | case1 => exact .inl ⟨rfl, by simp⟩
  | case2 id rest hsink => exact .inr ⟨⟨_, rfl⟩, id, List.mem_cons_self, by simp [hsink]⟩
  | case3 id rest sink hsink hmode hroom ih =>
    rcases ih with ⟨hrest, hall⟩ | ⟨⟨e, hrest⟩, id', hid', hfull⟩
    · rw [hrest]
      refine .inl ⟨?_, List.forall_mem_cons.mpr ⟨⟨sink, hsink, fun _ => hroom⟩, hall⟩⟩
      simp [hsink, hmode]
    · rw [hrest]
      exact .inr ⟨⟨e, rfl⟩, id', List.mem_cons_of_mem _ hid', hfull⟩
  | case4 id rest sink hsink hmode hfull =>
    exact .inr ⟨⟨_, rfl⟩, id, List.mem_cons_self, by simp_all⟩
  | case5 id rest sink hsink hmode ih =>
    rcases ih with ⟨hrest, hall⟩ | ⟨herror, id', hid', hfull⟩
    · refine .inl ⟨?_, List.forall_mem_cons.mpr ⟨⟨sink, hsink, (absurd · hmode)⟩, hall⟩⟩
      simp [hsink, hmode, hrest]
    · exact .inr ⟨herror, id', List.mem_cons_of_mem _ hid', hfull⟩

/-- The sinks that took an event after one more target was offered it. -/
def Fanout.offer (taken : Fanout) (record : DeliveryRecord) (id : SinkId) (sink : SinkState) :
    Fanout :=
  if sink.available record.bytes then
    { remaining := insert id taken.remaining
      required := if sink.definition.mode = .confirmedRequired then insert id taken.required
        else taken.required }
  else taken

theorem Fanout.mem_offer_remaining (taken : Fanout) (record : DeliveryRecord) (id id' : SinkId)
    (sink : SinkState) : id' ∈ (taken.offer record id sink).remaining ↔
      id' ∈ taken.remaining ∨ id' = id ∧ sink.available record.bytes = true := by
  unfold offer
  split
  · next hroom => simp [hroom, or_comm]
  · next hroom => simp [hroom]

theorem Fanout.mem_offer_required (taken : Fanout) (record : DeliveryRecord) (id id' : SinkId)
    (sink : SinkState) : id' ∈ (taken.offer record id sink).required ↔
      id' ∈ taken.required ∨ id' = id ∧ sink.available record.bytes = true ∧
        sink.definition.mode = .confirmedRequired := by
  unfold offer
  split
  · next hroom =>
    split
    · next hmode => simp [hroom, hmode, or_comm]
    · next hmode => simp [hmode]
  · next hroom => simp [hroom]

theorem fanOut_cons (record : DeliveryRecord) {rest : List SinkId} (taken : Fanout)
    (hsink : s.sinks.lookup id = some sink) :
    exec (fanOut record (id :: rest) taken) s =
      exec (fanOut record rest (taken.offer record id sink))
        (s.setSink id (sink.offer record)) := by
  unfold Fanout.offer SinkState.offer
  simp only [fanOut, exec_get_bind, exec_someOr_bind, hsink]
  split <;> simp only [exec_modify_bind]

/-- What offering a record to a list of targets did. -/
structure FannedOut (record : DeliveryRecord) (targets : List SinkId) (s s' : State)
    (taken taken' : Fanout) : Prop where
  frame : s' = { s with sinks := s'.sinks }
  sinks : ∀ id, s'.sinks.lookup id =
    (s.sinks.lookup id).map (SinkState.offer record)^[targets.count id]
  remaining : ∀ id, id ∈ taken'.remaining ↔ id ∈ taken.remaining ∨
    id ∈ targets ∧ ∃ sink, s.sinks.lookup id = some sink ∧ sink.available record.bytes = true
  required : ∀ id, id ∈ taken'.required ↔ id ∈ taken.required ∨
    id ∈ targets ∧ ∃ sink, s.sinks.lookup id = some sink ∧
      sink.available record.bytes = true ∧ sink.definition.mode = .confirmedRequired

@[simp] theorem SinkState.offer_definition (record : DeliveryRecord) (sink : SinkState) :
    (sink.offer record).definition = sink.definition := by
  unfold offer
  split <;> rfl

/-- A sink that turned a record down, or took it, has no more room than before. -/
theorem SinkState.available_of_offer {record : DeliveryRecord}
    (h : (sink.offer record).available record.bytes = true) :
    sink.available record.bytes = true := by
  unfold offer at h
  split at h
  · next hroom => exact hroom
  · simpa using h

/-- Offering a record to registered targets succeeds and touches nothing but their sinks. -/
theorem fanOut_spec (record : DeliveryRecord) (s : State) (taken : Fanout)
    (hsinks : ∀ id ∈ targets, id ∈ s.sinks) :
    ∃ taken' s', exec (fanOut record targets taken) s = (.ok taken', s') ∧
      FannedOut record targets s s' taken taken' := by
  induction targets generalizing s taken with
  | nil => exact ⟨taken, s, rfl, rfl, by simp, by simp, by simp⟩
  | cons id rest ih =>
    obtain ⟨sink, hsink⟩ := mem_iff_lookup.mp (hsinks id List.mem_cons_self)
    obtain ⟨taken', s', hexec, hrest⟩ :=
      ih (s.setSink id (sink.offer record)) (taken.offer record id sink) fun id' hid' => by
        simp [setSink, hsinks id' (List.mem_cons_of_mem _ hid')]
    refine ⟨taken', s', (fanOut_cons record taken hsink).trans hexec, ?_, ?_, ?_, ?_⟩
    · rw [hrest.frame]
      rfl
    · intro id'
      rw [hrest.sinks]
      by_cases hid : id' = id
      · subst hid
        simp [setSink, hsink]
      · simp [setSink, hid, List.count_cons_of_ne (Ne.symm hid)]
    · intro id'
      rw [hrest.remaining, Fanout.mem_offer_remaining]
      by_cases hid : id' = id
      · subst hid
        have hback := @SinkState.available_of_offer sink record
        simp only [setSink, lookup_insert, Option.some.injEq, exists_eq_left', hsink,
          List.mem_cons, true_or, true_and]
        tauto
      · simp [setSink, hid]
    · intro id'
      rw [hrest.required, Fanout.mem_offer_required]
      by_cases hid : id' = id
      · subst hid
        have hback := @SinkState.available_of_offer sink record
        simp only [setSink, lookup_insert, Option.some.injEq, exists_eq_left', hsink,
          List.mem_cons, true_or, true_and, SinkState.offer_definition]
        tauto
      · simp [setSink, hid]

/-- The delivery record a published event puts on each sink that takes it. -/
def DeviceEvent.delivery (event : DeviceEvent) (now : Int64) (instant : ℕ) : DeliveryRecord where
  event := event
  bytes := event.json.length
  acceptedAt := now
  attempt := 0
  nextAttempt := instant
  operation := 0

/-- An event was stored and waits, with a fresh record, at every sink that took it. -/
structure Admitted (record : SinkId → DeliveryRecord) (s s' : State) (a : ActiveEvent) :
    Prop where
  fresh : s.active.lookup a.event.eventId = none
  active : s'.active = s.active.insert a.event.eventId a
  size : a.bytes = a.event.json.length
  carries : ∀ id, (record id).Carries a
  idle : a.operations = ∅
  owed : a.remaining ≠ ∅
  required_subset : a.required ⊆ a.remaining
  known : ∀ id ∈ a.remaining, (s.queueOf id).isSome
  confirmed : ∀ id ∈ a.required, ∀ q, s.queueOf id = some q →
    q.definition.mode = .confirmedRequired
  queueOf : ∀ id, s'.queueOf id = (s.queueOf id).map fun q =>
    if id ∈ a.remaining then q.enqueue (record id) else q

/-- What a successful publish did. -/
structure Published (limits : Limits) (now : Int64) (instant : ℕ) (event : DeviceEvent)
    (s s' : State)
    (a : ActiveEvent) : Prop extends Admitted (fun _ => event.delivery now instant) s s' a where
  published : a.event = event
  untried : a.attempts = ∅
  targets : ∀ id ∈ a.remaining, id ∈ s.routes.forTenant event.device.tenantId
  required : ∀ id, id ∈ a.required ↔ id ∈ s.routes.forTenant event.device.tenantId ∧
    ∃ q, s.queueOf id = some q ∧ q.definition.mode = .confirmedRequired
  room : ∀ id ∈ a.remaining, ∀ q, s.queueOf id = some q → q.available a.bytes = true
  pendingRequired : s'.pendingRequired = s.pendingRequired + a.required.card
  activeBytes : s'.activeBytes = s.activeBytes + a.bytes
  bytesRoom : s.activeBytes + a.bytes ≤ limits.globalEventMaxBytes
  countRoom : s.active.size < limits.globalEventMaxCount
  tenants : s'.tenants = s.tenants.insert event.device.tenantId
    { count := ((s.tenants.lookup event.device.tenantId).getD {}).count + 1
      bytes := ((s.tenants.lookup event.device.tenantId).getD {}).bytes + a.bytes }
  tenantRoom :
    ((s.tenants.lookup event.device.tenantId).getD {}).count + 1 ≤
      limits.eventQueueMaxCountPerTenant ∧
    ((s.tenants.lookup event.device.tenantId).getD {}).bytes + a.bytes ≤
      limits.eventQueueMaxBytesPerTenant
  rest : s'.nextOperation = s.nextOperation ∧ s'.routes = s.routes

/-- The queues after a fan-out, told apart by the sinks that took the record. -/
theorem FannedOut.queueOf {record : DeliveryRecord} {taken : Fanout}
    (h : FannedOut record targets s s' ⟨∅, ∅⟩ taken) (hnodup : targets.Nodup) (id : SinkId) :
    s'.queueOf id = (s.queueOf id).map fun q =>
      if id ∈ taken.remaining then q.enqueue record else q := by
  have hremaining := h.remaining id
  rw [State.queueOf, h.sinks, State.queueOf]
  cases hsink : s.sinks.lookup id with
  | none => rfl
  | some sink =>
    simp only [Option.map_some, Option.some.injEq, hremaining, hsink, exists_eq_left']
    by_cases htarget : id ∈ targets
    · rw [List.count_eq_one_of_mem hnodup htarget, Function.iterate_one, SinkState.offer]
      by_cases hroom : sink.available record.bytes = true <;> simp [htarget, hroom]
    · simp [htarget, List.count_eq_zero_of_not_mem htarget]

/-- The size of a set that collects the members of a duplicate-free list with a property. -/
theorem card_eq_countP {α : Type} [DecidableEq α] {l : List α} {p : α → Bool} {t : Finset α}
    (hnodup : l.Nodup) (h : ∀ x, x ∈ t ↔ x ∈ l ∧ p x = true) : t.card = l.countP p := by
  have ht : t = (l.filter p).toFinset := by
    ext x
    simp [h]
  rw [ht, List.toFinset_card_of_nodup (hnodup.filter p), List.countP_eq_length_filter]

/-- What an event meets before it is offered to its targets.  A best-effort target is only asked
to be registered. -/
structure Admissible (limits : Limits) (s : State) (event : DeviceEvent) : Prop where
  size : event.json.length ≤ limits.globalEventMaxBytes
  accepting : s.accepting = true
  fresh : event.eventId ∉ s.active
  routed : s.routes.forTenant event.device.tenantId ≠ []
  countRoom : s.active.size < limits.globalEventMaxCount
  bytesRoom : s.activeBytes + event.json.length ≤ limits.globalEventMaxBytes
  tenantRoom :
    ((s.tenants.lookup event.device.tenantId).getD {}).count + 1 ≤
      limits.eventQueueMaxCountPerTenant ∧
    ((s.tenants.lookup event.device.tenantId).getD {}).bytes + event.json.length ≤
      limits.eventQueueMaxBytesPerTenant
  required : ∀ id ∈ s.routes.forTenant event.device.tenantId, ∃ sink,
    s.sinks.lookup id = some sink ∧
      (sink.definition.mode = .confirmedRequired → sink.available event.json.length = true)

/-- The stored form of an event that the given sinks took. -/
def DeviceEvent.stored (event : DeviceEvent) (now : Int64) (revision : UInt64) (taken : Fanout) :
    ActiveEvent where
  event := event
  bytes := event.json.length
  remaining := taken.remaining
  required := taken.required
  attempts := ∅
  acceptedAt := now
  routingRevision := revision
  operations := ∅

/-- The state after an offered event was taken by some sink. -/
def State.store (s : State) (event : DeviceEvent) (now : Int64) (required : ℕ) (taken : Fanout)
    (t : State) : State :=
  { t with
    activeBytes := s.activeBytes + event.json.length
    pendingRequired := s.pendingRequired + required
    tenants := s.tenants.insert event.device.tenantId
      { count := ((s.tenants.lookup event.device.tenantId).getD {}).count + 1
        bytes := ((s.tenants.lookup event.device.tenantId).getD {}).bytes + event.json.length }
    active := s.active.insert event.eventId (event.stored now s.routingRevision taken) }

/-- The number of targets that must confirm an event. -/
def State.requiredTargets (s : State) (event : DeviceEvent) : ℕ :=
  (s.routes.forTenant event.device.tenantId).countP fun id =>
    (s.sinks.lookup id).any fun sink => sink.definition.mode = .confirmedRequired

/-- A publish is refused before anything is written, or every target is offered the event and it
is stored unless none of them took it. -/
theorem publish_cases {r : Except Error EventAccepted}
    (h : exec (publish limits now instant event) s = (r, s')) :
    ((∃ e, r = .error e) ∧ s' = s ∧ ¬ Admissible limits s event) ∨
      Admissible limits s event ∧ ∃ taken t,
        FannedOut (event.delivery now instant) (s.routes.forTenant event.device.tenantId) s t
          ⟨∅, ∅⟩ taken ∧
        ((taken.remaining = ∅ ∧ (∃ e, r = .error e) ∧ s' = t) ∨
          taken.remaining ≠ ∅ ∧ (∃ accepted, r = .ok accepted) ∧
            s' = s.store event now (s.requiredTargets event) taken t) := by
  -- Every check before the fan-out keeps the state and is a field of `Admissible`.
  have hstay : ∀ e, ¬ Admissible limits s event → (Except.error e, s) = (r, s') →
      (∃ e, r = .error e) ∧ s' = s ∧ ¬ Admissible limits s event := by
    rintro e hnot he
    cases he
    exact ⟨⟨e, rfl⟩, rfl, hnot⟩
  simp only [publish, exec_fromExcept_bind, exec_get_bind, exec_ensure_bind, boundedJsonBytes] at h
  by_cases hsize : event.json.length ≤ limits.globalEventMaxBytes
  case neg =>
    rw [if_neg hsize] at h
    exact .inl (hstay _ (fun hpassed => hsize hpassed.size) h)
  rw [if_pos hsize] at h
  refine guard_cases h (fun hno h => .inl (hstay _ (fun a => hno a.accepting) h))
    fun haccepting h => ?_
  refine guard_cases h (fun hno h => .inl (hstay _ (fun a => hno a.fresh) h)) fun hfresh h => ?_
  refine guard_cases h (fun hno h => .inl (hstay _ (fun a => hno a.routed) h)) fun hrouted h => ?_
  refine guard_cases h (fun hno h => .inl (hstay _ (fun a => hno ?_) h)) fun hglobal h => ?_
  · have := a.countRoom
    have := a.bytesRoom
    omega
  refine guard_cases h (fun hno h => .inl (hstay _ (fun a => hno ?_) h)) fun htenant h => ?_
  · have := a.tenantRoom
    omega
  rcases checkRequired_cases s.sinks event.json.length (s.routes.forTenant event.device.tenantId)
    with ⟨hcheck, hrequired⟩ | ⟨⟨e, hcheck⟩, id, hid, hfull⟩
  case inr =>
    rw [hcheck] at h
    refine .inl (hstay _ (fun hpassed => ?_) h)
    obtain ⟨sink, hsink, hroom⟩ := hpassed.required id hid
    obtain ⟨hmode, hno⟩ := hfull sink hsink
    rw [hroom hmode] at hno
    cases hno
  case inl =>
    rw [hcheck] at h
    have hpassed : Admissible limits s event :=
      ⟨hsize, haccepting, hfresh, hrouted, by omega, by omega, by omega, hrequired⟩
    obtain ⟨taken, t, hexec, hfan⟩ := fanOut_spec (event.delivery now instant) s ⟨∅, ∅⟩
      fun id hid => mem_iff_lookup.mpr ((hrequired id hid).imp fun _ hsink => hsink.1)
    refine .inr ⟨hpassed, taken, t, hfan, ?_⟩
    simp only [DeviceEvent.delivery] at hexec
    simp only [exec_bind_of_ok hexec, exec_ensure_bind, exec_modify_bind, exec_pure] at h
    refine guard_cases h ?_ ?_
    · intro hnobody hend
      cases hend
      exact .inl ⟨not_not.mp hnobody, ⟨_, rfl⟩, rfl⟩
    · intro howed hend
      cases hend
      refine .inr ⟨howed, ⟨_, rfl⟩, ?_⟩
      rw [hfan.frame]
      rfl

/-- The required sinks of an accepted event are the required ones among its targets. -/
theorem FannedOut.required_iff {t : State} {taken : Fanout} (hpassed : Admissible limits s event)
    (h : FannedOut (event.delivery now instant) (s.routes.forTenant event.device.tenantId) s t
      ⟨∅, ∅⟩ taken)
    (id : SinkId) :
    id ∈ taken.required ↔ id ∈ s.routes.forTenant event.device.tenantId ∧
      ∃ q, s.queueOf id = some q ∧ q.definition.mode = .confirmedRequired := by
  rw [h.required]
  simp only [Finset.notMem_empty, false_or]
  constructor
  · rintro ⟨htarget, sink, hsink, -, hmode⟩
    exact ⟨htarget, sink.toSinkQueue, by simp [State.queueOf, hsink], hmode⟩
  · rintro ⟨htarget, q, hq, hmode⟩
    obtain ⟨sink, hsink, rfl⟩ := State.queueOf_eq_some.mp hq
    obtain ⟨sink', hsink', hroom⟩ := hpassed.required id htarget
    obtain rfl := Option.some.inj (hsink.symm.trans hsink')
    exact ⟨htarget, sink, hsink, hroom hmode, hmode⟩

/-- A publish either stores the event at all its required targets or leaves the backlog alone. -/
theorem publish_spec {r : Except Error EventAccepted} (hroutes : RoutesOk limits s)
    (h : exec (publish limits now instant event) s = (r, s')) :
    ((∃ e, r = .error e) ∧ SameBacklog s s') ∨
      (∃ accepted, r = .ok accepted) ∧ ∃ a, Published limits now instant event s s' a := by
  obtain ⟨hnodup, hknown, -⟩ := hroutes event.device.tenantId
  rcases publish_cases h with ⟨hr, rfl, -⟩ | ⟨hpassed, taken, t, hfan, hend⟩
  · exact .inl ⟨hr, .refl s'⟩
  have hqueue := hfan.queueOf hnodup
  rcases hend with ⟨hnobody, hr, rfl⟩ | ⟨howed, hr, rfl⟩
  · refine .inl ⟨hr, ?_, ?_, ?_, ?_, ?_, ?_, fun id => ?_⟩
    case refine_7 =>
      have hsame := hqueue id
      simp only [hnobody, Finset.notMem_empty, if_false, Option.map_id'] at hsame
      rw [hsame]
      exact rel_shuffled_refl _
    all_goals rw [hfan.frame]
  · have hremaining : ∀ id, id ∈ taken.remaining ↔
        id ∈ s.routes.forTenant event.device.tenantId ∧
          ∃ sink, s.sinks.lookup id = some sink ∧ sink.available event.json.length = true := by
      intro id
      rw [hfan.remaining]
      simp only [Finset.notMem_empty, false_or, DeviceEvent.delivery]
    have hcard : s.requiredTargets event = taken.required.card := by
      refine (card_eq_countP hnodup fun id => ?_).symm
      rw [hfan.required_iff hpassed]
      simp [queueOf, Option.any_eq_true]
    refine .inr ⟨hr, event.stored now s.routingRevision taken,
      { fresh := lookup_eq_none.mpr hpassed.fresh
        active := rfl
        size := rfl
        carries := fun _ => ⟨rfl, rfl, rfl⟩
        idle := rfl
        owed := howed
        required_subset := fun id hid => ?_
        known := fun id hid => hknown id ((hremaining id).mp hid).1
        confirmed := fun id hid q hq => ?_
        queueOf := hqueue
        published := rfl
        untried := rfl
        targets := fun id hid => ((hremaining id).mp hid).1
        required := hfan.required_iff hpassed
        room := fun id hid q hq => ?_
        pendingRequired := congrArg (s.pendingRequired + ·) hcard
        activeBytes := rfl
        bytesRoom := hpassed.bytesRoom
        countRoom := hpassed.countRoom
        tenants := rfl
        tenantRoom := hpassed.tenantRoom
        rest := by rw [hfan.frame]; exact ⟨rfl, rfl⟩ }⟩
    · obtain ⟨htarget, q, hq, hmode⟩ := (hfan.required_iff hpassed id).mp hid
      obtain ⟨sink, hsink, rfl⟩ := queueOf_eq_some.mp hq
      obtain ⟨sink', hsink', hroom⟩ := hpassed.required id htarget
      obtain rfl := Option.some.inj (hsink.symm.trans hsink')
      exact (hremaining id).mpr ⟨htarget, sink, hsink, hroom hmode⟩
    · obtain ⟨-, q', hq', hmode⟩ := (hfan.required_iff hpassed id).mp hid
      exact Option.some.inj (hq.symm.trans hq') ▸ hmode
    · obtain ⟨-, sink, hsink, hroom⟩ := (hremaining id).mp hid
      obtain ⟨sink', hsink', rfl⟩ := queueOf_eq_some.mp hq
      obtain rfl := Option.some.inj (hsink.symm.trans hsink')
      exact hroom

/-! ## Taking a delivery -/

theorem promoteDue_shuffled (now budget remaining : ℕ) (q : SinkQueue) :
    q.Shuffled (promoteDue now budget remaining q) := by
  obtain ⟨hdef, hcount, hbytes, hfly, hages⟩ := promoteDue_usage now budget remaining q
  exact ⟨promoteDue_queued now budget remaining q, hdef, hcount, hbytes, hfly, hages⟩

/-- What handing out a delivery did: one waiting record of the sink is in flight. -/
structure Taken (id : SinkId) (s s' : State) (head record : DeliveryRecord) (q q' : SinkQueue) :
    Prop where
  before : s.queueOf id = some q
  stamped : record = { head with operation := s.nextOperation + 1 }
  queued : (head :: q'.queued).Perm q.queued
  definition : q'.definition = q.definition
  usedCount : q'.usedCount = q.usedCount
  usedBytes : q'.usedBytes = q.usedBytes
  inflight : q'.inflight = q.inflight + 1
  pendingAges : q'.pendingAges = q.pendingAges
  queueOf : ∀ id', s'.queueOf id' = if id' = id then some q' else s.queueOf id'
  active : ∀ a, s.active.lookup head.event.eventId = some a → s'.active =
    s.active.put head.event.eventId
      (some { a with operations := a.operations.insert id (s.nextOperation + 1) })
  activeBytes : s'.activeBytes = s.activeBytes
  pendingRequired : s'.pendingRequired = s.pendingRequired
  tenants : s'.tenants = s.tenants
  nextOperation : s'.nextOperation = s.nextOperation + 1
  routes : s'.routes = s.routes

@[simp] theorem State.updateActive_queueOf (s : State) (eventId : EventId)
    (f : ActiveEvent → ActiveEvent) (id : SinkId) :
    (s.updateActive eventId f).queueOf id = s.queueOf id := by
  unfold updateActive
  split <;> rfl

/-- Fields other than the stored events are untouched by a change of one of them. -/
theorem State.updateActive_frame (s : State) (eventId : EventId) (f : ActiveEvent → ActiveEvent) :
    (s.updateActive eventId f).activeBytes = s.activeBytes ∧
    (s.updateActive eventId f).pendingRequired = s.pendingRequired ∧
    (s.updateActive eventId f).tenants = s.tenants ∧
    (s.updateActive eventId f).nextOperation = s.nextOperation ∧
    (s.updateActive eventId f).routes = s.routes := by
  unfold updateActive
  split <;> exact ⟨rfl, rfl, rfl, rfl, rfl⟩

/-- The promoted queues a call for a sink looks at. -/
def SinkState.promoted (sink : SinkState) (now : ℕ) : SinkQueue :=
  promoteDue now sink.promotionBudget sink.promotionBudget sink.toSinkQueue

/-- A call hands out the head of the promoted queue, or nothing. -/
theorem takeReady_cases {now : ℕ} {r : Except Error (Option DeliveryRecord)}
    (h : exec (takeReady now id) s = (r, s')) :
    ((∀ record, r ≠ .ok (some record)) ∧ (s' = s ∨ ∃ sink, s.sinks.lookup id = some sink ∧
      s' = s.setSink id (sink.onQueue fun _ => sink.promoted now))) ∨
    ∃ sink head rest, s.sinks.lookup id = some sink ∧
      (sink.promoted now).ready = head :: rest ∧
      r = .ok (some { head with operation := s.nextOperation + 1 }) ∧
      s' = updateActive { s.setSink id (sink.onQueue fun _ => { sink.promoted now with
          ready := rest, inflight := (sink.promoted now).inflight + 1 }) with
          nextOperation := s.nextOperation + 1 } head.event.eventId fun active =>
        { active with operations := active.operations.insert id (s.nextOperation + 1) } := by
  simp only [takeReady, exec_get_bind, exec_someOr_bind] at h
  split at h
  · next operation hop =>
    obtain ⟨-, rfl⟩ := checkedAdd_eq_some.mp hop
    split at h
    · next sink hsink =>
      split at h
      · cases h
        exact .inl ⟨nofun, .inl rfl⟩
      · split at h
        · cases h
          exact .inl ⟨nofun, .inr ⟨sink, hsink, rfl⟩⟩
        · next head rest hready =>
          cases h
          exact .inr ⟨sink, head, rest, hsink, hready, rfl, rfl⟩
    · cases h
      exact .inl ⟨nofun, .inl rfl⟩
  · cases h
    exact .inl ⟨nofun, .inl rfl⟩

/-- Taking either hands out a waiting record or leaves the backlog alone. -/
theorem takeReady_spec {now : ℕ} {r : Except Error (Option DeliveryRecord)}
    (h : exec (takeReady now id) s = (r, s')) :
    ((∀ record, r ≠ .ok (some record)) ∧ SameBacklog s s') ∨
      ∃ head record q q', r = .ok (some record) ∧ Taken id s s' head record q q' := by
  have hmoved : ∀ sink : SinkState, sink.toSinkQueue.Shuffled (sink.promoted now) := fun sink =>
    promoteDue_shuffled now sink.promotionBudget sink.promotionBudget sink.toSinkQueue
  have hbefore : ∀ sink, s.sinks.lookup id = some sink → s.queueOf id = some sink.toSinkQueue :=
    fun sink hsink => by rw [queueOf, hsink, Option.map_some]
  obtain ⟨hnone, rfl | ⟨sink, hsink, rfl⟩⟩ | ⟨sink, head, rest, hsink, hready, rfl, rfl⟩ :=
    takeReady_cases h
  · exact .inl ⟨hnone, .refl _⟩
  · refine .inl ⟨hnone, rfl, rfl, rfl, rfl, rfl, rfl, fun id' => ?_⟩
    rw [queueOf_setSink]
    split
    · next hid =>
      rw [hid, hbefore sink hsink]
      exact .some (hmoved sink)
    · exact rel_shuffled_refl _
  · refine .inr ⟨head, _, sink.toSinkQueue, { sink.promoted now with
        ready := rest, inflight := (sink.promoted now).inflight + 1 }, rfl,
      { before := hbefore sink hsink
        stamped := rfl
        queued := ?_
        definition := (hmoved sink).definition
        usedCount := (hmoved sink).usedCount
        usedBytes := (hmoved sink).usedBytes
        inflight := congrArg (· + 1) (hmoved sink).inflight
        pendingAges := (hmoved sink).pendingAges
        queueOf := ?_
        active := ?_
        activeBytes := (updateActive_frame _ _ _).1
        pendingRequired := (updateActive_frame _ _ _).2.1
        tenants := (updateActive_frame _ _ _).2.2.1
        nextOperation := (updateActive_frame _ _ _).2.2.2.1
        routes := (updateActive_frame _ _ _).2.2.2.2 }⟩
    · have := (hmoved sink).queued
      simpa only [SinkQueue.queued, hready, List.cons_append] using this
    · intro id'
      rw [updateActive_queueOf]
      exact queueOf_setSink s id id' _
    · intro a ha
      simp only [updateActive, setSink, ha]
      rfl

/-! ## Completing a delivery -/

/-- The record is the attempt the stored event has in flight at the sink. -/
structure Current (s : State) (id : SinkId) (record : DeliveryRecord) (a : ActiveEvent)
    (q : SinkQueue) : Prop where
  stored : s.active.lookup record.event.eventId = some a
  owed : id ∈ a.remaining
  operation : a.operations.lookup id = some record.operation
  before : s.queueOf id = some q

/-- A stored event after one of its deliveries came back. -/
structure Landed (id : SinkId) (a a' : ActiveEvent) : Prop where
  event : a'.event = a.event
  bytes : a'.bytes = a.bytes
  acceptedAt : a'.acceptedAt = a.acceptedAt
  operations : a'.operations = a.operations.erase id
  attempts : a'.attempts = a.attempts ∨ ∃ n, a'.attempts = a.attempts.insert id n

/-- What a failed delivery did that stays owed: it waits for its next attempt. -/
structure Requeued (id : SinkId) (s s' : State) (record record' : DeliveryRecord)
    (a a' : ActiveEvent) (q : SinkQueue) : Prop extends Current s id record a q,
    Landed id a a' where
  again : record'.event = record.event ∧ record'.bytes = record.bytes ∧
    record'.acceptedAt = record.acceptedAt
  counted : a'.attempts = a.attempts.insert id record'.attempt
  remaining : a'.remaining = a.remaining
  required : a'.required = a.required
  queueOf : ∀ id', s'.queueOf id' = if id' = id then some (q.land.delay record') else s.queueOf id'
  active : s'.active = s.active.put record.event.eventId (some a')
  activeBytes : s'.activeBytes = s.activeBytes
  pendingRequired : s'.pendingRequired = s.pendingRequired
  tenants : s'.tenants = s.tenants
  nextOperation : s'.nextOperation = s.nextOperation
  routes : s'.routes = s.routes

/-- What a settled delivery did: the sink is no longer owed the event, and an event owed to
nobody is forgotten. -/
structure Released (id : SinkId) (s s' : State) (record : DeliveryRecord) (a a' : ActiveEvent)
    (q : SinkQueue) : Prop extends Current s id record a q, Landed id a a' where
  remaining : a'.remaining = a.remaining.erase id
  required : a'.required = a.required.erase id
  queueOf : ∀ id', s'.queueOf id' = if id' = id then some (q.land.release record) else s.queueOf id'
  active : s'.active = s.active.put record.event.eventId
    (if a'.remaining = ∅ then none else some a')
  activeBytes : s'.activeBytes = if a'.remaining = ∅ then s.activeBytes - a.bytes else s.activeBytes
  pendingRequired : s'.pendingRequired =
    if id ∈ a.required then s.pendingRequired - 1 else s.pendingRequired
  tenants : s'.tenants = if a'.remaining = ∅
    then releaseTenant s.tenants a.event.device.tenantId a.bytes else s.tenants
  nextOperation : s'.nextOperation = s.nextOperation
  routes : s'.routes = s.routes

theorem exec_updateSink_bind {α : Type} (hsink : s.sinks.lookup id = some sink)
    (f : SinkState → SinkState) (k : Unit → BusM α) :
    exec (updateSink id f >>= k) s = exec (k ()) (s.setSink id (f sink)) := by
  apply exec_bind_of_ok
  simp [updateSink, hsink]

theorem exec_updateSink (hsink : s.sinks.lookup id = some sink) (f : SinkState → SinkState) :
    exec (updateSink id f) s = (.ok (), s.setSink id (f sink)) := by
  simp [updateSink, hsink]

theorem exec_updateSink_none {α : Type} (hsink : s.sinks.lookup id = none)
    (f : SinkState → SinkState) (k : Unit → BusM α) :
    exec (updateSink id f >>= k) s = (.error .internal, s) := by
  apply exec_bind_of_error
  simp [updateSink, hsink]

@[simp] theorem State.setSink_setSink (s : State) (id : SinkId) (sink sink' : SinkState) :
    (s.setSink id sink).setSink id sink' = s.setSink id sink' := by
  simp [setSink]

@[simp] theorem State.setSink_lookup (s : State) (id : SinkId) (sink : SinkState) :
    (s.setSink id sink).sinks.lookup id = some sink := by
  simp [setSink]

section Completion

variable {limits : Limits} {clock : CompletionClock} {id : SinkId} {record : DeliveryRecord}
  {definition : SinkDefinition} {s s' : State} {a : ActiveEvent} {sink : SinkState}

/-- The state a completion works on: the delivery has landed at its sink and its event. -/
def State.landed (s : State) (id : SinkId) (sink : SinkState) (eventId : EventId)
    (a : ActiveEvent) : State :=
  { s with sinks := s.sinks.insert id (sink.onQueue (·.land)), active := s.active.insert eventId a }

theorem landed_eq (failed : Bool) (hstored : s.active.lookup record.event.eventId = some a) :
    (s.setSink id (sink.onQueue (·.land))).updateActive record.event.eventId
      (·.land id record.attempted.attempt failed) =
    s.landed id sink record.event.eventId (a.land id record.attempted.attempt failed) := by
  simp only [updateActive, setSink, hstored, landed]

theorem Landed.of_land (id : SinkId) (a : ActiveEvent) (attempt : UInt32) (failed : Bool) :
    Landed id a (a.land id attempt failed) := by
  refine ⟨rfl, rfl, rfl, rfl, ?_⟩
  unfold ActiveEvent.land
  split
  · exact .inr ⟨attempt, rfl⟩
  · exact .inl rfl

/-- Settling the landed delivery releases the event from the sink. -/
theorem settle_released {a₁ : ActiveEvent} (sink' : SinkState)
    (hcurrent : Current s id record a sink.toSinkQueue) (hlanded : Landed id a a₁)
    (hremaining : a₁.remaining = a.remaining) (hrequired : a₁.required = a.required)
    (hsink : sink'.toSinkQueue = sink.toSinkQueue.land.release record) :
    ∃ a', Released id s (settle id record.event.eventId
      ((s.landed id sink record.event.eventId a₁).setSink id sink')) record a a'
      sink.toSinkQueue := by
  refine ⟨{ a₁ with remaining := a₁.remaining.erase id, required := a₁.required.erase id },
    { toCurrent := hcurrent
      toLanded := ⟨hlanded.event, hlanded.bytes, hlanded.acceptedAt, hlanded.operations,
        hlanded.attempts⟩
      remaining := by simp [hremaining]
      required := by simp [hrequired]
      queueOf := ?_
      active := ?_
      activeBytes := ?_
      pendingRequired := ?_
      tenants := ?_
      nextOperation := ?_
      routes := ?_ }⟩
  · intro id'
    simp only [settle, setSink, landed, lookup_insert, removeActive]
    rw [← hsink]
    split <;> simp [queueOf, lookup_insert_eq] <;> split <;> rfl
  all_goals
    simp only [settle, setSink, landed, lookup_insert, removeActive, hrequired]
    split <;> simp_all [put, hlanded.event, hlanded.bytes, insert_insert, erase_insert]

/-- Delaying the landed delivery keeps the event owed to the sink. -/
theorem delay_requeued {a₁ : ActiveEvent} {sink' : SinkState} {record' : DeliveryRecord}
    (hsink : sink'.toSinkQueue = sink.toSinkQueue.land.delay record')
    (hcurrent : Current s id record a sink.toSinkQueue) (hlanded : Landed id a a₁)
    (hremaining : a₁.remaining = a.remaining) (hrequired : a₁.required = a.required)
    (hagain : record'.event = record.event ∧ record'.bytes = record.bytes ∧
      record'.acceptedAt = record.acceptedAt)
    (hcounted : a₁.attempts = a.attempts.insert id record'.attempt) :
    Requeued id s ((s.landed id sink record.event.eventId a₁).setSink id sink') record record'
      a a₁ sink.toSinkQueue where
  toCurrent := hcurrent
  toLanded := hlanded
  again := hagain
  counted := hcounted
  remaining := hremaining
  required := hrequired
  queueOf id' := by
    rw [queueOf_setSink, hsink]
    by_cases hid : id' = id
    · simp only [hid, if_true]
    · simp only [hid, if_false, queueOf, landed, lookup_insert_ne hid]
  active := rfl
  activeBytes := rfl
  pendingRequired := rfl
  tenants := rfl
  nextOperation := rfl
  routes := rfl

/-- The completion of a current attempt lands it and then processes its outcome. -/
theorem completeDetailed_current (hcurrent : Current s id record a sink.toSinkQueue)
    (hsink : s.sinks.lookup id = some sink)
    (hpending : ¬ (id ∈ a.required ∧ s.pendingRequired = 0)) :
    exec (completeDetailed limits clock id record result definition) s =
      match result with
      | .error failure => exec (failDelivery limits clock id record.attempted failure definition)
          (s.landed id sink record.event.eventId (a.land id record.attempted.attempt true))
      | .ok () => exec (confirmDelivery id record.attempted)
          (s.landed id sink record.event.eventId (a.land id record.attempted.attempt false)) := by
  simp only [completeDetailed, exec_get_bind, hcurrent.stored, hcurrent.owed, hcurrent.operation,
    not_true, if_false, ne_eq, exec_ensure_bind, hpending, not_false_eq_true, if_true,
    exec_updateSink_bind hsink]
  cases result with
  | error failure =>
    rw [← landed_eq true hcurrent.stored]
    rfl
  | ok u =>
    simp only [exec_modify_bind]
    rw [← landed_eq false hcurrent.stored]
    rfl

/-- A completion that names no current attempt, or whose counter is already exhausted. -/
def Ignored (s : State) (id : SinkId) (record : DeliveryRecord) : Prop :=
  ∀ a q, Current s id record a q → id ∈ a.required ∧ s.pendingRequired = 0

/-- Anything but the completion of a current attempt changes nothing. -/
theorem completeDetailed_ignored (h : Ignored s id record) :
    (exec (completeDetailed limits clock id record result definition) s).2 = s := by
  cases hstored : s.active.lookup record.event.eventId with
  | none => simp [completeDetailed, hstored]
  | some a =>
    by_cases howed : id ∈ a.remaining
    · by_cases hop : a.operations.lookup id = some record.operation
      · by_cases hpending : id ∈ a.required ∧ s.pendingRequired = 0
        · simp [completeDetailed, hstored, howed, hop, hpending]
        · cases hsink : s.sinks.lookup id with
          | none =>
            simp [completeDetailed, hstored, howed, hop, hpending, exec_updateSink_none hsink]
          | some sink =>
            exact absurd (h a sink.toSinkQueue
              ⟨hstored, howed, hop, by simp [queueOf, hsink]⟩) hpending
      · simp [completeDetailed, hstored, howed, hop]
    · simp [completeDetailed, hstored, howed]

/-- A failed delivery is retried no earlier than a millisecond from now. -/
theorem failureDelay_pos (limits : Limits) (record : DeliveryRecord) (retry : Bool)
    (failure : SinkFailure) : 0 < failureDelay limits record retry failure := by
  have hbase : 0 < if retry then retryDelay limits record else maximumDelay limits := by
    split
    · exact Nat.mul_pos (Nat.add_pos_left Nat.one_pos _) (by decide)
    · exact Nat.mul_pos (lt_max_of_lt_right Nat.one_pos) (by decide)
  unfold failureDelay
  dsimp only
  split
  · exact lt_max_of_lt_left hbase
  · exact hbase

/-- A completion is ignored, queues the delivery again for later, or settles it. -/
theorem completeDetailed_spec {r : Except Error Unit}
    (h : exec (completeDetailed limits clock id record result definition) s = (r, s')) :
    (s' = s ∧ Ignored s id record) ∨
    (∃ record' a a' q, Requeued id s s' record record' a a' q ∧ result ≠ .ok () ∧
      clock.retryInstant < record'.nextAttempt) ∨
    ∃ a a' q, Released id s s' record a a' q ∧
      (result = .ok () ∨ definition.mode ≠ .confirmedRequired) := by
  by_cases hignored : Ignored s id record
  · exact .inl ⟨(congrArg Prod.snd h).symm.trans (completeDetailed_ignored hignored), hignored⟩
  · simp only [Ignored, not_forall] at hignored
    obtain ⟨a, q, hcurrent, hpending⟩ := hignored
    obtain ⟨sink, hsink, rfl⟩ := queueOf_eq_some.mp hcurrent.before
    rw [completeDetailed_current hcurrent hsink hpending] at h
    have hlookup : ∀ a', (s.landed id sink record.event.eventId a').sinks.lookup id =
        some (sink.onQueue (·.land)) := fun a' => by simp [landed]
    have hlanded := Landed.of_land id a record.attempted.attempt
    cases result with
    | ok u =>
      simp only [confirmDelivery, exec_updateSink_bind (hlookup _),
        exec_updateSink_bind (setSink_lookup _ _ _), setSink_setSink, exec_modify,
        Prod.mk.injEq] at h
      obtain ⟨-, rfl⟩ := h
      obtain ⟨a', hreleased⟩ := settle_released
        ((sink.onQueue (·.land)).noteSuccess.onQueue (·.release record.attempted))
        hcurrent (hlanded false) rfl rfl rfl
      exact .inr (.inr ⟨a, a', _, hreleased, .inl rfl⟩)
    | error failure =>
      simp only [failDelivery, exec_updateSink_bind (hlookup _)] at h
      split at h
      · simp only [exec_updateSink (setSink_lookup _ _ _), setSink_setSink, Prod.mk.injEq] at h
        obtain ⟨-, rfl⟩ := h
        exact .inr (.inl ⟨_, a, _, sink.toSinkQueue, delay_requeued rfl hcurrent (hlanded true)
          rfl rfl ⟨rfl, rfl, rfl⟩ rfl, by simp,
          Nat.lt_add_of_pos_right (failureDelay_pos _ _ _ _)⟩)
      · next hdrop =>
        simp only [exec_updateSink_bind (setSink_lookup _ _ _), setSink_setSink,
          exec_modify, Prod.mk.injEq] at h
        obtain ⟨-, rfl⟩ := h
        simp only [Bool.or_eq_true, decide_eq_true_eq, not_or] at hdrop
        obtain ⟨a', hreleased⟩ := settle_released
          (((sink.onQueue (·.land)).noteFailure failure _ _).onQueue
            (·.release record.attempted)).noteDrop hcurrent (hlanded true) rfl rfl rfl
        exact .inr (.inr ⟨a, a', _, hreleased, .inr hdrop.2⟩)

end Completion

end Netbaiot.EventBus
