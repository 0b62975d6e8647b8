import Netbaiot.EventBus.Effects

/-!
# Bookkeeping of the event bus

`Bookkeeping` collects what holds of a bus after every operation: each owed event waits
exactly once or is in flight, every counter is the total it caches, and every ceiling
holds.  Each lemma below carries it across one effect of `Netbaiot.EventBus.Effects`.
-/

namespace Netbaiot.EventBus

open Lib AList SinkQueue

variable {id : SinkId} {q' : SinkQueue}

/-- The number of sinks that must still confirm an event. -/
def requiredCard (_ : EventId) (a : ActiveEvent) : ℕ := a.required.card

/-- The bytes of an event. -/
def eventBytes (_ : EventId) (a : ActiveEvent) : ℕ := a.bytes

/-- One for an event of the tenant. -/
def tenantOne (t : TenantId) (_ : EventId) (a : ActiveEvent) : ℕ :=
  if a.event.device.tenantId = t then 1 else 0

/-- The bytes of an event of the tenant. -/
def tenantBytes (t : TenantId) (_ : EventId) (a : ActiveEvent) : ℕ :=
  if a.event.device.tenantId = t then a.bytes else 0

/-- A stored event is owed to registered sinks, the required ones among them. -/
structure StoredEvent (s : State) (eventId : EventId) (a : ActiveEvent) : Prop where
  identity : a.event.eventId = eventId
  size : a.bytes = a.event.json.length
  owed : a.remaining ≠ ∅
  required_subset : a.required ⊆ a.remaining
  flying_subset : ∀ id ∈ a.operations, id ∈ a.remaining
  known : ∀ id ∈ a.remaining, (s.queueOf id).isSome
  confirmed : ∀ id ∈ a.required, ∀ q, s.queueOf id = some q →
    q.definition.mode = .confirmedRequired

/-- Stored events are well formed and the ledger of every sink is exact. -/
structure Stored (s : State) : Prop where
  event : ∀ eventId a, s.active.lookup eventId = some a → StoredEvent s eventId a
  ledger : ∀ id q, s.queueOf id = some q → SinkExact s.active id q

/-- The cached global and tenant counters are the totals over the stored events. -/
structure Totals (s : State) : Prop where
  pendingRequired : s.pendingRequired = s.active.total requiredCard
  activeBytes : s.activeBytes = s.active.total eventBytes
  tenantCount : ∀ t, ((s.tenants.lookup t).getD {}).count = s.active.total (tenantOne t)
  tenantBytes : ∀ t, ((s.tenants.lookup t).getD {}).bytes = s.active.total (tenantBytes t)
  tenantPositive : ∀ t b, s.tenants.lookup t = some b → 0 < b.count

/-- Every ceiling of the bus holds. -/
structure Within (limits : Limits) (s : State) : Prop where
  count : s.active.size ≤ limits.globalEventMaxCount
  bytes : s.activeBytes ≤ limits.globalEventMaxBytes
  tenant : ∀ t b, s.tenants.lookup t = some b → b.count ≤ limits.eventQueueMaxCountPerTenant ∧
    b.bytes ≤ limits.eventQueueMaxBytesPerTenant
  room : ∀ id q, s.queueOf id = some q → q.usedCount ≤ q.definition.maxCount ∧
    q.usedBytes ≤ q.definition.maxBytes

/-- The state of a bus after any sequence of operations. -/
structure Bookkeeping (limits : Limits) (s : State) : Prop extends
    Stored s, Totals s, Within limits s where
  routes : RoutesOk limits s

/-- The ledger of a sink does not depend on the order of its queues. -/
theorem SinkExact.shuffled {active : Table EventId ActiveEvent} {q : SinkQueue}
    (h : SinkExact active id q) (hq : q.Shuffled q') : SinkExact active id q' where
  usedCount := hq.usedCount ▸ h.usedCount
  usedBytes := hq.usedBytes ▸ h.usedBytes
  inflight := hq.inflight ▸ h.inflight
  aged t := by
    rw [SinkQueue.aged, hq.pendingAges]
    exact h.aged t
  agedPositive := hq.pendingAges ▸ h.agedPositive
  located e := by
    rw [SinkQueue.waiting, hq.queued.countP_eq]
    exact h.located e
  carried record hrecord := h.carried record (hq.queued.mem_iff.mp hrecord)

section Same

variable {limits : Limits} {s s' : State}

theorem isSome_of_definition (h : (s'.queueOf id).map definition = (s.queueOf id).map definition) :
    (s'.queueOf id).isSome = (s.queueOf id).isSome := by
  have := congrArg Option.isSome h
  simpa using this

/-- A stored event depends on the definitions of the sinks only. -/
theorem StoredEvent.keep {eventId : EventId} {a : ActiveEvent} (h : StoredEvent s eventId a)
    (hdefinitions : ∀ id, (s'.queueOf id).map definition =
      (s.queueOf id).map definition) : StoredEvent s' eventId a :=
  { h with
    known := fun id hid => (isSome_of_definition (hdefinitions id)).trans (h.known id hid)
    confirmed := fun id hid q' hq' => by
      have hsame := hdefinitions id
      rw [hq', Option.map_some, eq_comm, Option.map_eq_some_iff] at hsame
      obtain ⟨q, hq, hdefinition⟩ := hsame
      exact hdefinition ▸ h.confirmed id hid q hq }

theorem RoutesOk.keep (h : RoutesOk limits s) (hroutes : s'.routes = s.routes)
    (hdefinitions : ∀ id, (s'.queueOf id).map definition =
      (s.queueOf id).map definition) : RoutesOk limits s' :=
  h.of_isSome hroutes fun id hid => (isSome_of_definition (hdefinitions id)).trans hid

theorem SameBacklog.queueOf_some (h : SameBacklog s s') (hq' : s'.queueOf id = some q') :
    ∃ q, s.queueOf id = some q ∧ q.Shuffled q' := by
  have hrel := h.queueOf id
  rw [hq'] at hrel
  generalize s.queueOf id = o at hrel ⊢
  cases hrel with
  | some hq => exact ⟨_, rfl, hq⟩

theorem SameBacklog.definitions (h : SameBacklog s s') (id : SinkId) :
    (s'.queueOf id).map definition = (s.queueOf id).map definition := by
  have hrel := h.queueOf id
  generalize s.queueOf id = o, s'.queueOf id = o' at hrel ⊢
  cases hrel with
  | some hq => exact congrArg some hq.definition
  | none => rfl

/-- An operation that leaves the backlog alone keeps the books. -/
theorem Bookkeeping.same (h : Bookkeeping limits s) (hsame : SameBacklog s s') :
    Bookkeeping limits s' where
  event eventId a ha := by
    rw [hsame.active] at ha
    exact (h.event eventId a ha).keep hsame.definitions
  ledger id q' hq' := by
    obtain ⟨q, hq, hmoved⟩ := hsame.queueOf_some hq'
    rw [hsame.active]
    exact (h.ledger id q hq).shuffled hmoved
  pendingRequired := by rw [hsame.pendingRequired, hsame.active, h.pendingRequired]
  activeBytes := by rw [hsame.activeBytes, hsame.active, h.activeBytes]
  tenantCount t := by rw [hsame.tenants, hsame.active, h.tenantCount]
  tenantBytes t := by rw [hsame.tenants, hsame.active, h.tenantBytes]
  tenantPositive := hsame.tenants ▸ h.tenantPositive
  count := hsame.active ▸ h.count
  bytes := hsame.activeBytes ▸ h.bytes
  tenant := hsame.tenants ▸ h.tenant
  room id q' hq' := by
    obtain ⟨q, hq, hmoved⟩ := hsame.queueOf_some hq'
    rw [hmoved.usedCount, hmoved.usedBytes, hmoved.definition]
    exact h.room id q hq
  routes := h.routes.keep hsame.routes hsame.definitions

end Same

section Admit

variable {record : SinkId → DeliveryRecord} {s s' : State} {a : ActiveEvent}

theorem Admitted.queueOf_some (h : Admitted record s s' a) (hq' : s'.queueOf id = some q') :
    ∃ q, s.queueOf id = some q ∧
      q' = if id ∈ a.remaining then q.enqueue (record id) else q := by
  rw [h.queueOf, Option.map_eq_some_iff] at hq'
  obtain ⟨q, hq, rfl⟩ := hq'
  exact ⟨q, hq, rfl⟩

theorem Admitted.definitions (h : Admitted record s s' a) (id : SinkId) :
    (s'.queueOf id).map definition = (s.queueOf id).map definition := by
  rw [h.queueOf, Option.map_map]
  congr 1
  funext q
  split <;> rfl

/-- Every total gains the weight of an admitted event. -/
theorem Admitted.total (h : Admitted record s s' a) (f : EventId → ActiveEvent → ℕ) :
    s'.active.total f = f a.event.eventId a + s.active.total f := by
  rw [h.active, total_insert_new f h.fresh]

/-- Admitting an event keeps stored events and sink ledgers exact. -/
theorem Stored.store (h : Stored s) (hstored : Admitted record s s' a) : Stored s' where
  event e b hb := by
    rw [hstored.active, lookup_insert_eq] at hb
    split at hb
    · next he =>
      cases hb
      have hnew : StoredEvent s e a :=
        { identity := he.symm
          size := hstored.size
          owed := hstored.owed
          required_subset := hstored.required_subset
          flying_subset := by simp [hstored.idle]
          known := hstored.known
          confirmed := hstored.confirmed }
      exact hnew.keep hstored.definitions
    · exact (h.event e b hb).keep hstored.definitions
  ledger id q' hq' := by
    obtain ⟨q, hq, rfl⟩ := hstored.queueOf_some hq'
    have hledger := h.ledger id q hq
    rw [hstored.active]
    split
    · next howed =>
      exact hledger.store hstored.fresh (congrArg _ (hstored.carries id).1) (hstored.carries id)
        howed (by simp [hstored.idle])
    · next howed =>
      refine hledger.frame (some a) ?_ ?_ ?_ ?_ ?_ <;>
        simp [hstored.fresh, owedOne, owedBytes, flyingOne, agedOne, howed, hstored.idle]

end Admit

section Publish

variable {limits : Limits} {now : Int64} {instant : ℕ} {event : DeviceEvent} {s s' : State}
  {a : ActiveEvent}

/-- A published event joins every total it belongs to. -/
theorem Totals.publish (h : Totals s) (hpub : Published limits now instant event s s' a) :
    Totals s' := by
  refine ⟨?_, ?_, fun t => ?_, fun t => ?_, fun t b hb => ?_⟩
  · rw [hpub.total, hpub.pendingRequired, h.pendingRequired, requiredCard, Nat.add_comm]
  · rw [hpub.total, hpub.activeBytes, h.activeBytes, eventBytes, Nat.add_comm]
  · rw [hpub.total, hpub.tenants, lookup_insert_eq, ← h.tenantCount, tenantOne, hpub.published]
    grind
  · rw [hpub.total, hpub.tenants, lookup_insert_eq, ← h.tenantBytes, EventBus.tenantBytes,
      hpub.published]
    grind
  · rw [hpub.tenants, lookup_insert_eq] at hb
    split at hb
    · cases hb
      exact Nat.succ_pos _
    · exact h.tenantPositive t b hb

/-- A publish is refused before it could pass a ceiling. -/
theorem Within.publish (h : Within limits s) (hpub : Published limits now instant event s s' a) :
    Within limits s' where
  count := by
    have := hpub.countRoom
    rw [size_eq_total, hpub.total, ← size_eq_total]
    omega
  bytes := hpub.activeBytes ▸ hpub.bytesRoom
  tenant t b hb := by
    rw [hpub.tenants, lookup_insert_eq] at hb
    split at hb
    · cases hb
      exact hpub.tenantRoom
    · exact h.tenant t b hb
  room id q' hq' := by
    obtain ⟨q, hq, rfl⟩ := hpub.queueOf_some hq'
    split
    · next howed =>
      have hroom := hpub.room id howed q hq
      simp only [available, Bool.and_eq_true, decide_eq_true_eq, ← (hpub.carries id).2.1] at hroom
      exact hroom
    · exact h.room id q hq

theorem Bookkeeping.publish (h : Bookkeeping limits s)
    (hpub : Published limits now instant event s s' a) : Bookkeeping limits s' where
  toStored := h.toStored.store hpub.toAdmitted
  toTotals := h.toTotals.publish hpub
  toWithin := h.toWithin.publish hpub
  routes := h.routes.keep hpub.rest.2 hpub.definitions

end Publish

section Delivery

variable {limits : Limits} {id : SinkId} {s s' : State} {record : DeliveryRecord}
  {a a' : ActiveEvent} {q q' : SinkQueue} {eventId : EventId} {o : Option ActiveEvent}

/-- A stored event changed at one sink only; it is forgotten only when owed to no other sink. -/
structure ChangedAt (id : SinkId) (a : ActiveEvent) (o : Option ActiveEvent) : Prop where
  kept : ∀ a', o = some a' → a'.event = a.event ∧ a'.bytes = a.bytes ∧
    a'.acceptedAt = a.acceptedAt ∧ a'.remaining ≠ ∅ ∧ a'.remaining ⊆ a.remaining ∧
    a'.required ⊆ a.required ∧ a'.required ⊆ a'.remaining ∧
    (∀ id' ∈ a'.operations, id' ∈ a'.remaining) ∧
    ∀ id' ≠ id, (id' ∈ a'.remaining ↔ id' ∈ a.remaining) ∧
      (id' ∈ a'.operations ↔ id' ∈ a.operations)
  forgotten : o = none → ∀ id' ≠ id, id' ∉ a.remaining

/-- The other sinks of a changed event keep their ledgers. -/
theorem SinkExact.changed_elsewhere {id' : SinkId} (hledger : SinkExact s.active id' q)
    (ha : s.active.lookup eventId = some a) (hevent : StoredEvent s eventId a)
    (hchange : ChangedAt id a o) (hid : id' ≠ id) : SinkExact (s.active.put eventId o) id' q := by
  cases o with
  | some a' =>
    obtain ⟨hsame, hbytes, hage, -, -, -, -, -, hothers⟩ := hchange.kept a' rfl
    obtain ⟨hremaining, hflying⟩ := hothers id' hid
    refine hledger.frame (some a') ?_ ?_ ?_ ?_ ?_
    · simp [ha, owedOne, hremaining]
    · simp [ha, owedBytes, hremaining, hbytes]
    · simp [ha, flyingOne, hflying]
    · simp [ha, agedOne, hremaining, hage]
    · intro r _ b hb hcarries
      obtain rfl := Option.some.inj (ha.symm.trans hb)
      exact ⟨a', rfl, hcarries.1.trans hsame.symm, hcarries.2.1.trans hbytes.symm,
        hcarries.2.2.trans hage.symm⟩
  | none =>
    have howed := hchange.forgotten rfl id' hid
    have hflying : id' ∉ a.operations := fun h => howed (hevent.flying_subset id' h)
    refine hledger.frame none ?_ ?_ ?_ ?_ ?_
    · simp [ha, owedOne, howed]
    · simp [ha, owedBytes, howed]
    · simp [ha, flyingOne, hflying]
    · simp [ha, agedOne, howed]
    · intro r hr b hb hcarries
      obtain rfl := Option.some.inj (ha.symm.trans hb)
      obtain ⟨c, hc, -, hcowed, -⟩ := hledger.queued_owed hr
      rw [hcarries.1, hevent.identity, ha] at hc
      exact absurd (Option.some.inj hc ▸ hcowed) howed

/-- A sink that changes keeps its definition. -/
theorem definitions_of_queueOf (hq : s.queueOf id = some q)
    (hqueue : ∀ id', s'.queueOf id' = if id' = id then some q' else s.queueOf id')
    (hdef : q'.definition = q.definition) (id' : SinkId) :
    (s'.queueOf id').map definition = (s.queueOf id').map definition := by
  rw [hqueue]
  split
  · next hid => simp [hid, hq, hdef]
  · rfl

/-- A change of one stored event at one sink keeps stored events and ledgers exact. -/
theorem Stored.change (h : Stored s) (ha : s.active.lookup eventId = some a)
    (hq : s.queueOf id = some q) (hchange : ChangedAt id a o)
    (hactive : s'.active = s.active.put eventId o)
    (hqueue : ∀ id', s'.queueOf id' = if id' = id then some q' else s.queueOf id')
    (hdef : q'.definition = q.definition) (hledger : SinkExact (s.active.put eventId o) id q') :
    Stored s' := by
  have hdefinitions := definitions_of_queueOf hq hqueue hdef
  refine ⟨fun e b hb => ?_, fun id' q₁ hq₁ => ?_⟩
  · rw [hactive, lookup_put] at hb
    split at hb
    · next he =>
      subst he
      have hold := h.event e a ha
      obtain ⟨hsame, hbytes, -, howed, hsub, hreq, hreqsub, hfly, -⟩ := hchange.kept b hb
      have hnew : StoredEvent s e b :=
        { identity := by rw [hsame, hold.identity]
          size := by rw [hbytes, hsame, hold.size]
          owed := howed
          required_subset := hreqsub
          flying_subset := hfly
          known := fun id' hid' => hold.known id' (hsub hid')
          confirmed := fun id' hid' => hold.confirmed id' (hreq hid') }
      exact hnew.keep hdefinitions
    · exact (h.event e b hb).keep hdefinitions
  · rw [hqueue] at hq₁
    rw [hactive]
    split at hq₁
    · next hid =>
      cases hq₁
      exact hid ▸ hledger
    · next hid => exact (h.ledger id' q₁ hq₁).changed_elsewhere ha (h.event _ a ha) hchange hid

/-- Totals whose weight a change of one stored event leaves alone. -/
theorem total_put_same (f : EventId → ActiveEvent → ℕ)
    (hactive : s'.active = s.active.put eventId o)
    (hweight : weigh f eventId o = weigh f eventId (s.active.lookup eventId)) :
    s'.active.total f = s.active.total f := by
  have := total_put f eventId o s.active
  rw [hactive]
  omega

/-- A change that keeps size, owner and required sinks of an event keeps all totals. -/
theorem Totals.change (h : Totals s) (ha : s.active.lookup eventId = some a)
    (hactive : s'.active = s.active.put eventId (some a')) (hevent : a'.event = a.event)
    (hbytes : a'.bytes = a.bytes) (hrequired : a'.required = a.required)
    (hsame : s'.pendingRequired = s.pendingRequired ∧ s'.activeBytes = s.activeBytes ∧
      s'.tenants = s.tenants) : Totals s' := by
  obtain ⟨hpending, hactiveBytes, htenants⟩ := hsame
  refine ⟨?_, ?_, fun t => ?_, fun t => ?_, htenants ▸ h.tenantPositive⟩
  · rw [hpending, h.pendingRequired, total_put_same requiredCard hactive]
    simp [ha, requiredCard, hrequired]
  · rw [hactiveBytes, h.activeBytes, total_put_same eventBytes hactive]
    simp [ha, eventBytes, hbytes]
  · rw [htenants, h.tenantCount, total_put_same (tenantOne t) hactive]
    simp [ha, tenantOne, hevent]
  · rw [htenants, h.tenantBytes, total_put_same (EventBus.tenantBytes t) hactive]
    simp [ha, EventBus.tenantBytes, hevent, hbytes]

/-- Ceilings hold after a change that lets no counter grow. -/
theorem Within.shrink (h : Within limits s) (hq : s.queueOf id = some q)
    (hactive : s'.active = s.active.put eventId o) (ha : s.active.lookup eventId = some a)
    (hbytes : s'.activeBytes ≤ s.activeBytes)
    (htenants : ∀ t b', s'.tenants.lookup t = some b' → ∃ b, s.tenants.lookup t = some b ∧
      b'.count ≤ b.count ∧ b'.bytes ≤ b.bytes)
    (hqueue : ∀ id', s'.queueOf id' = if id' = id then some q' else s.queueOf id')
    (hdef : q'.definition = q.definition) (hused : q'.usedCount ≤ q.usedCount ∧
      q'.usedBytes ≤ q.usedBytes) : Within limits s' where
  count := by
    have := total_put (fun _ _ => 1) eventId o s.active
    have hnew : weigh (fun (_ : EventId) (_ : ActiveEvent) => 1) eventId o ≤ 1 := by
      cases o <;> simp
    rw [ha, weigh_some, ← hactive, ← size_eq_total, ← size_eq_total] at this
    have := h.count
    omega
  bytes := hbytes.trans h.bytes
  tenant t b' hb' := by
    obtain ⟨b, hb, hcount, hsize⟩ := htenants t b' hb'
    have := h.tenant t b hb
    omega
  room id' q₁ hq₁ := by
    rw [hqueue] at hq₁
    split at hq₁
    · cases hq₁
      have := h.room id q hq
      rw [hdef]
      omega
    · exact h.room id' q₁ hq₁

/-- Handing out a delivery keeps the books. -/
theorem Bookkeeping.take {head : DeliveryRecord} (h : Bookkeeping limits s)
    (htaken : Taken id s s' head record q q') :
    Bookkeeping limits s' ∧ ∃ a, s.active.lookup head.event.eventId = some a ∧ head.Carries a ∧
      id ∈ a.remaining ∧ id ∉ a.operations := by
  have hledger := h.ledger id q htaken.before
  obtain ⟨a, ha, hcarries, howed, hidle, -⟩ :=
    hledger.queued_owed (htaken.queued.mem_iff.mp List.mem_cons_self)
  have hevent := h.event _ a ha
  have hactive := htaken.active a ha
  refine ⟨⟨h.toStored.change ha htaken.before ⟨?_, by simp⟩ hactive htaken.queueOf
      htaken.definition (hledger.take htaken.queued htaken.usedCount htaken.usedBytes
        htaken.inflight htaken.pendingAges _ ha),
    h.toTotals.change ha hactive rfl rfl rfl
      ⟨htaken.pendingRequired, htaken.activeBytes, htaken.tenants⟩,
    h.toWithin.shrink htaken.before hactive ha (le_of_eq htaken.activeBytes)
      (fun t b hb => ⟨b, htaken.tenants ▸ hb, le_rfl, le_rfl⟩) htaken.queueOf htaken.definition
      ⟨le_of_eq htaken.usedCount, le_of_eq htaken.usedBytes⟩,
    h.routes.keep htaken.routes
      (definitions_of_queueOf htaken.before htaken.queueOf htaken.definition)⟩, a, ha, hcarries,
    howed, hidle⟩
  rintro a' ha'
  cases ha'
  refine ⟨rfl, rfl, rfl, hevent.owed, Finset.Subset.refl _, Finset.Subset.refl _,
    hevent.required_subset, fun id' hid' => ?_, fun id' hid' => ⟨Iff.rfl, ?_⟩⟩
  · rcases (mem_insert _).mp hid' with rfl | hold
    · exact howed
    · exact hevent.flying_subset id' hold
  · simp [hid']

/-- A failed delivery that is queued again keeps the books. -/
theorem Bookkeeping.requeue {record' : DeliveryRecord} (h : Bookkeeping limits s)
    (hre : Requeued id s s' record record' a a' q) (hcarries : record.Carries a) :
    Bookkeeping limits s' := by
  have hledger := h.ledger id q hre.before
  have hevent := h.event _ a hre.stored
  have hflying : id ∈ a.operations := mem_iff_lookup.mpr ⟨_, hre.operation⟩
  have hagain : record'.Carries a' :=
    ⟨(hre.again.1.trans hcarries.1).trans hre.event.symm,
      (hre.again.2.1.trans hcarries.2.1).trans hre.bytes.symm,
      (hre.again.2.2.trans hcarries.2.2).trans hre.acceptedAt.symm⟩
  have hrequeued := hledger.requeue hre.stored hre.owed hflying
    (congrArg DeviceEvent.eventId hre.again.1) hagain
    hre.bytes hre.acceptedAt hre.remaining (by simp [hre.operations])
  refine ⟨h.toStored.change hre.stored hre.before ⟨?_, by simp⟩ hre.active hre.queueOf rfl
      hrequeued,
    h.toTotals.change hre.stored hre.active hre.event hre.bytes hre.required
      ⟨hre.pendingRequired, hre.activeBytes, hre.tenants⟩,
    h.toWithin.shrink hre.before hre.active hre.stored (le_of_eq hre.activeBytes)
      (fun t b hb => ⟨b, hre.tenants ▸ hb, le_rfl, le_rfl⟩) hre.queueOf rfl ⟨le_rfl, le_rfl⟩,
    h.routes.keep hre.routes (definitions_of_queueOf hre.before hre.queueOf rfl)⟩
  rintro b hb
  cases hb
  refine ⟨hre.event, hre.bytes, hre.acceptedAt, hre.remaining ▸ hevent.owed,
    hre.remaining ▸ Finset.Subset.refl _, hre.required ▸ Finset.Subset.refl _,
    by rw [hre.required, hre.remaining]; exact hevent.required_subset,
    fun id' hid' => ?_, fun id' hid' => ⟨by rw [hre.remaining], by simp [hre.operations, hid']⟩⟩
  rw [hre.operations, mem_erase] at hid'
  rw [hre.remaining]
  exact hevent.flying_subset id' hid'.2

/-- The last event of a tenant carries all bytes of its backlog. -/
theorem tenantBytes_last {active : Table EventId ActiveEvent} (ha : active.lookup eventId = some a)
    (hlast : active.total (tenantOne a.event.device.tenantId) ≤ 1) :
    active.total (tenantBytes a.event.device.tenantId) = a.bytes := by
  have hone := total_of_lookup (tenantOne a.event.device.tenantId) ha
  have hothers : (active.erase eventId).total (tenantOne a.event.device.tenantId) = 0 := by
    simp only [tenantOne, if_true] at hone
    omega
  have hnobytes : (active.erase eventId).total (tenantBytes a.event.device.tenantId) = 0 := by
    refine total_eq_zero fun e b hb => ?_
    have := (total_eq_zero_iff.mp hothers) e b hb
    simp only [tenantOne, ite_eq_right_iff, one_ne_zero, imp_false] at this
    simp [tenantBytes, this]
  rw [total_of_lookup _ ha, hnobytes]
  simp [tenantBytes]

/-- The tenant backlogs after one event of a tenant is forgotten. -/
theorem Totals.releaseTenant (h : Totals s) (ha : s.active.lookup eventId = some a) (t : TenantId) :
    ((EventBus.releaseTenant s.tenants a.event.device.tenantId a.bytes).lookup t).getD {} =
      { count := ((s.tenants.lookup t).getD {}).count - tenantOne t eventId a
        bytes := ((s.tenants.lookup t).getD {}).bytes - EventBus.tenantBytes t eventId a } := by
  have hpos := le_total (f := tenantOne a.event.device.tenantId) ha
  have hcount := h.tenantCount a.event.device.tenantId
  have hbytes := h.tenantBytes a.event.device.tenantId
  simp only [tenantOne, if_true] at hpos
  unfold EventBus.releaseTenant
  cases hb : s.tenants.lookup a.event.device.tenantId with
  | none =>
    simp only [hb, Option.getD_none] at hcount
    omega
  | some b =>
    simp only [hb, Option.getD_some] at hcount hbytes
    by_cases ht : t = a.event.device.tenantId
    · subst ht
      by_cases hlast : b.count - 1 = 0
      · have hall := tenantBytes_last ha (by omega)
        simp only [hlast, if_true, lookup_erase, Option.getD_none, hb, Option.getD_some,
          tenantOne, EventBus.tenantBytes, TenantBacklog.mk.injEq, true_and]
        omega
      · simp [hlast, hb, tenantOne, EventBus.tenantBytes]
    · have hne : a.event.device.tenantId ≠ t := Ne.symm ht
      by_cases hlast : b.count - 1 = 0
      · simp [hlast, ht, tenantOne, EventBus.tenantBytes, hne]
      · simp [hlast, ht, tenantOne, EventBus.tenantBytes, hne]

/-- Releasing a tenant leaves only backlogs that were there, none of them larger or empty. -/
theorem releaseTenant_lookup {tenants : Table TenantId TenantBacklog} {tenantId t : TenantId}
    {bytes : ℕ} {b' : TenantBacklog}
    (hb' : (EventBus.releaseTenant tenants tenantId bytes).lookup t = some b') :
    ∃ b, tenants.lookup t = some b ∧ b'.count ≤ b.count ∧ b'.bytes ≤ b.bytes ∧
      (0 < b.count → 0 < b'.count) := by
  revert hb'
  fun_cases EventBus.releaseTenant tenants tenantId bytes <;>
    grind [lookup_erase_eq, lookup_insert_eq]

/-- A settled event leaves the totals it belongs to once it is owed to no sink. -/
theorem Released.total (hrel : Released id s s' record a a' q) (f : EventId → ActiveEvent → ℕ)
    (hsame : f record.event.eventId a' = f record.event.eventId a) :
    s'.active.total f = if a'.remaining = ∅ then
      s.active.total f - f record.event.eventId a else s.active.total f := by
  have hmove := total_put f record.event.eventId
    (if a'.remaining = ∅ then none else some a') s.active
  rw [← hrel.active, hrel.stored, weigh_some] at hmove
  split at hmove
  · next hempty =>
    rw [weigh_none] at hmove
    rw [if_pos hempty]
    omega
  · next hkept =>
    rw [weigh_some, hsame] at hmove
    rw [if_neg hkept]
    omega

/-- A settled delivery leaves every total without what it released. -/
theorem Totals.release (h : Totals s) (hrel : Released id s s' record a a' q)
    (hsub : a'.required ⊆ a'.remaining) : Totals s' := by
  refine ⟨?_, ?_, fun t => ?_, fun t => ?_, fun t b hb => ?_⟩
  · have hweight : weigh requiredCard record.event.eventId
        (if a'.remaining = ∅ then none else some a') = (a.required.erase id).card := by
      split
      · next hempty =>
        rw [hempty, Finset.subset_empty, hrel.required] at hsub
        simp [hsub]
      · simp [requiredCard, hrel.required]
    have hcard := total_put requiredCard record.event.eventId
      (if a'.remaining = ∅ then none else some a') s.active
    rw [hweight, ← hrel.active, hrel.stored, weigh_some, requiredCard] at hcard
    rw [hrel.pendingRequired, h.pendingRequired]
    split
    · next hmem =>
      have := Finset.card_pos.mpr ⟨id, hmem⟩
      rw [Finset.card_erase_of_mem hmem] at hcard
      omega
    · next hmem =>
      rw [Finset.erase_eq_of_notMem hmem] at hcard
      omega
  · rw [hrel.activeBytes, h.activeBytes, hrel.total eventBytes hrel.bytes]
    rfl
  · have hsame : tenantOne t record.event.eventId a' = tenantOne t record.event.eventId a := by
      simp [tenantOne, hrel.event]
    rw [hrel.tenants, hrel.total _ hsame, ← h.tenantCount]
    split
    · rw [h.releaseTenant hrel.stored]
    · rfl
  · have hsame : EventBus.tenantBytes t record.event.eventId a' =
        EventBus.tenantBytes t record.event.eventId a := by
      simp [EventBus.tenantBytes, hrel.event, hrel.bytes]
    rw [hrel.tenants, hrel.total _ hsame, ← h.tenantBytes]
    split
    · rw [h.releaseTenant hrel.stored]
    · rfl
  · rw [hrel.tenants] at hb
    split at hb
    · obtain ⟨b₀, hb₀, -, -, hpos⟩ := releaseTenant_lookup hb
      exact hpos (h.tenantPositive t b₀ hb₀)
    · exact h.tenantPositive t b hb

/-- A settled delivery keeps the books. -/
theorem Bookkeeping.release (h : Bookkeeping limits s) (hrel : Released id s s' record a a' q)
    (hcarries : record.Carries a) : Bookkeeping limits s' := by
  have hledger := h.ledger id q hrel.before
  have hevent := h.event _ a hrel.stored
  have hflying : id ∈ a.operations := mem_iff_lookup.mpr ⟨_, hrel.operation⟩
  have hreqsub : a'.required ⊆ a'.remaining := by
    rw [hrel.required, hrel.remaining]
    exact Finset.erase_subset_erase id hevent.required_subset
  have hsettled : ∀ b, (if a'.remaining = ∅ then none else some a') = some b → b = a' := by
    intro b hb
    split at hb <;> cases hb
    rfl
  have hreleased := hledger.settle hrel.stored hrel.owed hflying hcarries
    (o := if a'.remaining = ∅ then none else some a') fun b hb => by
      rw [hsettled b hb, hrel.remaining, hrel.operations]
      simp
  refine ⟨h.toStored.change hrel.stored hrel.before ⟨?_, ?_⟩ hrel.active hrel.queueOf rfl
      hreleased, h.toTotals.release hrel hreqsub,
    h.toWithin.shrink hrel.before hrel.active hrel.stored ?_ ?_ hrel.queueOf rfl
      ⟨Nat.sub_le _ _, Nat.sub_le _ _⟩,
    h.routes.keep hrel.routes (definitions_of_queueOf hrel.before hrel.queueOf rfl)⟩
  · intro b hb
    have hkept : a'.remaining ≠ ∅ := by
      rintro hempty
      simp [hempty] at hb
    obtain rfl := hsettled b hb
    refine ⟨hrel.event, hrel.bytes, hrel.acceptedAt, hkept,
      hrel.remaining ▸ Finset.erase_subset _ _, hrel.required ▸ Finset.erase_subset _ _, hreqsub,
      fun id' hid' => ?_, fun id' hid' => ⟨by simp [hrel.remaining, hid'],
        by simp [hrel.operations, hid']⟩⟩
    rw [hrel.operations, mem_erase] at hid'
    rw [hrel.remaining]
    exact Finset.mem_erase.mpr ⟨hid'.1, hevent.flying_subset id' hid'.2⟩
  · intro hgone id' hid' hin
    have hempty : a'.remaining = ∅ := by
      by_contra hkept
      simp [hkept] at hgone
    rw [hrel.remaining] at hempty
    exact Finset.eq_empty_iff_forall_notMem.mp hempty id' (Finset.mem_erase.mpr ⟨hid', hin⟩)
  · rw [hrel.activeBytes]
    split
    · exact Nat.sub_le _ _
    · exact le_rfl
  · intro t b hb
    rw [hrel.tenants] at hb
    split at hb
    · obtain ⟨b₀, hb₀, hcount, hbytes, -⟩ := releaseTenant_lookup hb
      exact ⟨b₀, hb₀, hcount, hbytes⟩
    · exact ⟨b, hb, le_rfl, le_rfl⟩

end Delivery

end Netbaiot.EventBus
