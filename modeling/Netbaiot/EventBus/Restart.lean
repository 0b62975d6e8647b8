import Netbaiot.EventBus.Bookkeeping

/-!
# Restoring a restart snapshot

`restore` checks all records against projected counters before it stores the first
one.  `Projected` says what the projections mean, and storing the checked records one
by one is a sequence of admissions, so the books of the bus are kept.
-/

namespace Netbaiot.EventBus

open Lib Op AList

variable {s s' : State} {record : SpoolRecord} {records : List SpoolRecord} {limits : Limits}
  {instant : ℕ}

/-- The stored event of a restored record. -/
def SpoolRecord.stored (record : SpoolRecord) : ActiveEvent where
  event := record.event
  bytes := record.event.json.length
  remaining := record.pendingSinks.toFinset
  required := record.pendingSinks.toFinset
  attempts := record.attempts
  acceptedAt := record.acceptedAt
  routingRevision := record.routingRevision
  operations := ∅

/-- The weight restored records add to a total over the stored events. -/
def restoredWeight (f : EventId → ActiveEvent → ℕ) (records : List SpoolRecord) : ℕ :=
  (records.map fun record => f record.event.eventId record.stored).sum

@[simp] theorem restoredWeight_nil (f : EventId → ActiveEvent → ℕ) : restoredWeight f [] = 0 := rfl

theorem restoredWeight_append (f : EventId → ActiveEvent → ℕ) (records more : List SpoolRecord) :
    restoredWeight f (records ++ more) = restoredWeight f records + restoredWeight f more := by
  simp [restoredWeight]

@[simp] theorem restoredWeight_singleton (f : EventId → ActiveEvent → ℕ) (record : SpoolRecord) :
    restoredWeight f [record] = f record.event.eventId record.stored := by
  simp [restoredWeight]

/-- A record that may be restored: pending at registered required sinks, each named once. -/
structure Restorable (s : State) (record : SpoolRecord) : Prop where
  pending : record.pendingSinks ≠ []
  nodup : record.pendingSinks.Nodup
  required : ∀ id ∈ record.pendingSinks, ∃ q, s.queueOf id = some q ∧
    q.definition.mode = .confirmedRequired

/-! ## Storing the records -/

theorem restoreSinks_lookup (instant : ℕ) (record : SpoolRecord) {pending : List SinkId}
    (hnodup : pending.Nodup) (sinks : Table SinkId SinkState) (id : SinkId) :
    (pending.foldl (restoreSinks instant record) sinks).lookup id =
      (sinks.lookup id).map fun sink =>
        if id ∈ pending then sink.onQueue (·.enqueue (record.delivery instant id)) else sink := by
  induction pending generalizing sinks with
  | nil => simp
  | cons first rest ih =>
    obtain ⟨hfresh, hrest⟩ := List.nodup_cons.mp hnodup
    rw [List.foldl_cons, ih hrest]
    by_cases hid : id = first
    · subst hid
      unfold restoreSinks
      cases hsink : sinks.lookup id with
      | none => simp [hsink]
      | some sink => simp [hfresh]
    · have hkeep : (restoreSinks instant record sinks first).lookup id = sinks.lookup id := by
        unfold restoreSinks
        split
        · exact lookup_insert_ne hid
        · rfl
      simp [hkeep, hid]

/-- Storing a restorable record with a fresh identity admits its event. -/
theorem restoreRecord_admitted (instant : ℕ) (hrestorable : Restorable s record)
    (hfresh : s.active.lookup record.event.eventId = none) :
    Admitted (record.delivery instant) s (restoreRecord instant s record) record.stored where
  fresh := hfresh
  active := rfl
  size := rfl
  carries _ := ⟨rfl, rfl, rfl⟩
  idle := rfl
  owed := by simpa [SpoolRecord.stored] using hrestorable.pending
  required_subset := Finset.Subset.refl _
  known id hid := by
    obtain ⟨q, hq, -⟩ := hrestorable.required id (List.mem_toFinset.mp hid)
    rw [hq]
    rfl
  confirmed id hid q hq := by
    obtain ⟨q', hq', hmode⟩ := hrestorable.required id (List.mem_toFinset.mp hid)
    exact Option.some.inj (hq.symm.trans hq') ▸ hmode
  queueOf id := by
    simp only [State.queueOf, restoreRecord,
      restoreSinks_lookup instant record (Finset.sort_nodup _ _), Option.map_map]
    congr 1
    funext sink
    by_cases hid : id ∈ record.pendingSinks.toFinset <;>
      simp only [Function.comp_apply, Finset.mem_sort, SpoolRecord.stored, hid, if_true, if_false,
        SinkState.onQueue_toSinkQueue]

/-- Fields that storing records does not touch. -/
structure SameAdmission (s s' : State) : Prop where
  activeBytes : s'.activeBytes = s.activeBytes
  pendingRequired : s'.pendingRequired = s.pendingRequired
  tenants : s'.tenants = s.tenants
  nextOperation : s'.nextOperation = s.nextOperation
  routes : s'.routes = s.routes
  definition : ∀ id, (s'.queueOf id).map SinkQueue.definition =
    (s.queueOf id).map SinkQueue.definition

theorem SameAdmission.trans {s'' : State} (h : SameAdmission s s') (h' : SameAdmission s' s'') :
    SameAdmission s s'' :=
  ⟨h'.activeBytes.trans h.activeBytes, h'.pendingRequired.trans h.pendingRequired,
    h'.tenants.trans h.tenants, h'.nextOperation.trans h.nextOperation, h'.routes.trans h.routes,
    fun id => (h'.definition id).trans (h.definition id)⟩

theorem restoreRecord_same (instant : ℕ)
    (h : Admitted (record.delivery instant) s (restoreRecord instant s record) record.stored) :
    SameAdmission s (restoreRecord instant s record) :=
  ⟨rfl, rfl, rfl, rfl, rfl, h.definitions⟩

theorem Restorable.of_same (h : Restorable s record) (hsame : SameAdmission s s') :
    Restorable s' record where
  pending := h.pending
  nodup := h.nodup
  required id hid := by
    obtain ⟨q, hq, hmode⟩ := h.required id hid
    have hdef := hsame.definition id
    rw [hq, Option.map_some, Option.map_eq_some_iff] at hdef
    obtain ⟨q', hq', hdef⟩ := hdef
    exact ⟨q', hq', hdef ▸ hmode⟩

theorem restoreRecord_active (instant : ℕ) (s : State) (record : SpoolRecord) :
    (restoreRecord instant s record).active =
      s.active.insert record.event.eventId record.stored := rfl

/-- Records of distinct events are all stored, next to what was stored before. -/
theorem restoreRecords_active (instant : ℕ)
    (hdistinct : (records.map fun record => record.event.eventId).Nodup) (s : State) :
    (∀ e, (∀ record ∈ records, record.event.eventId ≠ e) →
      (records.foldl (restoreRecord instant) s).active.lookup e = s.active.lookup e) ∧
    ∀ record ∈ records,
      (records.foldl (restoreRecord instant) s).active.lookup record.event.eventId =
        some record.stored := by
  induction records generalizing s with
  | nil => exact ⟨by simp, by simp⟩
  | cons record rest ih =>
    obtain ⟨hnew, hdistinct⟩ := List.nodup_cons.mp hdistinct
    obtain ⟨hkeep, hlookup⟩ := ih hdistinct (restoreRecord instant s record)
    refine ⟨fun e he => ?_, fun r hr => ?_⟩
    · rw [List.foldl_cons, hkeep e fun later hlater => he later (List.mem_cons_of_mem _ hlater),
        restoreRecord_active, lookup_insert_ne (Ne.symm (he record List.mem_cons_self))]
    · rw [List.foldl_cons]
      rcases List.mem_cons.mp hr with rfl | hr
      · rw [hkeep _ fun later hlater he => hnew (List.mem_map.mpr ⟨later, hlater, he⟩),
          restoreRecord_active]
        exact lookup_insert _
      · exact hlookup r hr

/-- The queue of a sink after the records pending at it were queued in turn. -/
def SinkQueue.requeue (instant : ℕ) (id : SinkId) (records : List SpoolRecord) (q : SinkQueue) :
    SinkQueue :=
  (records.filter fun record => id ∈ record.pendingSinks).foldl
    (fun q record => q.enqueue (record.delivery instant id)) q

/-- Every sink queues the records pending at it, in the order of the snapshot. -/
theorem restoreRecords_sinks (instant : ℕ) (records : List SpoolRecord) (s : State) (id : SinkId) :
    (records.foldl (restoreRecord instant) s).sinks.lookup id =
      (s.sinks.lookup id).map fun sink => sink.onQueue (·.requeue instant id records) := by
  induction records generalizing s with
  | nil =>
    show s.sinks.lookup id = (s.sinks.lookup id).map fun sink => sink
    rw [Option.map_id']
  | cons record rest ih =>
    rw [List.foldl_cons, ih]
    simp only [restoreRecord, restoreSinks_lookup instant record (Finset.sort_nodup _ _),
      Option.map_map, Finset.mem_sort, List.mem_toFinset]
    congr 1
    funext sink
    by_cases hid : id ∈ record.pendingSinks <;>
      simp [hid, SinkQueue.requeue, SinkState.onQueue]

/-- Storing checked records keeps the ledgers exact and adds their weights to every total. -/
theorem restoreRecords_stored (instant : ℕ) (h : Stored s)
    (hrestorable : ∀ record ∈ records, Restorable s record)
    (hdistinct : (records.map fun record => record.event.eventId).Nodup)
    (hfresh : ∀ record ∈ records, s.active.lookup record.event.eventId = none) :
    Stored (records.foldl (restoreRecord instant) s) ∧
      SameAdmission s (records.foldl (restoreRecord instant) s) ∧
      ∀ f, (records.foldl (restoreRecord instant) s).active.total f =
        s.active.total f + restoredWeight f records := by
  induction records generalizing s with
  | nil => exact ⟨h, ⟨rfl, rfl, rfl, rfl, rfl, fun _ => rfl⟩, by simp⟩
  | cons record rest ih =>
    obtain ⟨hnew, hdistinct⟩ := List.nodup_cons.mp hdistinct
    have hother : ∀ later ∈ rest, later.event.eventId ≠ record.event.eventId :=
      fun later hlater he => hnew (List.mem_map.mpr ⟨later, hlater, he⟩)
    have hone := restoreRecord_admitted instant (hrestorable record List.mem_cons_self)
      (hfresh record List.mem_cons_self)
    have hfirst := restoreRecord_same instant hone
    obtain ⟨hstored, hsame, htotal⟩ := ih (h.store hone)
      (fun later hlater => (hrestorable later (List.mem_cons_of_mem _ hlater)).of_same hfirst)
      hdistinct fun later hlater => by
        rw [restoreRecord_active, lookup_insert_ne (hother later hlater)]
        exact hfresh later (List.mem_cons_of_mem _ hlater)
    refine ⟨hstored, hfirst.trans hsame, fun f => ?_⟩
    rw [List.foldl_cons, htotal, hone.total]
    simp only [restoredWeight, List.map_cons, List.sum_cons, SpoolRecord.stored]
    omega

/-! ## Checking the records -/

/-- The usage of a sink that a projection starts from. -/
def State.usage (s : State) (id : SinkId) : ℕ × ℕ :=
  ((s.queueOf id).map fun q => (q.usedCount, q.usedBytes)).getD (0, 0)

/-- What the projections of a snapshot check mean after some records. -/
structure Projected (limits : Limits) (s : State) (done : List SpoolRecord) (acc : Preflight) :
    Prop where
  restorable : ∀ record ∈ done, Restorable s record
  small : ∀ record ∈ done, record.pendingSinks.length ≤ limits.maxFanoutPerEvent ∧
    record.attempts.size ≤ limits.maxSinks
  distinct : (done.map fun record => record.event.eventId).Nodup
  ids : ∀ e, e ∈ acc.ids ↔ ∃ record ∈ done, record.event.eventId = e
  fresh : ∀ record ∈ done, s.active.lookup record.event.eventId = none
  totalBytes : acc.totalBytes = s.activeBytes + restoredWeight eventBytes done
  bytesRoom : done ≠ [] → acc.totalBytes ≤ limits.globalEventMaxBytes
  totalRequired : acc.totalRequired = s.pendingRequired + restoredWeight requiredCard done
  tenant : ∀ t, (acc.tenants.lookup t).getD ((s.tenants.lookup t).getD {}) =
    { count := ((s.tenants.lookup t).getD {}).count + restoredWeight (tenantOne t) done
      bytes := ((s.tenants.lookup t).getD {}).bytes + restoredWeight (tenantBytes t) done }
  tenantRoom : ∀ t b, acc.tenants.lookup t = some b → 0 < b.count ∧
    b.count ≤ limits.eventQueueMaxCountPerTenant ∧ b.bytes ≤ limits.eventQueueMaxBytesPerTenant
  projection : ∀ id, (acc.projections.lookup id).getD (s.usage id) =
    ((s.usage id).1 + restoredWeight (owedOne id) done,
      (s.usage id).2 + restoredWeight (owedBytes id) done)
  sinkRoom : ∀ id p, acc.projections.lookup id = some p → ∀ q, s.queueOf id = some q →
    p.1 ≤ q.definition.maxCount ∧ p.2 ≤ q.definition.maxBytes

theorem projectSinks_ok {bytes : ℕ} {sinks : List SinkId} {pending : Finset SinkId}
    {projections projections' : Table SinkId (ℕ × ℕ)}
    (h : projectSinks s bytes sinks pending projections = .ok projections') :
    sinks.Nodup ∧ (∀ id ∈ sinks, id ∉ pending ∧ ∃ q, s.queueOf id = some q ∧
      q.definition.mode = .confirmedRequired) ∧
    (∀ id, (projections'.lookup id).getD (s.usage id) =
      if id ∈ sinks then
        (((projections.lookup id).getD (s.usage id)).1 + 1,
          ((projections.lookup id).getD (s.usage id)).2 + bytes)
      else (projections.lookup id).getD (s.usage id)) ∧
    ∀ id p, projections'.lookup id = some p → projections.lookup id = some p ∨
      ∀ q, s.queueOf id = some q → p.1 ≤ q.definition.maxCount ∧ p.2 ≤ q.definition.maxBytes := by
  induction sinks generalizing pending projections with
  | nil =>
    cases h
    exact ⟨List.nodup_nil, by simp, by simp, fun _ _ hp => .inl hp⟩
  | cons first rest ih =>
    refine guard_cases h (fun hnew h => ?_) fun _ h => by cases h
    cases hsink : s.sinks.lookup first with
    | none =>
      rw [hsink] at h
      cases h
    | some sink =>
      rw [hsink] at h
      have hq : s.queueOf first = some sink.toSinkQueue := by simp [State.queueOf, hsink]
      have husage : s.usage first = (sink.usedCount, sink.usedBytes) := by
        simp [State.usage, hq]
      refine guard_cases h (fun hmode h => ?_) fun _ h => by cases h
      refine guard_cases h (fun hroom h => ?_) fun _ h => by cases h
      rw [← husage] at h hroom
      obtain ⟨hnodup, hknown, hproject, hroom'⟩ := ih h
      have hfirst : first ∉ rest := fun hin =>
        (hknown first hin).1 (Finset.mem_insert_self first pending)
      refine ⟨List.nodup_cons.mpr ⟨hfirst, hnodup⟩, ?_, fun id => ?_, fun id p hp => ?_⟩
      · refine List.forall_mem_cons.mpr ⟨⟨hnew, _, hq, not_not.mp hmode⟩, fun id hid => ?_⟩
        obtain ⟨hnotin, hq'⟩ := hknown id hid
        exact ⟨fun hin => hnotin (Finset.mem_insert_of_mem hin), hq'⟩
      · rw [hproject id]
        by_cases hid : id = first
        · subst hid
          simp [hfirst]
        · simp [hid]
      · rcases hroom' id p hp with hold | hbound
        · rw [lookup_insert_eq] at hold
          split at hold
          · next hid =>
            subst hid
            right
            intro q' hq'
            obtain rfl := Option.some.inj (hq.symm.trans hq')
            cases hold
            omega
          · exact .inl hold
        · exact .inr hbound

/-- Checking one more record extends what the projections mean. -/
theorem checkRecord_projected {done : List SpoolRecord} {acc acc' : Preflight}
    (h : Projected limits s done acc) (hcheck : checkRecord limits s acc record = .ok acc') :
    Projected limits s (done ++ [record]) acc' := by
  simp only [checkRecord, except_bind_eq_ok, check_eq_ok, pure, Except.pure,
    Except.ok.injEq] at hcheck
  obtain ⟨_, hvalid, _, hsmall, _, hconflict, _, hbytes, _, htenant, projections, hproject, rfl⟩ :=
    hcheck
  obtain ⟨hnodup, hknown, hprojection, hroom⟩ := projectSinks_ok hproject
  have hrestorable : Restorable s record :=
    ⟨fun hnil => hvalid (.inl hnil), hnodup, fun id hid => (hknown id hid).2⟩
  have hnew : ∀ earlier ∈ done, earlier.event.eventId ≠ record.event.eventId :=
    fun earlier hearlier he => hconflict (.inl ((h.ids _).mpr ⟨earlier, hearlier, he⟩))
  refine
    { restorable := List.forall_mem_append.mpr
        ⟨h.restorable, List.forall_mem_singleton.mpr hrestorable⟩
      small := List.forall_mem_append.mpr ⟨h.small, List.forall_mem_singleton.mpr (by omega)⟩
      distinct := ?_
      ids := ?_
      fresh := List.forall_mem_append.mpr ⟨h.fresh, List.forall_mem_singleton.mpr
        (lookup_eq_none.mpr fun hin => hconflict (.inr hin))⟩
      totalBytes := ?_
      bytesRoom := fun _ => not_lt.mp hbytes
      totalRequired := ?_
      tenant := fun t => ?_
      tenantRoom := fun t b hb => ?_
      projection := fun id => ?_
      sinkRoom := fun id p hp => ?_ }
  · rw [List.map_append, List.nodup_append]
    refine ⟨h.distinct, List.nodup_singleton _, ?_⟩
    intro e he e' he' heq
    obtain ⟨earlier, hearlier, rfl⟩ := List.mem_map.mp he
    exact hnew earlier hearlier (heq.trans (List.mem_singleton.mp he'))
  · intro e
    rw [Finset.mem_insert, h.ids]
    constructor
    · rintro (rfl | ⟨r, hr, rfl⟩)
      · exact ⟨record, by simp, rfl⟩
      · exact ⟨r, List.mem_append_left _ hr, rfl⟩
    · rintro ⟨r, hr, rfl⟩
      rcases List.mem_append.mp hr with hr | hr
      · exact .inr ⟨r, hr, rfl⟩
      · exact .inl (by rw [List.mem_singleton.mp hr])
  · rw [restoredWeight_append, restoredWeight_singleton, h.totalBytes]
    simp only [eventBytes, SpoolRecord.stored]
    omega
  · rw [restoredWeight_append, restoredWeight_singleton, h.totalRequired]
    simp only [requiredCard, SpoolRecord.stored, List.toFinset_card_of_nodup hnodup]
    omega
  · rw [restoredWeight_append, restoredWeight_singleton, restoredWeight_append,
      restoredWeight_singleton, lookup_insert_eq]
    have hold := h.tenant t
    by_cases ht : t = record.event.device.tenantId
    · subst ht
      simp only [if_true, Option.getD_some, hold, tenantOne, tenantBytes, SpoolRecord.stored,
        TenantBacklog.mk.injEq]
      omega
    · simp only [ht, if_false, hold, tenantOne, tenantBytes, SpoolRecord.stored, Ne.symm ht,
        Nat.add_zero]
  · rw [lookup_insert_eq] at hb
    split at hb
    · cases hb
      dsimp only
      omega
    · exact h.tenantRoom t b hb
  · rw [hprojection, restoredWeight_append, restoredWeight_singleton, restoredWeight_append,
      restoredWeight_singleton, h.projection]
    by_cases hid : id ∈ record.pendingSinks
    · simp [owedOne, owedBytes, SpoolRecord.stored, hid, Nat.add_assoc]
    · simp [owedOne, owedBytes, SpoolRecord.stored, hid]
  · rcases hroom id p hp with hold | hbound
    · exact h.sinkRoom id p hold
    · exact hbound

theorem checkRecords_projected {done : List SpoolRecord} {acc acc' : Preflight}
    (h : Projected limits s done acc)
    (hcheck : records.foldlM (checkRecord limits s) acc = .ok acc') :
    Projected limits s (done ++ records) acc' := by
  induction records generalizing done acc with
  | nil =>
    cases hcheck
    simpa using h
  | cons record rest ih =>
    rw [List.foldlM_cons, except_bind_eq_ok] at hcheck
    obtain ⟨next, hfirst, hrest⟩ := hcheck
    simpa using ih (checkRecord_projected h hfirst) hrest

/-- What a successful restore did: every record is stored and nothing else changed. -/
structure Restored (limits : Limits) (records : List SpoolRecord) (s s' : State) : Prop where
  small : ∀ record ∈ records, record.pendingSinks.length ≤ limits.maxFanoutPerEvent ∧
    record.attempts.size ≤ limits.maxSinks
  fresh : ∀ record ∈ records, s.active.lookup record.event.eventId = none
  stored : ∀ record ∈ records, s'.active.lookup record.event.eventId = some record.stored
  kept : ∀ e, (∀ record ∈ records, record.event.eventId ≠ e) →
    s'.active.lookup e = s.active.lookup e
  definition : ∀ id, (s'.queueOf id).map SinkQueue.definition =
    (s.queueOf id).map SinkQueue.definition
  nextOperation : s'.nextOperation = s.nextOperation

/-- Stored events and ledgers do not depend on the cached counters. -/
theorem Stored.of_eq (h : Stored s) (hactive : s'.active = s.active)
    (hqueue : ∀ id, s'.queueOf id = s.queueOf id) : Stored s' where
  event e a ha := (h.event e a (hactive ▸ ha)).keep fun id => congrArg _ (hqueue id)
  ledger id q hq := hactive.symm ▸ h.ledger id q (hqueue id ▸ hq)

/-- The usage of a sink after the records are stored is what was projected for it. -/
theorem Projected.room {t : State} {checked : Preflight}
    (hprojected : Projected limits s records checked) (hs : Stored s) (hwithin : Within limits s)
    (ht : Stored t) (htotal : ∀ f, t.active.total f = s.active.total f + restoredWeight f records)
    (hdef : ∀ id, (t.queueOf id).map SinkQueue.definition = (s.queueOf id).map SinkQueue.definition)
    {id : SinkId} {q : SinkQueue} (hq : t.queueOf id = some q) :
    q.usedCount ≤ q.definition.maxCount ∧ q.usedBytes ≤ q.definition.maxBytes := by
  have hsame := hdef id
  rw [hq, Option.map_some, eq_comm, Option.map_eq_some_iff] at hsame
  obtain ⟨q₀, hq₀, hq₀def⟩ := hsame
  have husage : s.usage id = (q₀.usedCount, q₀.usedBytes) := by simp [State.usage, hq₀]
  have hcount : q.usedCount = q₀.usedCount + restoredWeight (owedOne id) records := by
    rw [(ht.ledger id q hq).usedCount, (hs.ledger id q₀ hq₀).usedCount, htotal]
  have hbytes : q.usedBytes = q₀.usedBytes + restoredWeight (owedBytes id) records := by
    rw [(ht.ledger id q hq).usedBytes, (hs.ledger id q₀ hq₀).usedBytes, htotal]
  have hprojection := hprojected.projection id
  rw [husage] at hprojection
  rw [← hq₀def]
  cases hp : checked.projections.lookup id with
  | none =>
    simp only [hp, Option.getD_none, Prod.mk.injEq] at hprojection
    have := hwithin.room id q₀ hq₀
    omega
  | some p =>
    simp only [hp, Option.getD_some] at hprojection
    have := hprojected.sinkRoom id p hp q₀ hq₀
    rw [hprojection] at this
    omega

/-- Storing checked records with their projected counters keeps the books. -/
theorem commitRestore_restored {checked : Preflight} (h : Bookkeeping limits s)
    (hprojected : Projected limits s records checked)
    (hcount : s.active.size + records.length ≤ limits.globalEventMaxCount) :
    Bookkeeping limits (commitRestore instant records checked s) ∧
      Restored limits records s (commitRestore instant records checked s) := by
  obtain ⟨hstored, hsame, htotal⟩ := restoreRecords_stored instant
    h.toStored hprojected.restorable hprojected.distinct hprojected.fresh
  obtain ⟨hkeep, hlookup⟩ := restoreRecords_active instant hprojected.distinct s
  unfold commitRestore
  generalize records.foldl (restoreRecord instant) s = t at hstored hsame htotal hkeep hlookup ⊢
  have htenant : ∀ u, ((checked.tenants ∪ t.tenants).lookup u).getD {} =
      (checked.tenants.lookup u).getD ((s.tenants.lookup u).getD {}) := fun u => by
    rw [lookup_union_eq, hsame.tenants]
    cases checked.tenants.lookup u <;> rfl
  have htenantRoom : ∀ u b, (checked.tenants ∪ t.tenants).lookup u = some b → 0 < b.count ∧
      b.count ≤ limits.eventQueueMaxCountPerTenant ∧
      b.bytes ≤ limits.eventQueueMaxBytesPerTenant := by
    intro u b hb
    rw [lookup_union_eq, hsame.tenants] at hb
    cases hnew : checked.tenants.lookup u with
    | none =>
      rw [hnew, Option.none_or] at hb
      exact ⟨h.tenantPositive u b hb, h.tenant u b hb⟩
    | some b' =>
      rw [hnew, Option.some_or] at hb
      cases hb
      exact hprojected.tenantRoom u b hnew
  refine ⟨⟨hstored.of_eq rfl fun _ => rfl, ⟨?_, ?_, fun u => ?_, fun u => ?_,
      fun u b hb => (htenantRoom u b hb).1⟩,
      ⟨?_, ?_, fun u b hb => (htenantRoom u b hb).2, fun id q hq =>
        hprojected.room h.toStored h.toWithin hstored htotal hsame.definition hq⟩,
      h.routes.keep hsame.routes hsame.definition⟩,
    ⟨hprojected.small, hprojected.fresh, hlookup, hkeep, hsame.definition, hsame.nextOperation⟩⟩
  · rw [hprojected.totalRequired, h.pendingRequired, htotal]
  · dsimp only
    rw [hprojected.totalBytes, h.activeBytes, htotal]
  · rw [htenant, hprojected.tenant, htotal, h.tenantCount]
  · dsimp only
    rw [htenant, hprojected.tenant, htotal, h.tenantBytes]
  · rw [size_eq_total, htotal, ← size_eq_total]
    simpa [restoredWeight] using hcount
  · dsimp only
    by_cases hnil : records = []
    · rw [hprojected.totalBytes, hnil]
      simpa using h.bytes
    · exact hprojected.bytesRoom hnil

/-- The projections a snapshot check starts from. -/
def Preflight.start (s : State) : Preflight where
  ids := ∅
  totalBytes := s.activeBytes
  totalRequired := s.pendingRequired
  projections := ∅
  tenants := ∅

theorem Projected.start (limits : Limits) (s : State) : Projected limits s [] (.start s) := by
  constructor <;> simp [Preflight.start]

/-- A restore is refused before anything is written, or its checked records are all stored. -/
theorem restore_cases {r : Except Error ℕ}
    (hexec : exec (restore limits instant records) s = (r, s')) :
    ((∃ e, r = .error e) ∧ s' = s) ∨
      ∃ checked, r = .ok records.length ∧ s' = commitRestore instant records checked s ∧
        Projected limits s records checked ∧
        s.active.size + records.length ≤ limits.globalEventMaxCount := by
  have hstay : ∀ e, (Except.error e, s) = (r, s') → ((∃ e, r = .error e) ∧ s' = s) := by
    rintro e he
    cases he
    exact ⟨⟨e, rfl⟩, rfl⟩
  simp only [restore, exec_ensure_bind, exec_get_bind, exec_fromExcept_bind] at hexec
  refine guard_cases hexec (fun _ h => .inl (hstay _ h)) fun _ hexec => ?_
  refine guard_cases hexec (fun _ h => .inl (hstay _ h)) fun _ hexec => ?_
  refine guard_cases hexec (fun _ h => .inl (hstay _ h)) fun hcount hexec => ?_
  cases hcheck : records.foldlM (checkRecord limits s) (.start s) with
  | error e =>
    rw [Preflight.start] at hcheck
    rw [hcheck] at hexec
    exact .inl (hstay e hexec)
  | ok checked =>
    have hprojected := checkRecords_projected (.start limits s) hcheck
    rw [Preflight.start] at hcheck
    rw [hcheck] at hexec
    obtain ⟨rfl, rfl⟩ := hexec
    exact .inr ⟨checked, rfl, rfl, hprojected, not_lt.mp hcount⟩

/-- A restore refuses the whole snapshot, or stores all of it and keeps the books. -/
theorem restore_spec {r : Except Error ℕ} (h : Bookkeeping limits s)
    (hexec : exec (restore limits instant records) s = (r, s')) :
    ((∃ e, r = .error e) ∧ s' = s) ∨
      r = .ok records.length ∧ Bookkeeping limits s' ∧ Restored limits records s s' := by
  rcases restore_cases hexec with hrefused | ⟨checked, hr, rfl, hprojected, hcount⟩
  · exact .inl hrefused
  · exact .inr ⟨hr, commitRestore_restored h hprojected hcount⟩

end Netbaiot.EventBus
