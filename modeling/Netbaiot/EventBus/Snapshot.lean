import Netbaiot.EventBus.Admission

/-!
# Snapshots for the restart spool

`spoolSnapshot` writes one record for every stored event with required work, ordered by
event identity.  `Fits` says when a fresh bus has room for a list of records, and a list
that fits is accepted: the projections of `checkRecord` stay below what the whole list
adds, so no prefix is refused.
-/

namespace Netbaiot.EventBus

open Lib Op AList

variable {s : State} {limits : Limits}

/-! ## The records of a snapshot -/

/-- What a snapshot keeps of a stored event. -/
def ActiveEvent.spooled (a : ActiveEvent) : SpoolRecord where
  event := a.event
  pendingSinks := a.required.sort
  routingRevision := a.routingRevision
  acceptedAt := a.acceptedAt
  attempts := a.attempts

@[simp] theorem ActiveEvent.spooled_pending (a : ActiveEvent) :
    a.spooled.pendingSinks.toFinset = a.required := Finset.sort_toFinset _ _

/-- The stored events a snapshot writes, in the order of the table. -/
def State.spooling (s : State) : List SpoolRecord :=
  (s.active.values.filter fun a => a.required ≠ ∅).map ActiveEvent.spooled

theorem spoolSnapshot_perm (s : State) : (spoolSnapshot s).Perm s.spooling :=
  List.perm_insertionSort _ _

theorem mem_spoolSnapshot {record : SpoolRecord} :
    record ∈ spoolSnapshot s ↔
      ∃ e a, s.active.lookup e = some a ∧ a.required ≠ ∅ ∧ a.spooled = record := by
  rw [(spoolSnapshot_perm s).mem_iff]
  simp only [State.spooling, List.mem_map, List.mem_filter, mem_values_iff, decide_eq_true_eq]
  constructor
  · rintro ⟨a, ⟨⟨e, ha⟩, hne⟩, hrecord⟩
    exact ⟨e, a, ha, hne, hrecord⟩
  · rintro ⟨e, a, ha, hne, hrecord⟩
    exact ⟨a, ⟨⟨e, ha⟩, hne⟩, hrecord⟩

/-- Stored events have distinct identities, so the records of a snapshot have too. -/
theorem spoolSnapshot_distinct (h : Stored s) :
    ((spoolSnapshot s).map fun record => record.event.eventId).Nodup := by
  refine (((spoolSnapshot_perm s).map _).nodup_iff).mpr ?_
  have hkeys : (s.active.values.map fun a => a.event.eventId).Nodup := by
    have hsame : s.active.values.map (fun a => a.event.eventId) = s.active.keys := by
      simp only [values, keys, List.keys, List.map_map]
      refine List.map_congr_left fun entry hentry => ?_
      exact (h.event entry.1 entry.2 (mem_entries_iff.mp hentry)).identity
    rw [hsame]
    exact s.active.nodupKeys
  rw [State.spooling, List.map_map]
  exact hkeys.sublist (List.filter_sublist.map _)

/-- A snapshot is ordered by event identity. -/
theorem spoolSnapshot_sorted (s : State) :
    (spoolSnapshot s).Pairwise fun a b => a.event.eventId ≤ b.event.eventId := by
  refine List.pairwise_insertionSort (r := fun a b : SpoolRecord => a.event.eventId ≤
    b.event.eventId) _

/-- A snapshot is determined by its records: there is one order for distinct identities. -/
theorem spoolSnapshot_eq {s' : State} (h : Stored s) (h' : Stored s')
    (hmem : ∀ record, record ∈ spoolSnapshot s' ↔ record ∈ spoolSnapshot s) :
    spoolSnapshot s' = spoolSnapshot s := by
  have hdistinct := spoolSnapshot_distinct h
  have hperm : (spoolSnapshot s').Perm (spoolSnapshot s) :=
    (List.perm_ext_iff_of_nodup (spoolSnapshot_distinct h').of_map hdistinct.of_map).mpr hmem
  refine List.Perm.eq_of_pairwise (fun a b ha hb hab hba => ?_) (spoolSnapshot_sorted s')
    (spoolSnapshot_sorted s) hperm
  exact List.inj_on_of_nodup_map hdistinct ((hmem a).mp ha) hb (le_antisymm hab hba)

/-- What a snapshot weighs is bounded by a total over the stored events. -/
theorem restoredWeight_spoolSnapshot_le {f g : EventId → ActiveEvent → ℕ}
    (h : ∀ e a, s.active.lookup e = some a → f a.event.eventId a.spooled.stored ≤ g e a) :
    restoredWeight f (spoolSnapshot s) ≤ s.active.total g := by
  have hsum : restoredWeight f (spoolSnapshot s) =
      ((s.active.values.filter fun a => a.required ≠ ∅).map fun a =>
        f a.event.eventId a.spooled.stored).sum := by
    rw [restoredWeight, ((spoolSnapshot_perm s).map _).sum_eq, State.spooling, List.map_map]
    rfl
  rw [hsum]
  calc ((s.active.values.filter fun a => a.required ≠ ∅).map fun a =>
        f a.event.eventId a.spooled.stored).sum
      ≤ (s.active.values.map fun a => f a.event.eventId a.spooled.stored).sum :=
        (List.filter_sublist.map _).sum_le_sum fun _ _ => Nat.zero_le _
    _ = s.active.total fun _ a => f a.event.eventId a.spooled.stored := by
        simp only [values, total, List.map_map, Function.comp_def]
    _ ≤ s.active.total g := total_le_total h

/-! ## Accepted snapshots -/

/-- A bus has room for all these records together. -/
structure Fits (limits : Limits) (s : State) (records : List SpoolRecord) : Prop where
  restorable : ∀ record ∈ records, Restorable s record
  dated : ∀ record ∈ records, ¬ record.acceptedAt < 0
  small : ∀ record ∈ records, record.pendingSinks.length ≤ limits.maxFanoutPerEvent ∧
    record.attempts.size ≤ limits.maxSinks
  distinct : (records.map fun record => record.event.eventId).Nodup
  fresh : ∀ record ∈ records, s.active.lookup record.event.eventId = none
  bytes : s.activeBytes + restoredWeight eventBytes records ≤ limits.globalEventMaxBytes
  tenant : ∀ t,
    ((s.tenants.lookup t).getD {}).count + restoredWeight (tenantOne t) records ≤
      limits.eventQueueMaxCountPerTenant ∧
    ((s.tenants.lookup t).getD {}).bytes + restoredWeight (tenantBytes t) records ≤
      limits.eventQueueMaxBytesPerTenant
  sink : ∀ id q, s.queueOf id = some q →
    q.usedCount + restoredWeight (owedOne id) records ≤ q.definition.maxCount ∧
    q.usedBytes + restoredWeight (owedBytes id) records ≤ q.definition.maxBytes

/-- Projecting an event succeeds when every pending sink has room for one more. -/
theorem projectSinks_accepts {bytes : ℕ} {sinks : List SinkId} {pending : Finset SinkId}
    {projections : Table SinkId (ℕ × ℕ)} (hnodup : sinks.Nodup) (hnew : ∀ id ∈ sinks, id ∉ pending)
    (hroom : ∀ id ∈ sinks, ∃ q, s.queueOf id = some q ∧ q.definition.mode = .confirmedRequired ∧
      ((projections.lookup id).getD (s.usage id)).1 + 1 ≤ q.definition.maxCount ∧
      ((projections.lookup id).getD (s.usage id)).2 + bytes ≤ q.definition.maxBytes) :
    ∃ projections', projectSinks s bytes sinks pending projections = .ok projections' := by
  induction sinks generalizing pending projections with
  | nil => exact ⟨projections, rfl⟩
  | cons first rest ih =>
    obtain ⟨hfirst, hnodup⟩ := List.nodup_cons.mp hnodup
    obtain ⟨q, hq, hmode, hcount, hbytes⟩ := hroom first List.mem_cons_self
    obtain ⟨sink, hsink, rfl⟩ := State.queueOf_eq_some.mp hq
    have husage : s.usage first = (sink.usedCount, sink.usedBytes) := by
      simp [State.usage, hq]
    rw [husage] at hcount hbytes
    unfold projectSinks
    rw [if_neg (hnew first List.mem_cons_self), hsink]
    dsimp only
    rw [if_neg (not_not.mpr hmode), if_neg (by omega)]
    refine ih hnodup (fun id hid => ?_) fun id hid => ?_
    · rw [Finset.mem_insert, not_or]
      exact ⟨fun he => hfirst (he ▸ hid), hnew id (List.mem_cons_of_mem _ hid)⟩
    · have hne : id ≠ first := fun he => hfirst (he ▸ hid)
      rw [lookup_insert_ne hne]
      exact hroom id (List.mem_cons_of_mem _ hid)

/-- The next record of a list that fits is accepted after the ones before it. -/
theorem Fits.checkRecord {done rest : List SpoolRecord} {acc : Preflight} {record : SpoolRecord}
    (h : Fits limits s (done ++ record :: rest)) (hdone : Projected limits s done acc) :
    ∃ acc', EventBus.checkRecord limits s acc record = .ok acc' := by
  have hin : record ∈ done ++ record :: rest := by simp
  have hrestorable := h.restorable record hin
  -- What is projected after this record is at most what the whole list adds.
  have hweight : ∀ f, restoredWeight f done + f record.event.eventId record.stored ≤
      restoredWeight f (done ++ record :: rest) := by
    intro f
    rw [restoredWeight_append]
    simp only [restoredWeight, List.map_cons, List.sum_cons]
    omega
  have hconflict : ¬ (record.event.eventId ∈ acc.ids ∨ record.event.eventId ∈ s.active) := by
    rintro (hseen | hactive)
    · obtain ⟨earlier, hearlier, he⟩ := (hdone.ids _).mp hseen
      have hdistinct := h.distinct
      rw [List.map_append, List.nodup_append] at hdistinct
      exact hdistinct.2.2 _ (List.mem_map.mpr ⟨earlier, hearlier, rfl⟩) _
        (List.mem_map.mpr ⟨record, List.mem_cons_self, rfl⟩) he
    · exact lookup_eq_none.mp (h.fresh record hin) hactive
  have hbytes : ¬ acc.totalBytes + record.event.json.length > limits.globalEventMaxBytes := by
    have hroom := h.bytes
    have hle := hweight eventBytes
    simp only [eventBytes, SpoolRecord.stored] at hle
    rw [hdone.totalBytes]
    omega
  have htenant : ∀ backlog, backlog = (acc.tenants.lookup record.event.device.tenantId).getD
        ((s.tenants.lookup record.event.device.tenantId).getD {}) →
      ¬ (backlog.count + 1 > limits.eventQueueMaxCountPerTenant ∨
        backlog.bytes + record.event.json.length > limits.eventQueueMaxBytesPerTenant) := by
    rintro backlog rfl
    have hroom := h.tenant record.event.device.tenantId
    have hone := hweight (tenantOne record.event.device.tenantId)
    have hsize := hweight (tenantBytes record.event.device.tenantId)
    simp only [tenantOne, tenantBytes, SpoolRecord.stored, if_true] at hone hsize
    rw [hdone.tenant]
    dsimp only
    omega
  obtain ⟨projections, hproject⟩ : ∃ projections, projectSinks s record.event.json.length
      record.pendingSinks ∅ acc.projections = .ok projections := by
    refine projectSinks_accepts hrestorable.nodup (by simp) fun id hid => ?_
    obtain ⟨q, hq, hmode⟩ := hrestorable.required id hid
    have hroom := h.sink id q hq
    have hone := hweight (owedOne id)
    have hsize := hweight (owedBytes id)
    simp only [owedOne, owedBytes, SpoolRecord.stored, List.mem_toFinset, hid, if_true]
      at hone hsize
    have husage : s.usage id = (q.usedCount, q.usedBytes) := by simp [State.usage, hq]
    rw [hdone.projection, husage]
    exact ⟨q, hq, hmode, by dsimp only; omega, by dsimp only; omega⟩
  simp only [EventBus.checkRecord, except_bind_eq_ok, check_eq_ok]
  refine ⟨_, (), ?_, (), ?_, (), hconflict, (), hbytes, (), htenant _ rfl, projections, hproject,
    rfl⟩
  · rintro (hnil | hage)
    · exact hrestorable.pending hnil
    · exact h.dated record hin hage
  · have := h.small record hin
    omega

theorem Fits.checkRecords {done records : List SpoolRecord} {acc : Preflight}
    (h : Fits limits s (done ++ records)) (hdone : Projected limits s done acc) :
    ∃ checked, records.foldlM (EventBus.checkRecord limits s) acc = .ok checked := by
  induction records generalizing done acc with
  | nil => exact ⟨acc, rfl⟩
  | cons record rest ih =>
    obtain ⟨next, hnext⟩ := h.checkRecord hdone
    obtain ⟨checked, hchecked⟩ := ih (by simpa using h) (checkRecord_projected hdone hnext)
    refine ⟨checked, ?_⟩
    rw [List.foldlM_cons, hnext]
    exact hchecked

/-- A bus accepts every list of records it has room for. -/
theorem Fits.restore {records : List SpoolRecord} (h : Fits limits s records) (instant : ℕ)
    (hcount : s.active.size + records.length ≤ limits.globalEventMaxCount) :
    ∃ checked, exec (EventBus.restore limits instant records) s =
        (.ok records.length, commitRestore instant records checked s) ∧
      Projected limits s records checked := by
  have hall : Fits limits s ([] ++ records) := h
  obtain ⟨checked, hchecked⟩ := hall.checkRecords (.start limits s)
  refine ⟨checked, ?_, checkRecords_projected (.start limits s) hchecked⟩
  have hsize : ∀ record ∈ records, record.event.json.length ≤ limits.globalEventMaxBytes := by
    intro record hrecord
    have hroom := h.bytes
    have hle : record.event.json.length ≤ restoredWeight eventBytes records :=
      List.single_le_sum (fun _ _ => Nat.zero_le _) _ (List.mem_map.mpr ⟨record, hrecord, rfl⟩)
    omega
  rw [Preflight.start] at hchecked
  simp only [EventBus.restore, exec_ensure_bind, exec_get_bind, exec_fromExcept_bind]
  rw [if_pos (by omega), if_pos hsize, if_pos (by omega), hchecked]
  rfl

end Netbaiot.EventBus
