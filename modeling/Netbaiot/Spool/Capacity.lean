import Netbaiot.EventBus.RoundTrip
import Netbaiot.Spool.Segment

/-!
# Room for accepted work in the restart spool

The bus admits events by the size of their own JSON text, while the spool stores a larger
record in a framed segment.  `Limits.validate` does not relate the two sides; `SpoolRoom`
does, and under it every snapshot of the bus can be committed.
-/

namespace Netbaiot.Spool

open Lib Op AList EventBus

variable {limits : Limits}

/-! ## The JSON text of a snapshot record -/

/-- An identifier as a JSON string; its alphabet needs no escapes. -/
def quoted (id : SinkId) : List UInt8 := 34 :: id.asStr ++ [34]

/-- One entry of the attempts object. -/
def attemptEntry (attempts : Table SinkId UInt32) (id : SinkId) : List UInt8 :=
  quoted id ++ 58 :: decimal ((attempts.lookup id).getD 0).toNat

/-- The JSON text the serializer writes for a snapshot record. -/
def snapshotJson (record : SpoolRecord) : List UInt8 :=
  ascii "\x7b\"event\":" ++ record.event.json ++
  ascii ",\"pending_sinks\":[" ++ separated 44 (record.pendingSinks.map quoted) ++
  ascii "],\"routing_revision\":" ++ decimal record.routingRevision.toNat ++
  ascii ",\"accepted_at\":" ++ signedDecimal record.acceptedAt.toInt ++
  ascii ",\"attempts\":\x7b" ++
    separated 44 (record.attempts.keys.toFinset.sort.map (attemptEntry record.attempts)) ++
  ascii "\x7d\x7d"

theorem quoted_length_le (id : SinkId) : (quoted id).length + 1 ≤ 67 := by
  have := id.length_bounds.2
  simp only [quoted, maxIdentifierBytes, List.length_cons, List.length_append, List.length_nil,
    List.cons_append] at this ⊢
  omega

theorem attemptEntry_length_le (attempts : Table SinkId UInt32) (id : SinkId) :
    (attemptEntry attempts id).length + 1 ≤ 78 := by
  have hquoted := quoted_length_le id
  have hcount : (decimal ((attempts.lookup id).getD 0).toNat).length ≤ 10 :=
    decimal_length_le (by decide) (lt_of_lt_of_le (UInt32.toNat_lt _) (by decide))
  simp only [attemptEntry, List.length_append, List.length_cons]
  omega

theorem snapshotJson_length_le (record : SpoolRecord) :
    (snapshotJson record).length ≤ record.event.json.length + 118 +
      67 * record.pendingSinks.length + 78 * record.attempts.size := by
  have hpending : (separated 44 (record.pendingSinks.map quoted)).length ≤
      record.pendingSinks.length * 67 := by
    have hitems : ∀ item ∈ record.pendingSinks.map quoted, item.length + 1 ≤ 67 := by
      simpa using fun id _ => quoted_length_le id
    simpa using separated_length_le 44 hitems
  have hattempts : (separated 44 (record.attempts.keys.toFinset.sort.map
      (attemptEntry record.attempts))).length ≤ record.attempts.size * 78 := by
    have hitems : ∀ item ∈ record.attempts.keys.toFinset.sort.map (attemptEntry record.attempts),
        item.length + 1 ≤ 78 := by
      simpa using fun id _ => attemptEntry_length_le record.attempts id
    have hlength := separated_length_le 44 hitems
    rwa [List.length_map, Finset.length_sort, card_keys] at hlength
  have hrevision : (decimal record.routingRevision.toNat).length ≤ 20 :=
    decimal_length_le (by decide) (lt_of_lt_of_le (UInt64.toNat_lt _) (by decide))
  have haccepted : (signedDecimal record.acceptedAt.toInt).length ≤ 20 := by
    have := record.acceptedAt.le_toInt
    have := record.acceptedAt.toInt_lt
    exact signedDecimal_length_le (by decide) (by omega)
  have h₁ : (ascii "\x7b\"event\":").length = 9 := by decide
  have h₂ : (ascii ",\"pending_sinks\":[").length = 18 := by decide
  have h₃ : (ascii "],\"routing_revision\":").length = 21 := by decide
  have h₄ : (ascii ",\"accepted_at\":").length = 15 := by decide
  have h₅ : (ascii ",\"attempts\":\x7b").length = 13 := by decide
  have h₆ : (ascii "\x7d\x7d").length = 2 := by decide
  simp only [snapshotJson, List.length_append, h₁, h₂, h₃, h₄, h₅, h₆]
  omega

/-! ## The fan-out of stored events -/

/-- A stored event is owed to few sinks and remembers few attempts. -/
structure FanoutBounded (limits : Limits) (a : ActiveEvent) : Prop where
  owed : a.remaining.card ≤ limits.maxFanoutPerEvent
  tried : (a.attempts.keys.toFinset ∪ a.remaining).card ≤
    limits.maxSinks + limits.maxFanoutPerEvent

/-- Every effect on the bus keeps the sinks of stored events bounded. -/
theorem fanoutBounded_effect {bus : Bus} {action : Action} {s : State}
    (hbooks : Bookkeeping limits bus.state)
    (h : ∀ e a, bus.state.active.lookup e = some a → FanoutBounded limits a)
    (heffect : Effect limits bus action s) (hsmall : FanoutSmall limits s) :
    ∀ e a, s.active.lookup e = some a → FanoutBounded limits a := by
  intro e b hb
  have howed := hsmall e b hb
  refine ⟨howed, ?_⟩
  cases heffect.origin hbooks hb with
  | kept hstored hremaining hattempts =>
    exact (Finset.card_le_card (tried_subset hremaining hattempts)).trans (h e _ hstored).tried
  | published huntried _ =>
    rw [huntried, keys_empty, List.toFinset_nil, Finset.empty_union]
    omega
  | @restored _ _ record hmember _ =>
    cases heffect with
    | same hsame => exact (h e _ (hsame.active ▸ hb)).tried
    | rerouted hs _ =>
      obtain ⟨routes, revision, rfl⟩ := hs
      exact (h e _ hb).tried
    | restored hrestored _ =>
      refine (Finset.card_union_le _ _).trans (Nat.add_le_add ?_ howed)
      exact (card_keys _).le.trans (hrestored.small record hmember).2

theorem fanoutBounded_of_reachable {bus : Bus} (h : (busSystem limits).Reachable bus) :
    ∀ e a, bus.state.active.lookup e = some a → FanoutBounded limits a := by
  induction h with
  | start hstart =>
    obtain ⟨⟨definitions, routes, revision, hnew⟩, -, -⟩ := hstart
    simp [(newPaused_bookkeeping hnew).2]
  | step hreachable hstep ih =>
    obtain ⟨hbooks, hhistory⟩ := consistent_of_reachable hreachable
    exact fanoutBounded_effect hbooks ih (step_effect hbooks hhistory hstep)
      (fanoutSmall_of_reachable (hreachable.step hstep)).2.1

/-! ## Sizes of a snapshot -/

/-- What a snapshot record adds to the JSON text of its event, at most. -/
def recordOverhead (limits : Limits) : ℕ :=
  118 + 67 * limits.maxFanoutPerEvent + 78 * (limits.maxSinks + limits.maxFanoutPerEvent)

/-- The largest event that the bus may admit: it has to fit in the bus and in its tenant. -/
def eventCeiling (limits : Limits) : ℕ :=
  min limits.globalEventMaxBytes limits.eventQueueMaxBytesPerTenant

/-- The spool has room for everything the bus may admit. -/
structure SpoolRoom (limits : Limits) : Prop where
  records : limits.globalEventMaxCount ≤ limits.spoolMaxRecords
  record : eventCeiling limits + recordOverhead limits ≤ limits.spoolRecordMaxBytes
  segment : 16 + limits.globalEventMaxBytes +
    limits.globalEventMaxCount * (recordOverhead limits + 36) + trailerBytes ≤
      limits.spoolSegmentMaxBytes

section Snapshot

variable {limits : Limits} {bus : Bus}

/-- A snapshot record is larger than its event by the overhead at most. -/
theorem snapshotJson_overhead (h : (busSystem limits).Reachable bus) {record : SpoolRecord}
    (hrecord : record ∈ spoolSnapshot bus.state) :
    (snapshotJson record).length ≤ record.event.json.length + recordOverhead limits := by
  obtain ⟨e, a, ha, -, rfl⟩ := mem_spoolSnapshot.mp hrecord
  have hbounded := fanoutBounded_of_reachable h e a ha
  have hrequired : a.required.card ≤ limits.maxFanoutPerEvent :=
    (Finset.card_le_card ((consistent_of_reachable h).books.event e a ha).required_subset).trans
      hbounded.owed
  have hattempts : a.attempts.size ≤ limits.maxSinks + limits.maxFanoutPerEvent := by
    rw [← card_keys]
    exact (Finset.card_le_card Finset.subset_union_left).trans hbounded.tried
  have hlength := snapshotJson_length_le a.spooled
  simp only [ActiveEvent.spooled, Finset.length_sort] at hlength ⊢
  dsimp only [recordOverhead]
  omega

/-- A stored event is no larger than what its tenant may store. -/
theorem json_length_le (h : (busSystem limits).Reachable bus) {record : SpoolRecord}
    (hrecord : record ∈ spoolSnapshot bus.state) :
    record.event.json.length ≤ eventCeiling limits := by
  obtain ⟨e, a, ha, -, rfl⟩ := mem_spoolSnapshot.mp hrecord
  have hbooks := (consistent_of_reachable h).books
  have hglobal : a.bytes ≤ limits.globalEventMaxBytes :=
    (le_total (f := eventBytes) ha).trans (hbooks.activeBytes ▸ hbooks.bytes)
  have hshare := le_total (f := tenantBytes a.event.device.tenantId) ha
  rw [← hbooks.tenantBytes, tenantBytes, if_pos rfl] at hshare
  have htenant : a.bytes ≤ limits.eventQueueMaxBytesPerTenant := by
    cases hb : bus.state.tenants.lookup a.event.device.tenantId with
    | none =>
      rw [hb] at hshare
      exact hshare.trans (Nat.zero_le _)
    | some b =>
      rw [hb] at hshare
      exact hshare.trans (hbooks.tenant _ b hb).2
  have hsize := (hbooks.event e a ha).size
  exact hsize ▸ le_min hglobal htenant

end Snapshot

/-! ## Commits -/

/-- Records that fit one by one and together are written. -/
theorem writeRecords_ok (sha : Sha256) {records : List (List UInt8)} (written : List UInt8)
    (total : ℕ) (hrecord : ∀ json ∈ records, json.length ≤ limits.spoolRecordMaxBytes)
    (hsegment : total + (records.map fun json => json.length + 36).sum + trailerBytes ≤
      limits.spoolSegmentMaxBytes)
    (horder : limits.spoolSegmentMaxBytes ≤ limits.spoolMaxBytes)
    (hwidth : limits.spoolRecordMaxBytes < 2 ^ 32 ∧ limits.spoolSegmentMaxBytes < 2 ^ 64) :
    ∃ result, writeRecords sha limits written total records = .ok result := by
  induction records generalizing written total with
  | nil => exact ⟨_, rfl⟩
  | cons json rest ih =>
    have hjson := hrecord json (by simp)
    simp only [List.map_cons, List.sum_cons] at hsegment
    obtain ⟨result, hresult⟩ := ih (written ++ frame sha json)
      (total + 4 + json.length + 32) (fun json' hjson' => hrecord json' (by simp [hjson']))
      (by omega)
    refine ⟨result, ?_⟩
    have hfits : total + 4 + json.length + 32 + trailerBytes < 2 ^ 64 ∧
        ¬ segmentExceeded limits (total + 4 + json.length + 32) = true := by
      simp only [segmentExceeded, Bool.or_eq_true, decide_eq_true_eq]
      omega
    simp only [writeRecords, encodeRecord, hjson, if_true, except_bind_eq_ok, check_eq_ok]
    exact ⟨json, rfl, (), by omega, (), hfits, hresult⟩

/-- Validated limits order the spool sizes and keep them below 4 GiB. -/
theorem validate_spool (h : limits.validate = .ok ()) :
    limits.spoolRecordMaxBytes ≤ limits.spoolSegmentMaxBytes ∧
      limits.spoolSegmentMaxBytes ≤ limits.spoolMaxBytes ∧
      limits.spoolSegmentMaxBytes < 2 ^ 32 := by
  have hrange := Limits.scalar_range h
    (show limits.spoolSegmentMaxBytes ∈ limits.scalars .ordinary by
      simp [Limits.scalars])
  have hhierarchy := (Limits.validate_eq_ok.mp h).2.2
  simp only [Limits.hierarchyViolation, Bool.or_eq_false_iff, decide_eq_false_iff_not,
    not_lt] at hhierarchy
  have hmaximum : ScalarRange.ordinary.maximum < 2 ^ 32 := by decide
  exact ⟨by tauto, by tauto, hrange.2.trans_lt hmaximum⟩

/-- The directory holds at most one spool file, a valid snapshot of an earlier generation. -/
structure Ready {ρ : Type} (sha : Sha256) (fromSlice : List UInt8 → Option ρ) (limits : Limits)
    (directory : RecoveryDirectory) (generation : ℕ) : Prop where
  capacity : directory.entries ≤ limits.spoolMaxRecords + 15
  previous : previousGeneration sha fromSlice limits directory = .ok generation
  successor : generation + 1 < 2 ^ 64

/-- Under limits with room in the spool, every snapshot of every reachable bus is committed. -/
theorem snapshot_committed {ρ : Type} (sha : Sha256) (fromSlice : List UInt8 → Option ρ)
    (limits : Limits) (bus : Bus) (directory : RecoveryDirectory) (generation : ℕ)
    (hvalid : limits.validate = .ok ()) (hroom : SpoolRoom limits)
    (hreachable : (busSystem limits).Reachable bus)
    (hready : Ready sha fromSlice limits directory generation) :
    ∃ directory', commitSerializableSync sha limits fromSlice directory
      ((spoolSnapshot bus.state).map snapshotJson) = .ok directory' := by
  obtain ⟨hrecordMax, horder, hwidth⟩ := validate_spool hvalid
  have hbooks := (consistent_of_reachable hreachable).books
  have hcount := hbooks.spoolSnapshot_length_le
  have hbytes : ((spoolSnapshot bus.state).map fun record => record.event.json.length).sum ≤ _ :=
    hbooks.spoolSnapshot_bytes_le
  have hrecord : ∀ json ∈ (spoolSnapshot bus.state).map snapshotJson,
      json.length ≤ limits.spoolRecordMaxBytes := by
    intro json hjson
    obtain ⟨record, hrecord, rfl⟩ := List.mem_map.mp hjson
    calc
      _ ≤ record.event.json.length + recordOverhead limits :=
        snapshotJson_overhead hreachable hrecord
      _ ≤ eventCeiling limits + recordOverhead limits :=
        Nat.add_le_add_right (json_length_le hreachable hrecord) _
      _ ≤ _ := hroom.record
  have htotal : (((spoolSnapshot bus.state).map snapshotJson).map
      fun json => json.length + 36).sum ≤ limits.globalEventMaxBytes +
        limits.globalEventMaxCount * (recordOverhead limits + 36) := by
    rw [List.map_map]
    calc
      _ ≤ ((spoolSnapshot bus.state).map fun record =>
            record.event.json.length + (recordOverhead limits + 36)).sum := by
          refine List.sum_le_sum fun record hrecord => ?_
          have := snapshotJson_overhead hreachable hrecord
          dsimp only [Function.comp_apply]
          omega
      _ ≤ _ := by
          rw [List.sum_map_add, List.map_const', List.sum_replicate, nsmul_eq_mul, Nat.cast_id]
          exact Nat.add_le_add hbytes (Nat.mul_le_mul_right _ hcount)
  have hsegment := hroom.segment
  obtain ⟨⟨written, total⟩, hwritten⟩ := writeRecords_ok sha
    (magic ++ beBytes 4 version ++ beBytes 8 (generation + 1)) 16 hrecord (by omega) horder
    ⟨by omega, by omega⟩
  refine ⟨{ directory with
    snapshot := some (written ++ trailer sha written
      ((spoolSnapshot bus.state).map snapshotJson).length total) }, ?_⟩
  simp only [commitSerializableSync, except_bind_eq_ok, check_eq_ok, hready.previous]
  refine ⟨(), ?_, (), hready.capacity, generation, rfl, (), hready.successor, (), ?_,
    (written, total), hwritten, rfl⟩
  · have := hroom.records
    simp only [List.length_map]
    omega
  · simp only [segmentExceeded, Bool.or_eq_true, decide_eq_true_eq]
    omega

/-! ## A bus with two events -/

def secondEvent : DeviceEvent := { sampleEvent with eventId := ⟨2⟩ }

/-- A bus that accepted two events for its required sink. -/
def twoEvents (limits : Limits) : Bus where
  state := (exec (publish limits 0 0 secondEvent)
    (exec (publish limits 0 0 sampleEvent) sampleStart).2).2
  taken := []
  tasks := fun _ => []

theorem twoEvents_reachable
    (hstart : newPaused limits [sampleSink] [⟨none, [sampleSinkId]⟩] 1 = .ok sampleStart) :
    (busSystem limits).Reachable (twoEvents limits) :=
  have hfirst : (busSystem limits).start ⟨sampleStart, [], fun _ => []⟩ :=
    ⟨⟨_, _, _, hstart⟩, rfl, rfl⟩
  .step (a := .publish 0 0 secondEvent)
    (.step (a := .publish 0 0 sampleEvent) (.start hfirst) (.publish rfl)) (.publish rfl)

/-- The default limits with a spool that has room. -/
def roomyLimits : Limits :=
  { Limits.default with
    spoolRecordMaxBytes := 134217728
    spoolSegmentMaxBytes := 268435456 }

theorem snapshot_committed_sample :
    (spoolSnapshot (twoEvents roomyLimits).state).length = 2 ∧
    ∃ directory', commitSerializableSync .standard roomyLimits (fun _ => some ()) ⟨none, [], 0⟩
      ((spoolSnapshot (twoEvents roomyLimits).state).map snapshotJson) = .ok directory' :=
  ⟨by decide +kernel, snapshot_committed .standard _ roomyLimits _ ⟨none, [], 0⟩ 0 (by decide)
    ⟨by decide, by decide, by decide⟩
    (twoEvents_reachable (sampleStart_new roomyLimits rfl (by decide)))
    ⟨by decide, rfl, by decide⟩⟩

/-- Limits that let the bus hold more events than the spool may store. -/
def oneRecordLimits : Limits := { Limits.default with spoolMaxRecords := 1 }

/-- Validated limits do not make room: a bus with two accepted events cannot be committed to
an empty recovery directory. -/
theorem snapshot_overloaded : oneRecordLimits.validate = .ok () ∧
    (busSystem oneRecordLimits).Reachable (twoEvents oneRecordLimits) ∧
    ∀ sha : Sha256, commitSerializableSync sha oneRecordLimits (fun _ => some ()) ⟨none, [], 0⟩
      ((spoolSnapshot (twoEvents oneRecordLimits).state).map snapshotJson) =
        .error .overloaded := by
  refine ⟨by decide, twoEvents_reachable (sampleStart_new oneRecordLimits rfl (by decide)),
    fun sha => ?_⟩
  have hcount : (spoolSnapshot (twoEvents oneRecordLimits).state).length = 2 := by decide +kernel
  rfl

end Netbaiot.Spool
