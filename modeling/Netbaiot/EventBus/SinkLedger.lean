import Netbaiot.EventBus.Queues

/-!
# The ledger of one sink

`SinkExact` says that the usage counters of a sink are the totals of what the stored
events owe it, and that each owed event is either waiting exactly once at the sink or
in flight.  Every change of one stored event moves these totals by the weights of
that event alone, which the lemmas below turn into one preservation fact per queue move.
-/

namespace Netbaiot.EventBus

open Lib AList SinkQueue

/-- One for an event that is still owed to the sink. -/
def owedOne (id : SinkId) (_ : EventId) (a : ActiveEvent) : ℕ := if id ∈ a.remaining then 1 else 0

/-- The bytes of an event that is still owed to the sink. -/
def owedBytes (id : SinkId) (_ : EventId) (a : ActiveEvent) : ℕ :=
  if id ∈ a.remaining then a.bytes else 0

/-- One for an event the sink has in flight. -/
def flyingOne (id : SinkId) (_ : EventId) (a : ActiveEvent) : ℕ :=
  if id ∈ a.operations then 1 else 0

/-- One for an event that is owed to the sink since the given time. -/
def agedOne (id : SinkId) (acceptedAt : Int64) (_ : EventId) (a : ActiveEvent) : ℕ :=
  if id ∈ a.remaining ∧ a.acceptedAt = acceptedAt then 1 else 0

/-- A delivery record carries the event, size and acceptance time of the stored event. -/
def DeliveryRecord.Carries (record : DeliveryRecord) (a : ActiveEvent) : Prop :=
  record.event = a.event ∧ record.bytes = a.bytes ∧ record.acceptedAt = a.acceptedAt

/-- How many responsibilities of this acceptance time the histogram of a sink counts. -/
def SinkQueue.aged (sink : SinkQueue) (acceptedAt : Int64) : ℕ :=
  (sink.pendingAges.lookup acceptedAt).getD 0

/-- The counters and queues of a sink agree with the stored events. -/
structure SinkExact (active : Table EventId ActiveEvent) (id : SinkId) (sink : SinkQueue) :
    Prop where
  usedCount : sink.usedCount = active.total (owedOne id)
  usedBytes : sink.usedBytes = active.total (owedBytes id)
  inflight : sink.inflight = active.total (flyingOne id)
  aged : ∀ t, sink.aged t = active.total (agedOne id t)
  agedPositive : ∀ t n, sink.pendingAges.lookup t = some n → 0 < n
  located : ∀ eventId, sink.waiting eventId + weigh (flyingOne id) eventId (active.lookup eventId) =
    weigh (owedOne id) eventId (active.lookup eventId)
  carried : ∀ record ∈ sink.queued, ∃ a, active.lookup record.event.eventId = some a ∧
    record.Carries a

/-- What a sink is charged for waits in its queues or is in flight. -/
theorem SinkExact.queued_length {active : Table EventId ActiveEvent} {id : SinkId} {q : SinkQueue}
    (h : SinkExact active id q) : q.queued.length + q.inflight = q.usedCount := by
  have hstored : ∀ record ∈ q.queued, (active.lookup record.event.eventId).isSome := by
    intro record hrecord
    obtain ⟨a, ha, -⟩ := h.carried record hrecord
    rw [ha]
    rfl
  rw [h.usedCount, h.inflight, ← total_countP (fun record : DeliveryRecord => record.event.eventId)
    hstored, ← total_add]
  refine total_congr fun eventId a ha => ?_
  have hlocated := h.located eventId
  rwa [ha] at hlocated

section Ages

variable {sink : SinkQueue} {record : DeliveryRecord}

theorem SinkQueue.enqueue_aged (sink : SinkQueue) (record : DeliveryRecord) (t : Int64) :
    (sink.enqueue record).aged t = sink.aged t + if record.acceptedAt = t then 1 else 0 := by
  simp only [aged, enqueue, lookup_insert_eq]
  by_cases h : t = record.acceptedAt
  · subst h
    simp
  · simp [h, Ne.symm h]

theorem SinkQueue.enqueue_aged_positive (h : ∀ t n, sink.pendingAges.lookup t = some n → 0 < n) :
    ∀ t n, (sink.enqueue record).pendingAges.lookup t = some n → 0 < n := by
  intro t n hn
  simp only [enqueue, lookup_insert_eq] at hn
  split at hn
  · simp only [Option.some.injEq] at hn
    omega
  · exact h t n hn

theorem SinkQueue.release_aged (sink : SinkQueue) (record : DeliveryRecord) (t : Int64) :
    (sink.release record).aged t = sink.aged t - if record.acceptedAt = t then 1 else 0 := by
  simp only [aged, release, forgetAge]
  cases hn : sink.pendingAges.lookup record.acceptedAt with
  | none =>
    by_cases h : record.acceptedAt = t
    · subst h
      simp [hn]
    · simp [h]
  | some n =>
    by_cases h : record.acceptedAt = t
    · subst h
      by_cases hlast : n - 1 = 0
      · simp [hlast, hn]
      · simp [hlast, hn]
    · have hne : t ≠ record.acceptedAt := Ne.symm h
      by_cases hlast : n - 1 = 0
      · simp [hlast, h, hne]
      · simp [hlast, h, hne]

theorem SinkQueue.release_aged_positive (h : ∀ t n, sink.pendingAges.lookup t = some n → 0 < n) :
    ∀ t n, (sink.release record).pendingAges.lookup t = some n → 0 < n := by
  intro t n hn
  simp only [release, forgetAge] at hn
  split at hn
  · split at hn
    · rw [lookup_erase_eq] at hn
      split at hn
      · simp at hn
      · exact h t n hn
    · rw [lookup_insert_eq] at hn
      split at hn
      · simp only [Option.some.injEq] at hn
        omega
      · exact h t n hn
  · exact h t n hn

end Ages

section Moves

variable {active : Table EventId ActiveEvent} {id : SinkId} {sink : SinkQueue}
  {eventId : EventId} {a a' : ActiveEvent}

section

variable (h : SinkExact active id sink)

include h

/-- A queued record of a sink is owed to it and not in flight. -/
theorem SinkExact.queued_owed {record : DeliveryRecord} (hqueued : record ∈ sink.queued) :
    ∃ a, active.lookup record.event.eventId = some a ∧ record.Carries a ∧
      id ∈ a.remaining ∧ id ∉ a.operations ∧ sink.waiting record.event.eventId = 1 := by
  obtain ⟨a, ha, hcarries⟩ := h.carried record hqueued
  have hpos : 0 < sink.waiting record.event.eventId :=
    List.countP_pos_iff.mpr ⟨record, hqueued, by simp⟩
  have hlocated := h.located record.event.eventId
  simp only [ha, weigh_some, owedOne, flyingOne] at hlocated
  refine ⟨a, ha, hcarries, ?_⟩
  by_cases hrem : id ∈ a.remaining <;> by_cases hfly : id ∈ a.operations <;>
    simp only [hrem, hfly, if_true, if_false] at hlocated ⊢ <;> simp <;> omega

/-- The ledger of a sink that changes with the stored event, from its moved counters. -/
theorem SinkExact.move {sink' : SinkQueue} (o : Option ActiveEvent)
    (howed : sink'.usedCount + weigh (owedOne id) eventId (active.lookup eventId) =
      sink.usedCount + weigh (owedOne id) eventId o)
    (hbytes : sink'.usedBytes + weigh (owedBytes id) eventId (active.lookup eventId) =
      sink.usedBytes + weigh (owedBytes id) eventId o)
    (hfly : sink'.inflight + weigh (flyingOne id) eventId (active.lookup eventId) =
      sink.inflight + weigh (flyingOne id) eventId o)
    (haged : ∀ t, sink'.aged t + weigh (agedOne id t) eventId (active.lookup eventId) =
      sink.aged t + weigh (agedOne id t) eventId o)
    (hpositive : ∀ t n, sink'.pendingAges.lookup t = some n → 0 < n)
    (hothers : ∀ e, e ≠ eventId → sink'.waiting e = sink.waiting e)
    (hwaiting : sink'.waiting eventId + weigh (flyingOne id) eventId o =
      weigh (owedOne id) eventId o)
    (hcarried : ∀ record ∈ sink'.queued,
      (record.event.eventId = eventId ∧ ∃ a, o = some a ∧ record.Carries a) ∨
      (record.event.eventId ≠ eventId ∧ record ∈ sink.queued)) :
    SinkExact (active.put eventId o) id sink' where
  usedCount := by
    have := total_put (owedOne id) eventId o active
    have := h.usedCount
    omega
  usedBytes := by
    have := total_put (owedBytes id) eventId o active
    have := h.usedBytes
    omega
  inflight := by
    have := total_put (flyingOne id) eventId o active
    have := h.inflight
    omega
  aged := by
    intro t
    have := total_put (agedOne id t) eventId o active
    have := h.aged t
    have := haged t
    omega
  agedPositive := hpositive
  located := by
    intro e
    rw [lookup_put]
    by_cases he : e = eventId
    · subst he
      simpa using hwaiting
    · simp only [he, if_false, hothers e he]
      exact h.located e
  carried := by
    intro record hrecord
    rw [lookup_put]
    rcases hcarried record hrecord with ⟨he, hown⟩ | ⟨hne, hqueued⟩
    · simp only [he, if_true]
      exact hown
    · simp only [hne, if_false]
      exact h.carried record hqueued

/-- A sink the change of a stored event does not concern keeps its ledger. -/
theorem SinkExact.frame (o : Option ActiveEvent)
    (howed : weigh (owedOne id) eventId o = weigh (owedOne id) eventId (active.lookup eventId))
    (hbytes : weigh (owedBytes id) eventId o = weigh (owedBytes id) eventId (active.lookup eventId))
    (hfly : weigh (flyingOne id) eventId o = weigh (flyingOne id) eventId (active.lookup eventId))
    (haged : ∀ t, weigh (agedOne id t) eventId o =
      weigh (agedOne id t) eventId (active.lookup eventId))
    (hcarried : ∀ record ∈ sink.queued, ∀ a, active.lookup eventId = some a →
      record.Carries a → ∃ a', o = some a' ∧ record.Carries a') :
    SinkExact (active.put eventId o) id sink := by
  refine h.move o (by rw [howed]) (by rw [hbytes]) (by rw [hfly]) (fun t => by rw [haged])
    h.agedPositive (fun _ _ => rfl) (by rw [howed, hfly]; exact h.located eventId) ?_
  intro record hrecord
  by_cases he : record.event.eventId = eventId
  · obtain ⟨a, ha, hcarries⟩ := h.carried record hrecord
    exact .inl ⟨he, hcarried record hrecord a (he ▸ ha) hcarries⟩
  · exact .inr ⟨he, hrecord⟩

/-- Admitting an event to a sink with a fresh record. -/
theorem SinkExact.store {record : DeliveryRecord}
    (hfresh : active.lookup eventId = none) (hevent : record.event.eventId = eventId)
    (hcarries : record.Carries a) (howed : id ∈ a.remaining) (hfly : id ∉ a.operations) :
    SinkExact (active.put eventId (some a)) id (sink.enqueue record) := by
  have ⟨_, hsize, htime⟩ := hcarries
  have hperm := sink.enqueue_queued record
  have hnone : sink.waiting eventId = 0 := by
    have := h.located eventId
    simp only [hfresh, weigh_none] at this
    omega
  refine h.move (some a) ?_ ?_ ?_ ?_ (enqueue_aged_positive h.agedPositive) ?_ ?_ ?_
  · simp [hfresh, owedOne, howed, enqueue]
  · simp [hfresh, owedBytes, howed, enqueue, hsize]
  · simp [hfresh, flyingOne, hfly, enqueue]
  · intro t
    simp [hfresh, agedOne, howed, enqueue_aged, htime]
  · intro e he
    simp [waiting, hperm.countP_eq, hevent, Ne.symm he]
  · simp only [waiting] at hnone
    simp [waiting, hperm.countP_eq, hevent, hnone, owedOne, howed, flyingOne, hfly]
  · intro r hr
    rcases List.mem_cons.mp (hperm.mem_iff.mp hr) with rfl | hqueued
    · exact .inl ⟨hevent, a, rfl, hcarries⟩
    · obtain ⟨b, hb, -⟩ := h.carried r hqueued
      refine .inr ⟨fun he => ?_, hqueued⟩
      rw [he, hfresh] at hb
      cases hb

/-- Taking a waiting record marks its event as in flight at the sink. -/
theorem SinkExact.take {sink' : SinkQueue} {head : DeliveryRecord}
    (hqueued : (head :: sink'.queued).Perm sink.queued)
    (hcount : sink'.usedCount = sink.usedCount) (hbytes : sink'.usedBytes = sink.usedBytes)
    (hfly : sink'.inflight = sink.inflight + 1) (hages : sink'.pendingAges = sink.pendingAges)
    (operation : ℕ) (ha : active.lookup head.event.eventId = some a) :
    SinkExact (active.put head.event.eventId
      (some { a with operations := a.operations.insert id operation })) id sink' := by
  obtain ⟨b, hb, -, howed, hidle, hone⟩ := h.queued_owed (hqueued.mem_iff.mp List.mem_cons_self)
  obtain rfl : a = b := Option.some.inj (ha.symm.trans hb)
  have hwaiting : ∀ e, sink.waiting e =
      sink'.waiting e + if head.event.eventId = e then 1 else 0 := by
    intro e
    simp only [SinkQueue.waiting, ← hqueued.countP_eq, List.countP_cons, decide_eq_true_eq]
  refine h.move _ ?_ ?_ ?_ ?_ (hages ▸ h.agedPositive) ?_ ?_ ?_
  · simp [ha, owedOne, hcount]
  · simp [ha, owedBytes, hbytes]
  · simp [ha, flyingOne, hfly, hidle]
  · intro t
    simp [ha, agedOne, SinkQueue.aged, hages]
  · intro e he
    simp [hwaiting e, Ne.symm he]
  · have := hwaiting head.event.eventId
    simp only [if_true] at this
    simp [flyingOne, owedOne, howed]
    omega
  · intro record hrecord
    by_cases he : record.event.eventId = head.event.eventId
    · -- A second record of the same event would make it wait twice.
      have hpos : 0 < sink'.waiting head.event.eventId :=
        List.countP_pos_iff.mpr ⟨record, hrecord, by simp [he]⟩
      have := hwaiting head.event.eventId
      simp only [if_true] at this
      omega
    · exact .inr ⟨he, hqueued.mem_iff.mp (List.mem_cons_of_mem _ hrecord)⟩

end

section Landing

variable {record : DeliveryRecord} (ha : active.lookup eventId = some a)
  (howed : id ∈ a.remaining) (hflying : id ∈ a.operations)

include ha howed hflying

/-- An event in flight at a sink does not wait there, and the sink counts it. -/
theorem SinkExact.flying (h : SinkExact active id sink) :
    sink.waiting eventId = 0 ∧ 0 < sink.inflight ∧ 0 < sink.usedCount ∧ a.bytes ≤ sink.usedBytes ∧
      0 < sink.aged a.acceptedAt := by
  have hlocated := h.located eventId
  have hfly := le_total (f := flyingOne id) ha
  have hone := le_total (f := owedOne id) ha
  have hsize := le_total (f := owedBytes id) ha
  have haged := le_total (f := agedOne id a.acceptedAt) ha
  simp only [ha, weigh_some, owedOne, flyingOne, howed, hflying, if_true] at hlocated
  rw [← h.inflight] at hfly
  rw [← h.usedCount] at hone
  rw [← h.usedBytes] at hsize
  rw [← h.aged] at haged
  simp only [flyingOne, owedOne, owedBytes, agedOne, howed, hflying, and_self, if_true]
    at hfly hone hsize haged
  omega

/-- A failed delivery that is queued again leaves the event owed to the sink. -/
theorem SinkExact.requeue (h : SinkExact active id sink)
    (hevent : record.event.eventId = eventId) (hcarries : record.Carries a')
    (hbytes : a'.bytes = a.bytes) (hage : a'.acceptedAt = a.acceptedAt)
    (hremaining : a'.remaining = a.remaining) (hlanded : id ∉ a'.operations) :
    SinkExact (active.put eventId (some a')) id (sink.land.delay record) := by
  obtain ⟨hnone, hpos, -⟩ := h.flying ha howed hflying
  have hperm := sink.land.delay_queued record
  refine h.move _ ?_ ?_ ?_ ?_ h.agedPositive ?_ ?_ ?_
  · simp [ha, owedOne, hremaining, SinkQueue.land, SinkQueue.delay]
  · simp [ha, owedBytes, hremaining, hbytes, SinkQueue.land, SinkQueue.delay]
  · simp [ha, flyingOne, hflying, hlanded, SinkQueue.land, SinkQueue.delay]
    omega
  · intro t
    simp [ha, agedOne, hremaining, hage, SinkQueue.aged, SinkQueue.land, SinkQueue.delay]
  · intro e he
    simp [SinkQueue.waiting, hperm.countP_eq, hevent, Ne.symm he]
  · simp only [SinkQueue.waiting] at hnone
    simp [SinkQueue.waiting, hperm.countP_eq, hevent, hnone, owedOne,
      hremaining, howed, flyingOne, hlanded]
  · intro r hr
    rcases List.mem_cons.mp (hperm.mem_iff.mp hr) with rfl | hqueued
    · exact .inl ⟨hevent, a', rfl, hcarries⟩
    · refine .inr ⟨fun he => ?_, hqueued⟩
      have : 0 < sink.waiting eventId := List.countP_pos_iff.mpr ⟨r, hqueued, by simp [he]⟩
      omega

/-- A settled delivery gives back what the event occupied at the sink. -/
theorem SinkExact.settle (h : SinkExact active id sink) (hcarries : record.Carries a)
    {o : Option ActiveEvent}
    (hsettled : ∀ a', o = some a' → id ∉ a'.remaining ∧ id ∉ a'.operations) :
    SinkExact (active.put eventId o) id (sink.land.release record) := by
  obtain ⟨hnone, hpos, hcount, hsize, haged⟩ := h.flying ha howed hflying
  have ⟨_, hbytes, htime⟩ := hcarries
  have hweights : weigh (owedOne id) eventId o = 0 ∧ weigh (owedBytes id) eventId o = 0 ∧
      weigh (flyingOne id) eventId o = 0 ∧ ∀ t, weigh (agedOne id t) eventId o = 0 := by
    cases o with
    | none => simp
    | some a' =>
      have ⟨hrem, hfly⟩ := hsettled a' rfl
      simp [owedOne, owedBytes, flyingOne, agedOne, hrem, hfly]
  obtain ⟨hone, hnobytes, hnofly, hnoage⟩ := hweights
  refine h.move o ?_ ?_ ?_ ?_ (SinkQueue.release_aged_positive h.agedPositive) ?_ ?_ ?_
  · simp [ha, hone, owedOne, howed, SinkQueue.land, SinkQueue.release]
    omega
  · simp [ha, hnobytes, owedBytes, howed, SinkQueue.land, SinkQueue.release, hbytes]
    omega
  · simp [ha, hnofly, flyingOne, hflying, SinkQueue.land, SinkQueue.release]
    omega
  · intro t
    rw [hnoage, SinkQueue.release_aged, htime]
    simp only [ha, weigh_some, agedOne, howed, true_and]
    by_cases ht : a.acceptedAt = t
    · subst ht
      simp only [if_true, SinkQueue.aged, SinkQueue.land] at haged ⊢
      omega
    · simp [ht, SinkQueue.aged, SinkQueue.land]
  · intro e _
    rfl
  · rw [hone, hnofly]
    exact hnone
  · intro r hr
    refine .inr ⟨fun he => ?_, hr⟩
    have : 0 < sink.waiting eventId := List.countP_pos_iff.mpr ⟨r, hr, by simp [he]⟩
    omega

end Landing

end Moves

end Netbaiot.EventBus
