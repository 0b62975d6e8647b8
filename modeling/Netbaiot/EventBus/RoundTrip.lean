import Netbaiot.EventBus.Invariants
import Netbaiot.EventBus.Snapshot

/-!
# Restarting a bus

A snapshot of a reachable bus, restored on a fresh bus with the same sinks and limits,
gives back every required responsibility.  The one thing that can fail is the bound on the
attempt history of an event: it is checked when a snapshot is restored, but an event may
outgrow it afterwards.
-/

namespace Netbaiot.EventBus

open Lib Op AList

variable {limits : Limits} {bus bus' : Bus} {action : Action} {s s' : State}

/-! ## Where stored events come from -/

/-- How a stored event stands to the state before a step. -/
inductive Origin (limits : Limits) (bus : Bus) (e : EventId) : Action → ActiveEvent → Prop where
  | kept {action : Action} {a a' : ActiveEvent} (stored : bus.state.active.lookup e = some a)
      (remaining : a'.remaining ⊆ a.remaining)
      (attempts : a'.attempts = a.attempts ∨
        ∃ id ∈ a.remaining, ∃ n, a'.attempts = a.attempts.insert id n) :
      Origin limits bus e action a'
  | published {now : Int64} {instant : ℕ} {event : DeviceEvent} {a' : ActiveEvent}
      (untried : a'.attempts = ∅)
      (targets : ∀ id ∈ a'.remaining, id ∈ bus.state.routes.forTenant event.device.tenantId) :
      Origin limits bus e (.publish now instant event) a'
  | restored {instant : ℕ} {records : List SpoolRecord} {record : SpoolRecord}
      (member : record ∈ records)
      (small : record.pendingSinks.length ≤ limits.maxFanoutPerEvent) :
      Origin limits bus e (.restore instant records) record.stored

/-- No sink is added to those an event was tried at or is owed to. -/
theorem tried_subset {a a' : ActiveEvent} (hremaining : a'.remaining ⊆ a.remaining)
    (hattempts : a'.attempts = a.attempts ∨
      ∃ id ∈ a.remaining, ∃ n, a'.attempts = a.attempts.insert id n) :
    a'.attempts.keys.toFinset ∪ a'.remaining ⊆ a.attempts.keys.toFinset ∪ a.remaining := by
  refine Finset.union_subset (fun id hid => ?_) (hremaining.trans Finset.subset_union_right)
  rcases hattempts with hsame | ⟨tried, howed, n, hinsert⟩
  · exact Finset.mem_union_left _ (hsame ▸ hid)
  · rw [hinsert, List.mem_toFinset, mem_keys_insert] at hid
    rcases hid with rfl | hid
    · exact Finset.mem_union_right _ howed
    · exact Finset.mem_union_left _ (List.mem_toFinset.mpr hid)

/-- Every stored event after a step was stored before, or was admitted by the step. -/
theorem Effect.origin (h : Effect limits bus action s) (hbooks : Bookkeeping limits bus.state)
    {e : EventId} {a' : ActiveEvent} (ha' : s.active.lookup e = some a') :
    Origin limits bus e action a' := by
  have hsame : bus.state.active.lookup e = some a' → Origin limits bus e action a' :=
    fun ha => .kept ha (Finset.Subset.refl _) (.inl rfl)
  cases h with
  | same h => exact hsame (h.active ▸ ha')
  | rerouted hs _ =>
    obtain ⟨routes, revision, rfl⟩ := hs
    exact hsame ha'
  | published hpub =>
    rw [hpub.active, lookup_insert_eq] at ha'
    split at ha'
    · cases ha'
      exact .published hpub.untried hpub.targets
    · exact hsame ha'
  | @restored _ records _ hrestored _ =>
    by_cases hin : ∃ record ∈ records, record.event.eventId = e
    · obtain ⟨record, hrecord, rfl⟩ := hin
      rw [hrestored.stored record hrecord] at ha'
      cases ha'
      exact .restored hrecord (hrestored.small record hrecord).1
    · rw [hrestored.kept e fun record hrecord he => hin ⟨record, hrecord, he⟩] at ha'
      exact hsame ha'
  | @taken _ id _ head _ _ _ htaken =>
    obtain ⟨-, a, ha, -⟩ := hbooks.take htaken
    rw [htaken.active a ha, lookup_put] at ha'
    split at ha'
    · next he =>
      cases ha'
      exact .kept (a := a) (he ▸ ha) (Finset.Subset.refl _) (.inl rfl)
    · exact hsame ha'
  | @requeued _ id done _ _ _ a b _ hre _ _ =>
    rw [hre.active, lookup_put] at ha'
    split at ha'
    · next he =>
      cases ha'
      exact .kept (he ▸ hre.stored) (le_of_eq hre.remaining) (.inr ⟨id, hre.owed, _, hre.counted⟩)
    · exact hsame ha'
  | @released _ id done _ _ a b _ hrel _ _ _ =>
    rw [hrel.active, lookup_put] at ha'
    split at ha'
    · next he =>
      split at ha'
      · cases ha'
      · cases ha'
        refine .kept (he ▸ hrel.stored) ?_ (hrel.attempts.imp_right fun ⟨n, hn⟩ =>
          ⟨id, hrel.owed, n, hn⟩)
        rw [hrel.remaining]
        exact Finset.erase_subset _ _
    · exact hsame ha'

/-! ## Bounds on the history of an event -/

/-- Every stored event is owed to at most as many sinks as one event may fan out to. -/
def FanoutSmall (limits : Limits) (s : State) : Prop :=
  ∀ e a, s.active.lookup e = some a → a.remaining.card ≤ limits.maxFanoutPerEvent

/-- The sinks an event was tried at or is still owed to are at most `maxSinks`. -/
def HistorySmall (limits : Limits) (s : State) : Prop :=
  ∀ e a, s.active.lookup e = some a →
    (a.attempts.keys.toFinset ∪ a.remaining).card ≤ limits.maxSinks

/-- No more sinks are registered than the limits allow. -/
def SinksSmall (limits : Limits) (s : State) : Prop :=
  ∃ ids : Finset SinkId, ids.card ≤ limits.maxSinks ∧ ∀ id, (s.queueOf id).isSome → id ∈ ids

theorem FanoutSmall.step (h : FanoutSmall limits bus.state) (hbus : Consistent limits bus)
    (hstep : Step limits bus action bus') : FanoutSmall limits bus'.state := by
  intro e a' ha'
  cases (step_effect hbus.books hbus.history hstep).origin hbus.books ha' with
  | kept hstored hremaining _ => exact (Finset.card_le_card hremaining).trans (h e _ hstored)
  | @published _ _ event _ _ htargets =>
    obtain ⟨-, -, hsmall⟩ := hbus.books.routes event.device.tenantId
    refine le_trans ?_ hsmall
    refine (Finset.card_le_card fun id hid => List.mem_toFinset.mpr (htargets id hid)).trans ?_
    exact List.toFinset_card_le _
  | restored _ hsmall => exact (List.toFinset_card_le _).trans hsmall

/-- A restored record was tried at, and is pending at, no more sinks than `maxSinks`. -/
def RestoreGuard (limits : Limits) (_ : Bus) : Action → Prop
  | .restore _ records => ∀ record ∈ records,
      (record.attempts.keys.toFinset ∪ record.pendingSinks.toFinset).card ≤ limits.maxSinks
  | _ => True

theorem HistorySmall.step (h : HistorySmall limits bus.state) (hsinks : SinksSmall limits bus.state)
    (hbus : Consistent limits bus) (hguard : RestoreGuard limits bus action)
    (hstep : Step limits bus action bus') : HistorySmall limits bus'.state := by
  intro e a' ha'
  cases (step_effect hbus.books hbus.history hstep).origin hbus.books ha' with
  | kept hstored hremaining hattempts =>
    exact (Finset.card_le_card (tried_subset hremaining hattempts)).trans (h e _ hstored)
  | @published _ _ event _ huntried htargets =>
    obtain ⟨ids, hcard, hids⟩ := hsinks
    refine le_trans (Finset.card_le_card fun id hid => ?_) hcard
    rw [huntried] at hid
    simp only [keys_empty, List.toFinset_nil, Finset.empty_union] at hid
    exact hids id ((hbus.books.routes event.device.tenantId).2.1 id (htargets id hid))
  | restored hmember _ => exact hguard _ hmember

theorem SinksSmall.step (h : SinksSmall limits bus.state) (hbus : Consistent limits bus)
    (hstep : Step limits bus action bus') : SinksSmall limits bus'.state := by
  obtain ⟨ids, hcard, hids⟩ := h
  refine ⟨ids, hcard, fun id hid => hids id ?_⟩
  rw [← isSome_of_definition ((step_effect hbus.books hbus.history hstep).definition id)]
  exact hid

/-- Registering definitions adds their sinks and no others. -/
theorem addSink_registered {definitions : List SinkDefinition}
    {sinks sinks' : Table SinkId SinkState} (h : definitions.foldlM addSink sinks = .ok sinks') :
    ∀ id ∈ sinks', id ∈ sinks ∨ id ∈ definitions.map SinkDefinition.id := by
  induction definitions generalizing sinks with
  | nil =>
    cases h
    exact fun id hid => .inl hid
  | cons definition rest ih =>
    rw [List.foldlM_cons, except_bind_eq_ok] at h
    obtain ⟨next, hnext, hrest⟩ := h
    refine guard_cases hnext (fun _ hnext => ?_) fun _ he => by cases he
    cases hnext
    intro id hid
    rcases ih hrest id hid with hold | hlater
    · rcases (mem_insert _).mp hold with rfl | hold
      · exact .inr List.mem_cons_self
      · exact .inl hold
    · exact .inr (List.mem_cons_of_mem _ hlater)

theorem newPaused_sinksSmall {definitions : List SinkDefinition} {routes : List RouteDefinition}
    {revision : UInt64} (h : newPaused limits definitions routes revision = .ok s) :
    SinksSmall limits s := by
  simp only [newPaused, except_bind_eq_ok, check_eq_ok, pure, Except.pure, Except.ok.injEq] at h
  obtain ⟨_, hcount, sinks, hsinks, compiled, -, rfl⟩ := h
  refine ⟨(definitions.map SinkDefinition.id).toFinset, ?_, fun id hid => ?_⟩
  · refine (List.toFinset_card_le _).trans ?_
    rw [List.length_map]
    omega
  · have hmem : id ∈ sinks := by simpa [State.queueOf, lookup_isSome] using hid
    simpa using (addSink_registered hsinks id hmem).resolve_left (notMem_empty id)

/-! ## Attempt counts -/

/-- A waiting record counts the attempts that its stored event remembers for the sink. -/
def AttemptsAgree (s : State) : Prop :=
  ∀ id q record a, s.queueOf id = some q → record ∈ q.queued →
    s.active.lookup record.event.eventId = some a → record.attempt = (a.attempts.lookup id).getD 0

/-- Admitted records start from the attempts of their stored event. -/
theorem AttemptsAgree.admitted {record : SinkId → DeliveryRecord} {a : ActiveEvent}
    (h : AttemptsAgree s) (hbooks : Stored s) (hpassed : Admitted record s s' a)
    (hattempt : ∀ id, (record id).attempt = (a.attempts.lookup id).getD 0) : AttemptsAgree s' := by
  intro id q' r b hq' hr hb
  rw [hpassed.active, lookup_insert_eq] at hb
  obtain ⟨q, hq, rfl⟩ := hpassed.queueOf_some hq'
  have hold : r ∈ q.queued → r.attempt = (b.attempts.lookup id).getD 0 := by
    intro hr
    obtain ⟨c, hc, -⟩ := (hbooks.ledger id q hq).carried r hr
    have hne : r.event.eventId ≠ a.event.eventId := fun he => by
      rw [he, hpassed.fresh] at hc
      cases hc
    rw [if_neg hne] at hb
    exact h id q r b hq hr hb
  split at hr
  · rcases List.mem_cons.mp ((q.enqueue_queued _).mem_iff.mp hr) with rfl | hr
    · rw [if_pos (by rw [(hpassed.carries id).1])] at hb
      cases hb
      exact hattempt id
    · exact hold hr
  · exact hold hr

/-- Storing the records of a snapshot starts each of them from its own attempts. -/
theorem AttemptsAgree.restore {instant : ℕ} {records : List SpoolRecord} (h : AttemptsAgree s)
    (hbooks : Stored s) (hrestorable : ∀ record ∈ records, Restorable s record)
    (hdistinct : (records.map fun record => record.event.eventId).Nodup)
    (hfresh : ∀ record ∈ records, s.active.lookup record.event.eventId = none) :
    AttemptsAgree (records.foldl (restoreRecord instant) s) := by
  induction records generalizing s with
  | nil => exact h
  | cons record rest ih =>
    obtain ⟨hnew, hdistinct⟩ := List.nodup_cons.mp hdistinct
    have hone := restoreRecord_admitted instant (hrestorable record List.mem_cons_self)
      (hfresh record List.mem_cons_self)
    refine ih (h.admitted hbooks hone fun _ => rfl) (hbooks.store hone) (fun later hlater => ?_)
      hdistinct fun later hlater => ?_
    · exact (hrestorable later (List.mem_cons_of_mem _ hlater)).of_same
        (restoreRecord_same instant hone)
    · rw [restoreRecord_active, lookup_insert_ne
        fun he => hnew (List.mem_map.mpr ⟨later, hlater, he⟩)]
      exact hfresh later (List.mem_cons_of_mem _ hlater)

/-- Moving records within the queues of a sink keeps their attempts. -/
theorem AttemptsAgree.same (h : AttemptsAgree s) (hsame : SameBacklog s s') : AttemptsAgree s' := by
  intro id q' record a hq' hrecord ha
  obtain ⟨q, hq, hshuffled⟩ := hsame.queueOf_some hq'
  exact h id q record a hq (hshuffled.queued.mem_iff.mp hrecord) (hsame.active ▸ ha)

/-- Handing out a record leaves the attempts of the others alone. -/
theorem AttemptsAgree.take {id : SinkId} {head record : DeliveryRecord} {q q' : SinkQueue}
    (h : AttemptsAgree s) (hbooks : Bookkeeping limits s)
    (htaken : Taken id s s' head record q q') : AttemptsAgree s' := by
  obtain ⟨-, a, ha, -⟩ := hbooks.take htaken
  intro id' p r b hp hr hb
  have hbefore : ∃ p₀, s.queueOf id' = some p₀ ∧ r ∈ p₀.queued := by
    rw [htaken.queueOf] at hp
    split at hp
    · next hid =>
      cases hp
      exact ⟨q, hid ▸ htaken.before, htaken.queued.mem_iff.mp (List.mem_cons_of_mem _ hr)⟩
    · exact ⟨p, hp, hr⟩
  obtain ⟨p₀, hp₀, hr₀⟩ := hbefore
  rw [htaken.active a ha, lookup_put] at hb
  split at hb
  · next he =>
    cases hb
    exact h id' p₀ r a hp₀ hr₀ (he ▸ ha)
  · exact h id' p₀ r b hp₀ hr₀ hb

/-- The attempt that came back is counted with the record and with the event alike.  Nothing else
of the event waits at the sink meanwhile, so no other record is affected. -/
theorem AttemptsAgree.land {id : SinkId} {record : DeliveryRecord} {a a' : ActiveEvent}
    {q q' : SinkQueue} {o : Option ActiveEvent} (h : AttemptsAgree s) (hbooks : Stored s)
    (hcurrent : Current s id record a q) (hlanded : Landed id a a')
    (hactive : s'.active = s.active.put record.event.eventId o) (ho : ∀ b, o = some b → b = a')
    (hqueue : ∀ id', s'.queueOf id' = if id' = id then some q' else s.queueOf id')
    (hqueued : ∀ r ∈ q'.queued, r ∈ q.queued ∨
      r.event.eventId = record.event.eventId ∧ r.attempt = (a'.attempts.lookup id).getD 0) :
    AttemptsAgree s' := by
  have hflying : id ∈ a.operations := mem_iff_lookup.mpr ⟨_, hcurrent.operation⟩
  intro id' p r b hp hr hb
  rw [hactive, lookup_put] at hb
  rw [hqueue] at hp
  by_cases he : r.event.eventId = record.event.eventId
  · rw [if_pos he] at hb
    obtain rfl := ho b hb
    by_cases hid : id' = id
    · subst hid
      rw [if_pos rfl, Option.some.injEq] at hp
      subst hp
      rcases hqueued r hr with hold | ⟨-, hattempt⟩
      · -- The event is in flight at this sink, so no record of it waits there.
        obtain ⟨c, hc, -, -, hidle, -⟩ := (hbooks.ledger id' q hcurrent.before).queued_owed hold
        rw [he, hcurrent.stored, Option.some.injEq] at hc
        exact absurd hflying (hc ▸ hidle)
      · exact hattempt
    · rw [if_neg hid] at hp
      have hsame : b.attempts.lookup id' = a.attempts.lookup id' := by
        rcases hlanded.attempts with hsame | ⟨n, hinsert⟩
        · rw [hsame]
        · rw [hinsert, lookup_insert_ne hid]
      rw [hsame]
      exact h id' p r a hp hr (he ▸ hcurrent.stored)
  · rw [if_neg he] at hb
    split at hp
    · next hid =>
      subst hid
      cases hp
      rcases hqueued r hr with hold | ⟨heq, -⟩
      · exact h id' q r b hcurrent.before hold hb
      · exact absurd heq he
    · exact h id' p r b hp hr hb

theorem AttemptsAgree.step (h : AttemptsAgree bus.state) (hbus : Consistent limits bus)
    (hstep : Step limits bus action bus') : AttemptsAgree bus'.state := by
  have hbooks := hbus.books
  -- A restore is followed record by record, which its effect on the books does not show.
  cases hrestore : action with
  | restore instant records =>
    subst hrestore
    cases hstep with
    | restore ran =>
      rcases restore_cases ran with ⟨-, rfl⟩ | ⟨checked, -, rfl, hprojected, -⟩
      · exact h
      · exact h.restore hbooks.toStored hprojected.restorable hprojected.distinct hprojected.fresh
  | _ =>
    have heffect := step_effect hbooks hbus.history hstep
    generalize bus'.state = s at heffect
    cases heffect with
    | same hsame => exact h.same hsame
    | rerouted hs _ =>
      obtain ⟨routes, revision, rfl⟩ := hs
      exact h
    | published hpub =>
      exact h.admitted hbooks.toStored hpub.toAdmitted fun id => by
        rw [hpub.untried]
        rfl
    | restored => cases hrestore
    | taken htaken => exact h.take hbooks htaken
    | @requeued _ id _ record' _ _ _ _ q hre _ _ =>
      refine h.land hbooks.toStored hre.toCurrent hre.toLanded hre.active
        (fun b hb => (Option.some.inj hb).symm) hre.queueOf fun r hr => ?_
      rcases List.mem_cons.mp ((q.land.delay_queued record').mem_iff.mp hr) with rfl | hr
      · refine .inr ⟨by rw [hre.again.1], ?_⟩
        rw [hre.counted, lookup_insert]
        rfl
      · exact .inl hr
    | released hrel _ _ _ =>
      refine h.land hbooks.toStored hrel.toCurrent hrel.toLanded hrel.active ?_ hrel.queueOf
        fun r hr => .inl hr
      intro b hb
      split at hb
      · cases hb
      · exact (Option.some.inj hb).symm

/-! ## Responsibilities across a restart -/

/-- What a bus owes to a sink that must confirm an event. -/
structure Responsibility where
  event : DeviceEvent
  attempt : UInt32
  acceptedAt : Int64
  routingRevision : UInt64
deriving DecidableEq

/-- The responsibility a stored event carries for a sink. -/
def ActiveEvent.responsibility (a : ActiveEvent) (id : SinkId) : Option Responsibility :=
  if id ∈ a.required then
    some ⟨a.event, (a.attempts.lookup id).getD 0, a.acceptedAt, a.routingRevision⟩
  else none

/-- The responsibility of the bus for an event and a required sink. -/
def State.responsibility (s : State) (e : EventId) (id : SinkId) : Option Responsibility :=
  (s.active.lookup e).bind fun a => a.responsibility id

/-- Restoring a snapshot on a fresh bus succeeds and gives back the required work: the same
responsibilities, waiting with the attempts counted so far, and the same snapshot again. -/
def RestartPreserves (limits : Limits) (instant : ℕ) (s fresh : State) : Prop :=
  ∃ s', exec (restore limits instant (spoolSnapshot s)) fresh =
      (.ok (spoolSnapshot s).length, s') ∧
    (∀ e id, s'.responsibility e id = s.responsibility e id) ∧
    (∀ id q record, s'.queueOf id = some q → record ∈ q.queued →
      ∃ owed, s.responsibility record.event.eventId id = some owed ∧
        record.event = owed.event ∧ record.attempt = owed.attempt ∧
        record.acceptedAt = owed.acceptedAt) ∧
    spoolSnapshot s' = spoolSnapshot s

@[simp] theorem ActiveEvent.spooled_stored_required (a : ActiveEvent) :
    a.spooled.stored.required = a.required := a.spooled_pending

@[simp] theorem ActiveEvent.spooled_stored_spooled (a : ActiveEvent) :
    a.spooled.stored.spooled = a.spooled := by
  simp only [spooled, SpoolRecord.stored, Finset.sort_toFinset]

section Restart

variable {limits : Limits} {instant : ℕ} {s fresh s' : State}

section

variable (h : Readmitted instant (spoolSnapshot s) fresh s')

include h

/-- The events a restarted bus stores. -/
theorem Readmitted.active (hstored : Stored s) (hempty : fresh.active = ∅) (e : EventId) :
    s'.active.lookup e =
      ((s.active.lookup e).filter fun a => a.required ≠ ∅).map fun a => a.spooled.stored := by
  by_cases hin : ∃ record ∈ spoolSnapshot s, record.event.eventId = e
  · obtain ⟨record, hrecord, rfl⟩ := hin
    rw [h.stored record hrecord]
    obtain ⟨e, a, ha, hne, rfl⟩ := mem_spoolSnapshot.mp hrecord
    have hid : a.spooled.event.eventId = e := (hstored.event e a ha).identity
    rw [hid, ha, Option.filter_some_pos (by simpa using hne), Option.map_some]
  · rw [h.kept e fun record hrecord he => hin ⟨record, hrecord, he⟩, hempty, lookup_empty]
    cases ha : s.active.lookup e with
    | none => rfl
    | some a =>
      have hnone : a.required = ∅ := by
        by_contra hne
        exact hin ⟨a.spooled, mem_spoolSnapshot.mpr ⟨e, a, ha, hne, rfl⟩,
          (hstored.event e a ha).identity⟩
      simp [hnone]

theorem Readmitted.responsibility (hstored : Stored s) (hempty : fresh.active = ∅) (e : EventId)
    (id : SinkId) : s'.responsibility e id = s.responsibility e id := by
  rw [State.responsibility, h.active hstored hempty, State.responsibility]
  cases s.active.lookup e with
  | none => rfl
  | some a =>
    by_cases hne : a.required = ∅
    · simp [hne, ActiveEvent.responsibility]
    · rw [Option.filter_some_pos (by simpa using hne)]
      simp only [Option.map_some, Option.bind_some, ActiveEvent.responsibility,
        ActiveEvent.spooled_stored_required]
      rfl

theorem Readmitted.snapshot (hstored : Stored s) (hstored' : Stored s')
    (hempty : fresh.active = ∅) : spoolSnapshot s' = spoolSnapshot s := by
  refine spoolSnapshot_eq hstored hstored' fun record => ?_
  rw [mem_spoolSnapshot, mem_spoolSnapshot]
  constructor
  · rintro ⟨e, a', ha', hne, rfl⟩
    rw [h.active hstored hempty, Option.map_eq_some_iff] at ha'
    obtain ⟨a, ha, rfl⟩ := ha'
    obtain ⟨ha, -⟩ := Option.filter_eq_some_iff.mp ha
    exact ⟨e, a, ha, by simpa using hne, by simp⟩
  · rintro ⟨e, a, ha, hne, rfl⟩
    refine ⟨e, a.spooled.stored, ?_, by simpa using hne, by simp⟩
    rw [h.active hstored hempty, ha, Option.filter_some_pos (by simpa using hne), Option.map_some]

end

theorem Bookkeeping.spoolSnapshot_length_le (h : Bookkeeping limits s) :
    (spoolSnapshot s).length ≤ limits.globalEventMaxCount := by
  rw [(spoolSnapshot_perm s).length_eq, State.spooling, List.length_map]
  exact (List.length_filter_le _ _).trans (by simpa [values, size] using h.count)

/-- The events of a snapshot take no more bytes than the bus accounts for. -/
theorem Bookkeeping.spoolSnapshot_bytes_le (h : Bookkeeping limits s) :
    restoredWeight eventBytes (spoolSnapshot s) ≤ limits.globalEventMaxBytes := by
  refine le_trans ?_ (h.activeBytes ▸ h.bytes)
  exact restoredWeight_spoolSnapshot_le fun e a ha => le_of_eq (h.event e a ha).size.symm

/-- A snapshot of a bus within its limits fits on a fresh bus with the same sinks, unless an
event was tried at too many sinks. -/
theorem spoolSnapshot_fits (h : Bookkeeping limits s) (hfanout : FanoutSmall limits s)
    (hfresh : Bookkeeping limits fresh) (hempty : fresh.active = ∅)
    (hsinks : ∀ id, (fresh.queueOf id).map SinkQueue.definition =
      (s.queueOf id).map SinkQueue.definition)
    (hages : ∀ e a, s.active.lookup e = some a → 0 ≤ a.acceptedAt)
    (hattempts : ∀ e a, s.active.lookup e = some a → a.required ≠ ∅ →
      a.attempts.size ≤ limits.maxSinks) : Fits limits fresh (spoolSnapshot s) := by
  have hpending : ∀ a : ActiveEvent, a.spooled.stored.remaining = a.required :=
    fun a => a.spooled_pending
  refine
    { restorable := fun record hrecord => ?_
      dated := fun record hrecord => ?_
      small := fun record hrecord => ?_
      distinct := spoolSnapshot_distinct h.toStored
      fresh := fun record _ => by rw [hempty, lookup_empty]
      bytes := ?_
      tenant := fun t => ?_
      sink := fun id q hq => ?_ }
  · obtain ⟨e, a, ha, hne, rfl⟩ := mem_spoolSnapshot.mp hrecord
    refine ⟨?_, Finset.sort_nodup _ _, fun id hid => ?_⟩
    · intro hnil
      exact hne (by rw [← a.spooled_pending, hnil, List.toFinset_nil])
    · have hrequired : id ∈ a.required := (Finset.mem_sort _).mp hid
      have hevent := h.event e a ha
      obtain ⟨q, hq⟩ :=
        Option.isSome_iff_exists.mp (hevent.known id (hevent.required_subset hrequired))
      have hdef := hsinks id
      rw [hq, Option.map_some, Option.map_eq_some_iff] at hdef
      obtain ⟨q', hq', hdef⟩ := hdef
      exact ⟨q', hq', by rw [hdef, hevent.confirmed id hrequired q hq]⟩
  · obtain ⟨e, a, ha, -, rfl⟩ := mem_spoolSnapshot.mp hrecord
    exact not_lt.mpr (hages e a ha)
  · obtain ⟨e, a, ha, hne, rfl⟩ := mem_spoolSnapshot.mp hrecord
    refine ⟨?_, hattempts e a ha hne⟩
    rw [ActiveEvent.spooled, Finset.length_sort]
    exact (Finset.card_le_card (h.event e a ha).required_subset).trans (hfanout e a ha)
  · rw [hfresh.activeBytes, hempty, total_empty, Nat.zero_add]
    exact h.spoolSnapshot_bytes_le
  · rw [hfresh.tenantCount, hfresh.tenantBytes, hempty, total_empty, total_empty]
    have hcount : restoredWeight (tenantOne t) (spoolSnapshot s) ≤
        ((s.tenants.lookup t).getD {}).count := by
      rw [h.tenantCount]
      exact restoredWeight_spoolSnapshot_le fun e a ha => le_rfl
    have hsize : restoredWeight (tenantBytes t) (spoolSnapshot s) ≤
        ((s.tenants.lookup t).getD {}).bytes := by
      rw [h.tenantBytes]
      refine restoredWeight_spoolSnapshot_le fun e a ha => ?_
      simp only [tenantBytes, SpoolRecord.stored, ActiveEvent.spooled, (h.event e a ha).size]
      exact le_rfl
    cases hb : s.tenants.lookup t with
    | none =>
      rw [hb] at hcount hsize
      simp only [Option.getD_none] at hcount hsize
      omega
    | some b =>
      rw [hb] at hcount hsize
      simp only [Option.getD_some] at hcount hsize
      have := h.tenant t b hb
      omega
  · have hdef := hsinks id
    rw [hq, Option.map_some, eq_comm, Option.map_eq_some_iff] at hdef
    obtain ⟨q₀, hq₀, hdef⟩ := hdef
    have hroom := h.room id q₀ hq₀
    rw [(hfresh.ledger id q hq).usedCount, (hfresh.ledger id q hq).usedBytes, hempty, total_empty,
      total_empty, ← hdef]
    have hcount : restoredWeight (owedOne id) (spoolSnapshot s) ≤ q₀.usedCount := by
      rw [(h.ledger id q₀ hq₀).usedCount]
      refine restoredWeight_spoolSnapshot_le fun e a ha => ?_
      simp only [owedOne, hpending]
      split
      · next hid => rw [if_pos ((h.event e a ha).required_subset hid)]
      · exact Nat.zero_le _
    have hsize : restoredWeight (owedBytes id) (spoolSnapshot s) ≤ q₀.usedBytes := by
      rw [(h.ledger id q₀ hq₀).usedBytes]
      refine restoredWeight_spoolSnapshot_le fun e a ha => ?_
      simp only [owedBytes, hpending]
      split
      · next hid =>
        rw [if_pos ((h.event e a ha).required_subset hid), (h.event e a ha).size]
        exact le_rfl
      · exact Nat.zero_le _
    omega

end Restart

/-- The history of attempts of every event with required work can be restored. -/
def AttemptsFit (limits : Limits) (s : State) : Prop :=
  ∀ e a, s.active.lookup e = some a → a.required ≠ ∅ → a.attempts.size ≤ limits.maxSinks

theorem HistorySmall.attemptsFit (h : HistorySmall limits s) : AttemptsFit limits s := by
  intro e a ha _
  rw [← card_keys]
  exact (Finset.card_le_card Finset.subset_union_left).trans (h e a ha)

theorem fanoutSmall_of_reachable (h : (busSystem limits).Reachable bus) :
    Consistent limits bus ∧ FanoutSmall limits bus.state ∧ AttemptsAgree bus.state := by
  refine h.invariant (I := fun bus => Consistent limits bus ∧ FanoutSmall limits bus.state ∧
    AttemptsAgree bus.state) ?_ ?_
  · intro start hstart
    have hbus := consistent_of_reachable (.start hstart)
    obtain ⟨⟨definitions, routes, revision, hnew⟩, -, -⟩ := hstart
    obtain ⟨-, hempty⟩ := newPaused_bookkeeping hnew
    refine ⟨hbus, fun e a ha => ?_, fun id q record a _ _ ha => ?_⟩ <;>
      rw [hempty, lookup_empty] at ha <;> cases ha
  · rintro bus action bus' ⟨hbus, hfanout, hagree⟩ hstep
    exact ⟨hbus.step hstep, hfanout.step hbus hstep, hagree.step hbus hstep⟩

/-- Runs that restore only records with a small history reach only states with one. -/
theorem historySmall_of_reachable
    (h : ((busSystem limits).restrict (RestoreGuard limits)).Reachable bus) :
    HistorySmall limits bus.state := by
  refine (h.invariant (I := fun bus => Consistent limits bus ∧ SinksSmall limits bus.state ∧
    HistorySmall limits bus.state) ?_ ?_).2.2
  · intro start hstart
    have hbus : Consistent limits start := consistent_of_reachable (.start hstart)
    obtain ⟨⟨definitions, routes, revision, hnew⟩, -, -⟩ := hstart
    obtain ⟨-, hempty⟩ := newPaused_bookkeeping hnew
    refine ⟨hbus, newPaused_sinksSmall hnew, fun e a ha => ?_⟩
    rw [hempty, lookup_empty] at ha
    cases ha
  · rintro bus action bus' ⟨hbus, hsinks, hhistory⟩ ⟨hguard, hstep⟩
    exact ⟨hbus.step hstep, hsinks.step hbus hstep, hhistory.step hsinks hbus hguard hstep⟩

/-- A snapshot with restorable histories gives back all required work. -/
theorem AttemptsFit.restart {fresh : State} (h : AttemptsFit limits bus.state)
    (hreachable : (busSystem limits).Reachable bus)
    (hfresh : ∃ definitions routes revision,
      newPaused limits definitions routes revision = .ok fresh)
    (hsinks : ∀ id, (fresh.queueOf id).map SinkQueue.definition =
      (bus.state.queueOf id).map SinkQueue.definition)
    (hages : ∀ e a, bus.state.active.lookup e = some a → 0 ≤ a.acceptedAt) (instant : ℕ) :
    RestartPreserves limits instant bus.state fresh := by
  obtain ⟨hbus, hfanout, -⟩ := fanoutSmall_of_reachable hreachable
  obtain ⟨definitions, routes, revision, hnew⟩ := hfresh
  obtain ⟨hbooks, hempty⟩ := newPaused_bookkeeping hnew
  have hfits := spoolSnapshot_fits hbus.books hfanout hbooks hempty hsinks hages h
  have hcount : fresh.active.size + (spoolSnapshot bus.state).length ≤
      limits.globalEventMaxCount := by
    rw [hempty]
    simpa [size] using hbus.books.spoolSnapshot_length_le
  obtain ⟨checked, hexec, hprojected⟩ := hfits.restore instant hcount
  have hread : Readmitted instant (spoolSnapshot bus.state) fresh _ := hprojected.readmitted
  have hbooks' :
      Bookkeeping limits (commitRestore instant (spoolSnapshot bus.state) checked fresh) :=
    (commitRestore_restored hbooks hprojected hcount).1
  have hresp := hread.responsibility hbus.books.toStored hempty
  -- The restarted bus is itself a run of one step, so its queues count what its events do.
  have hagree : AttemptsAgree (commitRestore instant (spoolSnapshot bus.state) checked fresh) :=
    (fanoutSmall_of_reachable (.step (a := .restore instant (spoolSnapshot bus.state))
      (.start (s := ⟨fresh, [], fun _ => []⟩) ⟨⟨definitions, routes, revision, hnew⟩, rfl, rfl⟩)
      (.restore hexec))).2.2
  refine ⟨_, hexec, hresp, fun id q record hq hrecord => ?_,
    hread.snapshot hbus.books.toStored hbooks'.toStored hempty⟩
  obtain ⟨a, ha, ⟨hevent, -, hage⟩, howed, -⟩ := (hbooks'.ledger id q hq).queued_owed hrecord
  have hstored := ha
  rw [hread.active hbus.books.toStored hempty, Option.map_eq_some_iff] at hstored
  obtain ⟨a₀, -, rfl⟩ := hstored
  have hrequired : id ∈ a₀.spooled.stored.required := howed
  have howing : bus.state.responsibility record.event.eventId id = some
      ⟨a₀.event, (a₀.attempts.lookup id).getD 0, a₀.acceptedAt, a₀.routingRevision⟩ := by
    rw [← hresp, State.responsibility, ha, Option.bind_some, ActiveEvent.responsibility,
      if_pos hrequired]
    rfl
  exact ⟨_, howing, hevent, hagree id q record a₀.spooled.stored hq hrecord ha, hage⟩

/-- A restart preserves the required work of a reachable bus exactly when no event with required
work was tried at more than `maxSinks` sinks, and this is so in every run whose restored records
respect that bound together with their pending sinks. -/
theorem restart_preserves_iff (limits : Limits) (bus : Bus) (fresh : State) (instant : ℕ)
    (hreachable : (busSystem limits).Reachable bus)
    (hfresh : ∃ definitions routes revision,
      newPaused limits definitions routes revision = .ok fresh)
    (hsinks : ∀ id, (fresh.queueOf id).map SinkQueue.definition =
      (bus.state.queueOf id).map SinkQueue.definition)
    (hages : ∀ e a, bus.state.active.lookup e = some a → 0 ≤ a.acceptedAt) :
    (RestartPreserves limits instant bus.state fresh ↔ AttemptsFit limits bus.state) ∧
      (((busSystem limits).restrict (RestoreGuard limits)).Reachable bus →
        RestartPreserves limits instant bus.state fresh) ∧
      ∀ id q record owed, bus.state.queueOf id = some q → record ∈ q.queued →
        bus.state.responsibility record.event.eventId id = some owed →
        record.attempt = owed.attempt := by
  refine ⟨⟨?_, fun hfit => hfit.restart hreachable hfresh hsinks hages instant⟩, fun hguarded =>
    (historySmall_of_reachable hguarded).attemptsFit.restart hreachable hfresh hsinks hages
      instant, ?_⟩
  · rintro ⟨s', hexec, -⟩ e a ha hne
    rcases restore_cases hexec with ⟨⟨e, he⟩, -⟩ | ⟨checked, -, -, hprojected, -⟩
    · cases he
    · exact (hprojected.small _ (mem_spoolSnapshot.mpr ⟨e, a, ha, hne, rfl⟩)).2
  · intro id q record owed hq hrecord howed
    obtain ⟨-, -, hagree⟩ := fanoutSmall_of_reachable hreachable
    rw [State.responsibility, Option.bind_eq_some_iff] at howed
    obtain ⟨a, ha, howed⟩ := howed
    rw [ActiveEvent.responsibility] at howed
    split at howed
    · cases howed
      exact hagree id q record a hq hrecord ha
    · cases howed

/-! ## An event that outgrows its history -/

/-- A sink of an earlier configuration. -/
def formerSinkId (i : Fin 32) : SinkId :=
  ⟨[UInt8.ofNat (48 + i / 10), UInt8.ofNat (48 + i % 10)], by revert i; decide⟩

/-- An event that was tried at as many former sinks as the limits allow, and never at the sink
it is pending at. -/
def wornRecord : SpoolRecord where
  event := sampleEvent
  pendingSinks := [sampleSinkId]
  routingRevision := 1
  acceptedAt := 0
  attempts := (List.finRange 32).foldl (fun attempts i => attempts.insert (formerSinkId i) 1) ∅

/-- The bus after the record was restored. -/
def wornRestored : Bus where
  state := (exec (restore .default 0 [wornRecord]) sampleStart).2
  taken := []
  tasks := fun _ => []

/-- The bus after its worker took the restored event. -/
def wornTaken : Bus :=
  wornRestored.handOut sampleSinkId (exec (takeReady 0 sampleSinkId) wornRestored.state).1
    (exec (takeReady 0 sampleSinkId) wornRestored.state).2

/-- The delivery the worker was given. -/
def wornDelivery : DeliveryRecord where
  event := sampleEvent
  bytes := 2
  acceptedAt := 0
  attempt := 0
  nextAttempt := 0
  operation := 1

/-- The bus after the delivery failed once. -/
def wornFailed : Bus where
  state := (exec (completeDetailed .default ⟨0, 0, 0⟩ sampleSinkId wornDelivery
    (.error ⟨.retryable, .network, none⟩) sampleSink) wornTaken.state).2
  taken := wornTaken.taken
  tasks := Function.update wornTaken.tasks sampleSinkId
    ((wornTaken.tasks sampleSinkId).erase wornDelivery)

theorem wornFailed_reachable : (busSystem .default).Reachable wornFailed := by
  have hstart : (busSystem .default).Reachable ⟨sampleStart, [], fun _ => []⟩ :=
    .start ⟨⟨_, _, _, sampleStart_new .default rfl (by decide)⟩, rfl, rfl⟩
  have hrestored : (busSystem .default).Reachable wornRestored :=
    .step (a := .restore 0 [wornRecord]) hstart (.restore rfl)
  have htaken : (busSystem .default).Reachable wornTaken :=
    .step (a := .takeReady 0 sampleSinkId) hrestored (.takeReady rfl)
  obtain ⟨sink, hsink, hdefinition⟩ : ∃ sink, wornTaken.state.sinks.lookup sampleSinkId =
      some sink ∧ sink.definition = sampleSink := by
    decide +kernel
  exact .step (a := .complete ⟨0, 0, 0⟩ sampleSinkId wornDelivery
      (.error ⟨.retryable, .network, none⟩)) htaken
    (.complete (by decide +kernel : (sampleSinkId, wornDelivery) ∈ wornTaken.taken) hsink
      (by rw [hdefinition]))

/-- A bus with just the sample sink has the sinks of the sample start. -/
theorem sampleStart_sinks (hkeys : s.sinks.keys = [sampleSinkId])
    (hsink : (s.queueOf sampleSinkId).map SinkQueue.definition = some sampleSink) (id : SinkId) :
    (sampleStart.queueOf id).map SinkQueue.definition =
      (s.queueOf id).map SinkQueue.definition := by
  by_cases hid : id = sampleSinkId
  · subst hid
    rw [hsink]
    rfl
  · have hnone : s.sinks.lookup id = none :=
      lookup_eq_none.mpr fun hmem => hid (List.mem_singleton.mp (hkeys ▸ mem_keys.mp hmem))
    rw [State.queueOf, State.queueOf, hnone, sampleStart, lookup_insert_ne hid]
    rfl

/-- One more attempt makes the history of a restored event too long for the next restart, which
then refuses the whole snapshot. -/
theorem restart_refuses_worn_event :
    (busSystem .default).Reachable wornFailed ∧
      newPaused .default [sampleSink] [⟨none, [sampleSinkId]⟩] 1 = .ok sampleStart ∧
      (∀ id, (sampleStart.queueOf id).map SinkQueue.definition =
        (wornFailed.state.queueOf id).map SinkQueue.definition) ∧
      (∀ e a, wornFailed.state.active.lookup e = some a → 0 ≤ a.acceptedAt) ∧
      wornFailed.state.responsibility sampleEvent.eventId sampleSinkId =
        some ⟨sampleEvent, 1, 0, 1⟩ ∧
      ¬ RestartPreserves .default 0 wornFailed.state sampleStart := by
  have hsize : ((wornFailed.state.active.lookup sampleEvent.eventId).map fun a =>
      (a.attempts.size, a.required)) = some (33, {sampleSinkId}) := by decide +kernel
  obtain ⟨a, ha, hvalues⟩ := Option.map_eq_some_iff.mp hsize
  obtain ⟨hattempts, hrequired⟩ := Prod.mk.inj hvalues
  refine ⟨wornFailed_reachable, sampleStart_new .default rfl (by decide),
    sampleStart_sinks (by decide +kernel) (by decide +kernel), fun e a ha => ?_, by decide +kernel,
    ?_⟩
  · have hall : ∀ b ∈ wornFailed.state.active.values, 0 ≤ b.acceptedAt := by decide +kernel
    exact hall a (mem_values_iff.mpr ⟨e, ha⟩)
  · rintro ⟨s', hexec, -⟩
    rcases restore_cases hexec with ⟨⟨e, he⟩, -⟩ | ⟨checked, -, -, hprojected, -⟩
    · cases he
    · have hsmall := (hprojected.small _ (mem_spoolSnapshot.mpr
        ⟨_, a, ha, by simp [hrequired], rfl⟩)).2
      rw [show a.spooled.attempts = a.attempts from rfl, hattempts] at hsmall
      exact absurd hsmall (by decide)

/-- The published sample event survives a restart. -/
theorem restart_preserves_sample :
    ((busSystem .default).restrict (RestoreGuard .default)).Reachable samplePublished ∧
      RestartPreserves .default 0 samplePublished.state sampleStart := by
  have hstart : ((busSystem .default).restrict (RestoreGuard .default)).Reachable
      ⟨sampleStart, [], fun _ => []⟩ :=
    .start ⟨⟨_, _, _, sampleStart_new .default rfl (by decide)⟩, rfl, rfl⟩
  have hreachable : ((busSystem .default).restrict (RestoreGuard .default)).Reachable
      samplePublished :=
    .step (a := .publish 0 0 sampleEvent) hstart ⟨trivial, .publish rfl⟩
  have hages : ∀ e a, samplePublished.state.active.lookup e = some a → 0 ≤ a.acceptedAt := by
    have hall : ∀ b ∈ samplePublished.state.active.values, 0 ≤ b.acceptedAt := by decide +kernel
    exact fun e a ha => hall a (mem_values_iff.mpr ⟨e, ha⟩)
  exact ⟨hreachable, (restart_preserves_iff .default samplePublished sampleStart 0
    hreachable.of_restrict ⟨_, _, _, sampleStart_new .default rfl (by decide)⟩
    (sampleStart_sinks (by decide +kernel) (by decide +kernel)) hages).2.1 hreachable⟩

end Netbaiot.EventBus
