import Netbaiot.EventBus.Responsibility

/-!
# Retries are not starved

New admissions go to the end of the ready queue while retries wait for their deadline, so a retry
is overtaken by whatever is admitted before it becomes ready.  But every successful `takeReady`
promotes at least one due retry, in the order of deadlines, and hands out the head of the ready
queue.  `Awaits` counts how many more successful calls a record can wait for, no step increases the
count and each successful call decreases it; `retry_returned` follows for every run whose clock
does not go back.
-/

namespace Netbaiot.EventBus

open Lib Op AList

variable {deadline n now : ℕ} {q q' : SinkQueue} {d : DeliveryRecord} {s : State} {id' : SinkId}
  {limits : Limits}

/-! ## Where a record waits -/

namespace SinkQueue

/-- The delayed records with a deadline before the given one. -/
def ahead (q : SinkQueue) (deadline : ℕ) : ℕ :=
  q.delayed.total fun k records => if k < deadline then records.length else 0

/-- The record is delayed behind `n` others. -/
def DelayedAt (q : SinkQueue) (d : DeliveryRecord) (deadline n : ℕ) : Prop :=
  ∃ records i, q.delayed.lookup deadline = some records ∧ records[i]? = some d ∧
    n = q.ahead deadline + i

/-- No deadline is kept without records. -/
def Filled (q : SinkQueue) : Prop := ∀ deadline, q.delayed.lookup deadline ≠ some []

/-- Nothing was taken from the ready queue, and no record with a deadline up to `now` was put
back. -/
structure Advances (now : ℕ) (q q' : SinkQueue) : Prop where
  definition : q'.definition = q.definition
  ready : ∃ more, q'.ready = q.ready ++ more
  filled : q.Filled → q'.Filled
  delayed : ∀ {d deadline n}, deadline ≤ now → q.DelayedAt d deadline n →
    d ∈ q'.ready ∨ ∃ n' ≤ n, q'.DelayedAt d deadline n'

theorem Advances.refl (now : ℕ) (q : SinkQueue) : q.Advances now q :=
  ⟨rfl, ⟨[], (List.append_nil _).symm⟩, id, fun _ h => .inr ⟨_, le_rfl, h⟩⟩

theorem Advances.trans {q'' : SinkQueue} (h : q.Advances now q') (h' : q'.Advances now q'') :
    q.Advances now q'' where
  definition := h'.definition.trans h.definition
  ready := by
    obtain ⟨more, hmore⟩ := h.ready
    obtain ⟨more', hmore'⟩ := h'.ready
    exact ⟨more ++ more', by rw [hmore', hmore, List.append_assoc]⟩
  filled hfilled := h'.filled (h.filled hfilled)
  delayed hdue hd := by
    obtain ⟨more', hmore'⟩ := h'.ready
    obtain hready | ⟨n', hn', hd'⟩ := h.delayed hdue hd
    · exact .inl (hmore' ▸ List.mem_append_left _ hready)
    · obtain hready | ⟨n'', hn'', hd''⟩ := h'.delayed hdue hd'
      · exact .inl hready
      · exact .inr ⟨n'', hn''.trans hn', hd''⟩

/-- A change of the usage counters advances nothing. -/
theorem Advances.of_queues (hdefinition : q'.definition = q.definition)
    {more : List DeliveryRecord} (hready : q'.ready = q.ready ++ more)
    (hdelayed : q'.delayed = q.delayed) : q.Advances now q' where
  definition := hdefinition
  ready := ⟨more, hready⟩
  filled h deadline := hdelayed ▸ h deadline
  delayed _ hd := by
    refine .inr ⟨_, le_rfl, ?_⟩
    unfold DelayedAt ahead
    rw [hdelayed]
    exact hd

/-- A retry that is put back later than `now` waits behind everything that is due. -/
theorem delay_advances {record : DeliveryRecord} (hlater : now < record.nextAttempt) :
    q.Advances now (q.delay record) where
  definition := rfl
  ready := ⟨[], (List.append_nil _).symm⟩
  filled h deadline := by
    simp only [delay, lookup_insert_eq]
    split
    · simp
    · exact h deadline
  delayed {d deadline n} hdue hd := by
    obtain ⟨records, i, hrecords, hi, rfl⟩ := hd
    have hahead : (q.delay record).ahead deadline = q.ahead deadline := by
      have htotal := total_put (fun k (records : List DeliveryRecord) =>
        if k < deadline then records.length else 0) record.nextAttempt
        (some ((q.delayed.lookup record.nextAttempt).getD [] ++ [record])) q.delayed
      have hno : ¬ record.nextAttempt < deadline := by omega
      unfold weigh at htotal
      cases hold : q.delayed.lookup record.nextAttempt <;>
        simp only [hold, Option.elim_none, Option.elim_some, hno, if_false, put_some,
          add_zero] at htotal <;>
        simpa only [ahead, delay, hold] using htotal
    refine .inr ⟨_, le_rfl, records, i, ?_, hi, by rw [hahead]⟩
    rw [delay, lookup_insert_ne (by omega)]
    exact hrecords

theorem DelayedAt.mem_delayed (h : q.DelayedAt d deadline n) : deadline ∈ q.delayed := by
  obtain ⟨records, i, hrecords, -⟩ := h
  exact mem_iff_lookup.mpr ⟨records, hrecords⟩

/-- A record waits behind fewer delayed ones than there are. -/
theorem DelayedAt.lt (h : q.DelayedAt d deadline n) : n < q.queued.length := by
  obtain ⟨records, i, hrecords, hi, rfl⟩ := h
  have hi := (List.getElem?_eq_some_iff.mp hi).1
  have hahead : q.ahead deadline =
      (q.delayed.erase deadline).total fun k records =>
        if k < deadline then records.length else 0 := by
    rw [ahead, total_of_lookup _ hrecords, if_neg (lt_irrefl _), zero_add]
  have hle : q.ahead deadline ≤
      (q.delayed.erase deadline).total fun _ records => records.length := by
    rw [hahead]
    refine total_le_total fun k records _ => ?_
    split <;> omega
  have htotal := total_of_lookup (fun _ records => records.length) hrecords
  have hlength : q.delayed.values.flatten.length =
      q.delayed.total fun _ records => records.length := by
    simp [values, total, List.length_flatten, Function.comp_def]
  rw [queued, List.length_append, hlength, htotal]
  omega

end SinkQueue

/-! ## Promotion -/

section Promotion

variable {q : SinkQueue} {first promoted : ℕ} {records : List DeliveryRecord}

theorem SinkQueue.promoteFirst_ready (q : SinkQueue) (first promoted : ℕ)
    (records : List DeliveryRecord) :
    (q.promoteFirst first records promoted).ready = q.ready ++ records.take promoted := by
  unfold promoteFirst
  split
  · next hall => rw [hall, List.take_length]
  · rfl

theorem SinkQueue.promoteFirst_lookup (q : SinkQueue) (first promoted : ℕ)
    (records : List DeliveryRecord) (deadline : ℕ) :
    (q.promoteFirst first records promoted).delayed.lookup deadline =
      if deadline = first then
        if promoted = records.length then none else some (records.drop promoted)
      else q.delayed.lookup deadline := by
  unfold promoteFirst
  split
  · exact lookup_erase_eq first deadline q.delayed
  · exact lookup_insert_eq first deadline _ q.delayed

/-- The first bucket only counts for later deadlines. -/
theorem SinkQueue.promoteFirst_ahead (hfirst : q.delayed.lookup first = some records)
    (hle : promoted ≤ records.length) (deadline : ℕ) :
    (q.promoteFirst first records promoted).ahead deadline +
      (if first < deadline then promoted else 0) = q.ahead deadline := by
  have hold := total_of_lookup (fun k (records : List DeliveryRecord) =>
    if k < deadline then records.length else 0) hfirst
  unfold promoteFirst ahead
  rw [hold]
  split
  · next hall => rw [hall, Nat.add_comm]
  · rw [total_insert]
    split
    · rw [List.length_drop]
      omega
    · rfl

/-- A record of the first bucket or behind it comes closer with every record that is promoted. -/
theorem SinkQueue.promoteFirst_delayed (hfirst : q.delayed.lookup first = some records)
    (hle : promoted ≤ records.length) (horder : first ≤ deadline) (hd : q.DelayedAt d deadline n) :
    d ∈ (q.promoteFirst first records promoted).ready ∨
      ∃ n', n' + promoted = n ∧
        (q.promoteFirst first records promoted).DelayedAt d deadline n' := by
  obtain ⟨bucket, i, hbucket, hi, rfl⟩ := hd
  have hahead := q.promoteFirst_ahead hfirst hle deadline
  have hlookup := q.promoteFirst_lookup first promoted records deadline
  by_cases hsame : deadline = first
  · subst hsame
    cases hfirst.symm.trans hbucket
    have hlength := (List.getElem?_eq_some_iff.mp hi).1
    rw [if_neg (lt_irrefl _)] at hahead
    by_cases hi' : i < promoted
    · refine .inl ?_
      rw [q.promoteFirst_ready deadline promoted records]
      refine List.mem_append_right _ (List.mem_of_getElem? (i := i) ?_)
      rw [List.getElem?_take_of_lt hi', hi]
    · rw [if_pos rfl, if_neg (by omega)] at hlookup
      refine .inr ⟨q.ahead deadline + (i - promoted), by omega, _, i - promoted, hlookup, ?_,
        by omega⟩
      rw [List.getElem?_drop, Nat.add_sub_cancel' (by omega), hi]
  · rw [if_pos (by omega)] at hahead
    rw [if_neg hsame] at hlookup
    exact .inr ⟨(q.promoteFirst first records promoted).ahead deadline + i, by omega, bucket, i,
      hlookup.trans hbucket, hi, rfl⟩

theorem SinkQueue.promoteFirst_filled (hle : promoted ≤ records.length) (h : q.Filled) :
    (q.promoteFirst first records promoted).Filled := by
  intro deadline
  rw [q.promoteFirst_lookup]
  split
  · split
    · simp
    · next hpart =>
      intro hnil
      have hlength := congrArg List.length (Option.some.inj hnil)
      rw [List.length_drop, List.length_nil] at hlength
      omega
  · exact h deadline

theorem SinkQueue.promoteFirst_advances (now : ℕ) (hfirst : q.delayed.firstKey? = some first)
    (hrecords : q.delayed.lookup first = some records) (hle : promoted ≤ records.length) :
    q.Advances now (q.promoteFirst first records promoted) where
  definition := by
    unfold promoteFirst
    split <;> rfl
  ready := ⟨_, q.promoteFirst_ready first promoted records⟩
  filled := SinkQueue.promoteFirst_filled hle
  delayed {d deadline n} _ hd := by
    have horder : first ≤ deadline := firstKey?_le hfirst hd.mem_delayed
    obtain hready | ⟨n', hn', hd'⟩ := SinkQueue.promoteFirst_delayed hrecords hle horder hd
    · exact .inl hready
    · exact .inr ⟨n', by omega, hd'⟩

/-- Promotion takes records from the front of the delayed ones. -/
theorem promoteDue_advances (now time budget remaining : ℕ) (q : SinkQueue) :
    q.Advances now (promoteDue time budget remaining q) :=
  promoteDue_keeps (P := q.Advances now)
    (fun _ _ _ _ hfirst _ hrecords hle hq =>
      hq.trans (SinkQueue.promoteFirst_advances now hfirst hrecords hle))
    budget remaining (.refl now q)

/-- A due record comes closer by at least one. -/
theorem promoteDue_closer {budget remaining : ℕ} (hremaining : 0 < remaining) (hfilled : q.Filled)
    (hdue : deadline ≤ now) (hd : q.DelayedAt d deadline n) :
    d ∈ (promoteDue now (budget + 1) remaining q).ready ∨
      ∃ n' < n, (promoteDue now (budget + 1) remaining q).DelayedAt d deadline n' := by
  obtain ⟨-, hnone⟩ | ⟨first, records, hfirst, hrecords, -, hround⟩ :=
    promoteDue_succ now budget remaining q
  · obtain ⟨first, hfirst⟩ : ∃ first, q.delayed.firstKey? = some first := by
      cases hfirst : q.delayed.firstKey? with
      | none =>
        have hmem := mem_keys.mp hd.mem_delayed
        rw [List.min?_eq_none_iff.mp hfirst] at hmem
        cases hmem
      | some first => exact ⟨first, rfl⟩
    have hle := firstKey?_le hfirst hd.mem_delayed
    have hlater := hnone first hfirst
    omega
  · have hsome : 0 < min records.length remaining := by
      refine lt_min (List.length_pos_iff.mpr ?_) hremaining
      rintro rfl
      exact hfilled first hrecords
    have hstep := SinkQueue.promoteFirst_delayed hrecords (min_le_left records.length remaining)
      (firstKey?_le hfirst hd.mem_delayed) hd
    have hrest : (q.promoteFirst first records (min records.length remaining)).Advances now
        (promoteDue now (budget + 1) remaining q) := by
      rw [hround]
      split
      · exact .refl now _
      · exact promoteDue_advances now now budget _ _
    obtain hready | ⟨n', hn', hd'⟩ := hstep
    · obtain ⟨more, hmore⟩ := hrest.ready
      exact .inl (hmore ▸ List.mem_append_left _ hready)
    · obtain hready | ⟨n'', hn'', hd''⟩ := hrest.delayed hdue hd'
      · exact .inl hready
      · exact .inr ⟨n'', by omega, hd''⟩

end Promotion

/-! ## How long a record waits -/

namespace SinkQueue

/-- The record is handed out by one of the next `n` successful calls: it is among the first `n`
ready ones, or so few records are delayed before it that it will be in time. -/
def Awaits (q : SinkQueue) (d : DeliveryRecord) (deadline n : ℕ) : Prop :=
  (∃ i < n, q.ready[i]? = some d) ∨
    ∃ ahead, q.DelayedAt d deadline ahead ∧ ahead + q.definition.maxCount ≤ n

/-- A ready record is among as many as the sink has room for. -/
theorem exists_of_mem_ready (hroom : q.queued.length ≤ q.definition.maxCount) (hd : d ∈ q.ready) :
    ∃ i < q.definition.maxCount, q.ready[i]? = some d := by
  obtain ⟨i, hi⟩ := List.mem_iff_getElem?.mp hd
  have hlength := (List.getElem?_eq_some_iff.mp hi).1
  rw [queued, List.length_append] at hroom
  exact ⟨i, by omega, hi⟩

theorem Awaits.advances (h : q.Awaits d deadline n) (hq : q.Advances now q') (hdue : deadline ≤ now)
    (hroom : q'.queued.length ≤ q'.definition.maxCount) : q'.Awaits d deadline n := by
  obtain ⟨i, hi, hready⟩ | ⟨ahead, hd, hahead⟩ := h
  · obtain ⟨more, hmore⟩ := hq.ready
    have hlength := (List.getElem?_eq_some_iff.mp hready).1
    exact .inl ⟨i, hi, by rw [hmore, List.getElem?_append_left hlength, hready]⟩
  · rw [← hq.definition] at hahead
    obtain hready | ⟨ahead', hle, hd'⟩ := hq.delayed hdue hd
    · obtain ⟨i, hi, hready⟩ := exists_of_mem_ready hroom hready
      exact .inl ⟨i, by omega, hready⟩
    · exact .inr ⟨ahead', hd', by omega⟩

/-- A successful call hands out the record or brings it closer. -/
theorem Awaits.take {head : DeliveryRecord} {rest : List DeliveryRecord} {budget : ℕ}
    (h : q.Awaits d deadline (n + 1)) (inflight : ℕ) (hfilled : q.Filled) (hdue : deadline ≤ now)
    (hbudget : 0 < budget) (hroom : q.queued.length ≤ q.definition.maxCount)
    (hready : (promoteDue now budget budget q).ready = head :: rest) :
    d = head ∨ Awaits { promoteDue now budget budget q with ready := rest, inflight := inflight } d
      deadline n := by
  have hmoved := promoteDue_shuffled now budget budget q
  have hroom' : (promoteDue now budget budget q).queued.length ≤
      (promoteDue now budget budget q).definition.maxCount := by
    rw [hmoved.queued.length_eq, hmoved.definition]
    exact hroom
  -- Whatever place the record has among the ready ones, the one at the head leaves.
  have hpop : ∀ i ≤ n, (promoteDue now budget budget q).ready[i]? = some d →
      d = head ∨ ∃ i' < n, rest[i']? = some d := by
    intro i hi hplace
    rw [hready] at hplace
    cases i with
    | zero => exact .inl (Option.some.inj hplace).symm
    | succ i => exact .inr ⟨i, hi, hplace⟩
  obtain ⟨i, hi, hplace⟩ | ⟨ahead, hd, hahead⟩ := h
  · obtain ⟨more, hmore⟩ := (promoteDue_advances now now budget budget q).ready
    have hlength := (List.getElem?_eq_some_iff.mp hplace).1
    obtain hhead | hrest := hpop i (by omega) (by
      rw [hmore, List.getElem?_append_left hlength, hplace])
    · exact .inl hhead
    · exact .inr (.inl hrest)
  · obtain ⟨budget, rfl⟩ : ∃ k, budget = k + 1 := ⟨budget - 1, by omega⟩
    rw [← hmoved.definition] at hahead
    obtain hmem | ⟨ahead', hlt, hd'⟩ := promoteDue_closer hbudget hfilled hdue hd
    · obtain ⟨i, hi, hplace⟩ := exists_of_mem_ready hroom' hmem
      obtain hhead | hrest := hpop i (by omega) hplace
      · exact .inl hhead
      · exact .inr (.inl hrest)
    · exact .inr (.inr ⟨ahead', hd', by dsimp only; omega⟩)

end SinkQueue

/-! ## Steps -/

/-- What steps that read the clock between `now` and `last` do to the queues of a sink. -/
inductive SinkQueue.Change (now last : ℕ) : SinkQueue → SinkQueue → Prop
  | usage {q q' : SinkQueue} (definition : q'.definition = q.definition)
      (ready : q'.ready = q.ready) (delayed : q'.delayed = q.delayed) : Change now last q q'
  | enqueue (q : SinkQueue) {record : DeliveryRecord} (h : record.nextAttempt ≤ last) :
      Change now last q (q.enqueue record)
  | delay (q : SinkQueue) {record : DeliveryRecord} (h : now < record.nextAttempt) :
      Change now last q (q.delay record)
  | promote (q : SinkQueue) {time : ℕ} (budget remaining : ℕ) (h : time ≤ last) :
      Change now last q (promoteDue time budget remaining q)
  | trans {q q' q'' : SinkQueue} (h : Change now last q q') (h' : Change now last q' q'') :
      Change now last q q''

/-- The queue of a sink changes in this way; no sink is added or removed. -/
def Changes (now last : ℕ) (id : SinkId) (s s' : State) : Prop :=
  Option.Rel (SinkQueue.Change now last) (s.queueOf id) (s'.queueOf id)

section Steps

variable {now last : ℕ} {id : SinkId}

theorem SinkQueue.Change.advances (h : Change now last q q') : q.Advances now q' := by
  induction h with
  | usage definition ready delayed =>
    exact .of_queues definition (ready.trans (List.append_nil _).symm) delayed
  | enqueue q h => exact .of_queues rfl rfl rfl
  | delay q h => exact delay_advances h
  | promote q budget remaining h => exact promoteDue_advances _ _ _ _ q
  | trans h h' ih ih' => exact ih.trans ih'

theorem Changes.after {s' : State} (h : Changes now last id s s') (hq : s.queueOf id = some q) :
    ∃ q', s'.queueOf id = some q' ∧ q.Change now last q' := by
  unfold Changes at h
  rw [hq] at h
  generalize s'.queueOf id = after at h ⊢
  cases h with
  | some hmoved => exact ⟨_, rfl, hmoved⟩

theorem Changes.before {s' : State} (h : Changes now last id s s')
    (hq' : s'.queueOf id = some q') : ∃ q, s.queueOf id = some q ∧ q.Change now last q' := by
  unfold Changes at h
  rw [hq'] at h
  generalize s.queueOf id = before at h ⊢
  cases h with
  | some hmoved => exact ⟨_, rfl, hmoved⟩

theorem changes_of_queueOf {s' : State} (h : s'.queueOf id = s.queueOf id) :
    Changes now last id s s' := by
  rw [Changes, h]
  cases s.queueOf id with
  | none => exact .none
  | some q => exact .some (.usage rfl rfl rfl)

instance : IsTrans State (Changes now last id) where
  trans s s' s'' h h' := by
    unfold Changes at h h' ⊢
    generalize s.queueOf id = before, s'.queueOf id = between, s''.queueOf id = after at h h' ⊢
    cases h with
    | none => exact h'
    | some hq =>
        cases h' with
        | some hq' => exact .some (hq.trans hq')

theorem changes_of_sinks {s' : State} {f : SinkState → SinkState}
    (h : s'.sinks.lookup id = (s.sinks.lookup id).map f)
    (hf : ∀ sink : SinkState, sink.toSinkQueue.Change now last (f sink).toSinkQueue) :
    Changes now last id s s' := by
  rw [Changes, State.queueOf, State.queueOf, h]
  cases s.sinks.lookup id with
  | none => exact .none
  | some sink => exact .some (hf sink)

theorem changes_of_queue {s' : State} (hq : s.queueOf id' = some q)
    (hq' : ∀ id, s'.queueOf id = if id = id' then some q' else s.queueOf id)
    (h : q.Change now last q') : Changes now last id s s' := by
  by_cases hid : id = id'
  · rw [Changes, hq', if_pos hid, hid, hq]
    exact .some h
  · exact changes_of_queueOf ((hq' id).trans (if_neg hid))

theorem publish_changes {wall : Int64} {instant : ℕ} {event : DeviceEvent} {s' : State}
    {r : Except Error EventAccepted} (h : instant ≤ last)
    (ran : exec (publish limits wall instant event) s = (r, s')) : Changes now last id s s' := by
  have hoffer : ∀ (n : ℕ) (sink : SinkState), sink.toSinkQueue.Change now last
      ((SinkState.offer (event.delivery wall instant))^[n] sink).toSinkQueue := by
    intro n
    induction n with
    | zero => exact fun _ => .usage rfl rfl rfl
    | succ n ih =>
      intro sink
      refine .trans ?_ (ih (sink.offer _))
      unfold SinkState.offer
      split
      · exact .enqueue _ h
      · exact .usage rfl rfl rfl
  obtain ⟨-, rfl, -⟩ | ⟨-, taken, t, hfan, hend⟩ := publish_cases ran
  · exact changes_of_queueOf rfl
  · have hsinks : s'.sinks = t.sinks := by
      obtain ⟨-, -, rfl⟩ | ⟨-, -, rfl⟩ := hend <;> rfl
    exact changes_of_sinks (hsinks ▸ hfan.sinks id) (hoffer _)

theorem restoreRecords_changes {instant : ℕ} (h : instant ≤ last) (records : List SpoolRecord)
    (s : State) : Changes now last id s (records.foldl (restoreRecord instant) s) := by
  induction records generalizing s with
  | nil => exact changes_of_queueOf rfl
  | cons record rest ih =>
    refine IsTrans.trans _ (restoreRecord instant s record) _ ?_ (ih _)
    refine changes_of_sinks
      (restoreSinks_lookup instant record (Finset.sort_nodup _ _) s.sinks id) fun sink => ?_
    split
    · exact .enqueue _ h
    · exact .usage rfl rfl rfl

/-- A failed delivery is put back later than the time that is read. -/
theorem completeDetailed_changes {clock : CompletionClock} {record : DeliveryRecord}
    {result : Except SinkFailure Unit} {definition : SinkDefinition} {s' : State}
    {r : Except Error Unit} (hclock : now ≤ clock.retryInstant)
    (ran : exec (completeDetailed limits clock id' record result definition) s = (r, s')) :
    Changes now last id s s' := by
  have hland : ∀ q : SinkQueue, q.Change now last q.land := fun _ => .usage rfl rfl rfl
  obtain ⟨rfl, -⟩ | ⟨record', a, a', q, h, -, hlater⟩ | ⟨a, a', q, h, -⟩ :=
    completeDetailed_spec ran
  · exact changes_of_queueOf rfl
  · exact changes_of_queue h.before h.queueOf ((hland q).trans (.delay _ (by omega)))
  · exact changes_of_queue h.before h.queueOf ((hland q).trans (.usage rfl rfl rfl))

end Steps

/-! ## Runs -/

/-- The clock readings of an action, in the order in which they are taken. -/
def Action.readings : Action → List ℕ
  | .publish _ instant _ => [instant]
  | .restore instant _ => [instant]
  | .takeReady now _ => [now]
  | .complete clock _ _ _ => [clock.pauseInstant, clock.retryInstant]
  | .replaceRoutes _ _ => []
  | .closeAdmission => []

/-- Runs of a bus with the present time, which no reading and no step takes back. -/
def clockedBus (limits : Limits) : System (Bus × ℕ) Action where
  start clocked := (busSystem limits).start clocked.1
  step clocked action clocked' := Step limits clocked.1 action clocked'.1 ∧
    (clocked.2 :: (action.readings ++ [clocked'.2])).Pairwise (· ≤ ·)

/-- The deliveries handed to the worker of a sink, one for each successful call, oldest first. -/
def Bus.served (bus : Bus) (id : SinkId) : List DeliveryRecord :=
  ((bus.taken.filter fun t => t.1 = id).map Prod.snd).reverse

theorem Bus.served_handOut (bus : Bus) (id id' : SinkId)
    (r : Except Error (Option DeliveryRecord)) (s : State) :
    (bus.handOut id' r s).served id =
      match r with
      | .ok (some record) => if id' = id then bus.served id ++ [record] else bus.served id
      | _ => bus.served id := by
  cases r with
  | error e => rfl
  | ok found =>
    cases found with
    | none => rfl
    | some record => by_cases hid : id' = id <;> simp [handOut, served, hid]

section Runs

variable {limits : Limits} {bus bus' : Bus} {action : Action} {now : ℕ} {id : SinkId}

/-- A step changes the queue of a sink, or is a successful call for it. -/
theorem step_changes (last : ℕ) (id : SinkId) (h : Step limits bus action bus')
    (hclock : ∀ reading ∈ action.readings, now ≤ reading ∧ reading ≤ last) :
    (Changes now last id bus.state bus'.state ∧ bus'.served id = bus.served id) ∨
      ∃ (time : ℕ) (sink : SinkState) (head : DeliveryRecord) (rest : List DeliveryRecord)
        (operation inflight : ℕ), action = .takeReady time id ∧
        bus.state.queueOf id = some sink.toSinkQueue ∧
        (sink.promoted time).ready = head :: rest ∧
        bus'.served id = bus.served id ++ [{ head with operation }] ∧
        bus'.state.queueOf id = some { sink.promoted time with ready := rest, inflight } := by
  cases h with
  | publish ran => exact .inl ⟨publish_changes (hclock _ List.mem_cons_self).2 ran, rfl⟩
  | restore ran =>
    refine .inl ⟨?_, rfl⟩
    obtain ⟨-, rfl⟩ | ⟨checked, -, rfl, -⟩ := restore_cases ran
    · exact changes_of_queueOf rfl
    · exact restoreRecords_changes (hclock _ List.mem_cons_self).2 _ _
  | @takeReady time id' s r ran =>
    rw [Bus.handOut_state, Bus.served_handOut]
    obtain ⟨hnone, hsame⟩ | ⟨sink, head, rest, hsink, hready, rfl, rfl⟩ := takeReady_cases ran
    · refine .inl ⟨?_, ?_⟩
      · obtain rfl | ⟨sink, hsink, rfl⟩ := hsame
        · exact changes_of_queueOf rfl
        · exact changes_of_queue (State.queueOf_eq_some.mpr ⟨sink, hsink, rfl⟩)
            (State.queueOf_setSink _ _ · _) (.promote _ _ _ (hclock _ List.mem_cons_self).2)
      · split
        · next record => exact absurd rfl (hnone record)
        · rfl
    · by_cases hid : id' = id
      · subst hid
        refine .inr ⟨time, sink, head, rest, _, (sink.promoted time).inflight + 1, rfl, ?_, hready,
          if_pos rfl, ?_⟩
        · rw [State.queueOf, hsink, Option.map_some]
        · rw [State.updateActive_queueOf]
          exact (State.queueOf_setSink _ _ _ _).trans (if_pos rfl)
      · refine .inl ⟨changes_of_queueOf ?_, if_neg hid⟩
        rw [State.updateActive_queueOf]
        exact (State.queueOf_setSink _ _ _ _).trans (if_neg (Ne.symm hid))
  | complete _ _ ran =>
    refine .inl ⟨completeDetailed_changes (hclock _ ?_).1 ran, rfl⟩
    exact List.mem_cons_of_mem _ List.mem_cons_self
  | replaceRoutes ran =>
    refine .inl ⟨?_, rfl⟩
    obtain rfl | ⟨compiled, -, rfl⟩ := replaceRoutes_cases ran <;> exact changes_of_queueOf rfl
  | closeAdmission ran =>
    cases ran
    exact .inl ⟨changes_of_queueOf rfl, rfl⟩

/-- At the start nothing is queued. -/
theorem start_idle (h : (busSystem limits).start bus) (hq : bus.state.queueOf id = some q) :
    q.ready = [] ∧ q.delayed = ∅ := by
  obtain ⟨⟨definitions, routes, revision, hnew⟩, -⟩ := h
  simp only [newPaused, except_bind_eq_ok, pure, Except.pure, Except.ok.injEq] at hnew
  obtain ⟨_, -, sinks, hsinks, compiled, -, hstate⟩ := hnew
  rw [← hstate] at hq
  obtain ⟨sink, hsink, rfl⟩ := State.queueOf_eq_some.mp hq
  rw [addSink_idle hsinks (by simp) id sink hsink]
  exact ⟨rfl, rfl⟩

/-- In every run, no deadline is kept without records. -/
theorem filled_of_reachable (h : (busSystem limits).Reachable bus) :
    ∀ q, bus.state.queueOf id = some q → q.Filled := by
  refine h.invariant (I := fun bus => ∀ q, bus.state.queueOf id = some q → q.Filled) ?_ ?_
  · intro bus hstart q hq deadline
    rw [(start_idle hstart hq).2]
    simp
  · intro bus action bus' hfilled hstep q' hq'
    obtain ⟨hchanges, -⟩ | ⟨time, sink, _, _, _, _, -, hq, -, -, hafter⟩ :=
      step_changes action.readings.sum id hstep fun reading hreading =>
        ⟨Nat.zero_le reading, List.le_sum_of_mem hreading⟩
    · obtain ⟨q, hq, hmoved⟩ := hchanges.before hq'
      exact hmoved.advances.filled (hfilled q hq)
    · cases hq'.symm.trans hafter
      exact (promoteDue_advances 0 time _ _ sink.toSinkQueue).filled (hfilled _ hq)

/-- The queues of a sink never hold more than it has room for. -/
theorem queued_le_of_reachable (h : (busSystem limits).Reachable bus)
    (hq : bus.state.queueOf id = some q) : q.queued.length ≤ q.definition.maxCount := by
  have hbooks := (consistent_of_reachable h).books
  have hlength := (hbooks.ledger id q hq).queued_length
  have hroom := (hbooks.room id q hq).1
  omega

theorem reachable_of_clocked {clocked : Bus × ℕ} (h : (clockedBus limits).Reachable clocked) :
    (busSystem limits).Reachable clocked.1 := by
  induction h with
  | start hstart => exact .start hstart
  | step _ hstep ih => exact ih.step hstep.1

/-- The record was handed out by one of the `2 * maxCount` calls from the given one on, or it will
be. -/
def InTime (id : SinkId) (d : DeliveryRecord) (deadline first maxCount : ℕ) (bus : Bus) : Prop :=
  (∃ i < 2 * maxCount, ∃ record, (bus.served id)[first + i]? = some record ∧
    { record with operation := d.operation } = d) ∨
  ∃ q n, bus.state.queueOf id = some q ∧ q.definition.maxCount = maxCount ∧
    q.Awaits d deadline n ∧ first ≤ (bus.served id).length ∧
    (bus.served id).length + n < first + 2 * maxCount

theorem InTime.step {first maxCount : ℕ} (h : InTime id d deadline first maxCount bus)
    (hreach : (busSystem limits).Reachable bus) (hstep : Step limits bus action bus')
    (hdue : deadline ≤ now) (hclock : ∀ reading ∈ action.readings, now ≤ reading) :
    InTime id d deadline first maxCount bus' := by
  have hchanges := step_changes action.readings.sum id hstep fun reading hreading =>
    ⟨hclock reading hreading, List.le_sum_of_mem hreading⟩
  obtain ⟨i, hi, record, hrecord, hsame⟩ | ⟨q, n, hq, hmax, hawaits, hfirst, hlength⟩ := h
  · have hold := (List.getElem?_eq_some_iff.mp hrecord).1
    refine .inl ⟨i, hi, record, ?_, hsame⟩
    obtain ⟨-, hserved⟩ | ⟨_, _, _, _, _, _, -, -, -, hserved, -⟩ := hchanges
    · rw [hserved, hrecord]
    · rw [hserved, List.getElem?_append_left hold, hrecord]
  · obtain ⟨hqueue, hserved⟩ | ⟨time, sink, head, rest, operation, inflight, rfl, hq', hready,
      hserved, hqueue⟩ := hchanges
    · obtain ⟨after, hafter, hmoved⟩ := hqueue.after hq
      refine .inr ⟨after, n, hafter, by rw [hmoved.advances.definition, hmax],
        hawaits.advances hmoved.advances hdue
          (queued_le_of_reachable (hreach.step hstep) hafter), ?_⟩
      rw [hserved]
      exact ⟨hfirst, hlength⟩
    · cases hq.symm.trans hq'
      have hroom := queued_le_of_reachable hreach hq
      have hfilled := filled_of_reachable hreach _ hq
      have htime := hclock time List.mem_cons_self
      cases n with
      | zero =>
        -- A record that waits at the sink waits for at least one call.
        obtain ⟨i, hi, -⟩ | ⟨ahead, hd, hahead⟩ := hawaits
        · exact absurd hi (Nat.not_lt_zero i)
        · omega
      | succ n =>
        have hbudget : 0 < sink.promotionBudget := lt_max_of_lt_right Nat.one_pos
        obtain rfl | hawaits := hawaits.take inflight hfilled (hdue.trans htime) hbudget hroom
          hready
        · refine .inl ⟨(bus.served id).length - first, by omega, { d with operation }, ?_, rfl⟩
          rw [hserved, Nat.add_sub_cancel' hfirst, List.getElem?_concat_length]
        · refine .inr ⟨_, n, hqueue, ?_, hawaits, ?_⟩
          · rw [← hmax]
            exact congrArg SinkDefinition.maxCount (promoteDue_usage _ _ _ _).1
          · rw [hserved, List.length_append, List.length_singleton]
            omega

/-- In every run whose clock does not go back, a delayed record that is due at some call for its
sink is handed out by one of the first `2 * maxCount` successful calls from that one on. -/
theorem retry_returned {bus bus₁ bus₂ : Bus} {clock clock₁ clock₂ deadline : ℕ} {q : SinkQueue}
    {records : List DeliveryRecord} {d : DeliveryRecord}
    (hreach : (clockedBus limits).Reachable (bus, clock)) (hq : bus.state.queueOf id = some q)
    (hrecords : q.delayed.lookup deadline = some records) (hd : d ∈ records) (hdue : deadline ≤ now)
    (hcall : (clockedBus limits).step (bus, clock) (.takeReady now id) (bus₁, clock₁))
    (hlater : (clockedBus limits).Path (fun _ _ => True) (bus₁, clock₁) (bus₂, clock₂)) :
    (∃ i < 2 * q.definition.maxCount, ∃ record,
      (bus₂.served id)[(bus.served id).length + i]? = some record ∧
        { record with operation := d.operation } = d) ∨
      (bus₂.served id).length < (bus.served id).length + 2 * q.definition.maxCount := by
  have hbus := reachable_of_clocked hreach
  obtain ⟨i, hi⟩ := List.mem_iff_getElem?.mp hd
  have hdelayed : q.DelayedAt d deadline (q.ahead deadline + i) := ⟨records, i, hrecords, hi, rfl⟩
  have hahead := hdelayed.lt
  have hroom := queued_le_of_reachable hbus hq
  have hstart : InTime id d deadline (bus.served id).length q.definition.maxCount bus := by
    refine .inr ⟨q, 2 * q.definition.maxCount - 1, hq, rfl, .inr ⟨_, hdelayed, ?_⟩, le_rfl, ?_⟩
    · omega
    · omega
  have hfirst : InTime id d deadline (bus.served id).length q.definition.maxCount bus₁ ∧
      now ≤ clock₁ := by
    have hclock := (List.pairwise_cons.mp (List.pairwise_cons.mp hcall.2).2).1
    refine ⟨hstart.step hbus hcall.1 hdue fun reading hreading => ?_,
      hclock clock₁ (List.mem_singleton_self _)⟩
    rw [List.mem_singleton.mp hreading]
  have hlast := hlater.invariant (I := fun clocked : Bus × ℕ =>
    InTime id d deadline (bus.served id).length q.definition.maxCount clocked.1 ∧
      now ≤ clocked.2) (hreach.step hcall) (fun clocked action clocked' hclocked hinv _ hstep => ?_)
    hfirst
  · obtain hreturned | ⟨_, n, -, -, -, -, hlength⟩ := hlast.1
    · exact .inl hreturned
    · have hfew : (bus₂.served id).length + n < _ := hlength
      exact .inr (by omega)
  · obtain ⟨hstep, hclock⟩ := hstep
    have hlater := (List.pairwise_cons.mp hclock).1
    have hreadings : ∀ reading ∈ action.readings, now ≤ reading := fun reading hreading =>
      hinv.2.trans (hlater reading (List.mem_append_left _ hreading))
    refine ⟨hinv.1.step (reachable_of_clocked hclocked) hstep hdue hreadings, ?_⟩
    exact hinv.2.trans (hlater _ (List.mem_append_right _ (List.mem_singleton_self _)))

/-- What was handed out for a sink, followed by what is ready for it.  The number of an operation
is only given when a record is handed out. -/
def Bus.line (bus : Bus) (id : SinkId) : List DeliveryRecord :=
  (bus.served id ++ (bus.state.queueOf id).elim [] SinkQueue.ready).map ({ · with operation := 0 })

theorem line_prefix_of_step (h : Step limits bus action bus') : bus.line id <+: bus'.line id := by
  obtain ⟨hqueue, hserved⟩ | ⟨time, sink, head, rest, operation, inflight, -, hq, hready, hserved,
      hqueue⟩ := step_changes action.readings.sum id h
    fun _ hreading => ⟨Nat.zero_le _, List.le_sum_of_mem hreading⟩
  · cases hq : bus.state.queueOf id with
    | none => simp [Bus.line, hserved, hq]
    | some q =>
      obtain ⟨q', hq', hchange⟩ := hqueue.after hq
      obtain ⟨more, hmore⟩ := hchange.advances.ready
      simp [Bus.line, hserved, hq, hq', hmore]
  · obtain ⟨more, hmore⟩ := (promoteDue_advances 0 time _ _ sink.toSinkQueue).ready
    have hprefix : sink.ready <+: head :: rest := ⟨more, hmore.symm.trans hready⟩
    simpa [Bus.line, hserved, hqueue, hq] using hprefix.map ({ · with operation := 0 })

/-- Each sink is served in order: in every run, what is ready for it stays in line behind what was
handed out, and whatever is published or retried goes to the end. -/
theorem ready_served_in_order (h : (busSystem limits).Path (fun _ _ => True) bus bus')
    (id : SinkId) : bus.line id <+: bus'.line id := by
  induction h with
  | refl => exact List.prefix_rfl
  | step _ _ hstep ih => exact ih.trans (line_prefix_of_step hstep)

end Runs

/-- The steps of the sample run, with the last clock reading. -/
def sampleStep (clocked : Bus × ℕ) (action : Action) : Option (Bus × ℕ) :=
  let (bus, clock) := clocked
  let last := action.readings.getLastD clock
  let after : Option Bus :=
    match action with
    | .publish now instant event =>
      some { bus with state := (exec (publish .default now instant event) bus.state).2 }
    | .takeReady now id =>
      let (r, s) := exec (takeReady now id) bus.state
      some (bus.handOut id r s)
    | .complete clock id record result =>
      if (id, record) ∈ bus.taken then
        (bus.state.sinks.lookup id).map fun sink =>
          { bus with
            state := (exec (completeDetailed .default clock id record result sink.definition)
              bus.state).2
            tasks := Function.update bus.tasks id ((bus.tasks id).erase record) }
      else none
    | _ => none
  if (clock :: (action.readings ++ [last])).Pairwise (· ≤ ·) then after.map (·, last) else none

theorem sampleStep_step (clocked : Bus × ℕ) (action : Action) (clocked' : Bus × ℕ)
    (h : sampleStep clocked action = some clocked') :
    (clockedBus .default).step clocked action clocked' := by
  obtain ⟨bus, clock⟩ := clocked
  simp only [sampleStep, Option.ite_none_right_eq_some, Option.map_eq_some_iff] at h
  obtain ⟨hclock, after, hafter, rfl⟩ := h
  refine ⟨?_, hclock⟩
  cases action with
  | publish now instant event =>
    cases hafter
    exact .publish rfl
  | takeReady now id =>
    cases hafter
    exact .takeReady rfl
  | complete clock id record result =>
    simp only [Option.ite_none_right_eq_some, Option.map_eq_some_iff] at hafter
    obtain ⟨hhanded, sink, hsink, rfl⟩ := hafter
    exact .complete hhanded hsink rfl
  | _ => cases hafter

/-- Two events are accepted. -/
def samplePair : List Action :=
  [.publish 0 0 sampleEvent, .publish 0 0 { sampleEvent with eventId := ⟨2⟩ }]

/-- The first one fails. -/
def sampleFailing : List Action :=
  [.takeReady 0 sampleSinkId,
    .complete ⟨0, 0, 0⟩ sampleSinkId sampleRecord (.error sampleFailure)]

/-- The record of the first event at its later attempts, and when it is due. -/
def sampleDue (n : ℕ) : ℕ := n * maximumDelay .default
def sampleRetry (n : ℕ) : DeliveryRecord :=
  { sampleRecord with operation := n + 2, attempt := .ofNat n, nextAttempt := sampleDue n }

/-- The second one is delivered, and the first one fails again and again. -/
def sampleRetrying : List Action :=
  [.complete ⟨0, sampleDue 1, sampleDue 1⟩ sampleSinkId
      { sampleRecord with event.eventId := ⟨2⟩, operation := 2 } (.ok ()),
    .takeReady (sampleDue 1) sampleSinkId,
    .complete ⟨0, sampleDue 1, sampleDue 1⟩ sampleSinkId (sampleRetry 1) (.error sampleFailure),
    .takeReady (sampleDue 2) sampleSinkId,
    .complete ⟨0, sampleDue 2, sampleDue 2⟩ sampleSinkId (sampleRetry 2) (.error sampleFailure),
    .takeReady (sampleDue 3) sampleSinkId]

theorem sampleStart_clocked : (clockedBus .default).Reachable (⟨sampleStart, [], fun _ => []⟩, 0) :=
  .start ⟨⟨_, _, _, sampleStart_new .default rfl (by decide)⟩, rfl, rfl⟩

/-- The event that failed is handed out again, within twice the room of the sink. -/
theorem retry_returned_sample : ∃ bus₂ : Bus, (bus₂.served sampleSinkId).length = 5 ∧
    ∃ i < 2 * sampleSink.maxCount, ∃ record, (bus₂.served sampleSinkId)[1 + i]? = some record ∧
      { record with operation := 1 } =
        { sampleRecord.attempted with nextAttempt := sampleDue 1 } := by
  have hrun : ∃ c ∈ (samplePair ++ sampleFailing).foldlM sampleStep
        (⟨sampleStart, [], fun _ => []⟩, 0), (c.1.served sampleSinkId).length = 1 ∧
      ∃ q ∈ c.1.state.queueOf sampleSinkId, q.definition.maxCount = sampleSink.maxCount ∧
      q.delayed.lookup (sampleDue 1) =
        some [{ sampleRecord.attempted with nextAttempt := sampleDue 1 }] ∧
      ∃ c₁ ∈ sampleStep c (.takeReady (sampleDue 1) sampleSinkId),
      ∃ c₂ ∈ sampleRetrying.foldlM sampleStep c₁, (c₂.1.served sampleSinkId).length = 5 := by
    decide +kernel
  obtain ⟨⟨bus, clock⟩, hfailed, hserved, q, hq, hmax, hrecords, ⟨bus₁, clock₁⟩, hcall,
    ⟨bus₂, clock₂⟩, hlater, hserved₂⟩ := hrun
  have hreach := sampleStart_clocked.foldlM sampleStep_step _ hfailed
  have hpath := System.Path.foldlM sampleStep_step _ .refl hlater
  refine ⟨bus₂, hserved₂, ?_⟩
  rcases retry_returned hreach hq hrecords List.mem_cons_self le_rfl
    (sampleStep_step _ _ _ hcall) hpath with hreturned | hfew
  · rw [hserved, hmax] at hreturned
    exact hreturned
  · rw [hserved, hserved₂, hmax] at hfew
    exact absurd hfew (by decide)

theorem path_of_clocked {clocked clocked' : Bus × ℕ}
    (h : (clockedBus limits).Path (fun _ _ => True) clocked clocked') :
    (busSystem limits).Path (fun _ _ => True) clocked.1 clocked'.1 := by
  induction h with
  | refl => exact .refl
  | step _ _ hstep ih => exact ih.step trivial hstep.1

/-- The two events stay in line before the attempts that come later. -/
theorem ready_served_in_order_sample : ∃ bus bus' : Bus,
    (bus.line sampleSinkId).map (·.event.eventId.uuid) = [1, 2] ∧
      (bus'.line sampleSinkId).map (·.event.eventId.uuid) = [1, 2, 1, 1, 1] ∧
      bus.line sampleSinkId <+: bus'.line sampleSinkId := by
  have hrun : ∃ c ∈ samplePair.foldlM sampleStep (⟨sampleStart, [], fun _ => []⟩, 0),
      (c.1.line sampleSinkId).map (·.event.eventId.uuid) = [1, 2] ∧
      ∃ c' ∈ (sampleFailing ++ .takeReady (sampleDue 1) sampleSinkId :: sampleRetrying).foldlM
        sampleStep c, (c'.1.line sampleSinkId).map (·.event.eventId.uuid) = [1, 2, 1, 1, 1] := by
    decide +kernel
  obtain ⟨c, -, hline, c', hlater, hline'⟩ := hrun
  have hpath := path_of_clocked (System.Path.foldlM sampleStep_step _ .refl hlater)
  exact ⟨c.1, c'.1, hline, hline', ready_served_in_order hpath sampleSinkId⟩

end Netbaiot.EventBus
