import Mathlib.Order.Lattice.Nat
import Netbaiot.EventBus.Fairness

/-!
# When a worker may sleep

A worker that finds no delivery asks how long to sleep.  Both questions are answered from the
ready queue, the delayed buckets, the pause and the deliveries in flight; `sink_readiness` says
that the answers agree in every reachable state, and `readiness_exhausted` that they cease to when
the operation counter has run out.
-/

namespace Netbaiot.EventBus

open Lib Op AList

variable {now last : ℕ} {q q' : SinkQueue} {s : State} {limits : Limits} {id : SinkId}

/-! ## The times at which records are due -/

/-- Ready records are due, and a delayed one is in the bucket of its next attempt. -/
def SinkQueue.Dated (last : ℕ) (q : SinkQueue) : Prop :=
  (∀ record ∈ q.ready, record.nextAttempt ≤ last) ∧
    ∀ deadline records, q.delayed.lookup deadline = some records →
      ∀ record ∈ records, record.nextAttempt = deadline

theorem SinkQueue.Change.dated (h : Change now last q q') (hq : q.Dated last) : q'.Dated last := by
  induction h with
  | usage definition ready delayed =>
    unfold Dated
    rw [ready, delayed]
    exact hq
  | @enqueue q record h =>
    refine ⟨fun r hr => ?_, hq.2⟩
    rcases List.mem_append.mp hr with hr | hr
    · exact hq.1 r hr
    · rw [List.mem_singleton.mp hr]
      exact h
  | @delay q record h =>
    refine ⟨hq.1, fun deadline records hrecords r hr => ?_⟩
    simp only [SinkQueue.delay, lookup_insert_eq] at hrecords
    split at hrecords
    · next heq =>
      rw [← Option.some.inj hrecords] at hr
      rcases List.mem_append.mp hr with hr | hr
      · cases hold : q.delayed.lookup record.nextAttempt with
        | none => simp [hold] at hr
        | some old => exact heq ▸ hq.2 _ old hold r (by simpa [hold] using hr)
      · rw [List.mem_singleton.mp hr, heq]
    · exact hq.2 deadline records hrecords r hr
  | promote q budget remaining h =>
    refine promoteDue_keeps (P := SinkQueue.Dated last) ?_ budget remaining hq
    intro q first records promoted _ hdue hfirst _ hq
    refine ⟨fun r hr => ?_, fun deadline bucket hbucket r hr => ?_⟩
    · rw [q.promoteFirst_ready] at hr
      rcases List.mem_append.mp hr with hr | hr
      · exact hq.1 r hr
      · rw [hq.2 first records hfirst r (List.mem_of_mem_take hr)]
        exact hdue.trans h
    · rw [q.promoteFirst_lookup] at hbucket
      split at hbucket
      · next heq =>
        split at hbucket
        · cases hbucket
        · cases hbucket
          rw [heq]
          exact hq.2 first records hfirst r (List.mem_of_mem_drop hr)
      · exact hq.2 deadline bucket hbucket r hr
  | trans h h' ih ih' => exact ih' (ih hq)

/-- In every run whose clock does not go back, the queues are dated by the clock. -/
theorem dated_of_reachable {clocked : Bus × ℕ} (h : (clockedBus limits).Reachable clocked) :
    ∀ q, clocked.1.state.queueOf id = some q → q.Dated clocked.2 := by
  refine h.invariant (I := fun clocked => ∀ q, clocked.1.state.queueOf id = some q →
    q.Dated clocked.2) ?_ ?_
  · intro clocked hstart q hq
    obtain ⟨hready, hdelayed⟩ := start_idle hstart hq
    unfold SinkQueue.Dated
    rw [hready, hdelayed]
    exact ⟨nofun, nofun⟩
  · rintro ⟨bus, clock⟩ action ⟨bus', clock'⟩ hdated ⟨hstep, hclock⟩ q' hq'
    have hlast : clock ≤ clock' := (List.pairwise_cons.mp hclock).1 _ (by simp)
    have hold : ∀ q, bus.state.queueOf id = some q → q.Dated clock' := fun q hq =>
      ⟨fun r hr => ((hdated q hq).1 r hr).trans hlast, (hdated q hq).2⟩
    have hreadings : ∀ reading ∈ action.readings, 0 ≤ reading ∧ reading ≤ clock' :=
      fun reading hreading => ⟨Nat.zero_le _, (List.pairwise_append.mp
        (List.pairwise_cons.mp hclock).2).2.2 _ hreading _ (List.mem_singleton_self _)⟩
    obtain ⟨hchanges, -⟩ | ⟨time, sink, head, rest, _, _, rfl, hq, hready, -, hafter⟩ :=
      step_changes clock' id hstep hreadings
    · obtain ⟨q, hq, hmoved⟩ := hchanges.before hq'
      exact hmoved.dated (hold q hq)
    · cases hq'.symm.trans hafter
      have hchange : SinkQueue.Change 0 clock' sink.toSinkQueue (sink.promoted time) :=
        .promote _ _ _ (hreadings time List.mem_cons_self).2
      have hpromoted := hchange.dated (hold _ hq)
      refine ⟨fun r hr => hpromoted.1 r ?_, hpromoted.2⟩
      rw [hready]
      exact List.mem_cons_of_mem _ hr

/-! ## Both questions -/

/-- Promotion finds a delivery exactly if one is ready or due. -/
theorem promoted_ready {sink : SinkState} (hfilled : sink.Filled) :
    (sink.promoted now).ready ≠ [] ↔
      sink.ready ≠ [] ∨ ∃ first ≤ now, sink.delayed.firstKey? = some first := by
  obtain ⟨budget, hbudget⟩ : ∃ budget, sink.promotionBudget = budget + 1 :=
    ⟨sink.promotionBudget - 1, by unfold SinkQueue.promotionBudget; omega⟩
  unfold SinkState.promoted
  rw [hbudget]
  obtain ⟨hsame, hnone⟩ | ⟨first, records, hfirst, hrecords, hdue, hround⟩ :=
    promoteDue_succ now budget (budget + 1) sink.toSinkQueue
  · rw [hsame]
    refine ⟨.inl, fun h => h.resolve_right ?_⟩
    rintro ⟨first, hdue, hfirst⟩
    exact absurd (hnone first hfirst) (by omega)
  · refine ⟨fun _ => .inr ⟨first, hdue, hfirst⟩, fun _ => ?_⟩
    have htaken :
        (sink.promoteFirst first records (min records.length (budget + 1))).ready ≠ [] := by
      rw [SinkQueue.promoteFirst_ready, Ne, List.append_eq_nil_iff, List.take_eq_nil_iff]
      rintro ⟨-, hzero | rfl⟩
      · cases records with
        | nil => exact hfilled first hrecords
        | cons record rest => simp at hzero
      · exact hfilled first hrecords
    rw [hround]
    split
    · exact htaken
    · obtain ⟨more, hmore⟩ := (promoteDue_advances 0 now budget
        (budget + 1 - min records.length (budget + 1)) (sink.promoteFirst first records
          (min records.length (budget + 1)))).ready
      rw [hmore]
      exact fun hnil => htaken (List.append_eq_nil_iff.mp hnil).1

/-- What a successful call needs. -/
theorem takeReady_returns : (∃ record, (exec (takeReady now id) s).1 = .ok (some record)) ↔
    s.nextOperation + 1 < 2 ^ 64 ∧ ∃ sink, s.sinks.lookup id = some sink ∧
      sink.held now = false ∧ (sink.promoted now).ready ≠ [] := by
  simp only [takeReady, exec_get_bind, exec_someOr_bind]
  cases hop : checkedAdd 64 s.nextOperation 1 with
  | none =>
    refine iff_of_false (by simp) fun hroom => ?_
    rw [checkedAdd_eq_some.mpr ⟨hroom.1, rfl⟩] at hop
    cases hop
  | some operation =>
    have hroom := (checkedAdd_eq_some.mp hop).1
    cases hsink : s.sinks.lookup id with
    | none => exact iff_of_false (by simp) (by simp)
    | some sink =>
      cases hheld : sink.held now with
      | true => exact iff_of_false (by simp [hheld]) (by simp [hheld])
      | false =>
        simp only [hheld, Bool.false_eq_true, if_false]
        split
        · next hready =>
          simp only [exec_modify_bind, exec_pure]
          refine iff_of_false (by simp) ?_
          rintro ⟨-, _, ⟨⟩, -, hsome⟩
          exact hsome hready
        · next head rest hready =>
          refine iff_of_true ⟨_, rfl⟩ ⟨hroom, sink, rfl, hheld, ?_⟩
          exact ne_of_eq_of_ne hready (List.cons_ne_nil head rest)

/-- In a reachable state a sink is charged for more than its deliveries in flight exactly if
something is queued, and then a delivery is ready or delayed. -/
theorem queued_of_reachable {bus : Bus} (h : (busSystem limits).Reachable bus) {sink : SinkState}
    (hsink : bus.state.sinks.lookup id = some sink) :
    bus.state.queueOf id = some sink.toSinkQueue ∧
      (sink.usedCount = sink.inflight ↔ sink.queued = []) ∧
      (sink.queued = [] ↔ sink.ready = [] ∧ sink.delayed.firstKey? = none) := by
  have hq : bus.state.queueOf id = some sink.toSinkQueue := by
    rw [State.queueOf, hsink, Option.map_some]
  have hlength := ((consistent_of_reachable h).books.ledger id _ hq).queued_length
  refine ⟨hq, ?_, ?_⟩
  · rw [← List.length_eq_zero_iff]
    omega
  · rw [SinkQueue.queued, List.append_eq_nil_iff]
    refine and_congr_right fun _ => ?_
    constructor
    · intro hnil
      cases hfirst : sink.delayed.firstKey? with
      | none => rfl
      | some first =>
        obtain ⟨records, hrecords⟩ := firstKey?_lookup hfirst
        have hempty := List.flatten_eq_nil_iff.mp hnil records
          (mem_values_iff.mpr ⟨first, hrecords⟩)
        exact absurd (hempty ▸ hrecords) (filled_of_reachable h _ hq first)
    · intro hnone
      have hempty := List.map_eq_nil_iff.mp (List.min?_eq_none_iff.mp hnone)
      rw [values, hempty]
      rfl

/-- A worker never sleeps over ready work.  In every reachable state a call returns a delivery
exactly if the delay is zero, as long as operations can be numbered; the delay of a sink with
queued work and nothing in flight ends exactly when its pause is over and its earliest record is
due; and a paused sink delivers only after its pause and with nothing else in flight. -/
theorem sink_readiness {bus : Bus} (h : (busSystem limits).Reachable bus) (now : ℕ) (id : SinkId) :
    (bus.state.nextOperation + 1 < 2 ^ 64 →
      ((∃ record, (exec (takeReady now id) bus.state).1 = .ok (some record)) ↔
        nextReadyDelay bus.state now id = .ok (some 0))) ∧
    ∀ sink, bus.state.sinks.lookup id = some sink →
      (∀ clock ≤ now, (clockedBus limits).Reachable (bus, clock) → sink.queued ≠ [] →
        sink.inflight = 0 → ∃ delay earliest, nextReadyDelay bus.state now id = .ok (some delay) ∧
          IsLeast { t | ∃ record ∈ sink.queued, record.nextAttempt = t } earliest ∧
          now + delay = max now (max earliest (sink.pausedUntil.getD 0))) ∧
      ∀ deadline record, sink.pausedUntil = some deadline →
        (exec (takeReady now id) bus.state).1 = .ok (some record) →
          deadline ≤ now ∧ sink.inflight = 0 := by
  refine ⟨fun hroom => ?_, fun sink hsink => ⟨?_, fun deadline record hpaused htaken => ?_⟩⟩
  · rw [takeReady_returns, nextReadyDelay]
    cases hsink : bus.state.sinks.lookup id with
    | none => exact iff_of_false (by simp) (by simp)
    | some sink =>
      obtain ⟨hq, hcharged, hempty⟩ := queued_of_reachable h hsink
      simp only [hroom, true_and, Option.some.injEq, exists_eq_left',
        promoted_ready (filled_of_reachable h _ hq), hcharged, hempty, SinkState.held]
      generalize sink.pausedUntil = paused, sink.ready = ready,
        sink.delayed.firstKey? = first, sink.inflight = inflight
      cases paused with
      | none =>
        cases first <;> by_cases hready : ready = [] <;> simp [hready, Nat.sub_eq_zero_iff_le]
      | some deadline =>
        by_cases hover : deadline ≤ now
        · have hzero : deadline - now = 0 := by omega
          by_cases hidle : inflight = 0 <;> cases first <;> by_cases hready : ready = [] <;>
            simp [hover, hzero, hidle, hready, Nat.sub_eq_zero_iff_le]
        · have hlater : now < deadline := by omega
          have hzero : deadline - now ≠ 0 := by omega
          cases first <;> by_cases hready : ready = [] <;> simp [hover, hlater, hzero, hready]
  · intro clock hclock hclocked hqueued hidle
    obtain ⟨hq, hcharged, hempty⟩ := queued_of_reachable h hsink
    have hdated := dated_of_reachable hclocked _ hq
    have hpause : (sink.pausedUntil.any fun deadline => deadline ≤ now && sink.inflight != 0) =
        false := by
      simp [hidle]
    have hover : now + (sink.pausedUntil.map fun deadline => deadline - now).getD 0 =
        max now (sink.pausedUntil.getD 0) := by
      cases sink.pausedUntil with
      | none => simp
      | some deadline =>
        simp only [Option.map_some, Option.getD_some]
        omega
    simp only [nextReadyDelay, hsink, if_neg (mt hcharged.mp hqueued), hpause,
      Bool.false_eq_true, if_false]
    by_cases hready : sink.ready = []
    · rw [if_neg (not_not.mpr hready)]
      cases hfirst : sink.delayed.firstKey? with
      | none => exact absurd (hempty.mpr ⟨hready, hfirst⟩) hqueued
      | some first =>
        obtain ⟨records, hrecords⟩ := firstKey?_lookup hfirst
        refine ⟨_, first, rfl, ⟨?_, ?_⟩, ?_⟩
        · obtain ⟨record, hrecord⟩ := List.exists_mem_of_ne_nil records fun hnil =>
            filled_of_reachable h _ hq first (hnil ▸ hrecords)
          exact ⟨record, List.mem_append_right _ (List.mem_flatten.mpr
            ⟨records, mem_values_iff.mpr ⟨first, hrecords⟩, hrecord⟩),
            hdated.2 first records hrecords record hrecord⟩
        · rintro t ⟨record, hrecord, rfl⟩
          rw [SinkQueue.queued, hready, List.nil_append] at hrecord
          obtain ⟨bucket, hbucket, hmem⟩ := List.mem_flatten.mp hrecord
          obtain ⟨deadline, hdeadline⟩ := mem_values_iff.mp hbucket
          rw [hdated.2 deadline bucket hdeadline record hmem]
          exact firstKey?_le hfirst (mem_iff_lookup.mpr ⟨bucket, hdeadline⟩)
        · dsimp only
          omega
    · rw [if_pos hready]
      obtain ⟨head, hhead⟩ := List.exists_mem_of_ne_nil _ hready
      have hmem : head ∈ sink.queued := List.mem_append_left _ hhead
      obtain ⟨earliest, hleast⟩ : ∃ earliest,
          IsLeast { t | ∃ record ∈ sink.queued, record.nextAttempt = t } earliest :=
        ⟨_, Nat.sInf_mem ⟨_, head, hmem, rfl⟩, fun _ => Nat.sInf_le⟩
      have hdue := (hleast.2 ⟨head, hmem, rfl⟩).trans ((hdated.1 head hhead).trans hclock)
      exact ⟨_, earliest, rfl, hleast, by omega⟩
  · obtain ⟨-, found, hfound, hheld, -⟩ := takeReady_returns.mp ⟨record, htaken⟩
    cases hsink.symm.trans hfound
    simp only [SinkState.held, hpaused, Option.any_some, Bool.or_eq_false_iff,
      decide_eq_false_iff_not, not_lt, bne_eq_false_iff_eq] at hheld
    exact hheld

/-- After a failure the sink is paused: its worker sleeps until the pause is over, and then a call
returns the event that is ready. -/
theorem sink_readiness_sample : ∃ bus : Bus, ∃ sink,
    bus.state.sinks.lookup sampleSinkId = some sink ∧ sink.pausedUntil = some (sampleDue 1) ∧
      (∃ delay, nextReadyDelay bus.state 0 sampleSinkId = .ok (some delay) ∧
        sampleDue 1 ≤ delay) ∧
      nextReadyDelay bus.state (sampleDue 1) sampleSinkId = .ok (some 0) ∧
      sink.inflight = 0 := by
  have hrun : ∃ c ∈ (samplePair ++ sampleFailing).foldlM sampleStep
        (⟨sampleStart, [], fun _ => []⟩, 0), c.2 = 0 ∧ c.1.state.nextOperation + 1 < 2 ^ 64 ∧
      ∃ sink ∈ c.1.state.sinks.lookup sampleSinkId, sink.pausedUntil = some (sampleDue 1) ∧
        sink.queued ≠ [] ∧ sink.inflight = 0 ∧
        (exec (takeReady (sampleDue 1) sampleSinkId) c.1.state).1 =
          .ok (some { sampleRecord with event.eventId := ⟨2⟩, operation := 2 }) := by
    decide +kernel
  obtain ⟨⟨bus, clock⟩, hfailed, rfl, hroom, sink, hsink, hpaused, hqueued, hidle, htaken⟩ := hrun
  have hclocked := sampleStart_clocked.foldlM sampleStep_step _ hfailed
  have hreach := reachable_of_clocked hclocked
  obtain ⟨-, hsleeps⟩ := sink_readiness hreach 0 sampleSinkId
  obtain ⟨hwakes, hrests⟩ := sink_readiness hreach (sampleDue 1) sampleSinkId
  obtain ⟨delay, earliest, hdelay, -, hends⟩ :=
    (hsleeps sink hsink).1 0 le_rfl hclocked hqueued hidle
  refine ⟨bus, sink, hsink, hpaused, ⟨delay, hdelay, ?_⟩, (hwakes hroom).mp ⟨_, htaken⟩,
    ((hrests sink hsink).2 _ _ hpaused htaken).2⟩
  rw [hpaused, Option.getD_some] at hends
  omega

/-! ## When operations can no longer be numbered -/

/-- The sample bus after a number of deliveries, all of them confirmed. -/
def sampleUsed (n : ℕ) : State := { sampleStart with nextOperation := n }

/-- That bus after the sample event has been accepted once more. -/
def sampleHeld (n : ℕ) : State := { samplePublished.state with nextOperation := n }

theorem sampleUsed_publish {n : ℕ} {taken : List (SinkId × DeliveryRecord)}
    {tasks : SinkId → List DeliveryRecord}
    (h : (busSystem .default).Reachable ⟨sampleUsed n, taken, tasks⟩) :
    (busSystem .default).Reachable ⟨sampleHeld n, taken, tasks⟩ := by
  have hran : ∃ r, exec (publish .default 0 0 sampleEvent) (sampleUsed n) = (r, sampleHeld n) :=
    ⟨_, rfl⟩
  obtain ⟨r, hran⟩ := hran
  exact h.step (a := .publish 0 0 sampleEvent) (.publish hran)

theorem sampleHeld_ready (n : ℕ) : nextReadyDelay (sampleHeld n) 0 sampleSinkId = .ok (some 0) :=
  rfl

/-- The held delivery is handed out under the next number and then confirmed. -/
theorem sampleHeld_delivered {n : ℕ} (h : n + 1 < 2 ^ 64) :
    ∃ record sink taken,
      exec (takeReady 0 sampleSinkId) (sampleHeld n) = (.ok (some record), taken) ∧
      taken.sinks.lookup sampleSinkId = some sink ∧
      exec (completeDetailed .default ⟨0, 0, 0⟩ sampleSinkId record (.ok ()) sink.definition)
        taken = (.ok (), sampleUsed (n + 1)) := by
  simp only [takeReady, exec_get_bind, exec_someOr_bind, sampleHeld,
    checkedAdd_eq_some.mpr ⟨h, rfl⟩]
  refine ⟨{ sampleRecord with operation := n + 1 }, _, _, rfl, rfl, ?_⟩
  show exec (if ¬ some (n + 1) = some (n + 1) then _ else _) _ = _
  rw [if_neg (not_not.mpr rfl)]
  rfl

theorem sampleUsed_reachable (n : ℕ) (hn : n < 2 ^ 64) :
    ∃ taken tasks, (busSystem .default).Reachable ⟨sampleUsed n, taken, tasks⟩ := by
  induction n with
  | zero =>
    exact ⟨[], fun _ => [], .start ⟨⟨_, _, _, sampleStart_new .default rfl (by decide)⟩, rfl, rfl⟩⟩
  | succ n ih =>
    obtain ⟨taken, tasks, hused⟩ := ih (by omega)
    obtain ⟨record, sink, after, htake, hsink, hdone⟩ := sampleHeld_delivered hn
    have hheld := (sampleUsed_publish hused).step (Step.takeReady htake)
    exact ⟨_, _, hheld.step (Step.complete List.mem_cons_self hsink hdone)⟩

/-- After 2 ^ 64 - 1 deliveries the next one is ready, and no call returns it. -/
theorem readiness_exhausted : ∃ bus, (busSystem .default).Reachable bus ∧
    nextReadyDelay bus.state 0 sampleSinkId = .ok (some 0) ∧
    ¬ ∃ record, (exec (takeReady 0 sampleSinkId) bus.state).1 = .ok (some record) := by
  obtain ⟨taken, tasks, hused⟩ := sampleUsed_reachable (2 ^ 64 - 1) (by omega)
  refine ⟨_, sampleUsed_publish hused, sampleHeld_ready _, fun hsome => ?_⟩
  have hroom : (sampleHeld (2 ^ 64 - 1)).nextOperation + 1 < 2 ^ 64 :=
    (takeReady_returns.mp hsome).1
  simp only [sampleHeld] at hroom
  omega

end Netbaiot.EventBus
