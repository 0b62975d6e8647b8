import Netbaiot.EventBus.Operations
import Mathlib.Data.List.Perm.Basic

/-!
# Queue contents of a sink

Enqueueing and delaying add one record to what waits at a sink, promotion only
moves records, and taking a delivery removes the head.  Each fact is stated as a
permutation of `queued`, so later proofs never look at individual buckets.
-/

namespace Netbaiot.EventBus

open Lib AList

variable (sink : SinkQueue)

namespace SinkQueue

/-- How many records of an event wait at a sink. -/
def waiting (eventId : EventId) : ℕ :=
  sink.queued.countP fun record => record.event.eventId = eventId

theorem enqueue_queued (record : DeliveryRecord) :
    (sink.enqueue record).queued.Perm (record :: sink.queued) := by
  simp only [queued, enqueue, List.append_assoc, List.singleton_append]
  exact List.perm_middle

theorem delay_queued (record : DeliveryRecord) :
    (sink.delay record).queued.Perm (record :: sink.queued) := by
  simp only [queued, delay, values_insert, List.flatten_cons, List.append_assoc]
  cases hbucket : sink.delayed.lookup record.nextAttempt with
  | none =>
    simp only [Option.getD_none, List.nil_append, List.singleton_append]
    rw [erase_of_lookup_none hbucket]
    exact List.perm_middle
  | some bucket =>
    have hvalues := (values_perm_of_lookup hbucket).flatten
    simp only [Option.getD_some, List.flatten_cons, List.singleton_append] at hvalues ⊢
    refine List.Perm.trans (List.Perm.append_left _ List.perm_middle) ?_
    exact List.perm_middle.trans ((hvalues.symm.append_left sink.ready).cons record)

@[simp] theorem land_queued : sink.land.queued = sink.queued := rfl

end SinkQueue

/-- Take some records of a bucket to the ready queue. -/
def SinkQueue.promoteFirst (q : SinkQueue) (deadline : ℕ) (records : List DeliveryRecord)
    (promoted : ℕ) : SinkQueue :=
  if promoted = records.length then
    { q with ready := q.ready ++ records, delayed := q.delayed.erase deadline }
  else
    { q with
      ready := q.ready ++ records.take promoted
      delayed := q.delayed.insert deadline (records.drop promoted) }

/-- One round of promotion: nothing is due, or records of the first bucket are taken. -/
theorem promoteDue_succ (now budget remaining : ℕ) (q : SinkQueue) :
    (promoteDue now (budget + 1) remaining q = q ∧
      ∀ first, q.delayed.firstKey? = some first → now < first) ∨
    ∃ first records, q.delayed.firstKey? = some first ∧ q.delayed.lookup first = some records ∧
      first ≤ now ∧ promoteDue now (budget + 1) remaining q =
        if remaining - min records.length remaining = 0 then
          q.promoteFirst first records (min records.length remaining)
        else promoteDue now budget (remaining - min records.length remaining)
          (q.promoteFirst first records (min records.length remaining)) := by
  rw [promoteDue]
  cases hfirst : q.delayed.firstKey? with
  | none => exact .inl ⟨rfl, fun _ h => nomatch h⟩
  | some first =>
    obtain ⟨records, hrecords⟩ := firstKey?_lookup hfirst
    by_cases hdue : first > now
    · refine .inl ⟨if_pos hdue, fun other hother => ?_⟩
      cases hother
      exact hdue
    · refine .inr ⟨first, records, rfl, hrecords, not_lt.mp hdue, ?_⟩
      simp only [hrecords, Option.getD_some, if_neg hdue]
      rfl

/-- What every promotion from a first bucket keeps holds after all of them. -/
theorem promoteDue_keeps {P : SinkQueue → Prop} {now : ℕ}
    (hstep : ∀ q first records promoted, q.delayed.firstKey? = some first → first ≤ now →
      q.delayed.lookup first = some records → promoted ≤ records.length → P q →
      P (q.promoteFirst first records promoted))
    (budget remaining : ℕ) {q : SinkQueue} (hq : P q) : P (promoteDue now budget remaining q) := by
  induction budget generalizing remaining q with
  | zero => exact hq
  | succ budget ih =>
    obtain ⟨hsame, -⟩ | ⟨first, records, hfirst, hrecords, hdue, hround⟩ :=
      promoteDue_succ now budget remaining q
    · rw [hsame]
      exact hq
    · have hpromoted := hstep q first records _ hfirst hdue hrecords (min_le_left _ remaining) hq
      rw [hround]
      split
      · exact hpromoted
      · exact ih _ hpromoted

/-- Promotion changes neither the definition nor the usage of a sink. -/
theorem promoteDue_usage (now budget remaining : ℕ) (sink : SinkQueue) :
    (promoteDue now budget remaining sink).definition = sink.definition ∧
    (promoteDue now budget remaining sink).usedCount = sink.usedCount ∧
    (promoteDue now budget remaining sink).usedBytes = sink.usedBytes ∧
    (promoteDue now budget remaining sink).inflight = sink.inflight ∧
    (promoteDue now budget remaining sink).pendingAges = sink.pendingAges := by
  refine promoteDue_keeps (P := fun q => q.definition = sink.definition ∧
    q.usedCount = sink.usedCount ∧ q.usedBytes = sink.usedBytes ∧ q.inflight = sink.inflight ∧
    q.pendingAges = sink.pendingAges) ?_ budget remaining ⟨rfl, rfl, rfl, rfl, rfl⟩
  intro q first records promoted _ _ _ _ hq
  unfold SinkQueue.promoteFirst
  split <;> exact hq

/-- Promoting part of a bucket moves its records to the ready queue. -/
theorem SinkQueue.promoteFirst_queued {q : SinkQueue} {deadline : ℕ} {records : List DeliveryRecord}
    (hrecords : q.delayed.lookup deadline = some records) (promoted : ℕ) :
    (q.promoteFirst deadline records promoted).queued.Perm q.queued := by
  have hvalues := (values_perm_of_lookup hrecords).flatten
  simp only [List.flatten_cons] at hvalues
  unfold promoteFirst
  split
  · simp only [queued, List.append_assoc]
    exact hvalues.symm.append_left _
  · simp only [queued, values_insert, List.flatten_cons, List.append_assoc]
    rw [← List.append_assoc (records.take promoted), List.take_append_drop]
    exact hvalues.symm.append_left _

/-- Promotion only moves records between the queues of a sink. -/
theorem promoteDue_queued (now budget remaining : ℕ) (sink : SinkQueue) :
    (promoteDue now budget remaining sink).queued.Perm sink.queued :=
  promoteDue_keeps (P := fun q => q.queued.Perm sink.queued)
    (fun _ _ _ promoted _ _ hrecords _ hq =>
      (SinkQueue.promoteFirst_queued hrecords promoted).trans hq)
    budget remaining (List.Perm.refl _)

end Netbaiot.EventBus
