import Mathlib.Algebra.Group.Nat.Defs
import Mathlib.Data.Finset.Card
import Mathlib.Logic.Function.Basic
import Netbaiot.Lib.Run
import Netbaiot.Protocol

/-!
# The shutdown admission gate

The lifecycle of the gateway is one atomic state and one atomic count of admissions.  A call
takes several atomic steps: admission reads the state, counts itself and reads the state
again; quiescing closes the gate, waits until it reads a count of zero and then drains.
Steps of any number of calls interleave.  Read `Sound` first: the count is the number of
calls that counted themselves, and who has read zero behind the closed gate leaves no guard.
-/

namespace Netbaiot

open Lib

/-- How far the gateway has come from its start to the end of its shutdown. -/
inductive LifecycleState where
  | starting
  | running
  | quiescing
  | draining
  | spooling
  | drained
deriving DecidableEq, Repr

/-- The code of a state; later states have larger codes. -/
def lifecycleCode : LifecycleState → ℕ
  | .starting => 0
  | .running => 1
  | .quiescing => 2
  | .draining => 3
  | .spooling => 4
  | .drained => 5

namespace Lifecycle

/-! ## Calls and their atomic steps -/

/-- Where a call stands between two of its atomic steps. -/
inductive Point where
  | idle
  -- `begin_admission` found the gateway running
  | checked
  -- `begin_admission` has counted itself and not looked at the state again
  | counted
  -- the second look failed; `release_admission` is due
  | refused
  -- `begin_admission` has returned a guard that is still live
  | admitted
  -- `begin_quiesce` has closed the gate and waits for the last admission
  | waiting
  -- `begin_quiesce` has read a count of zero
  | emptied
  -- `mark_drained` has read this state
  | loaded (current : LifecycleState)
  -- `begin_quiesce` was dropped while it waited
  | abandoned
  | returned (result : Except Error Unit)
deriving DecidableEq

/-- The calls the count stands for. -/
def Point.counts : Point → Bool
  | .counted | .refused | .admitted => true
  | _ => false

/-- The two atomics, and where every call stands. -/
structure Gate (ι : Type) where
  state : LifecycleState
  activeAdmissions : ℕ
  points : ι → Point

/-- The atomic steps of the calls. -/
inductive Action where
  | markRunning
  -- `begin_admission`, and the release of its guard
  | loadState
  | fetchAdd
  | loadAgain
  | fetchSub
  -- `begin_quiesce`, which may be abandoned while it waits
  | closeGate
  | loadAdmissions
  | openDrain
  | cancel
  | markSpooling
  -- `mark_drained`
  | loadCurrent
  | exchangeDrained
deriving DecidableEq

/-- A subtraction on the count, which wraps below zero. -/
def fetchSub (count : ℕ) : ℕ := if count = 0 then 2 ^ 64 - 1 else count - 1

variable {ι : Type}

variable {target : LifecycleState} {g g' : Gate ι} {call : ι}

namespace Gate

/-- A lifecycle at its start: nothing is admitted and no call has begun. -/
def starting : Gate ι := ⟨.starting, 0, fun _ => .idle⟩

variable [DecidableEq ι]

/-- A call goes on to another point. -/
def move (g : Gate ι) (call : ι) (point : Point) : Gate ι :=
  { g with points := Function.update g.points call point }

/-- A call ends. -/
def finish (g : Gate ι) (call : ι) (result : Except Error Unit) : Gate ι :=
  g.move call (.returned result)

/-- Exchange the state a call expects for the next one, or end the call with a conflict. -/
def transition (g : Gate ι) (call : ι) (source target : LifecycleState) (point : Point) : Gate ι :=
  if g.state = source then { g with state := target }.move call point
  else g.finish call (.error .conflict)

/-- One atomic step of a call, if the call stands before it. -/
def perform (g : Gate ι) (call : ι) (action : Action) : Option (Gate ι) :=
  match action, g.points call with
  | .markRunning, .idle => some (g.transition call .starting .running (.returned (.ok ())))
  | .loadState, .idle =>
    some (if g.state = .running then g.move call .checked else g.finish call (.error .draining))
  | .fetchAdd, .checked =>
    some ({ g with activeAdmissions := g.activeAdmissions + 1 }.move call .counted)
  | .loadAgain, .counted =>
    some (g.move call (if g.state = .running then .admitted else .refused))
  | .fetchSub, .refused =>
    some ({ g with activeAdmissions := Lifecycle.fetchSub g.activeAdmissions }.finish call
      (.error .draining))
  | .fetchSub, .admitted =>
    some ({ g with activeAdmissions := Lifecycle.fetchSub g.activeAdmissions }.finish call
      (.ok ()))
  | .closeGate, .idle => some (g.transition call .running .quiescing .waiting)
  | .loadAdmissions, .waiting =>
    some (if g.activeAdmissions = 0 then g.move call .emptied else g)
  | .openDrain, .emptied =>
    some (g.transition call .quiescing .draining (.returned (.ok ())))
  | .cancel, .waiting => some (g.move call .abandoned)
  | .markSpooling, .idle => some (g.transition call .draining .spooling (.returned (.ok ())))
  | .loadCurrent, .idle =>
    some (if g.state = .draining ∨ g.state = .spooling then g.move call (.loaded g.state)
      else g.finish call (.error .conflict))
  | .exchangeDrained, .loaded current =>
    some (g.transition call current .drained (.returned (.ok ())))
  | _, _ => none

end Gate

/-- The calls of a set interleave their atomic steps. -/
def system (ι : Type) [DecidableEq ι] : System (Gate ι) (ι × Action) where
  start g := g = .starting
  step g a g' := g.perform a.1 a.2 = some g'

/-! ## What every interleaving keeps -/

/-- The count is the number of calls that counted themselves.  A call of `begin_quiesce` waits
behind a closed gate, and once it has read a count of zero no guard is live. -/
structure Sound (g : Gate ι) : Prop where
  counted : ∃ calls : Finset ι,
    (∀ i, i ∈ calls ↔ (g.points i).counts = true) ∧ calls.card = g.activeAdmissions
  closed : ∀ i, g.points i = .waiting ∨ g.points i = .emptied →
    lifecycleCode .quiescing ≤ lifecycleCode g.state
  emptied : ∀ i, g.points i = .emptied → ∀ j, g.points j ≠ .admitted
  drained : lifecycleCode .draining ≤ lifecycleCode g.state → ∀ j, g.points j ≠ .admitted
  loaded : ∀ i current, g.points i = .loaded current →
    lifecycleCode .draining ≤ lifecycleCode current

/-- What a point asks of the gate a call enters it at. -/
structure Enters (g : Gate ι) (point : Point) : Prop where
  closed : point = .waiting ∨ point = .emptied →
    lifecycleCode .quiescing ≤ lifecycleCode g.state
  emptied : point = .emptied → ∀ j, g.points j ≠ .admitted
  admitted : point = .admitted → g.state = .running
  loaded : ∀ current, point = .loaded current → lifecycleCode .draining ≤ lifecycleCode current

theorem enters_returned (g : Gate ι) (result : Except Error Unit) :
    Enters g (.returned result) := by
  constructor <;> simp

theorem sound_starting : Sound (.starting : Gate ι) := by
  refine ⟨⟨∅, ?_, rfl⟩, ?_, ?_, ?_, ?_⟩
  all_goals simp [Gate.starting, Point.counts]

namespace Sound

variable {g : Gate ι} {call : ι} {point : Point}

section

variable (h : Sound g)

include h

/-- The state rises. -/
theorem raise (hle : lifecycleCode g.state ≤ lifecycleCode target)
    (hdrained : lifecycleCode .draining ≤ lifecycleCode target → ∀ j, g.points j ≠ .admitted) :
    Sound { g with state := target } :=
  ⟨h.counted, fun i hi => (h.closed i hi).trans hle, h.emptied, hdrained, h.loaded⟩

/-- A call that has counted itself finds a positive count. -/
theorem activeAdmissions_pos (hcall : (g.points call).counts = true) : 0 < g.activeAdmissions := by
  obtain ⟨calls, hcalls, hcard⟩ := h.counted
  rw [← hcard]
  exact Finset.card_pos.2 ⟨call, (hcalls call).2 hcall⟩

/-- A count of zero leaves no guard. -/
theorem no_guard_of_zero (hzero : g.activeAdmissions = 0) (j : ι) :
    g.points j ≠ .admitted := fun hj => by
  have hcounts : (g.points j).counts = true := by
    rw [hj]
    rfl
  have hpos := h.activeAdmissions_pos hcounts
  omega

variable [DecidableEq ι]

/-- A call goes on while the count changes with the calls it stands for. -/
theorem recount {count : ℕ} (calls : Finset ι) (hcard : calls.card = count)
    (hcalls : ∀ i, i ∈ calls ↔ (Function.update g.points call point i).counts = true)
    (henters : Enters g point) : Sound ({ g with activeAdmissions := count }.move call point) := by
  refine ⟨⟨calls, hcalls, hcard⟩, fun i hi => ?_, fun i hi j hj => ?_, fun hstate j hj => ?_,
    fun i current hi => ?_⟩
  all_goals simp only [Gate.move, Function.update_apply] at *
  case refine_1 =>
    split at hi
    · exact henters.closed hi
    · exact h.closed i hi
  case refine_2 =>
    -- a call is admitted only while the gateway runs, so nobody has read a zero by then
    have hrunning : point = .admitted → ∀ i, g.points i ≠ .emptied := fun hpoint i hemptied => by
      have hclosed := h.closed i (.inr hemptied)
      rw [henters.admitted hpoint] at hclosed
      exact absurd hclosed (by decide)
    split at hi <;> split at hj
    · exact absurd (hi.symm.trans hj) (by decide)
    · exact henters.emptied hi j hj
    · exact hrunning hj i hi
    · exact h.emptied i hi j hj
  case refine_3 =>
    split at hj
    · rw [henters.admitted hj] at hstate
      exact absurd hstate (by decide)
    · exact h.drained hstate j hj
  case refine_4 =>
    split at hi
    · exact henters.loaded current hi
    · exact h.loaded i current hi

/-- A call goes on without touching the count. -/
theorem move (hcounts : point.counts = (g.points call).counts)
    (henters : Enters g point) : Sound (g.move call point) := by
  obtain ⟨calls, hcalls, hcard⟩ := h.counted
  refine h.recount calls hcard (fun i => ?_) henters
  rw [hcalls, Function.update_apply]
  split
  · next hi => rw [hi, hcounts]
  · rfl

/-- A call exchanges the state for a later one, or finds that it has changed. -/
theorem transition {source : LifecycleState} (hcall : (g.points call).counts = false)
    (hpoint : point.counts = false) (hle : lifecycleCode source ≤ lifecycleCode target)
    (hdrained : g.state = source → lifecycleCode .draining ≤ lifecycleCode target →
      ∀ j, g.points j ≠ .admitted)
    (henters : Enters { g with state := target } point) :
    Sound (g.transition call source target point) := by
  unfold Gate.transition
  split
  · next hstate =>
    have hraised := h.raise (hstate ▸ hle) (hdrained hstate)
    exact hraised.move (hpoint.trans hcall.symm) henters
  · exact h.move hcall.symm (enters_returned g _)

/-- A call counts itself. -/
theorem fetchAdd (hcall : g.points call = .checked) :
    Sound ({ g with activeAdmissions := g.activeAdmissions + 1 }.move call .counted) := by
  obtain ⟨calls, hcalls, hcard⟩ := h.counted
  have hnew : call ∉ calls := by
    rw [hcalls, hcall]
    decide
  refine h.recount (insert call calls) ?_ (fun i => ?_) (by constructor <;> simp)
  · rw [Finset.card_insert_of_notMem hnew, hcard]
  · rw [Finset.mem_insert, hcalls, Function.update_apply]
    split
    · next hi => simp [hi, Point.counts]
    · next hi => simp [hi]

/-- A call takes itself back from the count. -/
theorem fetchSub (hcall : (g.points call).counts = true) (result : Except Error Unit) :
    Sound ({ g with activeAdmissions := Lifecycle.fetchSub g.activeAdmissions }.finish call
      result) := by
  have hpos := h.activeAdmissions_pos hcall
  obtain ⟨calls, hcalls, hcard⟩ := h.counted
  refine h.recount (calls.erase call) ?_ (fun i => ?_) (enters_returned g _)
  · rw [Finset.card_erase_of_mem ((hcalls call).2 hcall), hcard, Lifecycle.fetchSub,
      if_neg hpos.ne']
  · rw [Finset.mem_erase, hcalls, Function.update_apply]
    split
    · next hi => simp [hi, Point.counts]
    · next hi => simp [hi]

end

end Sound

variable [DecidableEq ι]

/-- Every atomic step keeps the gate consistent. -/
theorem Sound.perform (h : Sound g) {action : Action} (hstep : g.perform call action = some g') :
    Sound g' := by
  unfold Gate.perform at hstep
  split at hstep
  all_goals cases hstep
  case h_1 hcall =>
    exact h.transition (by rw [hcall]; rfl) rfl (by decide) (fun _ hle => absurd hle (by decide))
      (enters_returned _ _)
  case h_2 hcall =>
    split
    · exact h.move (by rw [hcall]; rfl) (by constructor <;> simp)
    · exact h.move (by rw [hcall]; rfl) (enters_returned _ _)
  case h_3 hcall => exact h.fetchAdd hcall
  case h_4 hcall =>
    -- the guard is given out only when the second look finds the gateway running
    split
    · next hrunning =>
      exact h.move (by rw [hcall]; rfl) ⟨by simp, by simp, fun _ => hrunning, by simp⟩
    · exact h.move (by rw [hcall]; rfl) (by constructor <;> simp)
  case h_5 hcall => exact h.fetchSub (by rw [hcall]; rfl) _
  case h_6 hcall => exact h.fetchSub (by rw [hcall]; rfl) _
  case h_7 hcall =>
    refine h.transition (by rw [hcall]; rfl) rfl (by decide)
      (fun _ hle => absurd hle (by decide)) ?_
    exact ⟨fun _ => le_rfl, by simp, by simp, by simp⟩
  case h_8 hcall =>
    split
    · next hzero =>
      refine h.move (by rw [hcall]; rfl) ⟨fun _ => h.closed call (.inl hcall), ?_, by simp, by simp⟩
      exact fun _ => h.no_guard_of_zero hzero
    · exact h
  case h_9 hcall =>
    exact h.transition (by rw [hcall]; rfl) rfl (by decide) (fun _ _ => h.emptied call hcall)
      (enters_returned _ _)
  case h_10 hcall => exact h.move (by rw [hcall]; rfl) (by constructor <;> simp)
  case h_11 hcall =>
    refine h.transition (by rw [hcall]; rfl) rfl (by decide) (fun hstate _ => ?_)
      (enters_returned _ _)
    exact h.drained (by rw [hstate])
  case h_12 hcall =>
    split
    · next hstate =>
      refine h.move (by rw [hcall]; rfl) ⟨by simp, by simp, by simp, fun current hcurrent => ?_⟩
      cases hcurrent
      rcases hstate with hstate | hstate
      · rw [hstate]
      · rw [hstate]
        decide
    · exact h.move (by rw [hcall]; rfl) (enters_returned _ _)
  case h_13 current hcall =>
    have hcurrent := h.loaded call current hcall
    refine h.transition (by rw [hcall]; rfl) rfl ?_ (fun hstate _ => ?_) (enters_returned _ _)
    · cases current <;> decide
    · exact h.drained (by rw [hstate]; exact hcurrent)

/-- Every reachable gate is consistent. -/
theorem sound_of_reachable (h : (system ι).Reachable g) : Sound g :=
  h.invariant (fun _ hstart => hstart ▸ sound_starting) fun _ _ _ hsound hstep =>
    hsound.perform hstep

/-! ## The gate stays closed -/

/-- An exchange never lowers the state. -/
theorem code_transition (g : Gate ι) (call : ι) {source : LifecycleState} (point : Point)
    (hle : lifecycleCode source ≤ lifecycleCode target) :
    lifecycleCode g.state ≤ lifecycleCode (g.transition call source target point).state := by
  unfold Gate.transition
  split
  · next hstate =>
    rw [hstate]
    exact hle
  · exact le_rfl

/-- No atomic step lowers the state. -/
theorem code_perform {action : Action} (hstep : g.perform call action = some g') :
    lifecycleCode g.state ≤ lifecycleCode g'.state := by
  unfold Gate.perform at hstep
  split at hstep
  all_goals cases hstep
  case h_1 => exact code_transition g call _ (by decide)
  case h_7 => exact code_transition g call _ (by decide)
  case h_9 => exact code_transition g call _ (by decide)
  case h_11 => exact code_transition g call _ (by decide)
  case h_13 current hcall => exact code_transition g call _ (by cases current <;> decide)
  all_goals first | exact le_rfl | (split <;> exact le_rfl)

/-- Along every run the state only rises. -/
theorem code_le_of_path (hpath : (system ι).Path (fun _ _ => True) g g') :
    lifecycleCode g.state ≤ lifecycleCode g'.state := by
  induction hpath with
  | refl => exact le_rfl
  | step _ _ hstep ih => exact ih.trans (code_perform hstep)

/-- Only a call that counted itself takes itself back. -/
theorem counts_of_fetchSub (hstep : g.perform call .fetchSub = some g') :
    (g.points call).counts = true := by
  cases hpoint : g.points call
  case refused => rfl
  case admitted => rfl
  all_goals simp [Gate.perform, hpoint] at hstep

/-- Once the gateway drains there is no live guard, now or later, so no admission succeeds any
more; no release meets a count of zero; and the state never moves backwards. -/
theorem no_guard_once_draining {g : Gate ι} (h : (system ι).Reachable g) :
    (lifecycleCode .draining ≤ lifecycleCode g.state → ∀ i, g.points i ≠ .admitted) ∧
    (∀ g', (system ι).Path (fun _ _ => True) g g' →
      lifecycleCode g.state ≤ lifecycleCode g'.state ∧
      (lifecycleCode .draining ≤ lifecycleCode g.state → ∀ i, g'.points i ≠ .admitted)) ∧
    (∀ i g', g.perform i .fetchSub = some g' → 0 < g.activeAdmissions) := by
  have hsound := sound_of_reachable h
  refine ⟨hsound.drained, fun g' hpath => ?_, fun i g' hstep => ?_⟩
  · have hle := code_le_of_path hpath
    have hsound' := sound_of_reachable (hpath.reachable h)
    exact ⟨hle, fun hdraining => hsound'.drained (hdraining.trans hle)⟩
  · exact hsound.activeAdmissions_pos (counts_of_fetchSub hstep)

/-- One call is admitted and another one has counted itself when the gate is closed. -/
def closing : List (ℕ × Action) :=
  [(0, .markRunning), (2, .loadState), (2, .fetchAdd), (2, .loadAgain), (3, .loadState),
    (3, .fetchAdd), (1, .closeGate)]

/-- Quiescing reads a count that is not zero, the second call is refused, the first one releases
its guard, and then the gateway drains. -/
def emptying : List (ℕ × Action) :=
  [(1, .loadAdmissions), (3, .loadAgain), (3, .fetchSub), (2, .fetchSub), (1, .loadAdmissions),
    (1, .openDrain)]

/-- The guard is live behind the closed gate, and none is once the gateway drains. -/
theorem no_guard_once_draining_closed : ∃ g g' : Gate ℕ, (system ℕ).Reachable g ∧
    g.state = .quiescing ∧ g.points 2 = .admitted ∧ (system ℕ).Reachable g' ∧
    emptying.foldlM (fun g a => g.perform a.1 a.2) g = some g' ∧ g'.state = .draining ∧
    ∀ i, g'.points i ≠ .admitted := by
  have hrun : ∃ g ∈ closing.foldlM (fun g a => g.perform a.1 a.2) Gate.starting,
      g.state = .quiescing ∧ g.points 2 = .admitted ∧
        ∃ g' ∈ emptying.foldlM (fun g a => g.perform a.1 a.2) g, g'.state = .draining := by
    decide +kernel
  obtain ⟨g, hclosing, hstate, hguard, g', hemptying, hdraining⟩ := hrun
  have hclosed : (system ℕ).Reachable g :=
    System.Reachable.foldlM (fun _ _ _ hstep => hstep) closing (.start rfl) hclosing
  have hdrained : (system ℕ).Reachable g' :=
    hclosed.foldlM (fun _ _ _ hstep => hstep) emptying hemptying
  exact ⟨g, g', hclosed, hstate, hguard, hdrained, hemptying, hdraining,
    (no_guard_once_draining hdrained).1 (by rw [hdraining])⟩

end Lifecycle

end Netbaiot
