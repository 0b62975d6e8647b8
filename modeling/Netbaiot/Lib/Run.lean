import Mathlib.Logic.Relation

/-!
# Transition systems

A system has start states and labelled steps.  What holds at the start and is kept by
every step holds in every reachable state; `Path` follows steps whose labels are
allowed, for statements about what happens until something else does.
-/

namespace Netbaiot.Lib

/-- A labelled transition system. -/
structure System (σ α : Type) where
  start : σ → Prop
  step : σ → α → σ → Prop

namespace System

variable {σ α : Type} {sys : System σ α}

/-- The states a run of the system can reach. -/
inductive Reachable (sys : System σ α) : σ → Prop where
  | start {s : σ} : sys.start s → Reachable sys s
  | step {s s' : σ} {a : α} : Reachable sys s → sys.step s a s' → Reachable sys s'

/-- The states a run can reach from a given one by allowed steps only. -/
inductive Path (sys : System σ α) (allowed : σ → α → Prop) (s : σ) : σ → Prop where
  | refl : Path sys allowed s s
  | step {s' s'' : σ} {a : α} : Path sys allowed s s' → allowed s' a → sys.step s' a s'' →
      Path sys allowed s s''

/-- The system that takes only allowed steps. -/
def restrict (sys : System σ α) (allowed : σ → α → Prop) : System σ α where
  start := sys.start
  step s a s' := allowed s a ∧ sys.step s a s'

/-- An inductive invariant holds in every reachable state. -/
theorem Reachable.invariant {I : σ → Prop} (hstart : ∀ s, sys.start s → I s)
    (hstep : ∀ s a s', I s → sys.step s a s' → I s') {s : σ} (h : sys.Reachable s) : I s := by
  induction h with
  | start hs => exact hstart _ hs
  | step _ hs ih => exact hstep _ _ _ ih hs

/-- Running a list of actions one after the other. -/
theorem Reachable.foldl {next : σ → α → σ} (hnext : ∀ s a, sys.step s a (next s a))
    (actions : List α) {s : σ} (h : sys.Reachable s) : sys.Reachable (actions.foldl next s) := by
  induction actions generalizing s with
  | nil => exact h
  | cons a rest ih => exact ih (h.step (hnext s a))

/-- Running a list of actions that are all allowed when they are taken. -/
theorem Reachable.foldl_restrict {allowed : σ → α → Prop} {next : σ → α → σ}
    (hnext : ∀ s a, sys.step s a (next s a)) (actions : List α) {s : σ}
    (h : (sys.restrict allowed).Reachable s)
    (hallowed : ∀ i (hi : i < actions.length),
      allowed ((actions.take i).foldl next s) actions[i]) :
    (sys.restrict allowed).Reachable (actions.foldl next s) := by
  induction actions generalizing s with
  | nil => exact h
  | cons a rest ih =>
    refine ih (h.step ⟨hallowed 0 (Nat.zero_lt_succ _), hnext s a⟩) fun i hi => ?_
    exact hallowed (i + 1) (Nat.succ_lt_succ hi)

/-- A path continues a run. -/
theorem Path.reachable {allowed : σ → α → Prop} {s s' : σ} (h : sys.Reachable s)
    (hpath : sys.Path allowed s s') : sys.Reachable s' := by
  induction hpath with
  | refl => exact h
  | step _ _ hs ih => exact ih.step hs

/-- Running a list of actions that can all be taken. -/
theorem Path.foldlM {next : σ → α → Option σ}
    (hnext : ∀ s a s', next s a = some s' → sys.step s a s') (actions : List α) {s₀ s s' : σ}
    (h : sys.Path (fun _ _ => True) s₀ s) (hrun : actions.foldlM next s = some s') :
    sys.Path (fun _ _ => True) s₀ s' := by
  induction actions generalizing s with
  | nil =>
    cases hrun
    exact h
  | cons a rest ih =>
    rw [List.foldlM_cons, Option.bind_eq_bind, Option.bind_eq_some_iff] at hrun
    obtain ⟨middle, hfirst, hrest⟩ := hrun
    exact ih (h.step trivial (hnext s a middle hfirst)) hrest

theorem Reachable.foldlM {next : σ → α → Option σ}
    (hnext : ∀ s a s', next s a = some s' → sys.step s a s') (actions : List α) {s s' : σ}
    (h : sys.Reachable s) (hrun : actions.foldlM next s = some s') : sys.Reachable s' :=
  (Path.foldlM hnext actions .refl hrun).reachable h

/-- What every allowed step from a reachable state keeps holds along a path. -/
theorem Path.invariant {allowed : σ → α → Prop} {I : σ → Prop} {s s' : σ} (h : sys.Reachable s)
    (hpath : sys.Path allowed s s')
    (hstep : ∀ s a s', sys.Reachable s → I s → allowed s a → sys.step s a s' → I s') (hs : I s) :
    I s' := by
  induction hpath with
  | refl => exact hs
  | step hsofar hallowed hnext ih =>
    exact hstep _ _ _ (Path.reachable h hsofar) ih hallowed hnext

/-- A restricted run is a run. -/
theorem Reachable.of_restrict {allowed : σ → α → Prop} {s : σ}
    (h : (sys.restrict allowed).Reachable s) : sys.Reachable s := by
  induction h with
  | start hs => exact .start hs
  | step _ hs ih => exact ih.step hs.2

end System

end Netbaiot.Lib
