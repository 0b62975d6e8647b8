import Netbaiot.Lib.Run
import Netbaiot.Rpc.RegistryMoves

/-!
# Revocation while the provider is offline

A watcher observes the published status, waits for the grace period and then revokes, but only
if the status is still the one it observed; the lock is held while it revokes.  Two counts of
what really happens stand beside the registry: how often the serving flag changed, and when it
last did.  `offline_exclusion` compares the published status with them; `offline_wraps` shows
what the wrapping counter lets through.
-/

namespace Netbaiot.Rpc

open Lib Op

namespace Registry

variable {r r' : Registry}

/-- The registered provider serves. -/
def serving (r : Registry) : Bool := r.provider.any Provider.serving

/-- The status was replaced together with the serving flag, or both stayed. -/
def Tells (instant : ℕ) (r r' : Registry) : Prop :=
  r'.status = r.status ∧ r'.serving = r.serving ∨
    ∃ epoch, r'.status = (r.updateStatus epoch r'.serving instant).status

instance (instant : ℕ) : Std.Refl (Tells instant) := ⟨fun _ => .inl ⟨rfl, rfl⟩⟩

theorem status_dropEpoch (r : Registry) (epoch : UInt64) :
    (r.dropEpoch epoch).status = r.status := by
  unfold dropEpoch
  generalize r.pending.keys.filter (fun key => key.1 = epoch) = keys
  induction keys generalizing r with
  | nil => rfl
  | cons key keys ih =>
    refine (ih _).trans ?_
    unfold dropPending
    split <;> rfl

/-- The provider is replaced by one that does not serve, or by none. -/
theorem Tells.stopped (r : Registry) {p : Option Provider} (hp : p.any Provider.serving = false)
    (epoch : UInt64) (instant : ℕ) :
    Tells instant r (((r.setProvider p).dropEpoch epoch).updateStatus epoch false instant) := by
  have hserving : (((r.setProvider p).dropEpoch epoch).updateStatus epoch false instant).serving =
      false := by
    show ((r.setProvider p).dropEpoch epoch).provider.any Provider.serving = false
    rw [provider_dropEpoch]
    exact hp
  refine .inr ⟨epoch, ?_⟩
  rw [hserving]
  simp only [updateStatus, status_dropEpoch, setProvider]

end Registry

open Registry

/-- The operations that take the lock of the registry. -/
inductive LeaseCall where
  | register (scope : BusinessProviderScope) (expiresAtMs : Option Int64)
  | serving (epoch : UInt64) (revision : ℕ) (nowMs : Int64)
  | syncing (epoch : UInt64)
  | release (epoch : UInt64)

def LeaseCall.run (instant : ℕ) (r : Registry) : LeaseCall → Registry
  | .register scope expiresAtMs => (exec (registerWithExpiry scope expiresAtMs instant) r).2
  | .serving epoch revision nowMs => (exec (markServing epoch revision nowMs instant) r).2
  | .syncing epoch => (exec (markSyncing epoch instant) r).2
  | .release epoch => (exec (Rpc.release epoch instant) r).2

theorem LeaseCall.run_tells (instant : ℕ) (r : Registry) (call : LeaseCall) :
    Tells instant r (call.run instant r) := by
  cases call with
  | register scope expiresAtMs =>
    show FollowsAt (Tells instant) (registerWithExpiry scope expiresAtMs instant) r
    refine followsAt_get_bind (followsAt_ensure_bind fun _ => ?_)
    exact .inr ⟨r.nextEpoch, rfl⟩
  | serving epoch revision nowMs =>
    show FollowsAt (Tells instant) (markServing epoch revision nowMs instant) r
    refine followsAt_currentProvider_bind fun p _ _ => followsAt_ensure_bind fun _ =>
      followsAt_ensure_bind fun _ => followsAt_ensure_bind fun _ => followsAt_modify ?_
    exact .inr ⟨epoch, rfl⟩
  | syncing epoch =>
    show FollowsAt (Tells instant) (markSyncing epoch instant) r
    refine followsAt_currentProvider_bind fun p _ _ => followsAt_modify ?_
    exact .stopped r rfl ..
  | release epoch =>
    show FollowsAt (Tells instant) (Rpc.release epoch instant) r
    refine followsAt_modify ?_
    split
    · exact .stopped r rfl ..
    · exact Std.Refl.refl r

/-- The registry, what really happened to the serving flag, and the observation for which the
callback runs. -/
structure Offline where
  registry : Registry
  changes : ℕ
  lastChange : ℕ
  callback : Option ProviderStatus

inductive OfflineAction where
  | call (call : LeaseCall) (instant : ℕ)
  | invalidateIfOffline (observed : ProviderStatus)
  | finish

/-- The registry after an operation, with the changes counted. -/
def Offline.after (s : Offline) (r : Registry) (instant : ℕ) : Offline :=
  { s with
    registry := r
    changes := if s.registry.serving = r.serving then s.changes else s.changes + 1
    lastChange := if s.registry.serving = r.serving then s.lastChange else instant }

/-- While the callback runs it holds the lock. -/
def offline : System Offline OfflineAction where
  start s := ∃ maxPending maxBytes instant,
    s = ⟨.new maxPending maxBytes instant, 0, instant, none⟩
  step s a s' :=
    match a with
    | .call call instant =>
        s.callback = none ∧ s' = s.after (call.run instant s.registry) instant
    | .invalidateIfOffline observed =>
        s.callback = none ∧
          ((s.registry.status.serving = true ∨ s.registry.status ≠ observed) ∧ s' = s ∨
            s.registry.status.serving = false ∧ s.registry.status = observed ∧
              s' = { s with callback := some observed })
    | .finish => s' = { s with callback := none }

/-- The published status says what happened, and the callback runs for the current status. -/
structure Published (s : Offline) : Prop where
  serving : s.registry.status.serving = s.registry.serving
  transition : s.registry.status.transition = UInt64.ofNat s.changes
  changedAt : s.registry.status.changedAt = s.lastChange
  callback : ∀ observed, s.callback = some observed →
    s.registry.status = observed ∧ observed.serving = false

theorem Published.after {s : Offline} (h : Published s) (hidle : s.callback = none) {r : Registry}
    {instant : ℕ} (hr : Tells instant s.registry r) : Published (s.after r instant) := by
  refine ⟨?_, ?_, ?_, fun o ho => absurd (hidle.symm.trans ho) nofun⟩
  all_goals
    rcases hr with ⟨hstatus, hsame⟩ | ⟨epoch, hstatus⟩
    · simp only [Offline.after, hstatus, hsame, if_true, h.serving, h.transition, h.changedAt]
  · rw [Offline.after, hstatus]
    rfl
  · simp only [Offline.after, hstatus, updateStatus, h.serving, h.transition]
    split
    · rfl
    · rw [UInt64.ofNat_add]
      rfl
  · simp only [Offline.after, hstatus, updateStatus, h.serving, h.changedAt]

theorem published {s : Offline} (h : offline.Reachable s) : Published s := by
  refine h.invariant ?_ ?_
  · rintro s ⟨maxPending, maxBytes, instant, rfl⟩
    exact ⟨rfl, rfl, rfl, nofun⟩
  · intro s a s' hs hstep
    cases a with
    | call call instant =>
      obtain ⟨hidle, rfl⟩ := hstep
      exact hs.after hidle (call.run_tells instant s.registry)
    | invalidateIfOffline observed =>
      obtain ⟨hidle, hstep⟩ := hstep
      rcases hstep with ⟨-, rfl⟩ | ⟨hoffline, rfl, rfl⟩
      · exact hs
      · refine ⟨hs.serving, hs.transition, hs.changedAt, fun o ho => ?_⟩
        obtain rfl := Option.some.inj ho
        exact ⟨rfl, hoffline⟩
    | finish =>
      subst hstep
      exact ⟨hs.serving, hs.transition, hs.changedAt, nofun⟩

/-- Changes are counted, and without one the flag is the same. -/
theorem changes_le {s s' : Offline} (h : offline.Path (fun _ _ => True) s s') :
    s.changes ≤ s'.changes ∧
      (s.changes = s'.changes → s.registry.serving = s'.registry.serving) := by
  induction h with
  | refl => exact ⟨le_rfl, fun _ => rfl⟩
  | @step t t' a _ _ hstep ih =>
    have hmove : t'.registry = t.registry ∧ t'.changes = t.changes ∨
        ∃ r instant, t' = t.after r instant := by
      cases a with
      | call call instant => exact .inr ⟨_, instant, hstep.2⟩
      | invalidateIfOffline observed =>
        rcases hstep.2 with ⟨-, rfl⟩ | ⟨-, -, rfl⟩
        · exact .inl ⟨rfl, rfl⟩
        · exact .inl ⟨rfl, rfl⟩
      | finish => exact .inl (hstep ▸ ⟨rfl, rfl⟩)
    rcases hmove with ⟨hregistry, hchanges⟩ | ⟨r, instant, rfl⟩
    · rw [hregistry, hchanges]
      exact ih
    · simp only [Offline.after]
      split
      · next hsame => exact ⟨ih.1, fun heq => (ih.2 heq).trans hsame⟩
      · exact ⟨by omega, fun heq => by omega⟩

/-- The published status is that of the provider: the counter is the number of changes up to
wrapping, and the time is that of the last change.  The callback for an observation runs only if
the provider has not served since, unless the counter wrapped in between. -/
theorem offline_exclusion {s : Offline} (hs : offline.Reachable s) :
    s.registry.status.serving = s.registry.serving ∧
      s.registry.status.transition = UInt64.ofNat s.changes ∧
      s.registry.status.changedAt = s.lastChange ∧
      ∀ t u, offline.Path (fun _ _ => True) s t → offline.Path (fun _ _ => True) t u →
        u.callback = some s.registry.status → u.changes < s.changes + 2 ^ 64 →
        t.registry.serving = false := by
  have hpublished := published hs
  refine ⟨hpublished.serving, hpublished.transition, hpublished.changedAt, ?_⟩
  intro t u hst htu hcallback hfew
  obtain ⟨hstatus, hoffline⟩ := (published (htu.reachable (hst.reachable hs))).callback _ hcallback
  -- the counter is back, so that the flag never changed
  have hcount : UInt64.ofNat u.changes = UInt64.ofNat s.changes := by
    rw [← (published (htu.reachable (hst.reachable hs))).transition, hstatus, hpublished.transition]
  obtain ⟨hle, hflag⟩ := changes_le hst
  have hle' := (changes_le htu).1
  have hmod : u.changes % 2 ^ 64 = s.changes % 2 ^ 64 := by
    simpa using congrArg UInt64.toNat hcount
  rw [← hflag (by omega), ← hpublished.serving]
  exact hoffline

/-! ## When the counter wraps -/

/-- A provider that has begun and stopped to serve some number of times, all at one instant. -/
def flapped (serving : Bool) (revision changes : ℕ) : Offline :=
  ⟨⟨some ⟨⟨true, []⟩, 1, serving, revision, none⟩, ∅, ⟨1, serving, .ofNat changes, 0⟩, 2, 1, 1, []⟩,
    changes, 0, none⟩

theorem flapped_serves (n : ℕ) : offline.step (flapped false 0 n) (.call (.serving 1 1 0) 0)
    (flapped true 1 (n + 1)) := by
  refine ⟨rfl, ?_⟩
  rw [flapped, UInt64.ofNat_add]
  rfl

theorem flapped_stops (n : ℕ) : offline.step (flapped true 1 n) (.call (.syncing 1) 0)
    (flapped false 0 (n + 1)) := by
  refine ⟨rfl, ?_⟩
  rw [flapped, UInt64.ofNat_add]
  rfl

theorem flapped_reachable : offline.Reachable (flapped false 0 0) :=
  .step (.start ⟨1, 1, 0, rfl⟩) (a := .call (.register ⟨true, []⟩ none) 0) ⟨rfl, rfl⟩

theorem offline_exclusion_observed : (flapped false 0 0).registry.serving = false :=
  (offline_exclusion flapped_reachable).2.2.2 _ _ .refl (.step .refl trivial
    (a := .invalidateIfOffline ⟨1, false, 0, 0⟩) ⟨rfl, .inr ⟨rfl, rfl, rfl⟩⟩) rfl (by decide)

theorem flapped_path (n : ℕ) :
    offline.Path (fun _ _ => True) (flapped true 1 1) (flapped false 0 (2 * n + 2)) := by
  induction n with
  | zero => exact .step .refl trivial (flapped_stops 1)
  | succ n ih => exact (ih.step trivial (flapped_serves _)).step trivial (flapped_stops _)

/-- After 2 ^ 64 changes at one instant the counter is back and the status is the observed one:
the callback runs although the provider has served since. -/
theorem offline_wraps : ∃ s t u, offline.Reachable s ∧ offline.Path (fun _ _ => True) s t ∧
    offline.Path (fun _ _ => True) t u ∧ u.callback = some s.registry.status ∧
    t.registry.serving = true ∧ u.registry.status.transition.toNat ≠ u.changes := by
  have hwrap : UInt64.ofNat (2 * (2 ^ 63 - 1) + 2) = 0 := by decide
  refine ⟨_, _, { flapped false 0 (2 * (2 ^ 63 - 1) + 2) with callback := some ⟨1, false, 0, 0⟩ },
    flapped_reachable, .step .refl trivial (flapped_serves 0),
    .step (flapped_path (2 ^ 63 - 1)) trivial (a := .invalidateIfOffline ⟨1, false, 0, 0⟩)
      ⟨rfl, .inr ⟨rfl, ?_, rfl⟩⟩, rfl, rfl, ?_⟩
  · show (⟨1, false, UInt64.ofNat _, 0⟩ : ProviderStatus) = _
    rw [hwrap]
  · show (UInt64.ofNat _).toNat ≠ _
    decide

end Netbaiot.Rpc
