import Netbaiot.Lib.Follows

/-!
# Postconditions

`Ends x s Q` says that the operation `x`, run from `s`, ends with an outcome and a state that
satisfy `Q`.  A failed operation ends as well, with what it wrote before it failed.
-/

namespace Netbaiot.Lib.Op

variable {σ ε α β : Type} {x : Op σ ε α} {s : σ}

/-- The outcome and the final state of an operation satisfy the postcondition. -/
def Ends (x : Op σ ε α) (s : σ) (Q : Except ε α → σ → Prop) : Prop := Q (exec x s).1 (exec x s).2

theorem Ends.mono {P Q : Except ε α → σ → Prop} (h : Ends x s P) (hPQ : ∀ r s', P r s' → Q r s') :
    Ends x s Q := hPQ _ _ h

theorem Ends.of_exec {Q : Except ε α → σ → Prop} (h : Ends x s Q) {r : Except ε α} {s' : σ}
    (hexec : exec x s = (r, s')) : Q r s' := by
  rwa [Ends, hexec] at h

theorem FollowsAt.ends {R : σ → σ → Prop} (h : FollowsAt R x s) : Ends x s fun _ s' => R s s' := h

theorem ends_ensure {c : Prop} [Decidable c] {e : ε} {Q : Except ε Unit → σ → Prop}
    (passed : c → Q (.ok ()) s) (failed : ¬ c → Q (.error e) s) :
    Ends (ensure c e : Op σ ε Unit) s Q := by
  unfold ensure
  split
  · next hc => exact passed hc
  · next hc => exact failed hc

theorem ends_whenever {c : Prop} [Decidable c] {x : Op σ ε Unit} {Q : Except ε Unit → σ → Prop}
    (hx : c → Ends x s Q) (skipped : ¬ c → Q (.ok ()) s) : Ends (whenever c x) s Q := by
  unfold whenever
  split
  · next hc => exact hx hc
  · next hc => exact skipped hc

theorem ends_map {f : α → β} {Q : Except ε β → σ → Prop}
    (h : Ends x s fun r s' => Q (r.map f) s') : Ends (f <$> x) s Q := by
  have hexec : exec (f <$> x) s = ((exec x s).1.map f, (exec x s).2) := by
    rw [map_eq_pure_bind, exec_bind]
    rcases exec x s with ⟨e | a, s'⟩ <;> rfl
  rw [Ends, hexec]
  exact h

section Bind

variable {f : α → Op σ ε β} {Q : Except ε β → σ → Prop}

/-- The second part starts from where a successful first part ended. -/
theorem ends_bind {P : Except ε α → σ → Prop} (hx : Ends x s P)
    (ok : ∀ a s', P (.ok a) s' → Ends (f a) s' Q)
    (error : ∀ e s', P (.error e) s' → Q (.error e) s') : Ends (x >>= f) s Q := by
  rw [Ends, exec_bind]
  rcases h : exec x s with ⟨e | a, s'⟩
  · exact error e s' (hx.of_exec h)
  · exact ok a s' (hx.of_exec h)

theorem ends_get_bind {f : σ → Op σ ε β} (h : Ends (f s) s Q) : Ends (get >>= f) s Q := by
  rwa [Ends, exec_get_bind]

theorem ends_modify_bind {g : σ → σ} {f : PUnit → Op σ ε β} (h : Ends (f ⟨⟩) (g s) Q) :
    Ends (modify g >>= f) s Q := by
  rwa [Ends, exec_modify_bind]

theorem ends_ensure_bind {c : Prop} [Decidable c] {e : ε} {f : Unit → Op σ ε β}
    (passed : c → Ends (f ()) s Q) (failed : ¬ c → Q (.error e) s) :
    Ends (ensure c e >>= f) s Q := by
  rw [Ends, exec_ensure_bind]
  split
  · next hc => exact passed hc
  · next hc => exact failed hc

theorem ends_someOr_bind {v : Option α} {e : ε} (found : ∀ a, v = some a → Ends (f a) s Q)
    (missing : v = none → Q (.error e) s) : Ends (someOr v e >>= f) s Q := by
  cases v with
  | none => exact missing rfl
  | some a => exact found a rfl

theorem ends_fromExcept_bind {v : Except ε α} (ok : ∀ a, v = .ok a → Ends (f a) s Q)
    (error : ∀ e, v = .error e → Q (.error e) s) : Ends (fromExcept v >>= f) s Q := by
  cases v with
  | error e => exact error e rfl
  | ok a => exact ok a rfl

end Bind

theorem ends_ite {c : Prop} [Decidable c] {y : Op σ ε α} {Q : Except ε α → σ → Prop}
    (hx : c → Ends x s Q) (hy : ¬ c → Ends y s Q) : Ends (if c then x else y) s Q := by
  split
  · next hc => exact hx hc
  · next hc => exact hy hc

end Netbaiot.Lib.Op
