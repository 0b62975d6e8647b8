import Mathlib.Order.Defs.Unbundled
import Netbaiot.Lib.Op

/-!
# Relations that operations follow

An operation follows a relation if the relation holds between the state it starts from
and the state it leaves, whether or not it failed.  When the relation is a preorder,
sequences, branches and retries follow it as soon as their parts do, so a relation is
checked once for each primitive operation and carries over to everything built from them.
-/

namespace Netbaiot.Lib.Op

variable {σ ε α β : Type} {R : σ → σ → Prop}

variable {x : Op σ ε α} {s s' : σ} {c : Prop} {f : α → Op σ ε β}

/-- The operation follows the relation from this state. -/
def FollowsAt (R : σ → σ → Prop) (x : Op σ ε α) (s : σ) : Prop := R s (exec x s).2

/-- The operation follows the relation from every state. -/
def Follows (R : σ → σ → Prop) (x : Op σ ε α) : Prop := ∀ s, FollowsAt R x s

theorem followsAt_of_exec {r : Except ε α} (h : exec x s = (r, s')) (hr : R s s') :
    FollowsAt R x s := by
  rw [FollowsAt, h]
  exact hr

theorem Follows.of_exec (h : Follows R x) {r : Except ε α} (hexec : exec x s = (r, s')) :
    R s s' := by
  have hs := h s
  rwa [FollowsAt, hexec] at hs

section Refl

variable [Std.Refl R]

theorem followsAt_pure (a : α) (s : σ) : FollowsAt R (pure a : Op σ ε α) s := Std.Refl.refl s

theorem followsAt_throw (e : ε) (s : σ) : FollowsAt R (throw e : Op σ ε α) s := Std.Refl.refl s

theorem followsAt_ensure (c : Prop) [Decidable c] (e : ε) (s : σ) :
    FollowsAt R (ensure c e : Op σ ε Unit) s := by
  rw [FollowsAt, exec_ensure]
  split <;> exact Std.Refl.refl s

theorem followsAt_someOr (v : Option α) (e : ε) (s : σ) :
    FollowsAt R (someOr v e : Op σ ε α) s := by
  cases v <;> exact Std.Refl.refl s

theorem followsAt_fromExcept (v : Except ε α) (s : σ) :
    FollowsAt R (fromExcept v : Op σ ε α) s := by
  cases v <;> exact Std.Refl.refl s

/-- A guard that fails leaves the state alone. -/
theorem followsAt_ensure_bind [Decidable c] {e : ε} {f : Unit → Op σ ε β}
    (h : c → FollowsAt R (f ()) s) : FollowsAt R (ensure c e >>= f) s := by
  rw [FollowsAt, exec_ensure_bind]
  split
  · next hc => exact h hc
  · exact Std.Refl.refl s

theorem followsAt_someOr_bind {v : Option α} {e : ε} (h : ∀ a, v = some a → FollowsAt R (f a) s) :
    FollowsAt R (someOr v e >>= f) s := by
  cases v with
  | none => exact Std.Refl.refl s
  | some a => exact h a rfl

theorem followsAt_fromExcept_bind {v : Except ε α} (h : ∀ a, v = .ok a → FollowsAt R (f a) s) :
    FollowsAt R (fromExcept v >>= f) s := by
  cases v with
  | error e => exact Std.Refl.refl s
  | ok a => exact h a rfl

theorem followsAt_whenever [Decidable c] {x : Op σ ε Unit} (h : c → FollowsAt R x s) :
    FollowsAt R (whenever c x) s := by
  unfold whenever
  split
  · next hc => exact h hc
  · exact followsAt_pure () s

end Refl

theorem followsAt_get_bind {f : σ → Op σ ε β} (h : FollowsAt R (f s) s) :
    FollowsAt R (get >>= f) s := by
  rw [FollowsAt, exec_get_bind]
  exact h

theorem followsAt_modify {g : σ → σ} (h : R s (g s)) : FollowsAt R (modify g : Op σ ε PUnit) s := h

theorem followsAt_attempt (h : FollowsAt R x s) : FollowsAt R (attempt x) s := h

theorem followsAt_ite [Decidable c] {y : Op σ ε α} (hx : c → FollowsAt R x s)
    (hy : ¬ c → FollowsAt R y s) : FollowsAt R (if c then x else y) s := by
  split
  · next hc => exact hx hc
  · next hc => exact hy hc

section Trans

variable [IsTrans σ R]

/-- A sequence follows a transitive relation if its parts do, the second one from wherever
the first one may have stopped. -/
theorem followsAt_bind (hx : FollowsAt R x s)
    (hf : ∀ a s', exec x s = (.ok a, s') → FollowsAt R (f a) s') : FollowsAt R (x >>= f) s := by
  rw [FollowsAt, exec_bind]
  rcases h : exec x s with ⟨e | a, s'⟩
  · rw [FollowsAt, h] at hx
    exact hx
  · rw [FollowsAt, h] at hx
    exact IsTrans.trans _ _ _ hx (hf a s' h)

/-- A sequence whose first part succeeded follows the relation if the second part continues
what the first part began. -/
theorem followsAt_bind_of_ok {a : α} (h : exec x s = (.ok a, s')) (hx : R s s')
    (hf : FollowsAt R (f a) s') : FollowsAt R (x >>= f) s := by
  rw [FollowsAt, exec_bind_of_ok h]
  exact IsTrans.trans _ _ _ hx hf

theorem Follows.bind (hx : Follows R x) (hf : ∀ a, Follows R (f a)) : Follows R (x >>= f) := by
  intro s
  exact followsAt_bind (hx s) fun a s' _ => hf a s'

theorem followsAt_modify_bind {g : σ → σ} {f : PUnit → Op σ ε β} (hg : R s (g s))
    (hf : FollowsAt R (f ⟨⟩) (g s)) : FollowsAt R (modify g >>= f) s :=
  followsAt_bind_of_ok (exec_modify g s) hg hf

theorem followsAt_set_bind {f : PUnit → Op σ ε β} {t : σ} (ht : R s t) (hf : FollowsAt R (f ⟨⟩) t) :
    FollowsAt R (set t >>= f) s :=
  followsAt_bind_of_ok (exec_set s t) ht hf

end Trans

end Netbaiot.Lib.Op
