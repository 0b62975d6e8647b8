import Mathlib.Logic.Relation

/-!
# Fallible operations on a state

An operation reads and writes a state and either returns a value or fails.  What
it wrote before a failure stays written, as with a mutation made through a lock
guard before an early return.  `exec` runs an operation.
-/

namespace Netbaiot.Lib

section Except

variable {ε α β : Type}

/-- Succeed only if the condition holds. -/
def check (c : Prop) [Decidable c] (e : ε) : Except ε Unit := if c then .ok () else .error e

@[simp] theorem check_eq_ok {c : Prop} [Decidable c] {e : ε} {u : Unit} :
    check c e = .ok u ↔ c := by
  unfold check
  split <;> simp_all

/-- A sequence of pure computations succeeds exactly when both parts do. -/
theorem except_bind_eq_ok {x : Except ε α} {f : α → Except ε β} {b : β} :
    (x >>= f) = .ok b ↔ ∃ a, x = .ok a ∧ f a = .ok b := by
  cases x with
  | error e => simp [bind, Except.bind]
  | ok a => simp [bind, Except.bind]

theorem ok_bind (a : α) (f : α → Except ε β) : (Except.ok a >>= f) = f a := rfl

theorem error_bind (e : ε) (f : α → Except ε β) : (Except.error e >>= f) = .error e := rfl

/-- A check that holds goes on. -/
theorem check_bind_of {c : Prop} [Decidable c] {e : ε} {f : Unit → Except ε β} (h : c) :
    (check c e >>= f) = f () := by
  rw [check, if_pos h]
  rfl

theorem check_bind_eq_ok {c : Prop} [Decidable c] {e : ε} {f : Unit → Except ε β} {b : β} :
    (check c e >>= f) = .ok b ↔ c ∧ f () = .ok b := by
  rw [except_bind_eq_ok]
  constructor
  · rintro ⟨⟨⟩, hc, hf⟩
    exact ⟨check_eq_ok.mp hc, hf⟩
  · rintro ⟨hc, hf⟩
    exact ⟨(), check_eq_ok.mpr hc, hf⟩

/-- Translating the error keeps a success. -/
theorem mapError_eq_ok {δ : Type} {g : ε → δ} {x : Except ε α} {a : α} :
    x.mapError g = .ok a ↔ x = .ok a := by
  cases x with
  | error e =>
    constructor
    · intro h
      cases h
    · intro h
      cases h
  | ok b =>
    constructor
    · intro h
      cases h
      rfl
    · intro h
      cases h
      rfl

/-- What every successful step of a fold keeps holds of its result. -/
theorem foldlM_preserves {P : β → Prop} {f : β → α → Except ε β}
    (step : ∀ b a b', P b → f b a = .ok b' → P b') {l : List α} {b b' : β} (hb : P b)
    (h : l.foldlM f b = .ok b') : P b' := by
  induction l generalizing b with
  | nil =>
    cases h
    exact hb
  | cons a rest ih =>
    rw [List.foldlM_cons, except_bind_eq_ok] at h
    obtain ⟨next, hnext, hrest⟩ := h
    exact ih (step b a next hb hnext) hrest

/-- Follow a guarded outcome: either the guard failed, or it holds and the rest ran. -/
theorem guard_cases {P : Prop} {c : Prop} [Decidable c] {x y z : α} (h : (if c then x else y) = z)
    (failed : ¬ c → y = z → P) (passed : c → x = z → P) : P := by
  split at h
  · next hc => exact passed hc h
  · next hc => exact failed hc h

end Except

/-- An operation on `σ` that may fail with `ε`; writes made before a failure persist. -/
abbrev Op (σ ε : Type) := ExceptT ε (StateM σ)

namespace Op

variable {σ ε α β : Type}

/-- Run an operation, returning its outcome and the state it leaves. -/
def exec (x : Op σ ε α) (s : σ) : Except ε α × σ := x.run.run s

/-- Go on only if the condition holds. -/
def ensure (c : Prop) [Decidable c] (e : ε) : Op σ ε Unit := if c then pure () else throw e

/-- Run an operation only if the condition holds. -/
def whenever (c : Prop) [Decidable c] (x : Op σ ε Unit) : Op σ ε Unit := if c then x else pure ()

/-- Unwrap an optional value or fail. -/
def someOr (v : Option α) (e : ε) : Op σ ε α :=
  match v with
  | some a => pure a
  | none => throw e

/-- The outcome of a pure fallible computation. -/
def fromExcept (v : Except ε α) : Op σ ε α :=
  match v with
  | .ok a => pure a
  | .error e => throw e

/-- Run an operation and go on with its outcome, whether or not it failed. -/
def attempt (x : Op σ ε α) : Op σ ε (Except ε α) :=
  ExceptT.mk (Except.ok <$> x.run)

@[simp] theorem exec_pure (a : α) (s : σ) : exec (pure a : Op σ ε α) s = (.ok a, s) := rfl

@[simp] theorem exec_throw (e : ε) (s : σ) : exec (throw e : Op σ ε α) s = (.error e, s) := rfl

@[simp] theorem exec_get (s : σ) : exec (get : Op σ ε σ) s = (.ok s, s) := rfl

@[simp] theorem exec_set (s s' : σ) : exec (set s' : Op σ ε PUnit) s = (.ok ⟨⟩, s') := rfl

@[simp] theorem exec_modify (f : σ → σ) (s : σ) :
    exec (modify f : Op σ ε PUnit) s = (.ok ⟨⟩, f s) := rfl

/-- Running a sequence runs the second part from where a successful first part stopped. -/
theorem exec_bind (x : Op σ ε α) (f : α → Op σ ε β) (s : σ) :
    exec (x >>= f) s =
      match exec x s with
      | (.ok a, s') => exec (f a) s'
      | (.error e, s') => (.error e, s') := by
  rcases h : exec x s with ⟨_ | _, _⟩ <;> simp only [exec] at h ⊢ <;>
    simp only [ExceptT.run_bind, StateT.run_bind, h] <;> rfl

/-- A sequence whose first part succeeded continues with the second part. -/
theorem exec_bind_of_ok {x : Op σ ε α} {f : α → Op σ ε β} {s s' : σ} {a : α}
    (h : exec x s = (.ok a, s')) : exec (x >>= f) s = exec (f a) s' := by
  rw [exec_bind, h]

/-- A sequence whose first part failed stops there. -/
theorem exec_bind_of_error {x : Op σ ε α} {f : α → Op σ ε β} {s s' : σ} {e : ε}
    (h : exec x s = (.error e, s')) : exec (x >>= f) s = (.error e, s') := by
  rw [exec_bind, h]

/-- A sequence succeeds exactly when both of its parts do. -/
theorem exec_bind_eq_ok {x : Op σ ε α} {f : α → Op σ ε β} {s s'' : σ} {b : β} :
    exec (x >>= f) s = (.ok b, s'') ↔
      ∃ a s', exec x s = (.ok a, s') ∧ exec (f a) s' = (.ok b, s'') := by
  rcases h : exec x s with ⟨e | a, s'⟩
  · simp [exec_bind_of_error h]
  · rw [exec_bind_of_ok h]
    constructor
    · intro hf
      exact ⟨a, s', rfl, hf⟩
    · rintro ⟨a', t, hat, hf⟩
      cases hat
      exact hf

@[simp] theorem exec_get_bind (f : σ → Op σ ε β) (s : σ) :
    exec (get >>= f) s = exec (f s) s := exec_bind_of_ok (exec_get s)

@[simp] theorem exec_modify_bind (g : σ → σ) (f : PUnit → Op σ ε β) (s : σ) :
    exec (modify g >>= f) s = exec (f ⟨⟩) (g s) := exec_bind_of_ok (exec_modify g s)

@[simp] theorem exec_ensure (c : Prop) [Decidable c] (e : ε) (s : σ) :
    exec (ensure c e : Op σ ε Unit) s = if c then (.ok (), s) else (.error e, s) := by
  unfold ensure
  split <;> simp

@[simp] theorem exec_ensure_bind (c : Prop) [Decidable c] (e : ε) (f : Unit → Op σ ε β) (s : σ) :
    exec (ensure c e >>= f) s = if c then exec (f ()) s else (.error e, s) := by
  by_cases h : c <;> simp [exec_bind, h]

@[simp] theorem exec_someOr_bind (v : Option α) (e : ε) (f : α → Op σ ε β) (s : σ) :
    exec (someOr v e >>= f) s =
      match v with
      | some a => exec (f a) s
      | none => (.error e, s) := by
  cases v <;> simp [someOr]

@[simp] theorem exec_fromExcept_bind (v : Except ε α) (f : α → Op σ ε β) (s : σ) :
    exec (fromExcept v >>= f) s =
      match v with
      | .ok a => exec (f a) s
      | .error e => (.error e, s) := by
  cases v <;> simp [fromExcept]

end Op

end Netbaiot.Lib
