import Netbaiot.Lib.Op
import Netbaiot.Lib.Bytes

/-!
# Parsers of byte strings

A parser reads from the front of a byte string and returns a value with what is left, or
fails.  The lemmas invert a successful run: they say how the input is split.
-/

namespace Netbaiot.Lib

/-- Reads from the front of a byte string, or fails. -/
abbrev Parser (ε α : Type) := StateT (List UInt8) (Except ε) α

namespace Parser

variable {ε α β σ : Type}

/-- Run a parser on an input. -/
def parse (p : Parser ε α) (input : List UInt8) : Except ε (α × List UInt8) := p.run input

/-- Go on only if the condition holds. -/
def ensure (c : Prop) [Decidable c] (e : ε) : Parser ε Unit := if c then pure () else throw e

/-- The next bytes. -/
def take (n : ℕ) (e : ε) : Parser ε (List UInt8) := fun input =>
  if n ≤ input.length then .ok (input.take n, input.drop n) else .error e

/-- The next byte. -/
def byte (e : ε) : Parser ε UInt8
  | [] => .error e
  | b :: rest => .ok (b, rest)

/-- The next big-endian number. -/
def number (width : ℕ) (e : ε) : Parser ε ℕ := do
  return ofBeBytes (← take width e)

/-- A byte string after its length, which must be within a limit. -/
def counted (width maximum : ℕ) (e e' e'' : ε) : Parser ε (List UInt8) := do
  let length ← number width e
  ensure (¬ length > maximum) e'
  take length e''

/-- A value that must pass a check. -/
def checked (p : Parser ε α) (c : α → Prop) [DecidablePred c] (e : ε) : Parser ε α := do
  let a ← p
  ensure (c a) e
  return a

/-- What a flag announces. -/
def present (flag : Prop) [Decidable flag] (p : Parser ε α) : Parser ε (Option α) :=
  if flag then some <$> p else pure none

/-- Everything that is left. -/
def remaining : Parser ε (List UInt8) := get

/-- Run a parser on another input; what it leaves there is dropped. -/
def within (p : Parser ε α) (field : List UInt8) : Parser ε α := fun input =>
  match p.parse field with
  | .ok (a, _) => .ok (a, input)
  | .error e => .error e

/-- Repeat a step until the input is used up; every step uses up some. -/
def loop (step : σ → Parser ε σ) : ℕ → σ → Parser ε σ
  | 0, s => pure s
  | fuel + 1, s => do
      if (← remaining).isEmpty then pure s
      else loop step fuel (← step s)

/-- Repeat a step until the input is used up. -/
def untilEmpty (step : σ → Parser ε σ) (s : σ) : Parser ε σ := do
  loop step (← remaining).length s

section Run

variable {p : Parser ε α} {f : α → Parser ε β} {input rest : List UInt8} {e : ε}

@[simp] theorem parse_pure_eq_ok {a b : α} :
    (pure a : Parser ε α).parse input = .ok (b, rest) ↔ b = a ∧ rest = input := by
  show (Except.ok (a, input) : Except ε _) = _ ↔ _
  rw [Except.ok.injEq, Prod.mk.injEq, eq_comm (a := a), eq_comm (a := input)]

@[simp] theorem parse_throw {r : α × List UInt8} :
    (throw e : Parser ε α).parse input = .ok r ↔ False := by
  show (Except.error e : Except ε _) = _ ↔ _
  simp

/-- A sequence succeeds exactly when both of its parts do. -/
theorem parse_bind_eq_ok {r : β × List UInt8} :
    (p >>= f).parse input = .ok r ↔
      ∃ a rest, p.parse input = .ok (a, rest) ∧ (f a).parse rest = .ok r := by
  show (p.parse input >>= fun x => (f x.1).parse x.2) = _ ↔ _
  rw [except_bind_eq_ok, Prod.exists]

theorem parse_map_eq_ok {g : α → β} {b : β} :
    (g <$> p).parse input = .ok (b, rest) ↔ ∃ a, p.parse input = .ok (a, rest) ∧ g a = b := by
  rw [map_eq_pure_bind, parse_bind_eq_ok]
  simp only [parse_pure_eq_ok]
  constructor
  · rintro ⟨a, _, ha, rfl, rfl⟩
    exact ⟨a, ha, rfl⟩
  · rintro ⟨a, ha, rfl⟩
    exact ⟨a, rest, ha, rfl, rfl⟩

@[simp] theorem parse_ensure_eq_ok {c : Prop} [Decidable c] {u : Unit} :
    (ensure c e).parse input = .ok (u, rest) ↔ c ∧ rest = input := by
  unfold ensure
  split
  · next hc => simp [hc]
  · next hc => simp [hc]

@[simp] theorem parse_remaining_eq_ok {bytes : List UInt8} :
    (remaining : Parser ε _).parse input = .ok (bytes, rest) ↔ bytes = input ∧ rest = input := by
  show (Except.ok (input, input) : Except ε _) = _ ↔ _
  rw [Except.ok.injEq, Prod.mk.injEq, eq_comm (a := input), eq_comm (a := input)]

/-- Reading bytes splits the input. -/
theorem parse_take_eq_ok {n : ℕ} {bytes : List UInt8} :
    (take n e).parse input = .ok (bytes, rest) ↔ input = bytes ++ rest ∧ bytes.length = n := by
  show (if n ≤ input.length then _ else _) = _ ↔ _
  split
  · next hle =>
    constructor
    · rintro ⟨rfl, rfl⟩
      exact ⟨(List.take_append_drop n input).symm, List.length_take_of_le hle⟩
    · rintro ⟨rfl, rfl⟩
      simp
  · next hlt =>
    simp only [reduceCtorEq, false_iff, not_and]
    rintro rfl hlength
    rw [List.length_append] at hlt
    omega

theorem parse_byte_eq_ok {b : UInt8} :
    (byte e).parse input = .ok (b, rest) ↔ input = b :: rest := by
  cases input with
  | nil => simp [parse, byte, StateT.run]
  | cons c tail => simp [parse, byte, StateT.run]

theorem parse_number_eq_ok {width n : ℕ} :
    (number width e).parse input = .ok (n, rest) ↔
      ∃ bytes, input = bytes ++ rest ∧ bytes.length = width ∧ n = ofBeBytes bytes := by
  simp only [number, parse_bind_eq_ok, parse_take_eq_ok, parse_pure_eq_ok]
  constructor
  · rintro ⟨bytes, rest', ⟨rfl, hlength⟩, rfl, rfl⟩
    exact ⟨bytes, rfl, hlength, rfl⟩
  · rintro ⟨bytes, rfl, hlength, rfl⟩
    exact ⟨bytes, rest, ⟨rfl, hlength⟩, rfl, rfl⟩

/-- A byte string after its length splits the input. -/
theorem parse_counted {e' e'' : ε} {width maximum : ℕ} {bytes : List UInt8}
    (h : (counted width maximum e e' e'').parse input = .ok (bytes, rest)) :
    input.length = bytes.length + width + rest.length ∧ bytes.length ≤ maximum ∧
      bytes.length < 256 ^ width := by
  simp only [counted, parse_bind_eq_ok, parse_number_eq_ok, parse_ensure_eq_ok,
    parse_take_eq_ok] at h
  obtain ⟨length, _, ⟨written, rfl, rfl, rfl⟩, _, _, ⟨hmax, rfl⟩, rfl, hlength⟩ := h
  have hlt := ofBeBytes_lt written
  simp only [List.length_append]
  omega

theorem parse_checked_eq_ok {c : α → Prop} [DecidablePred c] {a : α} :
    (checked p c e).parse input = .ok (a, rest) ↔ p.parse input = .ok (a, rest) ∧ c a := by
  simp only [checked, parse_bind_eq_ok, parse_ensure_eq_ok, parse_pure_eq_ok]
  constructor
  · rintro ⟨_, _, hp, _, _, ⟨hc, rfl⟩, rfl, rfl⟩
    exact ⟨hp, hc⟩
  · rintro ⟨hp, hc⟩
    exact ⟨a, rest, hp, (), rest, ⟨hc, rfl⟩, rfl, rfl⟩

/-- A parser on another input leaves this one alone. -/
theorem parse_within_eq_ok {a : α} {field : List UInt8} :
    (within p field).parse input = .ok (a, rest) ↔
      rest = input ∧ ∃ left, p.parse field = .ok (a, left) := by
  show (match p.parse field with | .ok (a, _) => _ | .error e => _) = _ ↔ _
  rcases p.parse field with e | ⟨b, left⟩
  · simp
  · simp only [Except.ok.injEq, Prod.mk.injEq]
    constructor
    · rintro ⟨rfl, rfl⟩
      exact ⟨rfl, left, rfl, rfl⟩
    · rintro ⟨rfl, _, rfl, _⟩
      exact ⟨rfl, rfl⟩

/-- What every step keeps holds when a loop ends. -/
theorem loop_invariant {I : σ → List UInt8 → Prop} {step : σ → Parser ε σ}
    (hstep : ∀ s input s' rest, I s input → (step s).parse input = .ok (s', rest) → I s' rest)
    {fuel : ℕ} {s s' : σ} (h : (loop step fuel s).parse input = .ok (s', rest))
    (hs : I s input) : I s' rest := by
  induction fuel generalizing s input with
  | zero =>
    rw [loop, parse_pure_eq_ok] at h
    rw [h.1, h.2]
    exact hs
  | succ fuel ih =>
    simp only [loop, parse_bind_eq_ok, parse_remaining_eq_ok] at h
    obtain ⟨_, _, ⟨rfl, rfl⟩, h⟩ := h
    split at h
    · rw [parse_pure_eq_ok] at h
      rw [h.1, h.2]
      exact hs
    · rw [parse_bind_eq_ok] at h
      obtain ⟨next, middle, hnext, hrest⟩ := h
      exact ih hrest (hstep _ _ _ _ hs hnext)

theorem untilEmpty_invariant {I : σ → List UInt8 → Prop} {step : σ → Parser ε σ}
    (hstep : ∀ s input s' rest, I s input → (step s).parse input = .ok (s', rest) → I s' rest)
    {s s' : σ} (h : (untilEmpty step s).parse input = .ok (s', rest)) (hs : I s input) :
    I s' rest := by
  simp only [untilEmpty, parse_bind_eq_ok, parse_remaining_eq_ok] at h
  obtain ⟨_, _, ⟨rfl, rfl⟩, h⟩ := h
  exact loop_invariant hstep h hs

end Run

end Parser

end Netbaiot.Lib
