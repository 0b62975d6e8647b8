import Netbaiot.Lib.Parser

/-!
# Reading back what was written

A parser reads a byte string as a value if it takes exactly these bytes off any input that
begins with them.  Parsers in sequence read byte strings in sequence, and a loop reads what
its steps read one after the other.
-/

namespace Netbaiot.Lib.Parser

variable {ε α β σ : Type}

/-- The parser takes exactly these bytes, whatever follows them, and returns the value. -/
def Reads (p : Parser ε α) (bytes : List UInt8) (a : α) : Prop :=
  ∀ rest, p.parse (bytes ++ rest) = .ok (a, rest)

section Sequence

variable {p : Parser ε α} {f : α → Parser ε β} {bytes more rest : List UInt8} {a : α} {b : β}
  {e : ε}

/-- A sequence goes on with its second part where its first part stops. -/
theorem parse_bind_of_ok {input : List UInt8} (h : p.parse input = .ok (a, rest)) :
    (p >>= f).parse input = (f a).parse rest := by
  show (p.parse input >>= fun x => (f x.1).parse x.2) = _
  rw [h]
  rfl

theorem Reads.parse_bind (h : Reads p bytes a) :
    (p >>= f).parse (bytes ++ rest) = (f a).parse rest :=
  parse_bind_of_ok (h rest)

/-- A first part that reads nothing. -/
theorem Reads.parse_bind_nil (h : Reads p [] a) : (p >>= f).parse rest = (f a).parse rest :=
  h.parse_bind

theorem Reads.bind (h : Reads p bytes a) (hf : Reads (f a) more b) :
    Reads (p >>= f) (bytes ++ more) b := by
  intro rest
  rw [List.append_assoc, h.parse_bind]
  exact hf rest

/-- A second part that reads nothing. -/
theorem Reads.bind_nil (h : Reads p bytes a) (hf : Reads (f a) [] b) : Reads (p >>= f) bytes b := by
  have hboth := h.bind hf
  rwa [List.append_nil] at hboth

theorem reads_pure (a : α) : Reads (pure a : Parser ε α) [] a := fun _ => rfl

/-- A value that is returned once the bytes are read. -/
theorem Reads.map {g : α → β} (h : Reads p bytes a) : Reads (g <$> p) bytes (g a) := by
  rw [map_eq_pure_bind]
  exact h.bind_nil (reads_pure _)

theorem reads_ensure {c : Prop} [Decidable c] (h : c) : Reads (ensure c e) [] () := by
  rw [ensure, if_pos h]
  exact reads_pure ()

/-- A check that holds reads nothing. -/
theorem parse_ensure_bind {c : Prop} [Decidable c] {f : Unit → Parser ε β} (h : c) :
    (ensure c e >>= f).parse rest = (f ()).parse rest :=
  (reads_ensure h).parse_bind

theorem parse_remaining_bind {f : List UInt8 → Parser ε β} :
    (remaining >>= f).parse rest = (f rest).parse rest := rfl

theorem Reads.ensure_bind {c : Prop} [Decidable c] {f : Unit → Parser ε β} (h : c)
    (hf : Reads (f ()) bytes b) : Reads (ensure c e >>= f) bytes b :=
  (reads_ensure h).bind hf

theorem reads_take {n : ℕ} (h : bytes.length = n) : Reads (take n e) bytes bytes :=
  fun _ => parse_take_eq_ok.mpr ⟨rfl, h⟩

theorem reads_byte (b : UInt8) : Reads (byte e) [b] b := fun _ => rfl

theorem reads_number {width n : ℕ} (h : n < 256 ^ width) :
    Reads (number width e) (beBytes width n) n :=
  fun _ => parse_number_eq_ok.mpr ⟨_, rfl, beBytes_length width n, (ofBeBytes_beBytes h).symm⟩

/-- A byte string after its length is read back, if it is within the limit. -/
theorem reads_counted {e' e'' : ε} {width maximum : ℕ} (hshort : bytes.length < 256 ^ width)
    (hmax : bytes.length ≤ maximum) :
    Reads (counted width maximum e e' e'') (beBytes width bytes.length ++ bytes) bytes :=
  (reads_number hshort).bind (Reads.ensure_bind (Nat.not_lt.mpr hmax) (reads_take rfl))

/-- A value that passes a check is read. -/
theorem Reads.checked {c : α → Prop} [DecidablePred c] (h : Reads p bytes a) (hc : c a) :
    Reads (checked p c e) bytes a :=
  h.bind_nil (Reads.ensure_bind hc (reads_pure a))

theorem Reads.present {flag : Prop} [Decidable flag] (h : Reads p bytes a) (hflag : flag) :
    Reads (present flag p) bytes (some a) := by
  rw [Parser.present, if_pos hflag]
  exact h.map

theorem reads_not_present {flag : Prop} [Decidable flag] (hflag : ¬ flag) :
    Reads (present flag p) [] none := by
  rw [present, if_neg hflag]
  exact reads_pure none

/-- An optional part is read if its flag says whether it is there. -/
theorem reads_optional {flag : Prop} [Decidable flag] {write : α → List UInt8} {value : Option α}
    (hflag : flag ↔ value.isSome) (h : ∀ a, value = some a → Reads p (write a) a) :
    Reads (present flag p) (value.elim [] write) value := by
  cases value with
  | none => exact reads_not_present (by simp [hflag])
  | some a => exact (h a rfl).present (hflag.mpr rfl)

end Sequence

/-! ## Loops -/

/-- The steps of a loop read the bytes one after the other; each reads at least one. -/
inductive Steps (step : σ → Parser ε σ) : σ → List UInt8 → σ → Prop
  | done (s : σ) : Steps step s [] s
  | step {s t u : σ} {chunk rest : List UInt8} (hchunk : chunk ≠ [])
      (hstep : Reads (step s) chunk t) (hrest : Steps step t rest u) :
      Steps step s (chunk ++ rest) u

section Loop

variable {step : σ → Parser ε σ} {s t u : σ} {bytes more : List UInt8}

theorem Steps.single (hbytes : bytes ≠ []) (hstep : Reads (step s) bytes t) :
    Steps step s bytes t := by
  rw [← List.append_nil bytes]
  exact .step hbytes hstep (.done t)

theorem Steps.trans (h : Steps step s bytes t) (h' : Steps step t more u) :
    Steps step s (bytes ++ more) u := by
  induction h with
  | done => exact h'
  | step hchunk hstep _ ih =>
    rw [List.append_assoc]
    exact .step hchunk hstep (ih h')

/-- A loop with enough fuel reads what its steps read. -/
theorem Steps.parse_loop (h : Steps step s bytes t) {fuel : ℕ} (hfuel : bytes.length ≤ fuel) :
    (loop step fuel s).parse bytes = .ok (t, []) := by
  induction h generalizing fuel with
  | done s =>
    cases fuel with
    | zero => rfl
    | succ fuel => rfl
  | @step s t u chunk rest hchunk hstep _ ih =>
    have hpos := List.length_pos_of_ne_nil hchunk
    rw [List.length_append] at hfuel
    obtain ⟨fuel, rfl⟩ : ∃ k, fuel = k + 1 := ⟨fuel - 1, by omega⟩
    have hmore : (chunk ++ rest).isEmpty = false :=
      List.isEmpty_eq_false_iff.mpr (List.append_ne_nil_of_left_ne_nil hchunk rest)
    rw [loop, parse_remaining_bind, hmore]
    show (step s >>= loop step fuel).parse (chunk ++ rest) = _
    rw [hstep.parse_bind]
    exact ih (by omega)

theorem Steps.parse_untilEmpty (h : Steps step s bytes t) :
    (untilEmpty step s).parse bytes = .ok (t, []) := by
  rw [untilEmpty, parse_remaining_bind]
  exact h.parse_loop le_rfl

end Loop

end Netbaiot.Lib.Parser
