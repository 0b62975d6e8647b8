import Mathlib.Data.List.TakeWhile
import Netbaiot.Codecs.Decimal

/-!
# The grammar of decimal texts

A numeral is a decimal text taken apart: an optional minus sign, digits, and optionally a fraction
and an exponent.  It denotes a rational number.  The scanners of `Decimal.parseBounded` take the
text of a numeral apart, and whatever they accept is the text of one.
-/

namespace Netbaiot.Codecs

open Lib

/-- At least one digit. -/
structure Digits where
  bytes : List UInt8
  nonempty : bytes ≠ []
  digits : ∀ b ∈ bytes, isAsciiDigit b = true

/-- The exponent of a numeral: its marker, its sign and its digits. -/
structure Numeral.Exponent where
  upper : Bool
  -- whether there is a sign, and whether it is a minus
  sign : Option Bool
  digits : Digits

/-- A decimal text taken apart. -/
structure Numeral where
  negative : Bool
  integer : Digits
  fraction : Option Digits
  exponent : Option Numeral.Exponent

variable (e : Exponent)

namespace Numeral

/-- The text of an exponent. -/
def Exponent.text : List UInt8 :=
  (if e.upper then 69 else 101) ::
    ((match e.sign with
      | none => []
      | some false => [43]
      | some true => [45]) ++ e.digits.bytes)

/-- The number of an exponent. -/
def Exponent.value : ℤ :=
  if e.sign = some true then -(digitsValue e.digits.bytes : ℤ) else digitsValue e.digits.bytes

variable (n : Numeral)

/-- The text of a fraction, with its point. -/
def fractionText : List UInt8 := n.fraction.elim [] fun digits => 46 :: digits.bytes

/-- The digits of a fraction. -/
def fractionDigits : List UInt8 := n.fraction.elim [] Digits.bytes

/-- The text of the exponent. -/
def exponentText : List UInt8 := n.exponent.elim [] Exponent.text

/-- The number of the exponent. -/
def explicitExponent : ℤ := n.exponent.elim 0 Exponent.value

/-- The text without its sign. -/
def body : List UInt8 := n.integer.bytes ++ (n.fractionText ++ n.exponentText)

/-- The text of a numeral. -/
def text : List UInt8 := if n.negative then 45 :: n.body else n.body

/-- The digits of a numeral, without its point. -/
def digits : List UInt8 := n.integer.bytes ++ n.fractionDigits

/-- The number a numeral denotes. -/
def value : ℚ :=
  (if n.negative then -1 else 1) * digitsValue n.digits *
    10 ^ (n.explicitExponent - n.fractionDigits.length)

/-! ## Taking texts apart -/

end Numeral

/-- A text that does not go on with a digit. -/
def Stops (rest : List UInt8) : Prop := ∀ b ∈ rest.head?, isAsciiDigit b = false

theorem scanDigits_append {l rest : List UInt8} (hl : ∀ b ∈ l, isAsciiDigit b = true)
    (hrest : Stops rest) : scanDigits (l ++ rest) = (l, rest) := by
  unfold scanDigits
  induction l with
  | nil =>
    cases rest with
    | nil => rfl
    | cons b rest =>
      have hb : isAsciiDigit b = false := hrest b rfl
      simp [hb]
  | cons b l ih =>
    have hb := hl b (by simp)
    have ih := ih fun b hb => hl b (by simp [hb])
    rw [Prod.mk.injEq] at ih
    rw [List.cons_append, List.takeWhile_cons_of_pos hb, List.dropWhile_cons_of_pos hb, ih.1, ih.2]

theorem scanDigits_spec (bytes : List UInt8) :
    bytes = (scanDigits bytes).1 ++ (scanDigits bytes).2 ∧
      (∀ b ∈ (scanDigits bytes).1, isAsciiDigit b = true) ∧ Stops (scanDigits bytes).2 := by
  refine ⟨List.takeWhile_append_dropWhile.symm, fun b hb => List.mem_takeWhile_imp hb,
    fun b hb => ?_⟩
  have hhead := List.head?_dropWhile_not isAsciiDigit bytes
  simp only [scanDigits] at hb
  rw [hb] at hhead
  simpa using hhead

namespace Numeral

variable (n : Numeral)

theorem Exponent.text_stops : Stops e.text := by
  intro b hb
  obtain ⟨upper, sign, digits⟩ := e
  cases upper <;> cases hb <;> rfl

theorem exponentText_stops : Stops n.exponentText := by
  unfold exponentText
  cases n.exponent with
  | none => simp [Stops]
  | some e => exact e.text_stops

theorem fractionText_stops : Stops (n.fractionText ++ n.exponentText) := by
  unfold fractionText
  cases n.fraction with
  | none => exact n.exponentText_stops
  | some digits =>
    rintro b ⟨⟩
    rfl

/-- The body of a numeral begins with a digit. -/
theorem body_head {b : UInt8} (hb : n.body.head? = some b) : isAsciiDigit b = true := by
  obtain ⟨negative, ⟨integer, hne, hdigits⟩, fraction, exponent⟩ := n
  cases integer with
  | nil => exact absurd rfl hne
  | cons d rest =>
    cases hb
    exact hdigits _ (by simp)

theorem scanSign_text : scanSign n.text = (n.negative, n.body) := by
  unfold scanSign text
  cases n.negative with
  | true => rfl
  | false =>
    rw [if_neg Bool.false_ne_true, if_neg]
    intro hminus
    exact absurd (n.body_head hminus) (by decide)

theorem scanDigits_body : scanDigits n.body = (n.integer.bytes, n.fractionText ++ n.exponentText) :=
  scanDigits_append n.integer.digits n.fractionText_stops

/-- The text of an exponent does not begin with a point. -/
theorem exponentText_head : n.exponentText.head? ≠ some 46 := by
  unfold exponentText
  cases n.exponent with
  | none => simp
  | some e =>
    obtain ⟨upper, sign, digits⟩ := e
    cases upper <;> simp [Exponent.text]

theorem scanFraction_text :
    Decimal.scanFraction (n.fractionText ++ n.exponentText) =
      .ok (n.fractionDigits, n.exponentText) := by
  unfold Decimal.scanFraction fractionText fractionDigits
  cases n.fraction with
  | none =>
    rw [Option.elim_none, Option.elim_none, List.nil_append, if_neg n.exponentText_head]
    rfl
  | some digits =>
    rw [Option.elim_some, Option.elim_some, List.cons_append, List.head?_cons, if_pos rfl,
      List.tail_cons, scanDigits_append digits.digits n.exponentText_stops]
    exact check_bind_of digits.nonempty

/-- The sign of an exponent is skipped. -/
theorem Exponent.skip_sign : skipExponentSign e.text.tail = e.digits.bytes := by
  obtain ⟨upper, sign, ⟨digits, hne, hdigits⟩⟩ := e
  rcases sign with _ | _ | _
  · cases digits with
    | nil => exact absurd rfl hne
    | cons d rest =>
      have hd := hdigits d (by simp)
      unfold skipExponentSign
      rw [if_neg]
      · rfl
      · rintro (hsign | hsign) <;> cases hsign <;> exact absurd hd (by decide)
  · rfl
  · rfl

theorem Exponent.sign_text : (e.text.tail.head? == some 45) = decide (e.sign = some true) := by
  obtain ⟨upper, sign, ⟨digits, hne, hdigits⟩⟩ := e
  rcases sign with _ | _ | _
  · cases digits with
    | nil => exact absurd rfl hne
    | cons d rest =>
      have hd := hdigits d (by simp)
      have hne : d ≠ 45 := by
        rintro rfl
        exact absurd hd (by decide)
      simp [Exponent.text, hne]
  · rfl
  · rfl

theorem fitsSigned_32 {x : ℤ} : FitsSigned 32 x ↔ -2147483648 ≤ x ∧ x < 2147483648 := by
  norm_num [FitsSigned]

/-- One more digit of an exponent is added exactly or does not fit in 32 bits. -/
theorem pushExponentDigit_eq (k : ℕ) (b : UInt8) :
    Decimal.pushExponentDigit k b =
      if k * 10 + digit b < 2 ^ 31 then some ((k * 10 + digit b : ℕ) : ℤ) else none := by
  split
  · next hfits =>
    have hten : checkedSigned 32 ((k : ℤ) * 10) = some ((k : ℤ) * 10) :=
      checkedSigned_eq_some.mpr ⟨fitsSigned_32.mpr (by omega), rfl⟩
    have hsum : checkedSigned 32 ((k : ℤ) * 10 + digit b) = some ((k : ℤ) * 10 + digit b) :=
      checkedSigned_eq_some.mpr ⟨fitsSigned_32.mpr (by omega), rfl⟩
    rw [Decimal.pushExponentDigit, hten, Option.bind_eq_bind, Option.bind_some, hsum]
    rfl
  · next hlarge =>
    rw [Option.eq_none_iff_forall_ne_some]
    intro x hx
    simp only [Decimal.pushExponentDigit, Option.bind_eq_bind, Option.bind_eq_some_iff,
      checkedSigned_eq_some, fitsSigned_32] at hx
    omega

/-- The digits of an exponent are read exactly or do not fit in 32 bits. -/
theorem foldlM_pushExponentDigit (l : List UInt8) {k : ℕ} (hk : k < 2 ^ 31) :
    l.foldlM Decimal.pushExponentDigit (k : ℤ) =
      if k * 10 ^ l.length + digitsValue l < 2 ^ 31 then
        some ((k * 10 ^ l.length + digitsValue l : ℕ) : ℤ)
      else none := by
  induction l generalizing k with
  | nil => simpa using hk
  | cons b rest ih =>
    have hvalue : k * 10 ^ (b :: rest).length + digitsValue (b :: rest) =
        (k * 10 + digit b) * 10 ^ rest.length + digitsValue rest := by
      rw [digitsValue_cons, List.length_cons, pow_succ]
      ring
    rw [List.foldlM_cons, pushExponentDigit_eq, hvalue]
    by_cases hfits : k * 10 + digit b < 2 ^ 31
    · rw [if_pos hfits]
      exact ih hfits
    · rw [if_neg hfits, if_neg]
      · rfl
      · have hpow : 1 ≤ 10 ^ rest.length := Nat.one_le_pow _ _ (by norm_num)
        have hle := Nat.le_mul_of_pos_right (k * 10 + digit b) hpow
        omega

/-- An exponent begins with its marker. -/
theorem Exponent.marker : e.text.head? = some 101 ∨ e.text.head? = some 69 := by
  obtain ⟨upper, sign, digits⟩ := e
  cases upper
  · exact .inl rfl
  · exact .inr rfl

theorem Exponent.scan_digits : scanDigits e.digits.bytes = (e.digits.bytes, []) := by
  have hscan : scanDigits (e.digits.bytes ++ []) = (e.digits.bytes, []) :=
    scanDigits_append e.digits.digits (by simp [Stops])
  rwa [List.append_nil] at hscan

/-- An exponent is read exactly or does not fit in 32 bits. -/
theorem scanExponent_text :
    Decimal.scanExponent n.exponentText =
      if n.explicitExponent.natAbs < 2 ^ 31 then .ok (n.explicitExponent, [])
      else .error "Decimal exponent exceeds the supported range." := by
  unfold Decimal.scanExponent exponentText explicitExponent
  cases n.exponent with
  | none => rfl
  | some e =>
    have hfold := foldlM_pushExponentDigit e.digits.bytes (k := 0) (by norm_num)
    rw [Nat.zero_mul, Nat.zero_add, Nat.cast_zero] at hfold
    have habs : e.value.natAbs = digitsValue e.digits.bytes := by
      unfold Exponent.value
      split <;> simp
    rw [Option.elim_some, Option.elim_some, if_pos e.marker, e.skip_sign, e.scan_digits,
      e.sign_text]
    simp only [habs, hfold]
    by_cases hfits : digitsValue e.digits.bytes < 2 ^ 31
    · simp only [if_pos hfits, check_bind_of e.digits.nonempty]
      by_cases hsign : e.sign = some true
      · have hneg : checkedSigned 32 (-(digitsValue e.digits.bytes : ℤ)) =
            some (-(digitsValue e.digits.bytes : ℤ)) :=
          checkedSigned_eq_some.mpr ⟨fitsSigned_32.mpr (by omega), rfl⟩
        simp only [hsign, decide_true, if_true, hneg, Exponent.value]
        rfl
      · simp only [hsign, decide_false, Exponent.value, if_false]
        rfl
    · simp only [if_neg hfits]

/-- The mantissa of a numeral is what stands before its exponent. -/
theorem take_body : n.body.take (n.body.length - n.exponentText.length) =
    n.integer.bytes ++ n.fractionText := by
  unfold body
  rw [← List.append_assoc, List.length_append, Nat.add_sub_cancel, List.take_left']
  rfl

theorem text_ne_nil : n.text ≠ [] := by
  unfold text body
  split
  · simp
  · exact List.append_ne_nil_of_left_ne_nil n.integer.nonempty _

/-- The text of a numeral is read through its parts. -/
theorem parseBounded_text (maximumSignificantDigits : ℕ) (maximumExponent : Int16)
    (hlength : n.text.length ≤ maxDecimalBytes) :
    Decimal.parseBounded n.text maximumSignificantDigits maximumExponent =
      if n.explicitExponent.natAbs < 2 ^ 31 then
        Decimal.ofMantissa n.negative (n.integer.bytes ++ n.fractionText)
          n.fractionDigits.length n.explicitExponent maximumSignificantDigits maximumExponent
      else .error "Decimal exponent exceeds the supported range." := by
  unfold Decimal.parseBounded
  rw [check_bind_of ⟨n.text_ne_nil, hlength⟩]
  simp only [n.scanSign_text, n.scanDigits_body, check_bind_of n.integer.nonempty,
    n.scanFraction_text, ok_bind, n.scanExponent_text, n.take_body]
  by_cases hfits : n.explicitExponent.natAbs < 2 ^ 31
  · simp only [if_pos hfits, ok_bind]
    exact check_bind_of trivial
  · simp only [if_neg hfits, error_bind]

/-- The text of a numeral is one of a scalar if it is not too long. -/
theorem validDecimalText_text (hlength : n.text.length ≤ maxDecimalBytes) :
    validDecimalText n.text = true := by
  have hfraction : skipFraction (n.fractionText ++ n.exponentText) = some n.exponentText := by
    unfold skipFraction fractionText
    cases n.fraction with
    | none => rw [Option.elim_none, List.nil_append, if_neg n.exponentText_head]
    | some digits =>
      rw [Option.elim_some, List.cons_append, List.head?_cons, if_pos rfl, List.tail_cons,
        scanDigits_append digits.digits n.exponentText_stops]
      exact if_neg digits.nonempty
  have hexponent : skipExponent n.exponentText = some [] := by
    unfold skipExponent exponentText
    cases n.exponent with
    | none => rfl
    | some e =>
      rw [Option.elim_some, if_pos e.marker, e.skip_sign, e.scan_digits]
      exact if_neg e.digits.nonempty
  unfold validDecimalText
  rw [if_neg (by simp [n.text_ne_nil, hlength]), n.scanSign_text, n.scanDigits_body]
  simp only [if_neg n.integer.nonempty, hfraction, Option.bind_some, hexponent]
  rfl

end Numeral

/-! ## Accepted texts are numerals -/

theorem scanSign_eq {bytes body : List UInt8} {negative : Bool}
    (h : scanSign bytes = (negative, body)) : bytes = if negative then 45 :: body else body := by
  unfold scanSign at h
  split at h
  · next hminus =>
    cases h
    cases bytes with
    | nil => cases hminus
    | cons b rest =>
      cases hminus
      rfl
  · cases h
    rfl

theorem scanFraction_eq_ok {bytes fraction rest : List UInt8}
    (h : Decimal.scanFraction bytes = .ok (fraction, rest)) :
    ∃ digits : Option Digits,
      bytes = digits.elim [] (fun digits => 46 :: digits.bytes) ++ rest := by
  unfold Decimal.scanFraction at h
  split at h
  · next hpoint =>
    obtain ⟨hne, h⟩ := check_bind_eq_ok.mp h
    cases h
    obtain ⟨happend, hdigits, -⟩ := scanDigits_spec bytes.tail
    refine ⟨some ⟨_, hne, hdigits⟩, ?_⟩
    cases bytes with
    | nil => cases hpoint
    | cons b tail =>
      cases hpoint
      exact congrArg _ happend
  · cases h
    exact ⟨none, rfl⟩

/-- The sign in front of a text, if there is one. -/
theorem skipExponentSign_eq (bytes : List UInt8) : ∃ sign : Option Bool,
    bytes = (match sign with
      | none => []
      | some false => [43]
      | some true => [45]) ++ skipExponentSign bytes := by
  unfold skipExponentSign
  split
  · next hsign =>
    cases bytes with
    | nil => simp at hsign
    | cons b tail =>
      obtain hplus | hminus := hsign
      · cases hplus
        exact ⟨some false, rfl⟩
      · cases hminus
        exact ⟨some true, rfl⟩
  · exact ⟨none, rfl⟩

theorem scanExponent_eq_ok {bytes rest : List UInt8} {exponent : ℤ}
    (h : Decimal.scanExponent bytes = .ok (exponent, rest)) :
    ∃ e : Option Numeral.Exponent, bytes = e.elim [] Numeral.Exponent.text ++ rest := by
  unfold Decimal.scanExponent at h
  split at h
  · next hmarker =>
    obtain ⟨sign, hsign⟩ := skipExponentSign_eq bytes.tail
    obtain ⟨happend, hdigits, -⟩ := scanDigits_spec (skipExponentSign bytes.tail)
    have hrest : (scanDigits (skipExponentSign bytes.tail)).1 ≠ [] ∧
        rest = (scanDigits (skipExponentSign bytes.tail)).2 := by
      cases hfold : (scanDigits (skipExponentSign bytes.tail)).1.foldlM
          Decimal.pushExponentDigit 0 with
      | none => simp [hfold] at h
      | some x =>
        simp only [hfold] at h
        obtain ⟨hne, h⟩ := check_bind_eq_ok.mp h
        refine ⟨hne, ?_⟩
        split at h
        · cases hneg : checkedSigned 32 (-x) with
          | none => simp [hneg] at h
          | some y =>
            simp only [hneg] at h
            cases h
            rfl
        · cases h
          rfl
    obtain ⟨hne, rfl⟩ := hrest
    obtain ⟨upper, hbytes⟩ : ∃ upper : Bool,
        bytes = (if upper then 69 else 101) :: bytes.tail := by
      cases bytes with
      | nil => simp at hmarker
      | cons b tail =>
        obtain hlower | hupper := hmarker
        · cases hlower
          exact ⟨false, rfl⟩
        · cases hupper
          exact ⟨true, rfl⟩
    refine ⟨some ⟨upper, sign, _, hne, hdigits⟩, ?_⟩
    rw [Option.elim_some, Numeral.Exponent.text, List.cons_append, List.append_assoc, ← happend,
      ← hsign]
    exact hbytes
  · cases h
    exact ⟨none, rfl⟩

/-- Every text that is read is the text of a numeral within the length of a decimal text. -/
theorem exists_numeral {text : List UInt8} {maximumSignificantDigits : ℕ} {maximumExponent : Int16}
    {d : Decimal} (h : Decimal.parseBounded text maximumSignificantDigits maximumExponent = .ok d) :
    ∃ n : Numeral, n.text = text ∧ text.length ≤ maxDecimalBytes := by
  obtain ⟨⟨-, hlength⟩, h⟩ := check_bind_eq_ok.mp h
  cases hsign : scanSign text with
  | mk negative body =>
  simp only [hsign] at h
  obtain ⟨hinteger, h⟩ := check_bind_eq_ok.mp h
  obtain ⟨⟨fraction, afterMantissa⟩, hfraction, h⟩ := except_bind_eq_ok.mp h
  obtain ⟨⟨exponent, rest⟩, hexponent, h⟩ := except_bind_eq_ok.mp h
  obtain ⟨hrest, -⟩ := check_bind_eq_ok.mp h
  obtain ⟨happend, hdigits, -⟩ := scanDigits_spec body
  obtain ⟨fraction, hfractionText⟩ := scanFraction_eq_ok hfraction
  obtain ⟨exponent, hexponentText⟩ := scanExponent_eq_ok hexponent
  refine ⟨⟨negative, ⟨_, hinteger, hdigits⟩, fraction, exponent⟩, ?_, hlength⟩
  replace hrest : rest = [] := hrest
  rw [hrest, List.append_nil] at hexponentText
  rw [scanSign_eq hsign]
  unfold Numeral.text Numeral.body Numeral.fractionText Numeral.exponentText
  rw [← hexponentText, ← hfractionText, ← happend]

end Netbaiot.Codecs
