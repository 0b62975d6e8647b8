import Netbaiot.Codecs.Numeral

/-!
# Decimal texts are read exactly

`parseBounded` finds the normal form of the number a text denotes: the digits between the
first and the last one that is not zero, times a power of ten.  It fails exactly when the text is
too long, is not a numeral, or when its normal form is out of bounds; what `writeTo` writes
is read back (`parseBounded_exact`).
-/

namespace Netbaiot.Codecs

open Lib Decimal

variable {d : Decimal} {l : List UInt8} {first last magnitude : ℕ}

namespace Decimal

/-- The number of a decimal. -/
def value (d : Decimal) : ℚ := d.coefficient * 10 ^ d.exponent

/-- The coefficient has no zero at its end. -/
def Normalized (d : Decimal) : Prop := d = zero ∨ ¬ 10 ∣ d.coefficient

/-- The coefficient fits in 128 bits and has at most so many digits, and the exponent is in its
range. -/
structure Within (d : Decimal) (maximumSignificantDigits : ℕ) (maximumExponent : Int16) :
    Prop where
  coefficient : FitsSigned 128 d.coefficient
  digits : (Nat.digits 10 d.coefficient.natAbs).length ≤ maximumSignificantDigits
  lower : -maximumExponent.toInt ≤ d.exponent
  upper : d.exponent ≤ maximumExponent.toInt

/-- A number other than zero has one normal form. -/
theorem eq_of_value {d' : Decimal} (h : ¬ 10 ∣ d.coefficient) (h' : ¬ 10 ∣ d'.coefficient)
    (hvalue : d.value = d'.value) : d = d' := by
  obtain ⟨hc, he⟩ := coefficient_unique h h' hvalue
  cases d
  cases d'
  congr

/-! ## Digits of a mantissa -/

/-- The point of a mantissa is passed over. -/
theorem foldl_push_filter (l : List UInt8) (scan : NonzeroScan) :
    l.foldl NonzeroScan.push scan = (l.filter (· ≠ 46)).foldl NonzeroScan.push scan := by
  induction l generalizing scan with
  | nil => rfl
  | cons b rest ih =>
    by_cases hb : b = 46
    · rw [List.foldl_cons, ih, List.filter_cons_of_neg (by simp [hb]), NonzeroScan.push, if_pos hb]
    · rw [List.foldl_cons, ih, List.filter_cons_of_pos (by simp [hb]), List.foldl_cons]

theorem foldlM_pushDigit_filter (first last : ℕ) (l : List UInt8) (state : ℕ × ℕ) :
    l.foldlM (pushDigit first last) state =
      (l.filter (· ≠ 46)).foldlM (pushDigit first last) state := by
  induction l generalizing state with
  | nil => rfl
  | cons b rest ih =>
    by_cases hb : b = 46
    · rw [List.foldlM_cons, pushDigit, if_pos hb, List.filter_cons_of_neg (by simp [hb])]
      exact ih state
    · rw [List.foldlM_cons, List.filter_cons_of_pos (by simp [hb]), List.foldlM_cons]
      congr
      funext state
      exact ih state

theorem push_digit (scan : NonzeroScan) {b : UInt8} (hb : isAsciiDigit b = true) :
    scan.push b = if b ≠ 48 then
      ⟨scan.first.orElse fun _ => some scan.index, some scan.index, scan.index + 1⟩
      else { scan with index := scan.index + 1 } := by
  rw [NonzeroScan.push, if_neg]
  rintro rfl
  exact absurd hb (by decide)

/-- Zeros are counted. -/
theorem foldl_push_replicate (n : ℕ) (scan : NonzeroScan) :
    (List.replicate n 48).foldl NonzeroScan.push scan = { scan with index := scan.index + n } := by
  induction n generalizing scan with
  | zero => rfl
  | succ n ih =>
    rw [List.replicate_succ, List.foldl_cons, ih]
    show NonzeroScan.mk scan.first scan.last (scan.index + 1 + n) = _
    rw [Nat.add_right_comm]
    rfl

/-- Digits are counted, and the first one that is not zero stays the first. -/
theorem foldl_push_digits (hl : ∀ b ∈ l, isAsciiDigit b = true) {k : ℕ} (scan : NonzeroScan)
    (hfirst : scan.first = some k) :
    (l.foldl NonzeroScan.push scan).first = some k ∧
      (l.foldl NonzeroScan.push scan).index = scan.index + l.length := by
  induction l generalizing scan with
  | nil => exact ⟨hfirst, rfl⟩
  | cons b rest ih =>
    have hstep : (scan.push b).first = some k ∧ (scan.push b).index = scan.index + 1 := by
      rw [push_digit scan (hl b (by simp))]
      split
      · simp [hfirst]
      · exact ⟨hfirst, rfl⟩
    obtain ⟨hfirst', hindex⟩ := ih (fun b hb => hl b (by simp [hb])) (scan.push b) hstep.1
    rw [List.foldl_cons, hfirst', hindex, hstep.2, List.length_cons]
    exact ⟨rfl, by omega⟩

/-- Digits that begin and end with one that is not zero. -/
structure Significant (s : List UInt8) : Prop where
  digits : ∀ b ∈ s, isAsciiDigit b = true
  first : ∃ b t, s = b :: t ∧ b ≠ 48
  last : ∃ t b, s = t ++ [b] ∧ b ≠ 48

/-- The places of the first and of the last significant digit. -/
theorem foldl_push_significant {s : List UInt8} (hs : Significant s) (k : ℕ) :
    s.foldl NonzeroScan.push ⟨none, none, k⟩ =
      ⟨some k, some (k + (s.length - 1)), k + s.length⟩ := by
  obtain ⟨t, b, rfl, hb⟩ := hs.last
  have hdigit := hs.digits b (by simp)
  rw [List.foldl_append]
  cases t with
  | nil =>
    show NonzeroScan.push _ b = _
    rw [push_digit _ hdigit, if_pos hb]
    rfl
  | cons c t =>
    obtain ⟨c', t', heq, hc⟩ := hs.first
    cases heq
    have hstep : NonzeroScan.push ⟨none, none, k⟩ c = ⟨some k, some k, k + 1⟩ := by
      rw [push_digit _ (hs.digits c (by simp)), if_pos hc]
      rfl
    obtain ⟨hfirst, hindex⟩ := foldl_push_digits (l := t) (k := k)
      (fun b hb => hs.digits b (by simp [hb])) (NonzeroScan.push ⟨none, none, k⟩ c)
      (by rw [hstep])
    rw [List.foldl_cons, List.foldl_cons, List.foldl_nil, push_digit _ hdigit, if_pos hb, hfirst,
      hindex, hstep]
    simp only [Option.orElse_some, List.length_append, List.length_cons, List.length_nil,
      NonzeroScan.mk.injEq, Option.some.injEq, true_and]
    omega

/-- The coefficient is not touched by digits outside its window. -/
theorem foldlM_pushDigit_outside (hl : ∀ b ∈ l, isAsciiDigit b = true) (magnitude current : ℕ)
    (hout : current + l.length ≤ first ∨ last < current) :
    l.foldlM (pushDigit first last) (magnitude, current) =
      some (magnitude, current + l.length) := by
  induction l generalizing current with
  | nil => rfl
  | cons b rest ih =>
    have hpoint : b ≠ 46 := by
      rintro rfl
      exact absurd (hl 46 (by simp)) (by decide)
    rw [List.length_cons] at hout
    have hstep : pushDigit first last (magnitude, current) b = some (magnitude, current + 1) := by
      rw [pushDigit, if_neg hpoint, if_neg]
      show ¬ (first ≤ current ∧ current ≤ last)
      omega
    rw [List.foldlM_cons, hstep]
    refine (ih (fun b hb => hl b (by simp [hb])) (current + 1) (by omega)).trans ?_
    rw [List.length_cons]
    congr 2
    omega

/-- One more digit of a coefficient is added exactly or does not fit in 128 bits. -/
theorem pushDigit_inside {current : ℕ} {b : UInt8} (hb : b ≠ 46)
    (hin : first ≤ current ∧ current ≤ last) :
    pushDigit first last (magnitude, current) b =
      if magnitude * 10 + digit b < 2 ^ 128 then some (magnitude * 10 + digit b, current + 1)
      else none := by
  rw [pushDigit, if_neg hb, if_pos hin]
  by_cases hten : magnitude * 10 < 2 ^ 128
  · rw [checkedMul, if_pos hten, Option.bind_eq_bind, Option.bind_some, checkedAdd]
    split <;> rfl
  · rw [checkedMul, if_neg hten, if_neg (by omega)]
    rfl

/-- The digits in the window are read exactly or do not fit in 128 bits. -/
theorem foldlM_pushDigit_inside (hl : ∀ b ∈ l, isAsciiDigit b = true) {current : ℕ}
    (hfits : magnitude < 2 ^ 128) (hfirst : first ≤ current)
    (hlast : current + l.length ≤ last + 1) :
    l.foldlM (pushDigit first last) (magnitude, current) =
      if magnitude * 10 ^ l.length + digitsValue l < 2 ^ 128 then
        some (magnitude * 10 ^ l.length + digitsValue l, current + l.length)
      else none := by
  induction l generalizing magnitude current with
  | nil =>
    rw [List.length_nil, pow_zero, Nat.mul_one, digitsValue_nil, Nat.add_zero, if_pos hfits]
    rfl
  | cons b rest ih =>
    have hpoint : b ≠ 46 := by
      rintro rfl
      exact absurd (hl 46 (by simp)) (by decide)
    rw [List.length_cons] at hlast
    have hvalue : magnitude * 10 ^ (b :: rest).length + digitsValue (b :: rest) =
        (magnitude * 10 + digit b) * 10 ^ rest.length + digitsValue rest := by
      rw [digitsValue_cons, List.length_cons, pow_succ]
      ring
    rw [List.foldlM_cons, pushDigit_inside hpoint ⟨hfirst, by omega⟩, hvalue]
    by_cases hstep : magnitude * 10 + digit b < 2 ^ 128
    · rw [if_pos hstep]
      refine (ih (fun b hb => hl b (by simp [hb])) hstep (by omega) (by omega)).trans ?_
      rw [List.length_cons, show current + 1 + rest.length = current + (rest.length + 1) by omega]
    · rw [if_neg hstep, if_neg]
      · rfl
      · have hpow : 1 ≤ 10 ^ rest.length := Nat.one_le_pow _ _ (by norm_num)
        have hle := Nat.le_mul_of_pos_right (magnitude * 10 + digit b) hpow
        omega

/-- A magnitude with its sign. -/
def signed (negative : Bool) (magnitude : ℕ) : ℤ :=
  if negative then -(magnitude : ℤ) else magnitude

theorem fitsSigned_128 {x : ℤ} : FitsSigned 128 x ↔
    -170141183460469231731687303715884105728 ≤ x ∧
      x < 170141183460469231731687303715884105728 := by
  norm_num [FitsSigned]

theorem signedCoefficient_eq_some {negative : Bool} {c : ℤ} :
    signedCoefficient negative magnitude = some c ↔
      FitsSigned 128 (signed negative magnitude) ∧ c = signed negative magnitude := by
  unfold signedCoefficient signed
  cases negative with
  | false =>
    rw [if_neg Bool.false_ne_true, if_neg Bool.false_ne_true]
    exact checkedSigned_eq_some
  | true =>
    simp only [if_true]
    by_cases hmin : magnitude = 2 ^ 127
    · rw [if_pos hmin, hmin, fitsSigned_128]
      norm_num
      exact eq_comm
    · rw [if_neg hmin]
      simp only [Option.bind_eq_bind, Option.bind_eq_some_iff, checkedSigned_eq_some,
        fitsSigned_128]
      constructor
      · rintro ⟨_, ⟨-, rfl⟩, hfits, rfl⟩
        exact ⟨hfits, rfl⟩
      · rintro ⟨hfits, rfl⟩
        refine ⟨magnitude, ⟨?_, rfl⟩, hfits, rfl⟩
        omega

/-- The exponent of a scanned text, if it fits in 32 bits. -/
theorem exponent_eq_some {explicit e : ℤ} {fraction trailing : ℕ} :
    ((checkedSigned 32 (explicit - fraction)).bind fun n => checkedSigned 32 (n + trailing)) =
      some e ↔ FitsSigned 32 (explicit - fraction) ∧
        FitsSigned 32 (explicit - fraction + trailing) ∧ e = explicit - fraction + trailing := by
  simp only [Option.bind_eq_some_iff, checkedSigned_eq_some]
  constructor
  · rintro ⟨_, ⟨hfirst, rfl⟩, hsecond, rfl⟩
    exact ⟨hfirst, hsecond, rfl⟩
  · rintro ⟨hfirst, hsecond, rfl⟩
    exact ⟨_, ⟨hfirst, rfl⟩, hsecond, rfl⟩

theorem int16_bounds (e : Int16) : -32768 ≤ e.toInt ∧ e.toInt ≤ 32767 := by
  have hlower := Int16.le_toInt e
  have hupper := Int16.toInt_lt e
  omega

variable {negative : Bool} {mantissa : List UInt8} {fraction : ℕ} {explicit : ℤ}
  {maximumSignificantDigits : ℕ} {maximumExponent : Int16} {d : Decimal}

/-- A mantissa of zeros is zero. -/
theorem ofMantissa_zero {n : ℕ} (h : mantissa.filter (· ≠ 46) = List.replicate n 48) :
    ofMantissa negative mantissa fraction explicit maximumSignificantDigits maximumExponent =
      .ok d → d = zero := by
  intro hok
  unfold ofMantissa at hok
  rw [foldl_push_filter, h, foldl_push_replicate] at hok
  obtain ⟨-, hd⟩ := check_bind_eq_ok.mp hok
  cases hd
  rfl

/-- Zeros are digits. -/
theorem isAsciiDigit_zeros (k : ℕ) :
    ∀ b ∈ List.replicate k (48 : UInt8), isAsciiDigit b = true := by
  intro b hb
  rw [(List.mem_replicate.mp hb).2]
  rfl

/-- A mantissa is read as its significant digits. -/
theorem ofMantissa_significant {m n : ℕ} {s : List UInt8} (hs : Significant s)
    (h : mantissa.filter (· ≠ 46) = List.replicate m 48 ++ s ++ List.replicate n 48)
    (hn : n ≤ maxDecimalBytes) :
    ofMantissa negative mantissa fraction explicit maximumSignificantDigits maximumExponent =
        .ok d ↔
      d = ⟨signed negative (digitsValue s), explicit - fraction + n⟩ ∧
        d.Within maximumSignificantDigits maximumExponent := by
  have hlength : 1 ≤ s.length := by
    obtain ⟨b, t, rfl, -⟩ := hs.first
    simp
  -- the scan finds the window of the significant digits
  have hscan : mantissa.foldl NonzeroScan.push ⟨none, none, 0⟩ =
      ⟨some m, some (m + (s.length - 1)), m + s.length + n⟩ := by
    have hfront := foldl_push_replicate m ⟨none, none, 0⟩
    rw [Nat.zero_add] at hfront
    rw [foldl_push_filter, h, List.foldl_append, List.foldl_append, hfront,
      foldl_push_significant hs, foldl_push_replicate]
  have hfold : mantissa.foldlM (pushDigit m (m + (s.length - 1))) (0, 0) =
      if digitsValue s < 2 ^ 128 then some (digitsValue s, m + s.length + n) else none := by
    rw [foldlM_pushDigit_filter, h, List.foldlM_append, List.foldlM_append,
      foldlM_pushDigit_outside (isAsciiDigit_zeros m) 0 0 (by simp), List.length_replicate,
      Nat.zero_add, Option.bind_eq_bind, Option.bind_some,
      foldlM_pushDigit_inside hs.digits (by norm_num) le_rfl (by omega), Nat.zero_mul, Nat.zero_add]
    split
    · rw [Option.bind_some, foldlM_pushDigit_outside (isAsciiDigit_zeros n) _ _ (.inr (by omega)),
        List.length_replicate]
    · rfl
  have hdigits : (Nat.digits 10 (signed negative (digitsValue s)).natAbs).length = s.length := by
    obtain ⟨b, t, rfl, hb⟩ := hs.first
    have habs : (signed negative (digitsValue (b :: t))).natAbs = digitsValue (b :: t) := by
      unfold signed
      split <;> simp
    rw [habs]
    exact length_digits hs.digits hb
  have htrailing : m + s.length + n - (m + (s.length - 1)) - 1 = n := by omega
  have hwindow : m + (s.length - 1) - m + 1 = s.length := by omega
  unfold ofMantissa
  simp only [hscan, hfold, htrailing, hwindow]
  rw [check_bind_eq_ok]
  constructor
  · rintro ⟨hcount, hok⟩
    by_cases hfits : digitsValue s < 2 ^ 128
    · simp only [if_pos hfits] at hok
      cases hcoefficient : signedCoefficient negative (digitsValue s) with
      | none => simp [hcoefficient] at hok
      | some c =>
        simp only [hcoefficient] at hok
        obtain ⟨hc, rfl⟩ := signedCoefficient_eq_some.mp hcoefficient
        cases hexponent : (checkedSigned 32 (explicit - fraction)).bind fun k =>
            checkedSigned 32 (k + n) with
        | none => simp [hexponent] at hok
        | some e =>
          simp only [hexponent] at hok
          obtain ⟨-, -, rfl⟩ := exponent_eq_some.mp hexponent
          obtain ⟨⟨hlower, hupper⟩, hd⟩ := check_bind_eq_ok.mp hok
          cases hd
          exact ⟨rfl, hc, hdigits.trans_le hcount, hlower, hupper⟩
    · simp only [if_neg hfits] at hok
      cases hok
  · rintro ⟨rfl, hcoefficient, hcount, hlower, hupper⟩
    replace hcoefficient : FitsSigned 128 (signed negative (digitsValue s)) := hcoefficient
    replace hlower : -maximumExponent.toInt ≤ explicit - fraction + n := hlower
    replace hupper : explicit - fraction + n ≤ maximumExponent.toInt := hupper
    refine ⟨hdigits.symm.trans_le hcount, ?_⟩
    have hfits : digitsValue s < 2 ^ 128 := by
      have hfits := fitsSigned_128.mp hcoefficient
      unfold signed at hfits
      split at hfits <;> omega
    have hbounds := int16_bounds maximumExponent
    rw [maxDecimalBytes] at hn
    have hfirst : FitsSigned 32 (explicit - fraction) := by
      rw [Numeral.fitsSigned_32]
      omega
    have hsecond : FitsSigned 32 (explicit - fraction + n) := by
      rw [Numeral.fitsSigned_32]
      omega
    simp only [if_pos hfits, signedCoefficient_eq_some.mpr ⟨hcoefficient, rfl⟩,
      exponent_eq_some.mpr ⟨hfirst, hsecond, rfl⟩]
    exact check_bind_of ⟨hlower, hupper⟩

end Decimal

/-! ## Numerals -/

namespace Numeral

variable (n : Numeral)

theorem digits_digits : ∀ b ∈ n.digits, isAsciiDigit b = true := by
  intro b hb
  rw [digits, fractionDigits, List.mem_append] at hb
  obtain hb | hb := hb
  · exact n.integer.digits b hb
  · cases hfraction : n.fraction with
    | none => simp [hfraction] at hb
    | some fraction =>
      rw [hfraction, Option.elim_some] at hb
      exact fraction.digits b hb

/-- A mantissa without its point. -/
theorem filter_mantissa : (n.integer.bytes ++ n.fractionText).filter (· ≠ 46) = n.digits := by
  have hkeep : ∀ l : List UInt8, (∀ b ∈ l, isAsciiDigit b = true) →
      l.filter (· ≠ 46) = l := by
    intro l hl
    refine List.filter_eq_self.mpr fun b hb => decide_eq_true ?_
    rintro rfl
    exact absurd (hl 46 hb) (by decide)
  rw [List.filter_append, hkeep _ n.integer.digits, digits, fractionText, fractionDigits]
  cases n.fraction with
  | none => rfl
  | some fraction =>
    rw [Option.elim_some, Option.elim_some, List.filter_cons_of_neg (by simp),
      hkeep _ fraction.digits]

theorem length_digits_le : n.digits.length ≤ n.text.length := by
  have hbody : n.digits.length ≤ n.body.length := by
    unfold digits body fractionDigits fractionText
    cases n.fraction <;> simp
    omega
  unfold text
  split
  · exact hbody.trans (Nat.le_succ _)
  · exact hbody

/-- A numeral that does not denote zero has a digit other than zero. -/
theorem exists_nonzero (h : n.value ≠ 0) : ∃ b ∈ n.digits, b ≠ 48 := by
  by_contra hzeros
  push Not at hzeros
  refine h ?_
  rw [value, List.eq_replicate_of_mem hzeros, digitsValue_replicate]
  simp

/-- The normal form of a numeral with a digit other than zero. -/
theorem exists_normal (h : ∃ b ∈ n.digits, b ≠ 48) :
    ∃ (m k : ℕ) (s : List UInt8), Decimal.Significant s ∧
      n.digits = List.replicate m 48 ++ s ++ List.replicate k 48 ∧
      ¬ (10 : ℤ) ∣ Decimal.signed n.negative (digitsValue s) ∧
      Decimal.value ⟨Decimal.signed n.negative (digitsValue s),
        n.explicitExponent - n.fractionDigits.length + k⟩ = n.value := by
  obtain ⟨m, k, s, hdigits, hfirst, hlast⟩ := exists_trimmed h
  have hs : ∀ b ∈ s, isAsciiDigit b = true := by
    intro b hb
    exact n.digits_digits b (by simp [hdigits, hb])
  refine ⟨m, k, s, ⟨hs, hfirst, hlast⟩, hdigits, ?_, ?_⟩
  · obtain ⟨t, b, rfl, hb⟩ := hlast
    have hdvd := not_dvd_digitsValue (l := t) (hs b (by simp)) hb
    unfold Decimal.signed
    split <;> omega
  · have hvalue : digitsValue n.digits = digitsValue s * 10 ^ k := by
      rw [hdigits, digitsValue_append, digitsValue_append, digitsValue_replicate,
        digitsValue_replicate, List.length_replicate, Nat.zero_mul, Nat.zero_add, Nat.add_zero]
    unfold value Decimal.value Decimal.signed
    rw [hvalue, zpow_add₀ (by norm_num), zpow_natCast]
    split
    · push_cast
      ring
    · push_cast
      ring

/-- A numeral that does not denote zero is read as its normal form, if that is in bounds. -/
theorem parseBounded_nonzero {maximumSignificantDigits : ℕ} {maximumExponent : Int16}
    (hlength : n.text.length ≤ maxDecimalBytes) (hvalue : n.value ≠ 0) :
    Decimal.parseBounded n.text maximumSignificantDigits maximumExponent = .ok d ↔
      ¬ 10 ∣ d.coefficient ∧ d.value = n.value ∧
        d.Within maximumSignificantDigits maximumExponent := by
  obtain ⟨m, k, s, hs, hdigits, hdvd, hnormal⟩ := n.exists_normal (n.exists_nonzero hvalue)
  have hk : k ≤ maxDecimalBytes := by
    have hle := n.length_digits_le
    rw [hdigits] at hle
    simp only [List.length_append, List.length_replicate] at hle
    omega
  rw [n.parseBounded_text _ _ hlength]
  constructor
  · intro hok
    split at hok
    · obtain ⟨rfl, hwithin⟩ :=
        (Decimal.ofMantissa_significant hs (n.filter_mantissa.trans hdigits) hk).mp hok
      exact ⟨hdvd, hnormal, hwithin⟩
    · cases hok
  · rintro ⟨hd, heq, hwithin⟩
    obtain rfl := Decimal.eq_of_value hd hdvd (heq.trans hnormal.symm)
    rw [if_pos]
    · exact (Decimal.ofMantissa_significant hs (n.filter_mantissa.trans hdigits) hk).mpr
        ⟨rfl, hwithin⟩
    · have hlower := hwithin.lower
      have hupper := hwithin.upper
      have hbounds := Decimal.int16_bounds maximumExponent
      have hle := n.length_digits_le
      rw [digits, List.length_append] at hle
      rw [maxDecimalBytes] at hk hlength
      show n.explicitExponent.natAbs < 2 ^ 31
      simp only at hlower hupper
      omega

/-- A numeral that denotes zero is read as zero. -/
theorem parseBounded_zero {maximumSignificantDigits : ℕ} {maximumExponent : Int16}
    (hvalue : n.value = 0)
    (hok : Decimal.parseBounded n.text maximumSignificantDigits maximumExponent = .ok d) :
    d = .zero := by
  have hzeros : ∀ b ∈ n.digits, b = 48 := by
    by_contra hnonzero
    push Not at hnonzero
    obtain ⟨m, k, s, -, -, hdvd, hnormal⟩ := n.exists_normal hnonzero
    rw [hvalue, Decimal.value, mul_eq_zero, Int.cast_eq_zero] at hnormal
    obtain hzero | hpow := hnormal
    · replace hzero : Decimal.signed n.negative (digitsValue s) = 0 := hzero
      rw [hzero] at hdvd
      exact hdvd (dvd_zero 10)
    · exact absurd hpow (zpow_ne_zero _ (by norm_num))
  obtain ⟨⟨-, hlength⟩, -⟩ := check_bind_eq_ok.mp hok
  rw [n.parseBounded_text _ _ hlength] at hok
  split at hok
  · exact Decimal.ofMantissa_zero (n.filter_mantissa.trans (List.eq_replicate_of_mem hzeros)) hok
  · cases hok

end Numeral

/-! ## Written texts -/

namespace Decimal

/-- The byte of a digit. -/
def digitByte (d : ℕ) : UInt8 := UInt8.ofNat (48 + d)

theorem isAsciiDigit_digitByte {d : ℕ} (h : d < 10) : isAsciiDigit (digitByte d) = true := by
  rw [isAsciiDigit_iff, digitByte, UInt8.toNat_ofNat']
  omega

theorem digit_digitByte {d : ℕ} (h : d < 10) : digit (digitByte d) = d := by
  rw [digit, digitByte, UInt8.toNat_ofNat']
  omega

/-- The digits of a magnitude are written if there are places for all of them. -/
theorem writeDigits_eq {places : ℕ} (h : magnitude < 10 ^ places) (l : List UInt8) :
    writeDigits places magnitude l = (Nat.digits 10 magnitude).reverse.map digitByte ++ l := by
  induction places generalizing magnitude l with
  | zero =>
    obtain rfl : magnitude = 0 := by simpa using h
    simp [writeDigits]
  | succ places ih =>
    by_cases hzero : magnitude = 0
    · simp [writeDigits, hzero]
    · have hdigits := Nat.digits_def' (by norm_num : 1 < 10) (Nat.pos_of_ne_zero hzero)
      rw [writeDigits, if_neg hzero, ih (by rw [pow_succ] at h; omega), hdigits,
        List.reverse_cons, List.map_append, List.append_assoc]
      rfl

/-- Digits, least significant first, written the other way round. -/
theorem digitsValue_reverse {l : List ℕ} (h : ∀ d ∈ l, d < 10) :
    digitsValue (l.reverse.map digitByte) = Nat.ofDigits 10 l := by
  induction l with
  | nil => rfl
  | cons d rest ih =>
    rw [List.reverse_cons, List.map_append, List.map_singleton, digitsValue_concat,
      ih fun d hd => h d (by simp [hd]), digit_digitByte (h d (by simp)), Nat.ofDigits_cons]
    omega

/-- The digits that are written for a magnitude. -/
def magnitudeDigits (magnitude : ℕ) : List UInt8 := (Nat.digits 10 magnitude).reverse.map digitByte

theorem magnitudeDigits_digits (magnitude : ℕ) :
    ∀ b ∈ magnitudeDigits magnitude, isAsciiDigit b = true := by
  intro b hb
  simp only [magnitudeDigits, List.mem_map, List.mem_reverse] at hb
  obtain ⟨d, hd, rfl⟩ := hb
  exact isAsciiDigit_digitByte (Nat.digits_lt_base (by norm_num) hd)

theorem digitsValue_magnitudeDigits (magnitude : ℕ) :
    digitsValue (magnitudeDigits magnitude) = magnitude := by
  rw [magnitudeDigits, digitsValue_reverse fun d hd => Nat.digits_lt_base (by norm_num) hd,
    Nat.ofDigits_digits]

theorem length_magnitudeDigits (magnitude : ℕ) :
    (magnitudeDigits magnitude).length = (Nat.digits 10 magnitude).length := by
  simp [magnitudeDigits]

theorem magnitudeDigits_ne_nil (h : magnitude ≠ 0) : magnitudeDigits magnitude ≠ [] := by
  simp [magnitudeDigits, Nat.digits_ne_nil_iff_ne_zero.mpr h]

/-- The text that is written. -/
def text (d : Decimal) : List UInt8 := d.writeTo.flatten

/-- The text without its sign: whole, with a point among the digits, or with zeros after the
point. -/
def plainText (digits : List UInt8) (exponent : ℤ) : List UInt8 :=
  if 0 ≤ exponent then digits ++ List.replicate exponent.toNat 48
  else if exponent.natAbs < digits.length then
    digits.take (digits.length - exponent.natAbs) ++
      46 :: digits.drop (digits.length - exponent.natAbs)
  else 48 :: 46 :: (List.replicate (exponent.natAbs - digits.length) 48 ++ digits)

theorem text_of_ne_zero (hd : d.coefficient ≠ 0) (hfits : FitsSigned 128 d.coefficient) :
    d.text = (if d.coefficient < 0 then [45] else []) ++
      plainText (magnitudeDigits d.coefficient.natAbs) d.exponent := by
  have hlt : d.coefficient.natAbs < 10 ^ 39 := by
    have := fitsSigned_128.mp hfits
    omega
  have hdigits : writeDigits 39 d.coefficient.natAbs [] =
      magnitudeDigits d.coefficient.natAbs := by
    rw [writeDigits_eq hlt, List.append_nil]
    rfl
  have hsign : ∀ rest : List (List UInt8),
      ((if d.coefficient < 0 then [[45]] else []) ++ rest).flatten =
        (if d.coefficient < 0 then [45] else []) ++ rest.flatten := by
    intro rest
    split <;> rfl
  rw [text, writeTo, if_neg hd, hdigits]
  unfold plainText
  dsimp only
  split
  · rw [List.append_assoc, hsign, List.flatten_append, List.flatten_replicate_singleton]
    simp
  · split
    · rw [hsign]
      simp
    · rw [List.append_assoc, List.append_assoc, hsign, List.flatten_append, List.flatten_append,
        List.flatten_replicate_singleton]
      simp

/-- A plain text consists of digits and perhaps a fraction that denote its number. -/
theorem exists_plainText {digits : List UInt8} (hne : digits ≠ [])
    (hdigits : ∀ b ∈ digits, isAsciiDigit b = true) (exponent : ℤ) :
    ∃ (integer : Digits) (fraction : Option Digits),
      integer.bytes ++ fraction.elim [] (fun digits => 46 :: digits.bytes) =
        plainText digits exponent ∧
      (digitsValue (integer.bytes ++ fraction.elim [] Digits.bytes) : ℚ) *
        10 ^ (-((fraction.elim [] Digits.bytes).length : ℤ)) =
          digitsValue digits * 10 ^ exponent := by
  have hall : ∀ l l' : List UInt8, (∀ b ∈ l, isAsciiDigit b = true) →
      (∀ b ∈ l', isAsciiDigit b = true) → ∀ b ∈ l ++ l', isAsciiDigit b = true := by
    intro l l' hl hl' b hb
    obtain hb | hb := List.mem_append.mp hb
    · exact hl b hb
    · exact hl' b hb
  unfold plainText
  split
  · next hexponent =>
    -- a whole number
    refine ⟨⟨_, by simp [hne], hall digits (List.replicate exponent.toNat 48) hdigits
      (isAsciiDigit_zeros _)⟩, none, by simp, ?_⟩
    have hpow : (10 : ℚ) ^ exponent = 10 ^ exponent.toNat := by
      rw [← zpow_natCast, Int.toNat_of_nonneg hexponent]
    rw [hpow]
    simp [digitsValue_append, digitsValue_replicate]
  · next hexponent =>
    have hpow : (10 : ℚ) ^ exponent = 10 ^ (-(exponent.natAbs : ℤ)) := by
      congr 1
      omega
    split
    · next hpoint =>
      -- the point stands among the digits
      have hsplit : digits.take (digits.length - exponent.natAbs) ++
          digits.drop (digits.length - exponent.natAbs) = digits := List.take_append_drop _ _
      have hlength : (digits.drop (digits.length - exponent.natAbs)).length =
          exponent.natAbs := by
        rw [List.length_drop]
        omega
      refine ⟨⟨digits.take (digits.length - exponent.natAbs), ?_,
        fun b hb => hdigits b (List.mem_of_mem_take hb)⟩,
        some ⟨digits.drop (digits.length - exponent.natAbs), ?_,
          fun b hb => hdigits b (List.mem_of_mem_drop hb)⟩, rfl, ?_⟩
      · simp only [ne_eq, List.take_eq_nil_iff, not_or]
        exact ⟨by omega, hne⟩
      · simp only [ne_eq, List.drop_eq_nil_iff]
        omega
      · simp only [Option.elim_some, hsplit, hlength, hpow]
    · next hpoint =>
      -- zeros stand between the point and the digits
      have hlength : (List.replicate (exponent.natAbs - digits.length) 48 ++ digits).length =
          exponent.natAbs := by
        rw [List.length_append, List.length_replicate]
        omega
      have hvalue : digitsValue ([48] ++
          (List.replicate (exponent.natAbs - digits.length) 48 ++ digits)) =
          digitsValue digits := by
        rw [digitsValue_append, digitsValue_append, digitsValue_replicate]
        simp [digitsValue, digit]
      refine ⟨⟨[48], by simp, isAsciiDigit_zeros 1⟩,
        some ⟨List.replicate (exponent.natAbs - digits.length) 48 ++ digits, by simp [hne],
          hall _ _ (isAsciiDigit_zeros _) hdigits⟩, rfl, ?_⟩
      simp only [Option.elim_some, hlength, hvalue, hpow]

/-- The text of a decimal other than zero is that of a numeral that denotes it. -/
theorem exists_numeral_text (hd : d.coefficient ≠ 0) (hfits : FitsSigned 128 d.coefficient) :
    ∃ n : Numeral, n.text = d.text ∧ n.value = d.value := by
  have habs : d.coefficient.natAbs ≠ 0 := Int.natAbs_ne_zero.mpr hd
  obtain ⟨integer, fraction, htext, hvalue⟩ := exists_plainText
    (magnitudeDigits_ne_nil habs) (magnitudeDigits_digits _) d.exponent
  rw [digitsValue_magnitudeDigits] at hvalue
  refine ⟨⟨decide (d.coefficient < 0), integer, fraction, none⟩, ?_, ?_⟩
  · rw [text_of_ne_zero hd hfits, ← htext]
    unfold Numeral.text Numeral.body Numeral.fractionText Numeral.exponentText
    simp only [decide_eq_true_eq, Option.elim_none, List.append_nil]
    split <;> rfl
  · unfold Numeral.value Numeral.digits Numeral.fractionDigits Numeral.explicitExponent value
    simp only [decide_eq_true_eq, Option.elim_none, zero_sub]
    rw [mul_assoc, hvalue, ← mul_assoc]
    congr 1
    rw [← Int.cast_natCast]
    split
    · rw [show ((d.coefficient.natAbs : ℕ) : ℤ) = -d.coefficient by omega]
      push_cast
      ring
    · rw [show ((d.coefficient.natAbs : ℕ) : ℤ) = d.coefficient by omega, one_mul]

/-- What is written for a normalized decimal is read back. -/
theorem parse_text (hnormal : d.Normalized) (hwithin : d.Within 39 324)
    (hlength : d.text.length ≤ maxDecimalBytes) : parse d.text = .ok d := by
  obtain rfl | hdvd := hnormal
  · rfl
  · have hd : d.coefficient ≠ 0 := by
      intro hzero
      exact hdvd (hzero ▸ dvd_zero 10)
    obtain ⟨n, htext, hvalue⟩ := exists_numeral_text hd hwithin.coefficient
    have hne : n.value ≠ 0 := by
      rw [hvalue, value]
      exact mul_ne_zero (Int.cast_ne_zero.mpr hd) (zpow_ne_zero _ (by norm_num))
    rw [← htext] at hlength ⊢
    exact (n.parseBounded_nonzero hlength hne).mpr ⟨hdvd, hvalue.symm, hwithin⟩

end Decimal

/-- A text follows the grammar of decimal texts and denotes a number. -/
def Denotes (text : List UInt8) (x : ℚ) : Prop := ∃ n : Numeral, n.text = text ∧ n.value = x

/-- Decimal texts are read exactly.  A text that denotes a number other than zero is accepted
exactly when it is not too long and the normal form of its number is in bounds, and then it is
read as that normal form; texts that denote zero are read as zero, and a text that does not follow
the grammar is not accepted.  A normalized decimal is read back from what is written for it. -/
theorem parseBounded_exact (text : List UInt8) (maximumSignificantDigits : ℕ)
    (maximumExponent : Int16) (d : Decimal) :
    (∀ x : ℚ, x ≠ 0 → Denotes text x →
      (parseBounded text maximumSignificantDigits maximumExponent = .ok d ↔
        text.length ≤ maxDecimalBytes ∧ (¬ 10 ∣ d.coefficient ∧ d.value = x) ∧
          d.Within maximumSignificantDigits maximumExponent)) ∧
    (Denotes text 0 →
      parseBounded text maximumSignificantDigits maximumExponent = .ok d → d = .zero) ∧
    (parseBounded text maximumSignificantDigits maximumExponent = .ok d →
      ∃ x, Denotes text x) ∧
    (d.Normalized → d.Within 39 324 → d.text.length ≤ maxDecimalBytes →
      parse d.text = .ok d) := by
  refine ⟨?_, ?_, ?_, parse_text⟩
  · rintro x hx ⟨n, rfl, rfl⟩
    constructor
    · intro hok
      obtain ⟨⟨-, hlength⟩, -⟩ := check_bind_eq_ok.mp hok
      obtain ⟨hdvd, hvalue, hwithin⟩ := (n.parseBounded_nonzero hlength hx).mp hok
      exact ⟨hlength, ⟨hdvd, hvalue⟩, hwithin⟩
    · rintro ⟨hlength, ⟨hdvd, hvalue⟩, hwithin⟩
      exact (n.parseBounded_nonzero hlength hx).mpr ⟨hdvd, hvalue, hwithin⟩
  · rintro ⟨n, rfl, hzero⟩ hok
    exact n.parseBounded_zero hzero hok
  · intro hok
    obtain ⟨n, rfl, -⟩ := exists_numeral hok
    exact ⟨n.value, n, rfl, rfl⟩

end Netbaiot.Codecs
