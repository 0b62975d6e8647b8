import Netbaiot.Codecs.DecimalText
import Netbaiot.Codecs.IntegerConversion

/-!
# Scaled integers are exact

A compiled conversion maps a raw value to the text of `scale * raw + bias` and back, for the whole
range of raw values: products and sums lie between those of the ends of the range, and a text is at
most as long as the longer text of the ends (`integerConversion_exact`).
-/

namespace Netbaiot.Codecs

open Lib Decimal

variable {a c e : ℤ} {d : Decimal} {n : ℕ}

/-! ## Powers of ten and normal forms -/

theorem pow10_eq (n : ℕ) : pow10 n = if (10 : ℤ) ^ n < 2 ^ 127 then some (10 ^ n) else none := by
  induction n with
  | zero => rfl
  | succ n ih =>
    rw [pow10, ih]
    have hpos : (0 : ℤ) < 10 ^ n := by positivity
    have hsucc : (10 : ℤ) ^ (n + 1) = 10 ^ n * 10 := pow_succ _ _
    by_cases hfits : (10 : ℤ) ^ n < 2 ^ 127
    · rw [if_pos hfits, Option.bind_eq_bind, Option.bind_some, checkedSigned]
      by_cases hsucc' : (10 : ℤ) ^ (n + 1) < 2 ^ 127
      · rw [if_pos hsucc', if_pos, hsucc]
        rw [fitsSigned_128]
        omega
      · rw [if_neg hsucc', if_neg]
        rw [fitsSigned_128]
        norm_num at hsucc' ⊢
        omega
    · rw [if_neg hfits, if_neg]
      · rfl
      · omega

/-- Taking zeros from the end of a coefficient. -/
theorem normalizeLoop_eq {steps : ℕ} (hc : c ≠ 0) (hsteps : c.natAbs < 10 ^ steps)
    (hlower : -32768 ≤ e) (hupper : e + steps ≤ 32767) :
    ∃ (c' : ℤ) (k : ℕ), normalizeLoop steps c e = some ⟨c', e + k⟩ ∧ c = c' * 10 ^ k ∧
      ¬ 10 ∣ c' := by
  induction steps generalizing c e with
  | zero =>
    omega
  | succ steps ih =>
    rw [normalizeLoop]
    by_cases hdvd : c.tmod 10 = 0
    · obtain ⟨q, rfl⟩ := Int.dvd_of_tmod_eq_zero hdvd
      have hq : (10 * q).tdiv 10 = q := Int.mul_tdiv_cancel_left q (by norm_num)
      have hfits : checkedSigned 16 (e + 1) = some (e + 1) := by
        refine checkedSigned_eq_some.mpr ⟨⟨?_, ?_⟩, rfl⟩
        · omega
        · norm_num
          omega
      obtain ⟨c', k, hloop, rfl, hc'⟩ := ih (c := q) (e := e + 1) (by omega)
        (by rw [pow_succ] at hsteps; omega) (by omega) (by omega)
      refine ⟨c', k + 1, ?_, by rw [pow_succ]; ring, hc'⟩
      rw [if_pos hdvd, hfits, Option.bind_eq_bind, Option.bind_some, hq, hloop]
      congr 2
      push_cast
      ring
    · refine ⟨c, 0, by rw [if_neg hdvd]; simp, by simp, fun h => hdvd ?_⟩
      exact Int.tmod_eq_zero_of_dvd h

theorem natAbs_lt_of_fits (h : FitsSigned 128 c) : c.natAbs < 10 ^ 39 := by
  have := fitsSigned_128.mp h
  omega

/-- A decimal is a coefficient and an exponent with the zeros taken into the exponent. -/
def NormalForm (c e : ℤ) (d : Decimal) : Prop :=
  c = 0 ∧ d = .zero ∨ ∃ (c' : ℤ) (k : ℕ), d = ⟨c', e + k⟩ ∧ c = c' * 10 ^ k ∧ ¬ 10 ∣ c'

/-- A coefficient and an exponent have a normal form. -/
theorem normalize_eq (hc : FitsSigned 128 c) (hlower : -32768 ≤ e) (hupper : e + 39 ≤ 32767) :
    ∃ d : Decimal, normalize c e = some d ∧ NormalForm c e d := by
  by_cases hzero : c = 0
  · exact ⟨.zero, if_pos hzero, .inl ⟨hzero, rfl⟩⟩
  · obtain ⟨c', k, hloop, hmul, hdvd⟩ := normalizeLoop_eq hzero (natAbs_lt_of_fits hc) hlower hupper
    exact ⟨_, (if_neg hzero).trans hloop, .inr ⟨c', k, rfl, hmul, hdvd⟩⟩

namespace NormalForm

variable {c e : ℤ} {d : Decimal}

/-- A normal form denotes the same number and is normalized. -/
theorem value (h : NormalForm c e d) : d.value = c * 10 ^ e ∧ d.Normalized := by
  obtain ⟨rfl, rfl⟩ | ⟨c', k, rfl, rfl, hdvd⟩ := h
  · exact ⟨by simp [value, zero], .inl rfl⟩
  · refine ⟨?_, .inr hdvd⟩
    show (c' : ℚ) * 10 ^ (e + k) = _
    rw [zpow_add₀ (by norm_num), zpow_natCast]
    push_cast
    ring

/-- A normal form has the smaller coefficient. -/
theorem fits (h : NormalForm c e d) (hc : FitsSigned 128 c) : FitsSigned 128 d.coefficient := by
  obtain ⟨rfl, rfl⟩ | ⟨c', k, rfl, rfl, hdvd⟩ := h
  · exact hc
  · have hpow : (1 : ℤ) ≤ 10 ^ k := by
      have hpos : (0 : ℤ) < 10 ^ k := by positivity
      exact hpos
    obtain hneg | hnonneg := lt_or_ge c' 0
    · have hle : c' * 10 ^ k ≤ c' := by
        simpa using mul_le_mul_of_nonpos_left hpow hneg.le
      exact hc.between (by decide : FitsSigned 128 0) hle hneg.le
    · have hle : c' ≤ c' * 10 ^ k := le_mul_of_one_le_right hnonneg hpow
      exact (by decide : FitsSigned 128 0).between hc hnonneg hle

/-- So few zeros fit in a coefficient. -/
theorem exponent_le (h : NormalForm c e d) (hc : FitsSigned 128 c) :
    d = .zero ∨ e ≤ d.exponent ∧ d.exponent ≤ e + 38 := by
  obtain ⟨-, rfl⟩ | ⟨c', k, rfl, rfl, hdvd⟩ := h
  · exact .inl rfl
  · refine .inr ⟨by simp, ?_⟩
    have hne : c'.natAbs ≠ 0 := by
      intro hzero
      exact hdvd (Int.natAbs_eq_zero.mp hzero ▸ dvd_zero 10)
    have hlt := natAbs_lt_of_fits hc
    rw [Int.natAbs_mul, Int.natAbs_pow] at hlt
    have hpow : 10 ^ k < 10 ^ 39 := (Nat.le_mul_of_pos_left _ (Nat.pos_of_ne_zero hne)).trans_lt hlt
    have hk := (Nat.pow_lt_pow_iff_right (by norm_num)).mp hpow
    show e + k ≤ e + 38
    omega

/-- A normal form with a small exponent can be read. -/
theorem within (h : NormalForm c e d) (hc : FitsSigned 128 c) (he : -38 ≤ e ∧ e ≤ 38) :
    d.Within 39 324 := by
  have hdigits := (Nat.digits_length_le_iff (by norm_num : 1 < 10) _).mpr
    (natAbs_lt_of_fits (h.fits hc))
  have hbound : (324 : Int16).toInt = 324 := rfl
  obtain rfl | ⟨hlower, hupper⟩ := h.exponent_le hc
  · exact ⟨by decide, hdigits, by decide, by decide⟩
  · exact ⟨h.fits hc, hdigits, by omega, by omega⟩

end NormalForm

/-- Normalized decimals with the same number are the same. -/
theorem Decimal.Normalized.eq {d' : Decimal} (h : d.Normalized) (h' : d'.Normalized)
    (hvalue : d.value = d'.value) : d = d' := by
  have hzero : ∀ {d : Decimal}, d.value = 0 → ¬ 10 ∣ d.coefficient → False := by
    intro d hd hdvd
    rw [value, mul_eq_zero, Int.cast_eq_zero] at hd
    obtain hd | hd := hd
    · exact hdvd (hd ▸ dvd_zero 10)
    · exact zpow_ne_zero _ (by norm_num) hd
  have hvalueZero : zero.value = 0 := by simp [value, zero]
  obtain rfl | hdvd := h <;> obtain rfl | hdvd' := h'
  · rfl
  · exact (hzero (hvalue.symm.trans hvalueZero) hdvd').elim
  · exact (hzero (hvalue.trans hvalueZero) hdvd).elim
  · exact eq_of_value hdvd hdvd' hvalue

/-! ## Lengths -/

/-- The length of a plain text of so many digits. -/
def plainLen (digits : ℕ) (exponent : ℤ) : ℕ :=
  if 0 ≤ exponent then digits + exponent.natAbs
  else if exponent.natAbs < digits then digits + 1
  else 2 + exponent.natAbs

/-- The length of the text of a coefficient and an exponent. -/
def formattedLen (coefficient exponent : ℤ) : ℕ :=
  if coefficient = 0 then 1
  else (if coefficient < 0 then 1 else 0) +
    plainLen (Nat.digits 10 coefficient.natAbs).length exponent

theorem length_plainText {digits : List UInt8} (exponent : ℤ) :
    (Decimal.plainText digits exponent).length = plainLen digits.length exponent := by
  unfold plainText plainLen
  split
  · rw [List.length_append, List.length_replicate]
    omega
  · split
    · rw [List.length_append, List.length_cons, List.length_take, List.length_drop]
      omega
    · simp only [List.length_cons, List.length_append, List.length_replicate]
      omega

/-- More digits make a text no shorter. -/
theorem plainLen_mono {m : ℕ} (h : m ≤ n) (exponent : ℤ) :
    plainLen m exponent ≤ plainLen n exponent := by
  unfold plainLen
  split_ifs <;> omega

/-- Digits taken into the exponent make a text no longer. -/
theorem plainLen_shift (digits k : ℕ) (exponent : ℤ) :
    plainLen digits (exponent + k) ≤ plainLen (digits + k) exponent := by
  unfold plainLen
  split_ifs <;> omega

theorem length_digits_mono {m : ℕ} (h : m ≤ n) :
    (Nat.digits 10 m).length ≤ (Nat.digits 10 n).length :=
  Nat.le_length_digits_le 10 m n h

/-- A power of ten adds as many digits. -/
theorem length_digits_mul_pow (hn : n ≠ 0) (k : ℕ) :
    (Nat.digits 10 (n * 10 ^ k)).length = (Nat.digits 10 n).length + k := by
  induction k with
  | zero => simp
  | succ k ih =>
    have hpos : 0 < n * 10 ^ k := Nat.mul_pos (Nat.pos_of_ne_zero hn) (by positivity)
    rw [pow_succ, ← Nat.mul_assoc, Nat.mul_comm _ 10, Nat.digits_base_mul (by norm_num) hpos,
      List.length_cons, ih]
    omega

theorem one_le_formattedLen (c e : ℤ) : 1 ≤ formattedLen c e := by
  unfold formattedLen
  split
  · exact le_rfl
  · next hc =>
    have hdigits : 1 ≤ (Nat.digits 10 c.natAbs).length :=
      List.length_pos_iff.mpr (Nat.digits_ne_nil_iff_ne_zero.mpr (Int.natAbs_ne_zero.mpr hc))
    unfold plainLen
    split_ifs <;> omega

/-- A coefficient between two others has a text no longer than the longer of theirs. -/
theorem formattedLen_between {b : ℤ} (hab : a ≤ b) (hbc : b ≤ c) :
    formattedLen b e ≤ max (formattedLen a e) (formattedLen c e) := by
  obtain hneg | rfl | hpos := lt_trichotomy b 0
  · -- a negative one has no more digits than the lower end
    refine le_max_of_le_left ?_
    have hdigits := plainLen_mono (length_digits_mono (show b.natAbs ≤ a.natAbs by omega)) e
    unfold formattedLen
    split_ifs <;> omega
  · exact le_max_of_le_left (one_le_formattedLen a e)
  · refine le_max_of_le_right ?_
    have hdigits := plainLen_mono (length_digits_mono (show b.natAbs ≤ c.natAbs by omega)) e
    unfold formattedLen
    split_ifs <;> omega

/-- A normal form has a text no longer than the one computed before normalization. -/
theorem NormalForm.length_text_le (hc : FitsSigned 128 c) (h : NormalForm c e d) :
    d.text.length ≤ formattedLen c e := by
  have hfits := h.fits hc
  obtain ⟨rfl, rfl⟩ | ⟨c', k, rfl, rfl, hdvd⟩ := h
  · exact one_le_formattedLen 0 e
  · have hne : c' ≠ 0 := by
      rintro rfl
      exact hdvd (dvd_zero 10)
    have hpos : (0 : ℤ) < 10 ^ k := by positivity
    have habs : (c' * 10 ^ k).natAbs = c'.natAbs * 10 ^ k := by
      rw [Int.natAbs_mul, Int.natAbs_pow]
      rfl
    have hsign : c' * 10 ^ k < 0 ↔ c' < 0 := by
      simpa using mul_lt_mul_iff_of_pos_right (b := c') (c := 0) hpos
    rw [text_of_ne_zero hne hfits, List.length_append, length_plainText,
      length_magnitudeDigits, formattedLen, if_neg (mul_ne_zero hne (by positivity)), habs,
      length_digits_mul_pow (Int.natAbs_ne_zero.mpr hne)]
    simp only [hsign]
    refine Nat.add_le_add ?_ (plainLen_shift _ k e)
    split <;> rfl

namespace IntegerConversion

/-- A parameter is aligned exactly. -/
theorem align_eq_some {v : Decimal} (h : align v e = some a)
    (he : v.coefficient ≠ 0 → e ≤ v.exponent) : FitsSigned 128 a ∧ (a : ℚ) * 10 ^ e = v.value := by
  unfold align at h
  split at h
  · next hzero =>
    cases h
    refine ⟨by decide, ?_⟩
    simp [value, hzero]
  · next hne =>
    simp only [Option.bind_eq_bind, Option.bind_eq_some_iff, checkedSigned_eq_some, pow10_eq,
      Option.ite_none_right_eq_some] at h
    obtain ⟨_, ⟨-, hpower⟩, hfits, rfl⟩ := h
    refine ⟨hfits, ?_⟩
    cases hpower
    have hexponent : v.exponent = ((v.exponent - e).natAbs : ℤ) + e := by omega
    rw [value]
    conv_rhs => rw [hexponent, zpow_add₀ (by norm_num), zpow_natCast]
    push_cast
    ring

end IntegerConversion

/-- Digits are counted one by one. -/
theorem countDigits_eq_some {steps remaining digits k : ℕ} (hpos : 0 < remaining)
    (hlt : remaining < 10 ^ (steps + 1)) (h : countDigits steps remaining digits = some k) :
    k + 1 = digits + (Nat.digits 10 remaining).length := by
  induction steps generalizing remaining digits with
  | zero =>
    cases h
    rw [Nat.digits_of_lt 10 remaining (by omega) (by simpa using hlt)]
    rfl
  | succ steps ih =>
    rw [countDigits] at h
    split at h
    · next hten =>
      simp only [Option.bind_eq_bind, Option.bind_eq_some_iff, checkedAdd_eq_some] at h
      obtain ⟨_, ⟨-, rfl⟩, h⟩ := h
      have hrest := ih (by omega : 0 < remaining / 10) (by rw [pow_succ] at hlt; omega) h
      rw [Nat.digits_def' (by norm_num) hpos, List.length_cons]
      omega
    · next hten =>
      cases h
      rw [Nat.digits_of_lt 10 remaining (by omega) (by omega)]
      rfl

/-- The bound is the length of the text that is not normalized. -/
theorem formattedLenUpperBound_eq_some {length : ℕ} (hc : FitsSigned 128 c)
    (h : formattedLenUpperBound c e = some length) : length = formattedLen c e := by
  unfold formattedLenUpperBound at h
  unfold formattedLen plainLen
  by_cases hzero : c = 0
  · rw [if_pos hzero] at h ⊢
    cases h
    rfl
  · rw [if_neg hzero] at h ⊢
    rw [Option.bind_eq_bind, Option.bind_eq_some_iff] at h
    obtain ⟨digits, hdigits, h⟩ := h
    have hcount := countDigits_eq_some (Nat.pos_of_ne_zero (Int.natAbs_ne_zero.mpr hzero))
      ((natAbs_lt_of_fits hc).trans (by norm_num)) hdigits
    have hlength : (Nat.digits 10 c.natAbs).length = digits := by omega
    rw [hlength]
    generalize (if c < 0 then 1 else 0) = sign at h ⊢
    by_cases hexponent : 0 ≤ e
    · simp only [if_pos hexponent, Option.bind_eq_some_iff, checkedAdd_eq_some] at h ⊢
      omega
    · by_cases hpoint : e.natAbs < digits
      · simp only [if_neg hexponent, if_pos hpoint, Option.bind_eq_some_iff,
          checkedAdd_eq_some] at h ⊢
        omega
      · simp only [if_neg hexponent, if_neg hpoint, Option.bind_eq_some_iff,
          checkedAdd_eq_some] at h ⊢
        obtain ⟨_, ⟨-, rfl⟩, -, rfl⟩ := h
        omega

theorem maximumFormattedLen_eq_some {b : ℤ} {length : ℕ} (ha : FitsSigned 128 a)
    (hb : FitsSigned 128 b) (h : maximumFormattedLen a b e = some length) :
    length = max (formattedLen a e) (formattedLen b e) := by
  simp only [maximumFormattedLen, List.foldlM_cons, List.foldlM_nil, Option.bind_eq_bind,
    Option.bind_eq_some_iff, Option.pure_def, Option.some.injEq] at h
  obtain ⟨_, ⟨m, hm, rfl⟩, _, ⟨n, hn, rfl⟩, rfl⟩ := h
  rw [formattedLenUpperBound_eq_some ha hm, formattedLenUpperBound_eq_some hb hn, Nat.zero_max]

namespace IntegerConversion

/-! ## Compiled conversions -/

variable {scale bias : Decimal} {minimum maximum : ℤ} {fieldBytes : ℕ} {plan : IntegerConversion}

/-- A raw value at an end of the range is checked. -/
theorem endpoint_eq_ok {raw : ℤ} (h : plan.endpoint raw = .ok c) :
    FitsSigned 128 (plan.multiplier * raw) ∧ FitsSigned 128 (plan.multiplier * raw + plan.offset) ∧
      c = plan.multiplier * raw + plan.offset := by
  unfold endpoint at h
  cases hproduct : checkedSigned 128 (plan.multiplier * raw) with
  | none => simp [hproduct] at h
  | some product =>
    cases hcoefficient : plan.coefficient raw with
    | none => simp [hproduct, hcoefficient] at h
    | some coefficient =>
      simp only [hproduct, hcoefficient] at h
      cases h
      simp only [IntegerConversion.coefficient, hproduct, Option.bind_eq_bind,
        Option.bind_some] at hcoefficient
      obtain ⟨hfits, rfl⟩ := checkedSigned_eq_some.mp hproduct
      obtain ⟨hsum, rfl⟩ := checkedSigned_eq_some.mp hcoefficient
      exact ⟨hfits, hsum, rfl⟩

/-- What a compiled conversion has been checked for. -/
structure Compiled (scale bias : Decimal) (minimum maximum : ℤ) (fieldBytes : ℕ)
    (plan : IntegerConversion) : Prop where
  lower : plan.minimum = minimum
  upper : plan.maximum = maximum
  multiplier_eq : (plan.multiplier : ℚ) * 10 ^ plan.exponent = scale.value
  offset_eq : (plan.offset : ℚ) * 10 ^ plan.exponent = bias.value
  multiplier_ne : plan.multiplier ≠ 0
  exponent_bounds : -38 ≤ plan.exponent ∧ plan.exponent ≤ 38
  products : FitsSigned 128 (plan.multiplier * minimum) ∧ FitsSigned 128 (plan.multiplier * maximum)
  sums : FitsSigned 128 (plan.multiplier * minimum + plan.offset) ∧
    FitsSigned 128 (plan.multiplier * maximum + plan.offset)
  lengths : max (formattedLen (plan.multiplier * minimum + plan.offset) plan.exponent)
    (formattedLen (plan.multiplier * maximum + plan.offset) plan.exponent) ≤
      min maxDecimalBytes fieldBytes

theorem compiled (hscale : -38 ≤ scale.exponent ∧ scale.exponent ≤ 38)
    (hbias : -38 ≤ bias.exponent ∧ bias.exponent ≤ 38)
    (h : compile scale bias minimum maximum fieldBytes = .ok plan) :
    Compiled scale bias minimum maximum fieldBytes plan := by
  obtain ⟨hne, h⟩ := check_bind_eq_ok.mp h
  generalize hexponent : (if bias.coefficient = 0 then scale.exponent
    else min scale.exponent bias.exponent) = e at h
  have hle : e ≤ scale.exponent ∧ (bias.coefficient ≠ 0 → e ≤ bias.exponent) ∧ -38 ≤ e := by
    split at hexponent <;> omega
  cases hmultiplier : align scale e with
  | none => simp [hmultiplier] at h
  | some multiplier =>
    cases hoffset : align bias e with
    | none => simp [hmultiplier, hoffset] at h
    | some offset =>
      simp only [hmultiplier, hoffset] at h
      obtain ⟨first, hfirst, h⟩ := except_bind_eq_ok.mp h
      obtain ⟨second, hsecond, h⟩ := except_bind_eq_ok.mp h
      obtain ⟨hproduct, hsum, rfl⟩ := endpoint_eq_ok hfirst
      obtain ⟨hproduct', hsum', rfl⟩ := endpoint_eq_ok hsecond
      cases hlength : maximumFormattedLen (multiplier * minimum + offset)
          (multiplier * maximum + offset) e with
      | none => simp [hlength] at h
      | some length =>
        simp only [hlength] at h
        obtain ⟨hdecimal, h⟩ := check_bind_eq_ok.mp h
        obtain ⟨hfield, h⟩ := check_bind_eq_ok.mp h
        cases h
        obtain rfl := maximumFormattedLen_eq_some hsum hsum' hlength
        obtain ⟨-, hvalue⟩ := align_eq_some hmultiplier fun _ => hle.1
        obtain ⟨-, hvalue'⟩ := align_eq_some hoffset hle.2.1
        refine ⟨rfl, rfl, hvalue, hvalue', ?_, ⟨hle.2.2, hle.1.trans hscale.2⟩,
          ⟨hproduct, hproduct'⟩, ⟨hsum, hsum'⟩, le_min hdecimal hfield⟩
        rintro rfl
        rw [Int.cast_zero, zero_mul, value, eq_comm, mul_eq_zero, Int.cast_eq_zero] at hvalue
        exact hvalue.elim hne (zpow_ne_zero _ (by norm_num))

namespace Compiled

variable {raw : ℤ}

section

variable (h : Compiled scale bias minimum maximum fieldBytes plan)

include h

/-- The product and the sum of a raw value lie between those of the ends of the range. -/
theorem between (hlower : minimum ≤ raw) (hupper : raw ≤ maximum) :
    FitsSigned 128 (plan.multiplier * raw) ∧
      FitsSigned 128 (plan.multiplier * raw + plan.offset) ∧
      formattedLen (plan.multiplier * raw + plan.offset) plan.exponent ≤
        min maxDecimalBytes fieldBytes := by
  obtain ⟨hproduct, hproduct'⟩ := h.products
  obtain ⟨hsum, hsum'⟩ := h.sums
  obtain hneg | hpos := le_total plan.multiplier 0
  · have hle := mul_le_mul_of_nonpos_left hlower hneg
    have hle' := mul_le_mul_of_nonpos_left hupper hneg
    refine ⟨hproduct'.between hproduct hle' hle,
      hsum'.between hsum (by omega) (by omega), le_trans ?_ h.lengths⟩
    rw [max_comm]
    exact formattedLen_between (by omega) (by omega)
  · have hle := mul_le_mul_of_nonneg_left hlower hpos
    have hle' := mul_le_mul_of_nonneg_left hupper hpos
    refine ⟨hproduct.between hproduct' hle hle',
      hsum.between hsum' (by omega) (by omega), le_trans ?_ h.lengths⟩
    exact formattedLen_between (by omega) (by omega)

/-- The coefficient of a raw value stands for the scaled value. -/
theorem value_eq :
    ((plan.multiplier * raw + plan.offset : ℤ) : ℚ) * 10 ^ plan.exponent =
      scale.value * raw + bias.value := by
  rw [← h.multiplier_eq, ← h.offset_eq]
  push_cast
  ring

/-- The coefficient of a raw value in the range. -/
theorem coefficient_eq (hlower : minimum ≤ raw) (hupper : raw ≤ maximum) :
    plan.coefficient raw = some (plan.multiplier * raw + plan.offset) := by
  obtain ⟨hproduct, hsum, -⟩ := h.between hlower hupper
  rw [coefficient, checkedSigned_eq_some.mpr ⟨hproduct, rfl⟩, Option.bind_eq_bind,
    Option.bind_some, checkedSigned_eq_some.mpr ⟨hsum, rfl⟩]

/-- The number of a raw value in the range. -/
theorem decimal_eq (hlower : minimum ≤ raw) (hupper : raw ≤ maximum) :
    ∃ d : Decimal, plan.decimal raw = some d ∧
      NormalForm (plan.multiplier * raw + plan.offset) plan.exponent d := by
  obtain ⟨-, hsum, -⟩ := h.between hlower hupper
  obtain ⟨hexponent, hexponent'⟩ := h.exponent_bounds
  obtain ⟨d, hd, hnormal⟩ := normalize_eq hsum (by omega : -32768 ≤ plan.exponent) (by omega)
  refine ⟨d, ?_, hnormal⟩
  rw [decimal, h.coefficient_eq hlower hupper, Option.bind_eq_bind, Option.bind_some, hd]

end

end Compiled

end IntegerConversion

/-! ## Decoding -/

/-- Texts that fit the buffer together are written one after the other. -/
theorem foldlM_writeStr (pieces : List (List UInt8)) (written : List UInt8)
    (h : (written ++ pieces.flatten).length ≤ maxDecimalBytes) :
    pieces.foldlM DecimalText.writeStr written = some (written ++ pieces.flatten) := by
  induction pieces generalizing written with
  | nil => simp
  | cons piece rest ih =>
    rw [List.flatten_cons, ← List.append_assoc] at h ⊢
    rw [List.foldlM_cons, DecimalText.writeStr, if_pos]
    · exact ih (written ++ piece) h
    · simp only [List.length_append] at h
      omega

/-- A decimal whose text fits is written as a scalar that denotes it. -/
theorem intoScalar_eq (hfits : FitsSigned 128 d.coefficient) (hnormal : d.Normalized)
    (hlength : d.text.length ≤ maxDecimalBytes) :
    ∃ s : DecimalScalar, d.intoScalar = some s ∧ s.decimal = d.text ∧ Denotes d.text d.value := by
  have hnumeral : ∃ n : Numeral, n.text = d.text ∧ n.value = d.value := by
    obtain rfl | hdvd := hnormal
    · refine ⟨⟨false, ⟨[48], by simp, by simp [isAsciiDigit]⟩, none, none⟩, rfl, ?_⟩
      simp [Numeral.value, Numeral.digits, Numeral.fractionDigits, value, zero, digitsValue, digit]
    · refine exists_numeral_text ?_ hfits
      intro hzero
      exact hdvd (hzero ▸ dvd_zero 10)
  obtain ⟨n, htext, hvalue⟩ := hnumeral
  have hvalid : validDecimalText d.text = true := by
    rw [← htext] at hlength ⊢
    exact n.validDecimalText_text hlength
  refine ⟨⟨d.text, hvalid⟩, ?_, rfl, n, htext, hvalue⟩
  rw [intoScalar, foldlM_writeStr d.writeTo [] hlength]
  exact dif_pos hvalid

/-! ## Encoding -/

/-- No power of ten is the first number beyond 128 bits. -/
theorem pow_ten_ne (k : ℕ) : (10 : ℤ) ^ k ≠ 2 ^ 127 := by
  intro heq
  have hfive : (5 : ℤ) ∣ 2 ^ 127 → False := by decide
  cases k with
  | zero => norm_num at heq
  | succ k =>
    refine hfive (heq ▸ ?_)
    exact ⟨10 ^ k * 2, by ring⟩

namespace IntegerConversion

theorem divideTens_zero (steps : ℕ) : divideTens steps 0 = some 0 := by
  induction steps with
  | zero => rfl
  | succ steps ih => exact ih

namespace Compiled

variable {scale bias : Decimal} {minimum maximum : ℤ} {fieldBytes : ℕ} {plan : IntegerConversion}
  {raw : ℤ} {v : Decimal}

/-- A normalized number is brought to the exponent of the conversion if it is a multiple of it
within 128 bits. -/
theorem rescale_eq (h : Compiled scale bias minimum maximum fieldBytes plan) (hv : v.Normalized)
    (hc : FitsSigned 128 c) (hvalue : v.value = c * 10 ^ plan.exponent) :
    plan.rescale v = some c := by
  have hten : (10 : ℚ) ≠ 0 := by norm_num
  obtain ⟨hlower, hupper⟩ := h.exponent_bounds
  unfold rescale
  obtain rfl | hdvd := hv
  · -- zero has the exponent zero
    have hzero : c = 0 := by
      have hvalue : (0 : ℚ) = c * 10 ^ plan.exponent := by
        simpa [value, zero] using hvalue
      have hcast := (mul_eq_zero.mp hvalue.symm).resolve_right (zpow_ne_zero _ hten)
      exact_mod_cast hcast
    rw [hzero]
    show (if 0 ≤ 0 - plan.exponent then _ else _) = _
    split
    · have hpow : (10 : ℤ) ^ (0 - plan.exponent).toNat < 2 ^ 127 := by
        calc (10 : ℤ) ^ (0 - plan.exponent).toNat ≤ 10 ^ 38 :=
              pow_le_pow_right₀ (by norm_num) (by omega)
          _ < 2 ^ 127 := by norm_num
      show ((pow10 (0 - plan.exponent).toNat).bind fun power =>
        checkedSigned 128 (0 * power)) = some 0
      rw [pow10_eq, if_pos hpow, Option.bind_some, zero_mul]
      rfl
    · exact divideTens_zero _
  · have hne : v.coefficient ≠ 0 := by
      intro hzero
      exact hdvd (hzero ▸ dvd_zero 10)
    dsimp only
    split
    · next hdifference =>
      set n := (v.exponent - plan.exponent).toNat with hn
      have hexponent : v.exponent = (n : ℤ) + plan.exponent := by omega
      have hmul : c = v.coefficient * 10 ^ n := by
        rw [value, hexponent, zpow_add₀ hten, zpow_natCast, ← mul_assoc] at hvalue
        have hcancel := mul_right_cancel₀ (zpow_ne_zero _ hten) hvalue
        exact_mod_cast hcancel.symm
      have hpos : (0 : ℤ) < 10 ^ n := by positivity
      have hpow : (10 : ℤ) ^ n < 2 ^ 127 := by
        have hle : (10 : ℤ) ^ n ≤ 2 ^ 127 := by
          have hbounds := fitsSigned_128.mp hc
          obtain hneg | hpos' := lt_or_gt_of_ne hne
          · have hle := mul_le_mul_of_nonneg_right (show v.coefficient ≤ -1 by omega) hpos.le
            omega
          · have hle := mul_le_mul_of_nonneg_right (show 1 ≤ v.coefficient by omega) hpos.le
            norm_num
            omega
        exact lt_of_le_of_ne hle (pow_ten_ne n)
      rw [pow10_eq, if_pos hpow, Option.bind_eq_bind, Option.bind_some, ← hmul]
      exact checkedSigned_eq_some.mpr ⟨hc, rfl⟩
    · next hdifference =>
      -- a smaller exponent would make the coefficient a multiple of ten
      exfalso
      obtain ⟨n, hn⟩ := Int.eq_ofNat_of_zero_le (show 0 ≤ plan.exponent - v.exponent - 1 by omega)
      have hexponent : plan.exponent = ((n + 1 : ℕ) : ℤ) + v.exponent := by
        omega
      rw [value, hexponent, zpow_add₀ hten, zpow_natCast, ← mul_assoc] at hvalue
      have hcancel := mul_right_cancel₀ (zpow_ne_zero _ hten) hvalue
      have hmul : v.coefficient = c * 10 ^ (n + 1) := by exact_mod_cast hcancel
      exact hdvd ⟨c * 10 ^ n, by rw [hmul, pow_succ]; ring⟩

/-- The raw value of a normalized number is the one that the number stands for. -/
theorem invert_eq_some (h : Compiled scale bias minimum maximum fieldBytes plan)
    (hmaximum : FitsSigned 128 maximum) (hv : v.Normalized) :
    plan.invert v = some raw ↔
      (minimum ≤ raw ∧ raw ≤ maximum) ∧ v.value = scale.value * raw + bias.value := by
  have hguard : ∀ {raw : ℤ}, minimum ≤ raw → raw ≤ maximum →
      (plan.decimal raw = some v ↔ v.value = scale.value * raw + bias.value) := by
    intro raw hlower hupper
    obtain ⟨d, hd, hnormal⟩ := h.decimal_eq hlower hupper
    obtain ⟨hvalue, hnormalized⟩ := hnormal.value
    rw [h.value_eq] at hvalue
    rw [hd, Option.some.injEq]
    constructor
    · rintro rfl
      exact hvalue
    · intro heq
      exact hnormalized.eq hv (hvalue.trans heq.symm)
  constructor
  · intro hinvert
    simp only [invert, Option.bind_eq_bind, Option.bind_eq_some_iff, Option.guard_eq_some',
      h.lower, h.upper, Option.pure_def, Option.some.injEq] at hinvert
    obtain ⟨_, -, _, -, _, -, _, -, _, ⟨⟨hlower, hupper⟩, hdecimal⟩, rfl⟩ := hinvert
    exact ⟨⟨hlower, hupper⟩, (hguard hlower hupper).mp hdecimal⟩
  · rintro ⟨⟨hlower, hupper⟩, hvalue⟩
    obtain ⟨hproduct, hsum, -⟩ := h.between hlower hupper
    have hrescale : plan.rescale v = some (plan.multiplier * raw + plan.offset) :=
      h.rescale_eq hv hsum (hvalue.trans h.value_eq.symm)
    have hnumerator : checkedSigned 128 (plan.multiplier * raw) = some (plan.multiplier * raw) :=
      checkedSigned_eq_some.mpr ⟨hproduct, rfl⟩
    -- the one quotient that does not exist belongs to no raw value of 128 bits
    have hquotient : ¬ (plan.multiplier = 0 ∨
        (plan.multiplier * raw = -2 ^ 127 ∧ plan.multiplier = -1)) := by
      rintro (hzero | ⟨hmin, hminus⟩)
      · exact h.multiplier_ne hzero
      · rw [hminus] at hmin
        have hbounds := fitsSigned_128.mp hmaximum
        omega
    have hrem : checkedRem128 (plan.multiplier * raw) plan.multiplier = some 0 := by
      rw [checkedRem128, if_neg hquotient, Int.mul_tmod_right]
    have hdiv : checkedDiv128 (plan.multiplier * raw) plan.multiplier = some raw := by
      rw [checkedDiv128, if_neg hquotient, Int.mul_tdiv_cancel_left raw h.multiplier_ne]
    have hdecimal := (hguard hlower hupper).mpr hvalue
    simp [invert, hrescale, hnumerator, hrem, hdiv, hdecimal, h.lower, h.upper, hlower, hupper]

end Compiled

end IntegerConversion

/-! ## The two directions -/

/-- What is read from a text has the number the text denotes and is normalized. -/
theorem value_of_parseBounded {text : List UInt8} {maximumSignificantDigits : ℕ}
    {maximumExponent : Int16}
    (h : Decimal.parseBounded text maximumSignificantDigits maximumExponent = .ok d) {x : ℚ}
    (hx : Denotes text x) : d.value = x ∧ d.Normalized := by
  obtain ⟨n, rfl, rfl⟩ := hx
  obtain ⟨⟨-, hlength⟩, -⟩ := check_bind_eq_ok.mp h
  by_cases hzero : n.value = 0
  · obtain rfl := n.parseBounded_zero hzero h
    exact ⟨by simp [value, zero, hzero], .inl rfl⟩
  · obtain ⟨hdvd, hvalue, -⟩ := (n.parseBounded_nonzero hlength hzero).mp h
    exact ⟨hvalue, .inr hdvd⟩

/-- The exponent of a parameter is in its range. -/
theorem exponent_of_parseParameter {text : List UInt8} (h : Decimal.parseParameter text = .ok d) :
    -38 ≤ d.exponent ∧ d.exponent ≤ 38 := by
  obtain ⟨n, rfl, hlength⟩ := exists_numeral h
  by_cases hzero : n.value = 0
  · obtain rfl := n.parseBounded_zero hzero h
    decide
  · obtain ⟨-, -, hwithin⟩ := (n.parseBounded_nonzero hlength hzero).mp h
    exact ⟨hwithin.lower, hwithin.upper⟩

/-- Scaled integers are exact.  For a compiled conversion, every raw value in the range is decoded
to a text within the length of a decimal and of a field that denotes exactly `scale * raw + bias`,
and a text that can be read is encoded to a raw value exactly when that is in the range and the
text denotes `scale * raw + bias`; so encoding inverts decoding.  No product or sum of a raw value
in the range leaves 128 bits. -/
theorem integerConversion_exact {scaleText biasText : List UInt8} {scale bias : Decimal}
    (hscale : Decimal.parseParameter scaleText = .ok scale)
    (hbias : Decimal.parseParameter biasText = .ok bias) {minimum maximum : ℤ}
    (hmaximum : FitsSigned 128 maximum) {fieldBytes : ℕ} {plan : IntegerConversion}
    (h : IntegerConversion.compile scale bias minimum maximum fieldBytes = .ok plan)
    {Float : Type} (shortest : Float → Option (List UInt8)) :
    (∀ raw, minimum ≤ raw → raw ≤ maximum →
      FitsSigned 128 (plan.multiplier * raw) ∧
      FitsSigned 128 (plan.multiplier * raw + plan.offset) ∧
      ∃ s, plan.decode raw = some s ∧ s.decimal.length ≤ min maxDecimalBytes fieldBytes ∧
        Denotes s.decimal (scale.value * raw + bias.value) ∧
        plan.encode shortest (.decimal s) = some raw) ∧
    ∀ text value, Decimal.parse text = .ok value → ∃ s, DecimalScalar.new text = some s ∧
      ∀ raw, plan.encode shortest (.decimal s) = some raw ↔
        (minimum ≤ raw ∧ raw ≤ maximum) ∧ Denotes text (scale.value * raw + bias.value) := by
  have hcompiled := IntegerConversion.compiled (exponent_of_parseParameter hscale)
    (exponent_of_parseParameter hbias) h
  have hencode : ∀ (s : DecimalScalar) (value : Decimal), parse s.decimal = .ok value →
      ∀ raw, plan.encode shortest (.decimal s) = some raw ↔
        (minimum ≤ raw ∧ raw ≤ maximum) ∧ Denotes s.decimal (scale.value * raw + bias.value) := by
    intro s value hparse raw
    obtain ⟨n, htext, -⟩ := exists_numeral hparse
    obtain ⟨hvalue, hnormalized⟩ := value_of_parseBounded hparse ⟨n, htext, rfl⟩
    have hinvert : plan.encode shortest (.decimal s) = plan.invert value := by
      rw [IntegerConversion.encode, IntegerConversion.number, hparse]
      rfl
    rw [hinvert, hcompiled.invert_eq_some hmaximum hnormalized]
    refine and_congr_right fun _ => ⟨fun heq => ?_, fun hdenotes => ?_⟩
    · exact ⟨n, htext, hvalue.symm.trans heq⟩
    · exact (value_of_parseBounded hparse hdenotes).1
  refine ⟨fun raw hlower hupper => ?_, fun text value hparse => ?_⟩
  · obtain ⟨hproduct, hsum, hlength⟩ := hcompiled.between hlower hupper
    obtain ⟨d, hdecimal, hnormal⟩ := hcompiled.decimal_eq hlower hupper
    obtain ⟨hvalue, hnormalized⟩ := hnormal.value
    rw [hcompiled.value_eq] at hvalue
    have htext := (hnormal.length_text_le hsum).trans hlength
    obtain ⟨s, hs, hsd, hdenotes⟩ := intoScalar_eq (hnormal.fits hsum) hnormalized
      (htext.trans (min_le_left _ _))
    rw [hvalue, ← hsd] at hdenotes
    rw [← hsd] at htext
    refine ⟨hproduct, hsum, s, ?_, htext, hdenotes, ?_⟩
    · rw [IntegerConversion.decode, hcompiled.lower, hcompiled.upper, if_pos ⟨hlower, hupper⟩,
        hdecimal]
      exact hs
    · have hwithin := hnormal.within hsum hcompiled.exponent_bounds
      refine (hencode s d ?_ raw).mpr ⟨⟨hlower, hupper⟩, hdenotes⟩
      rw [hsd]
      exact parse_text hnormalized hwithin (hsd ▸ htext.trans (min_le_left _ _))
  · obtain ⟨n, rfl, hlength⟩ := exists_numeral hparse
    exact ⟨⟨n.text, n.validDecimalText_text hlength⟩, dif_pos _, hencode _ value hparse⟩

/-- The texts of a scale and a bias. -/
def scaleText : List UInt8 := [48, 46, 49]

def biasText : List UInt8 := [48, 46, 51]

/-- A field of 16 bits in tenths, biased by three tenths. -/
def tenths : IntegerConversion := ⟨1, 3, -1, -32768, 32767⟩

/-- Tenths of 16 bits are decoded within a field of 64 bytes, and 48 tenths are 5.1. -/
theorem integerConversion_exact_tenths :
    (∃ s, tenths.decode 48 = some s ∧ s.decimal = [53, 46, 49]) ∧
    ∀ raw, -32768 ≤ raw → raw ≤ 32767 → ∃ s, tenths.decode raw = some s ∧
      s.decimal.length ≤ 64 ∧ tenths.encode (fun x : Empty => x.elim) (.decimal s) = some raw := by
  refine ⟨⟨⟨[53, 46, 49], by decide⟩, by decide +kernel, rfl⟩, fun raw hlower hupper => ?_⟩
  have hscale : parseParameter scaleText = .ok ⟨1, -1⟩ := by decide +kernel
  have hbias : parseParameter biasText = .ok ⟨3, -1⟩ := by decide +kernel
  have hcompile : IntegerConversion.compile ⟨1, -1⟩ ⟨3, -1⟩ (-32768) 32767 64 = .ok tenths := by
    decide +kernel
  obtain ⟨-, -, s, hdecode, hlength, -, hencode⟩ :=
    (integerConversion_exact hscale hbias (by decide) hcompile (fun x : Empty => x.elim)).1 raw
      hlower hupper
  exact ⟨s, hdecode, hlength, hencode⟩

end Netbaiot.Codecs
