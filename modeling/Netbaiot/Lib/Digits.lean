import Mathlib.Data.Nat.Digits.Lemmas
import Mathlib.Data.Rat.Cast.CharZero
import Mathlib.Algebra.Order.Field.Power
import Mathlib.Tactic.Ring
import Mathlib.Tactic.FieldSimp
import Mathlib.Tactic.NormNum

/-!
# Decimal digit strings

The value of a string of ASCII digits, most significant digit first, and the normal form of a
decimal number: a coefficient that is not a multiple of ten, times a power of ten
(`coefficient_unique`).
-/

namespace Netbaiot.Lib

variable {b : UInt8} {l : List UInt8}

/-- The byte of a decimal digit. -/
def isAsciiDigit (b : UInt8) : Bool := 48 ≤ b && b ≤ 57

/-- The number a digit stands for. -/
def digit (b : UInt8) : ℕ := b.toNat - 48

/-- The number a string of digits stands for. -/
def digitsValue (l : List UInt8) : ℕ := l.foldl (fun n b => 10 * n + digit b) 0

theorem isAsciiDigit_iff : isAsciiDigit b = true ↔ 48 ≤ b.toNat ∧ b.toNat ≤ 57 := by
  simp [isAsciiDigit, UInt8.le_iff_toNat_le]

theorem digit_lt (h : isAsciiDigit b = true) : digit b < 10 := by
  have := isAsciiDigit_iff.mp h
  unfold digit
  omega

/-- Only the digit zero stands for zero. -/
theorem digit_eq_zero (h : isAsciiDigit b = true) : digit b = 0 ↔ b = 48 := by
  have := isAsciiDigit_iff.mp h
  rw [← UInt8.toNat_inj, digit]
  show _ ↔ b.toNat = 48
  omega

theorem foldl_digits (n : ℕ) (l : List UInt8) :
    l.foldl (fun n b => 10 * n + digit b) n = n * 10 ^ l.length + digitsValue l := by
  unfold digitsValue
  induction l generalizing n with
  | nil => simp
  | cons b rest ih =>
    rw [List.foldl_cons, List.foldl_cons, ih, ih (10 * 0 + digit b), List.length_cons, pow_succ]
    ring

@[simp] theorem digitsValue_nil : digitsValue [] = 0 := rfl

theorem digitsValue_append (l l' : List UInt8) :
    digitsValue (l ++ l') = digitsValue l * 10 ^ l'.length + digitsValue l' := by
  rw [digitsValue, List.foldl_append]
  exact foldl_digits (digitsValue l) l'

theorem digitsValue_cons (b : UInt8) (l : List UInt8) :
    digitsValue (b :: l) = digit b * 10 ^ l.length + digitsValue l := by
  have happend := digitsValue_append [b] l
  rwa [List.singleton_append, show digitsValue [b] = digit b by simp [digitsValue]] at happend

theorem digitsValue_concat (l : List UInt8) (b : UInt8) :
    digitsValue (l ++ [b]) = 10 * digitsValue l + digit b := by
  rw [digitsValue_append, List.length_singleton, pow_one, Nat.mul_comm]
  simp [digitsValue]

/-- Zeros stand for zero. -/
theorem digitsValue_replicate (n : ℕ) : digitsValue (List.replicate n 48) = 0 := by
  induction n with
  | zero => rfl
  | succ n ih =>
    rw [List.replicate_succ, digitsValue_cons, ih]
    simp [digit]

/-- So many digits stand for less than that power of ten. -/
theorem digitsValue_lt (h : ∀ b ∈ l, isAsciiDigit b = true) : digitsValue l < 10 ^ l.length := by
  induction l with
  | nil => simp
  | cons b rest ih =>
    have hdigit := digit_lt (h b (by simp))
    have hrest := ih fun b hb => h b (by simp [hb])
    rw [digitsValue_cons, List.length_cons, pow_succ]
    calc digit b * 10 ^ rest.length + digitsValue rest
        < digit b * 10 ^ rest.length + 10 ^ rest.length := by omega
      _ = (digit b + 1) * 10 ^ rest.length := by ring
      _ ≤ 10 * 10 ^ rest.length := Nat.mul_le_mul_right _ (by omega)
      _ = 10 ^ rest.length * 10 := Nat.mul_comm _ _

/-- A string that does not begin with a zero is as long as its number has digits. -/
theorem length_digits (h : ∀ c ∈ b :: l, isAsciiDigit c = true) (hb : b ≠ 48) :
    (Nat.digits 10 (digitsValue (b :: l))).length = (b :: l).length := by
  have hlt := digitsValue_lt h
  have hpos : 1 ≤ digit b := by
    have hne := (digit_eq_zero (h b (by simp))).not.mpr hb
    omega
  have hle : 10 ^ l.length ≤ digitsValue (b :: l) := by
    rw [digitsValue_cons]
    calc 10 ^ l.length = 1 * 10 ^ l.length := (Nat.one_mul _).symm
      _ ≤ digit b * 10 ^ l.length := Nat.mul_le_mul_right _ hpos
      _ ≤ _ := Nat.le_add_right _ _
  refine le_antisymm ((Nat.digits_length_le_iff (by norm_num) _).mpr hlt) ?_
  rw [List.length_cons, Nat.succ_le_iff, Nat.lt_digits_length_iff (by norm_num)]
  exact hle

/-- A string that does not end in a zero is not a multiple of ten. -/
theorem not_dvd_digitsValue (hb : isAsciiDigit b = true) (hne : b ≠ 48) :
    ¬ 10 ∣ digitsValue (l ++ [b]) := by
  have hlt := digit_lt hb
  have hpos := (digit_eq_zero hb).not.mpr hne
  rw [digitsValue_concat]
  omega

/-- A string of bytes without the zeros in front of it. -/
theorem exists_replicate_append (l : List UInt8) :
    ∃ n s, l = List.replicate n 48 ++ s ∧ ∀ b ∈ s.head?, b ≠ 48 := by
  induction l with
  | nil => exact ⟨0, [], rfl, by simp⟩
  | cons b rest ih =>
    by_cases hb : b = 48
    · obtain ⟨n, s, rfl, hs⟩ := ih
      exact ⟨n + 1, s, by rw [hb, List.replicate_succ, List.cons_append], hs⟩
    · exact ⟨0, b :: rest, rfl, by simp [hb]⟩

/-- A string of bytes that are not all zeros, without the zeros in front of and behind it. -/
theorem exists_trimmed (h : ∃ b ∈ l, b ≠ 48) :
    ∃ m n s, l = List.replicate m 48 ++ s ++ List.replicate n 48 ∧
      (∃ b t, s = b :: t ∧ b ≠ 48) ∧ ∃ t b, s = t ++ [b] ∧ b ≠ 48 := by
  obtain ⟨m, s, rfl, hfirst⟩ := exists_replicate_append l
  obtain ⟨n, r, hreverse, hlast⟩ := exists_replicate_append s.reverse
  have hs : s = r.reverse ++ List.replicate n 48 := by
    rw [← List.reverse_reverse s, hreverse, List.reverse_append, List.reverse_replicate]
  cases hr : r with
  | nil =>
    obtain ⟨b, hb, hne⟩ := h
    rw [hs, hr] at hb
    simp only [List.reverse_nil, List.nil_append, List.mem_append, List.mem_replicate] at hb
    obtain ⟨-, rfl⟩ | ⟨-, rfl⟩ := hb <;> exact absurd rfl hne
  | cons b t =>
    have hb : b ≠ 48 := hlast b (by simp [hr])
    have hsplit : r.reverse = t.reverse ++ [b] := by rw [hr, List.reverse_cons]
    refine ⟨m, n, r.reverse, by rw [hs, List.append_assoc], ?_, t.reverse, b, hsplit, hb⟩
    cases hhead : r.reverse with
    | nil => simp [hsplit] at hhead
    | cons c u => exact ⟨c, u, rfl, hfirst c (by simp [hs, hhead])⟩

/-- A number has one form with a coefficient that is not a multiple of ten. -/
theorem coefficient_unique {c c' e e' : ℤ} (hc : ¬ 10 ∣ c) (hc' : ¬ 10 ∣ c')
    (h : (c : ℚ) * 10 ^ e = c' * 10 ^ e') : c = c' ∧ e = e' := by
  -- the smaller exponent can be taken out, and then the other one divides by ten
  have haux : ∀ {c c' e e' : ℤ}, ¬ 10 ∣ c → (c : ℚ) * 10 ^ e = c' * 10 ^ e' → e' ≤ e := by
    intro c c' e e' hc h
    by_contra hlt
    obtain ⟨k, hk⟩ := Int.eq_ofNat_of_zero_le (show 0 ≤ e' - e - 1 by omega)
    have hmul : c = c' * 10 ^ (k + 1) := by
      have he : e' = e + (k + 1 : ℕ) := by push_cast; omega
      rw [he, zpow_add₀ (by norm_num), zpow_natCast, mul_left_comm, mul_comm] at h
      have h' := mul_left_cancel₀ (zpow_ne_zero e (by norm_num : (10 : ℚ) ≠ 0)) h
      exact_mod_cast h'
    exact hc ⟨c' * 10 ^ k, by rw [hmul, pow_succ]; ring⟩
  have he : e = e' := le_antisymm (haux hc' h.symm) (haux hc h)
  subst he
  refine ⟨?_, rfl⟩
  have h' := mul_right_cancel₀ (zpow_ne_zero e (by norm_num : (10 : ℚ) ≠ 0)) h
  exact_mod_cast h'

end Netbaiot.Lib
