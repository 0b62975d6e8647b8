import Mathlib.Data.Nat.Digits.Lemmas
import Mathlib.Algebra.Order.BigOperators.Group.List

/-!
# Byte strings

Big-endian integers, decimal numerals and separated lists as byte strings, with the
bounds on their lengths that size accounting needs.
-/

namespace Netbaiot.Lib

/-- The big-endian bytes of a number, `width` of them. -/
def beBytes : (width n : ℕ) → List UInt8
  | 0, _ => []
  | width + 1, n => UInt8.ofNat (n / 256 ^ width) :: beBytes width n

/-- The number written by big-endian bytes. -/
def ofBeBytes (bytes : List UInt8) : ℕ := bytes.foldl (fun n b => n * 256 + b.toNat) 0

@[simp] theorem beBytes_length (width n : ℕ) : (beBytes width n).length = width := by
  induction width with
  | zero => rfl
  | succ width ih => simp [beBytes, ih]

/-- Reading the big-endian bytes of a number gives the number. -/
theorem ofBeBytes_beBytes {width n : ℕ} (h : n < 256 ^ width) :
    ofBeBytes (beBytes width n) = n := by
  have hfold : ∀ (width acc : ℕ), (beBytes width n).foldl (fun n b => n * 256 + b.toNat) acc =
      acc * 256 ^ width + n % 256 ^ width := by
    intro width
    induction width with
    | zero => simp [beBytes, Nat.mod_one]
    | succ width ih =>
      intro acc
      rw [beBytes, List.foldl_cons, ih, Nat.mod_pow_succ, UInt8.toNat_ofNat']
      ring
  rw [ofBeBytes, hfold, Nat.mod_eq_of_lt h]
  simp

/-- A number written by `n` bytes is below `256 ^ n`. -/
theorem ofBeBytes_lt (bytes : List UInt8) : ofBeBytes bytes < 256 ^ bytes.length := by
  have hfold : ∀ (bytes : List UInt8) (acc : ℕ),
      bytes.foldl (fun n b => n * 256 + b.toNat) acc < (acc + 1) * 256 ^ bytes.length := by
    intro bytes
    induction bytes with
    | nil => simp
    | cons b rest ih =>
      intro acc
      rw [List.foldl_cons, List.length_cons, pow_succ']
      have hbyte := b.toNat_lt
      calc rest.foldl (fun n b => n * 256 + b.toNat) (acc * 256 + b.toNat)
          < (acc * 256 + b.toNat + 1) * 256 ^ rest.length := ih _
        _ ≤ ((acc + 1) * 256) * 256 ^ rest.length := Nat.mul_le_mul_right _ (by omega)
        _ = (acc + 1) * (256 * 256 ^ rest.length) := by ring
  simpa [ofBeBytes] using hfold bytes 0

/-- The bytes of an ASCII text. -/
def ascii (text : String) : List UInt8 := text.toList.map fun c => UInt8.ofNat c.toNat

/-- The decimal numeral of a number. -/
def decimal (n : ℕ) : List UInt8 :=
  if n = 0 then [48] else (Nat.digits 10 n).reverse.map fun d => UInt8.ofNat (48 + d)

/-- The decimal numeral of an integer. -/
def signedDecimal (n : ℤ) : List UInt8 :=
  if n < 0 then 45 :: decimal n.natAbs else decimal n.natAbs

theorem decimal_length_le {n k : ℕ} (hk : 0 < k) (h : n < 10 ^ k) : (decimal n).length ≤ k := by
  unfold decimal
  split
  · exact hk
  · simpa using (Nat.digits_length_le_iff (by decide) n).mpr h

theorem signedDecimal_length_le {n : ℤ} {k : ℕ} (hk : 0 < k) (h : n.natAbs < 10 ^ k) :
    (signedDecimal n).length ≤ k + 1 := by
  have hdecimal := decimal_length_le hk h
  unfold signedDecimal
  split
  · simpa using hdecimal
  · omega

/-- Items with a one-byte separator between them. -/
def separated (separator : UInt8) (items : List (List UInt8)) : List UInt8 :=
  List.intercalate [separator] items

theorem separated_length_le (separator : UInt8) {items : List (List UInt8)} {k : ℕ}
    (h : ∀ item ∈ items, item.length + 1 ≤ k) :
    (separated separator items).length ≤ items.length * k := by
  induction items with
  | nil => simp [separated, List.intercalate]
  | cons item rest ih =>
    have hitem := h item (by simp)
    have hrest := ih fun item' hitem' => h item' (by simp [hitem'])
    cases rest with
    | nil =>
      simp only [separated, List.intercalate, List.intersperse_singleton, List.flatten_cons,
        List.flatten_nil, List.append_nil, List.length_cons, List.length_nil] at hrest ⊢
      omega
    | cons next others =>
      simp only [separated, List.intercalate, List.intersperse_cons_cons, List.flatten_cons,
        List.length_append, List.length_cons, List.length_nil] at hrest ⊢
      rw [Nat.succ_mul]
      omega

end Netbaiot.Lib
