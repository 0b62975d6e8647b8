import Mathlib.Order.Defs.LinearOrder
import Mathlib.Algebra.Group.Int.Defs
import Mathlib.Algebra.Group.Nat.Defs

/-!
# Fixed-width arithmetic on natural numbers and integers

Counters of the modelled program are natural numbers and timestamps are integers.
The operations here are the checked and saturating operations of a machine word of
a given width, for the places where the program asks for them.
-/

namespace Netbaiot.Lib

/-- Unsigned addition that fails when the sum does not fit in `width` bits. -/
def checkedAdd (width a b : ℕ) : Option ℕ := if a + b < 2 ^ width then some (a + b) else none

/-- Unsigned multiplication that fails when the product does not fit in `width` bits. -/
def checkedMul (width a b : ℕ) : Option ℕ := if a * b < 2 ^ width then some (a * b) else none

/-- Unsigned addition that stops at the largest `width`-bit value. -/
def saturatingAdd (width a b : ℕ) : ℕ := min (a + b) (2 ^ width - 1)

/-- Unsigned multiplication that stops at the largest `width`-bit value. -/
def saturatingMul (width a b : ℕ) : ℕ := min (a * b) (2 ^ width - 1)

/-- The signed `width`-bit value nearest to an integer. -/
def clampSigned (width : ℕ) (x : ℤ) : ℤ :=
  max (-(2 ^ (width - 1))) (min x (2 ^ (width - 1) - 1))

/-- The signed values of `width` bits. -/
def FitsSigned (width : ℕ) (x : ℤ) : Prop := -(2 ^ (width - 1)) ≤ x ∧ x < 2 ^ (width - 1)

instance (width : ℕ) (x : ℤ) : Decidable (FitsSigned width x) :=
  inferInstanceAs (Decidable (_ ∧ _))

/-- A signed result that must fit in `width` bits. -/
def checkedSigned (width : ℕ) (x : ℤ) : Option ℤ := if FitsSigned width x then some x else none

/-- A checked result that fits is the result. -/
theorem checkedSigned_eq_some {width : ℕ} {x y : ℤ} :
    checkedSigned width x = some y ↔ FitsSigned width x ∧ y = x := by
  unfold checkedSigned
  split <;> grind

/-- What lies between two signed values of `width` bits is one. -/
theorem FitsSigned.between {width : ℕ} {x y z : ℤ} (hx : FitsSigned width x)
    (hz : FitsSigned width z) (hxy : x ≤ y) (hyz : y ≤ z) : FitsSigned width y :=
  ⟨Int.le_trans hx.1 hxy, Int.lt_of_le_of_lt hyz hz.2⟩

/-- A checked sum that fits is the sum. -/
theorem checkedAdd_eq_some {width a b c : ℕ} :
    checkedAdd width a b = some c ↔ a + b < 2 ^ width ∧ c = a + b := by
  unfold checkedAdd
  split <;> grind

/-- A checked product that fits is the product. -/
theorem checkedMul_eq_some {width a b c : ℕ} :
    checkedMul width a b = some c ↔ a * b < 2 ^ width ∧ c = a * b := by
  unfold checkedMul
  split <;> grind

/-- Signed 64-bit values are ordered as integers. -/
instance instLinearOrderInt64 : LinearOrder Int64 where
  le_refl a := Int64.le_refl a
  le_trans _ _ _ := Int64.le_trans
  le_antisymm _ _ := Int64.le_antisymm
  le_total := Int64.le_total
  lt_iff_le_not_ge _ _ := by simp only [Int64.lt_iff_toInt_lt, Int64.le_iff_toInt_le]; omega
  toDecidableLE := inferInstance
  toDecidableLT := inferInstance
  toDecidableEq := instDecidableEqInt64

/-- Unsigned 64-bit values are ordered as numbers. -/
instance instLinearOrderUInt64 : LinearOrder UInt64 where
  le_refl := UInt64.le_refl
  le_trans _ _ _ := UInt64.le_trans
  le_antisymm _ _ := UInt64.le_antisymm
  le_total := UInt64.le_total
  lt_iff_le_not_ge _ _ := by simp only [UInt64.lt_iff_toNat_lt, UInt64.le_iff_toNat_le]; omega
  toDecidableLE := inferInstance
  toDecidableLT := inferInstance
  toDecidableEq := instDecidableEqUInt64

/-- Signed 64-bit addition that stops at the extreme values. -/
def saturatingAdd64 (a b : Int64) : Int64 := Int64.ofInt (clampSigned 64 (a.toInt + b.toInt))

theorem toInt_saturatingAdd64 (a b : Int64) :
    (saturatingAdd64 a b).toInt = clampSigned 64 (a.toInt + b.toInt) := by
  apply Int64.toInt_ofInt_of_le <;> unfold clampSigned <;> omega

end Netbaiot.Lib
