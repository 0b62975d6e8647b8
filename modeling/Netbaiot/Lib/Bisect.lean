import Mathlib.Tactic.Common

/-!
# Bisection

The largest number of a range that passes a test, for a test that every smaller number passes
as well.
-/

namespace Netbaiot.Lib

/-- Halve the range above `low` in which the test may still be passed. -/
def bisect (test : ℕ → Bool) (low high : ℕ) : ℕ :=
  if low < high then
    let mid := low + (high - low + 1) / 2
    if test mid then bisect test mid high else bisect test low (mid - 1)
  else low
termination_by high - low

/-- The numbers of the range that pass the test are those up to the result. -/
theorem bisect_spec (test : ℕ → Bool) (htest : ∀ {m n}, m ≤ n → test n = true → test m = true)
    (low high : ℕ) :
    low ≤ bisect test low high ∧ bisect test low high ≤ max low high ∧
      ∀ n, low < n → n ≤ high → (test n = true ↔ n ≤ bisect test low high) := by
  fun_induction bisect test low high with
  | case1 low high hlt mid hmid ih =>
    obtain ⟨hlow, hhigh, hspec⟩ := ih
    have hrange : low < mid ∧ mid ≤ high := by omega
    refine ⟨by omega, by omega, fun n _ hn => ?_⟩
    by_cases hle : n ≤ mid
    · exact iff_of_true (htest hle hmid) (by omega)
    · exact hspec n (by omega) hn
  | case2 low high hlt mid hmid ih =>
    obtain ⟨hlow, hhigh, hspec⟩ := ih
    have hrange : low < mid ∧ mid ≤ high := by omega
    refine ⟨hlow, by omega, fun n hn _ => ?_⟩
    by_cases hle : mid ≤ n
    · exact iff_of_false (fun htrue => hmid (htest hle htrue)) (by omega)
    · exact hspec n hn (by omega)
  | case3 low high hge =>
    exact ⟨Nat.le_refl _, by omega, fun n hn hle => absurd (Nat.lt_of_lt_of_le hn hle) hge⟩

end Netbaiot.Lib
