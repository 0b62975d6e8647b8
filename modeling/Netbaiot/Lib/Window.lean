import Mathlib.Data.Nat.Notation
import Mathlib.Data.Set.Insert
import Mathlib.Order.Bounds.Basic

/-!
# Sliding bitmaps

A window of width `w` remembers the greatest number of a growing set and, in one bit
each, which of the `w` numbers up to it belong to the set.  `Shows` relates a window to
the set it stands for; marking a number shows the set with that number added, however far
the window has to slide for it.
-/

namespace Netbaiot.Lib

/-- The greatest number marked so far, and a bit for each number that close below it. -/
structure Window (w : ℕ) where
  max : ℕ
  bits : BitVec w

namespace Window

variable {w : ℕ} {window : Window w} {S : Set ℕ}

/-- The bit at a distance below the greatest number. -/
def marked (window : Window w) (delta : ℕ) : Bool := (window.bits &&& (1#w <<< delta)) != 0#w

/-- Slide the window so that a number is not above it. -/
def slide (window : Window w) (seq : ℕ) : Window w :=
  if window.max < seq then
    let delta := seq - window.max
    { max := seq, bits := if w ≤ delta then 0#w else window.bits <<< delta }
  else window

/-- Mark a number, if it is close enough to the greatest one. -/
def mark (window : Window w) (seq : ℕ) : Window w :=
  let window := window.slide seq
  let delta := window.max - seq
  if delta < w then { window with bits := window.bits ||| (1#w <<< delta) } else window

/-- The window stands for the set: it knows the greatest member, and the members among the
numbers that close below it. -/
structure Shows (window : Window w) (S : Set ℕ) : Prop where
  greatest : IsGreatest S window.max
  recent : ∀ delta, delta < w →
    (window.bits.getLsbD delta = true ↔ delta ≤ window.max ∧ window.max - delta ∈ S)

theorem getLsbD_one_shiftLeft {delta i : ℕ} (hi : i < w) :
    (1#w <<< delta).getLsbD i = decide (i = delta) := by
  rw [BitVec.getLsbD_shiftLeft, BitVec.getLsbD_one]
  by_cases heq : i = delta
  · subst heq
    simp [hi]
    omega
  · by_cases hlt : i < delta
    · simp [hlt, heq]
    · have hpos : i - delta ≠ 0 := by omega
      simp [heq, hpos]

theorem marked_eq_getLsbD {delta : ℕ} (h : delta < w) :
    window.marked delta = window.bits.getLsbD delta := by
  unfold marked
  cases hbit : window.bits.getLsbD delta with
  | true =>
    rw [bne_iff_ne]
    intro hzero
    have hget := congrArg (fun bits => bits.getLsbD delta) hzero
    simp [BitVec.getLsbD_and, getLsbD_one_shiftLeft h, hbit] at hget
  | false =>
    rw [bne_eq_false_iff_eq]
    apply BitVec.eq_of_getLsbD_eq
    intro i hi
    rw [BitVec.getLsbD_and, getLsbD_one_shiftLeft hi, BitVec.getLsbD_zero]
    by_cases heq : i = delta
    · rw [heq, hbit]
      rfl
    · simp [heq]

/-- A new window marks its first number only. -/
theorem Shows.first (seq : ℕ) (hw : 0 < w) :
    (({ max := seq, bits := 0#w } : Window w).mark seq).Shows {seq} := by
  have hmark : ({ max := seq, bits := 0#w } : Window w).mark seq = ⟨seq, 1#w <<< 0⟩ := by
    simp [mark, slide, hw]
  rw [hmark]
  refine ⟨isGreatest_singleton, fun delta hdelta => ?_⟩
  rw [getLsbD_one_shiftLeft hdelta, decide_eq_true_eq, Set.mem_singleton_iff]
  show delta = 0 ↔ delta ≤ seq ∧ seq - delta = seq
  omega

/-- Sliding towards a number above the set forgets no recent member. -/
theorem Shows.recent_slide (h : window.Shows S) {seq : ℕ} (hseq : window.max < seq) {delta : ℕ}
    (hdelta : delta < w) :
    ((window.slide seq).bits.getLsbD delta = true ↔ delta ≤ seq ∧ seq - delta ∈ S) := by
  simp only [slide, if_pos hseq]
  have hupper : ∀ n ∈ S, n ≤ window.max := fun n hn => h.greatest.2 hn
  by_cases hfar : w ≤ seq - window.max
  · -- Every number that the window now covers is above the set.
    rw [if_pos hfar, BitVec.getLsbD_zero]
    constructor
    · intro hfalse
      cases hfalse
    · rintro ⟨_, hmem⟩
      have := hupper _ hmem
      omega
  · rw [if_neg hfar, BitVec.getLsbD_shiftLeft]
    by_cases hnew : delta < seq - window.max
    · simp only [hnew, decide_true, Bool.not_true, Bool.and_false, Bool.false_and,
        Bool.false_eq_true, false_iff, not_and]
      intro _ hmem
      have := hupper _ hmem
      omega
    · have hold := h.recent (delta - (seq - window.max)) (by omega)
      have hsame : window.max - (delta - (seq - window.max)) = seq - delta := by omega
      rw [hsame] at hold
      simp only [hdelta, decide_true, hnew, decide_false, Bool.not_false, Bool.true_and, hold]
      refine and_congr_left fun _ => ?_
      omega

/-- A number that the window covers is marked exactly if it belongs to the set. -/
theorem Shows.marked_iff (h : window.Shows S) {seq : ℕ} (hle : seq ≤ window.max)
    (hclose : window.max - seq < w) : window.marked (window.max - seq) = true ↔ seq ∈ S := by
  rw [marked_eq_getLsbD hclose, h.recent _ hclose, Nat.sub_sub_self hle]
  exact and_iff_right (Nat.sub_le _ _)

/-- Sliding a window to a number shows the same recent members. -/
theorem Shows.recent_slide_le (h : window.Shows S) (seq : ℕ) {delta : ℕ} (hdelta : delta < w) :
    ((window.slide seq).bits.getLsbD delta = true ↔
      delta ≤ (window.slide seq).max ∧ (window.slide seq).max - delta ∈ S) := by
  rcases Nat.lt_or_ge window.max seq with hseq | hseq
  · rw [h.recent_slide hseq hdelta]
    simp [slide, hseq]
  · simp only [slide, Nat.not_lt.mpr hseq, if_false]
    exact h.recent delta hdelta

/-- Marking a number adds exactly that number to the set. -/
theorem Shows.mark (h : window.Shows S) (seq : ℕ) : (window.mark seq).Shows (insert seq S) := by
  have hmax : (window.slide seq).max = Max.max window.max seq := by
    unfold slide
    split <;> simp <;> omega
  have hgreatest : IsGreatest (insert seq S) (window.slide seq).max := by
    rw [hmax, max_comm]
    exact h.greatest.insert seq
  have hrecent := @h.recent_slide_le _ _ _ seq
  unfold Window.mark
  simp only
  split
  · next hclose =>
    refine ⟨hgreatest, fun delta hdelta => ?_⟩
    rw [BitVec.getLsbD_or, getLsbD_one_shiftLeft hdelta, Bool.or_eq_true, hrecent hdelta,
      Set.mem_insert_iff, decide_eq_true_eq]
    grind
  · next hfar =>
    -- A number too far below leaves no mark, and the window does not cover it.
    refine ⟨hgreatest, fun delta hdelta => ?_⟩
    rw [hrecent hdelta, Set.mem_insert_iff]
    grind

end Window

end Netbaiot.Lib
