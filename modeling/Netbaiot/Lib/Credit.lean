import Mathlib.Tactic.Common

/-!
# Credit-based flow control

A sender may have at most `limit` bytes more on the way than it was given credit for.  The
receiver keeps a window of what it is still ready to take.  Credit for taken bytes is first
queued, then put on the wire, where it is also noted as pending for the window of the
receiver, and at last it arrives at the sender.  A line collects these amounts for one pair
of a sender and a receiver.
-/

namespace Netbaiot.Lib

/-- The amounts of one credit line, in bytes. -/
structure CreditLine where
  limit : ℕ
  sent : ℕ
  inflight : ℕ
  window : ℕ
  queued : ℕ
  wire : ℕ
  pending : ℕ
  credit : ℕ

namespace CreditLine

variable {l : CreditLine}

/-- What the sender may still send. -/
def available (l : CreditLine) : ℕ := l.limit + l.credit - l.sent

/-- The sender stays within its limit and the credit it was given. -/
def Conforming (l : CreditLine) : Prop := l.sent ≤ l.limit + l.credit

/-- All sent bytes are on the way, or credited, or lost. -/
def Balanced (l : CreditLine) (lost : ℕ) : Prop :=
  l.inflight + l.queued + l.wire + l.credit + lost = l.sent

/-- Credit is given only for bytes that were taken. -/
def Earned (l : CreditLine) : Prop := ∃ lost, l.Balanced lost

/-- The receiver is ready for all that is on the way and all that may still be sent, but for
the credit that is not yet added to its window. -/
def Covered (l : CreditLine) : Prop :=
  l.limit + l.inflight + l.wire + l.credit ≤ l.window + l.pending + l.sent

/-- When all written credit is in the window, what is on the way fits. -/
theorem Covered.inflight_le (h : l.Covered) (hsent : l.Conforming) (hpending : l.pending = 0) :
    l.inflight ≤ l.window := by
  unfold Covered at h
  unfold Conforming at hsent
  omega

/-- A line whose window is at its limit is covered. -/
theorem Earned.covered (h : l.Earned) (hwindow : l.window = l.limit) : l.Covered := by
  obtain ⟨lost, h⟩ := h
  unfold Balanced at h
  unfold Covered
  omega

/-- What the sender may send, what is on the way and the credit that has not arrived make up
the limit, up to what was lost. -/
theorem Balanced.available {lost : ℕ} (h : l.Balanced lost) (hsent : l.Conforming) :
    l.available + l.inflight + l.queued + l.wire + lost = l.limit := by
  unfold Balanced at h
  unfold Conforming at hsent
  unfold CreditLine.available
  omega

/-- Bytes are sent. -/
def send (l : CreditLine) (n : ℕ) : CreditLine :=
  { l with sent := l.sent + n, inflight := l.inflight + n }

/-- Bytes arrive and are taken, and credit for some of them is queued. -/
def take (l : CreditLine) (n k : ℕ) : CreditLine :=
  { l with inflight := l.inflight - n, window := l.window - n, queued := l.queued + k }

/-- Bytes arrive and are not taken. -/
def drop (l : CreditLine) (n : ℕ) : CreditLine := { l with inflight := l.inflight - n }

/-- Credit is put on the wire. -/
def write (l : CreditLine) (n : ℕ) : CreditLine :=
  { l with queued := l.queued - n, wire := l.wire + n, pending := l.pending + n }

/-- Credit arrives at the sender. -/
def arrive (l : CreditLine) (n : ℕ) : CreditLine :=
  { l with wire := l.wire - n, credit := l.credit + n }

/-- Written credit is added to the window. -/
def grant (l : CreditLine) (n : ℕ) : CreditLine :=
  { l with pending := l.pending - n, window := l.window + n }

/-- What can happen on a line, with the bytes that are taken or dropped without credit. -/
inductive Move (l : CreditLine) : CreditLine → ℕ → Prop where
  | send {n : ℕ} (hn : n ≤ l.available) : Move l (l.send n) 0
  | take {n k : ℕ} (hn : n ≤ l.inflight) (hw : n ≤ l.window) (hk : k ≤ n) :
      Move l (l.take n k) (n - k)
  | drop {n : ℕ} (hn : n ≤ l.inflight) : Move l (l.drop n) n
  | write {n : ℕ} (hn : n ≤ l.queued) : Move l (l.write n) 0
  | arrive {n : ℕ} (hn : n ≤ l.wire) : Move l (l.arrive n) 0
  | grant {n : ℕ} (hn : n ≤ l.pending) : Move l (l.grant n) 0

variable {l' : CreditLine} {n : ℕ}

theorem Move.refl (l : CreditLine) : l.Move l 0 := .send (Nat.zero_le _)

theorem Conforming.move (h : l.Conforming) (hmove : l.Move l' n) : l'.Conforming := by
  unfold Conforming at *
  cases hmove with
  | send hn =>
    simp only [CreditLine.available, CreditLine.send] at *
    omega
  | arrive =>
    simp only [CreditLine.arrive]
    omega
  | _ => exact h

theorem Balanced.move {lost : ℕ} (h : l.Balanced lost) (hmove : l.Move l' n) :
    l'.Balanced (lost + n) := by
  unfold Balanced at *
  cases hmove <;>
    simp only [CreditLine.send, CreditLine.take, CreditLine.drop, CreditLine.write,
      CreditLine.arrive, CreditLine.grant] <;> omega

theorem Earned.move (h : l.Earned) (hmove : l.Move l' n) : l'.Earned :=
  h.elim fun _ hbalanced => ⟨_, hbalanced.move hmove⟩

theorem Covered.move (h : l.Covered) (hmove : l.Move l' n) : l'.Covered := by
  unfold Covered at *
  cases hmove <;>
    simp only [CreditLine.send, CreditLine.take, CreditLine.drop, CreditLine.write,
      CreditLine.arrive, CreditLine.grant] <;> omega

end CreditLine

end Netbaiot.Lib
