import Netbaiot.Broker.Routing

/-!
# Packet identifiers

Allocation walks from the next identifier on until it finds a free one.
-/

namespace Netbaiot.Broker

open Lib Mqtt

namespace StoredSession

theorem followingId_ne_zero (id : PacketId) : followingId id ≠ 0 := by
  unfold followingId
  split
  · decide
  · next hne =>
    intro hzero
    apply hne
    have hnat := congrArg UInt16.toNat hzero
    have hlt := id.toNat_lt
    apply UInt16.toNat_inj.mp
    simp at hnat ⊢
    omega

/-- Trying identifiers changes nothing but the next one, and stops at a free one. -/
theorem allocateWithin_eq (fuel : ℕ) (s : StoredSession) :
    (allocateWithin fuel s).2 = { s with nextPacketId := (allocateWithin fuel s).2.nextPacketId } ∧
      (∀ id, (allocateWithin fuel s).1 = some id → s.outbound.lookup id = none ∧
        (allocateWithin fuel s).2.nextPacketId = followingId id) ∧
      ((allocateWithin fuel s).2.nextPacketId = s.nextPacketId ∨
        (allocateWithin fuel s).2.nextPacketId ≠ 0) := by
  induction fuel generalizing s with
  | zero => simp [allocateWithin]
  | succ fuel ih =>
    rw [allocateWithin]
    split
    · obtain ⟨heq, hsome, hnext⟩ := ih { s with nextPacketId := followingId s.nextPacketId }
      refine ⟨heq, hsome, .inr ?_⟩
      rcases hnext with hnext | hnext
      · rw [hnext]
        exact followingId_ne_zero _
      · exact hnext
    · next hfree =>
      refine ⟨rfl, ?_, .inr (followingId_ne_zero _)⟩
      rintro id ⟨⟩
      exact ⟨by simpa using hfree, rfl⟩

/-- A free identifier was allocated. -/
theorem allocatePacketId_some {s s' : StoredSession} {id : PacketId}
    (h : s.allocatePacketId = (some id, s')) :
    s' = { s with nextPacketId := followingId id } ∧ s.outbound.lookup id = none := by
  obtain ⟨heq, hsome, _⟩ := allocateWithin_eq 65535 s
  rw [show allocateWithin 65535 s = (some id, s') from h] at heq hsome
  obtain ⟨hfree, hnext⟩ := hsome id rfl
  rw [hnext] at heq
  exact ⟨heq, hfree⟩

/-- Every identifier is in use. -/
theorem allocatePacketId_none {s s' : StoredSession} (h : s.allocatePacketId = (none, s')) :
    ∃ next, s' = { s with nextPacketId := next } ∧ (next = s.nextPacketId ∨ next ≠ 0) := by
  obtain ⟨heq, _, hnext⟩ := allocateWithin_eq 65535 s
  rw [show allocateWithin 65535 s = (none, s') from h] at heq hnext
  exact ⟨_, heq, hnext⟩

end StoredSession

end Netbaiot.Broker
