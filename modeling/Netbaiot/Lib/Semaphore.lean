import Netbaiot.Lib.Table

/-!
# Fair counting semaphores

A semaphore hands out permits from a pool.  Who asks for more than is free may queue;
released permits then go to the queue in order, and nobody overtakes it.  What a
semaphore grants and what it keeps always add up to what it had.
-/

namespace Netbaiot.Lib

/-- A counting semaphore, with its waiters and the permits each of them asks for. -/
structure Semaphore where
  capacity : ℕ
  pool : ℕ
  waiters : List (ℕ × ℕ)
deriving DecidableEq

namespace Semaphore

/-- A semaphore with all its permits. -/
def new (capacity : ℕ) : Semaphore := ⟨capacity, capacity, []⟩

/-- The permits that can be taken at once: none while somebody waits. -/
def availablePermits (s : Semaphore) : ℕ := if s.waiters = [] then s.pool else 0

/-- Take permits at once. -/
def tryAcquire (n : ℕ) (s : Semaphore) : Option Semaphore :=
  if n ≤ s.availablePermits then some { s with pool := s.pool - n } else none

/-- Wait at the end of the queue. -/
def enqueue (owner n : ℕ) (s : Semaphore) : Semaphore :=
  { s with waiters := s.waiters ++ [(owner, n)] }

/-- Serve waiters from the front while the pool suffices: the grants, what is left in the pool
and who still waits. -/
def serve : ℕ → List (ℕ × ℕ) → List (ℕ × ℕ) × ℕ × List (ℕ × ℕ)
  | pool, [] => ([], pool, [])
  | pool, (owner, n) :: rest =>
    if n ≤ pool then
      let (granted, left, waiting) := serve (pool - n) rest
      ((owner, n) :: granted, left, waiting)
    else ([], pool, (owner, n) :: rest)

/-- The permits of a list of grants. -/
def grantedPermits (granted : List (ℕ × ℕ)) : ℕ := (granted.map Prod.snd).sum

theorem availablePermits_le (s : Semaphore) : s.availablePermits ≤ s.pool := by
  unfold availablePermits
  split
  · exact le_rfl
  · exact Nat.zero_le _

/-- Taking permits moves them out of the pool. -/
theorem tryAcquire_eq_some {n : ℕ} {s s' : Semaphore} (h : s.tryAcquire n = some s') :
    s'.pool + n = s.pool ∧ s'.capacity = s.capacity := by
  unfold tryAcquire at h
  split at h
  · next hroom =>
    cases h
    have := s.availablePermits_le
    exact ⟨by dsimp only; omega, rfl⟩
  · cases h

/-- Serving waiters neither makes nor loses permits. -/
theorem serve_total (pool : ℕ) (waiters : List (ℕ × ℕ)) :
    grantedPermits (serve pool waiters).1 + (serve pool waiters).2.1 = pool := by
  induction waiters generalizing pool with
  | nil => simp [serve, grantedPermits]
  | cons waiter rest ih =>
    obtain ⟨owner, n⟩ := waiter
    rw [serve]
    split
    · next hroom =>
      have hrest := ih (pool - n)
      rcases hserve : serve (pool - n) rest with ⟨granted, left, waiting⟩
      rw [hserve] at hrest
      simp only [grantedPermits, List.map_cons, List.sum_cons] at hrest ⊢
      omega
    · simp [grantedPermits]

end Semaphore

end Netbaiot.Lib
