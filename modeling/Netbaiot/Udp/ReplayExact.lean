import Netbaiot.Udp.Replay

/-!
# The replay window is exact

The expiry set holds the expiry of every entry and nothing else, and the counters of
devices and tenants are right.  Pruning removes exactly the expired entries; committing
changes exactly one entry.
-/

namespace Netbaiot.Udp

open Lib AList

namespace ReplayWindow

/-- The expiry set and the counters agree with the entries. -/
structure Exact (w : ReplayWindow) : Prop where
  expirations : ∀ e, (w.expirations.lookup e).isSome = true ↔
    ∃ r, w.entries.lookup e.key = some r ∧ r.expires = e.expires
  devices : Tally w.devices ReplayKey.device w.entries
  tenants : Tally w.tenants (fun key => key.device.tenantId) w.entries

variable {w : ReplayWindow} {key : ReplayKey} {limits : Limits} {seq : ℕ} {now : Int64}

theorem Exact.new : new.Exact := by
  refine ⟨fun e => ?_, Tally.empty, Tally.empty⟩
  simp [ReplayWindow.new]

/-! ## Pruning -/

/-- Dropping the entry of the expiry that was taken out keeps the window exact. -/
theorem Exact.dropEntry (h : w.Exact) {r : Replay} (hentry : w.entries.lookup key = some r) :
    ({ w with expirations := w.expirations.erase ⟨r.expires, key⟩ }.dropEntry key).Exact ∧
      ({ w with expirations := w.expirations.erase ⟨r.expires, key⟩ }.dropEntry key).entries =
        w.entries.erase key := by
  have hdrop : { w with expirations := w.expirations.erase ⟨r.expires, key⟩ }.dropEntry key =
      { entries := w.entries.erase key
        expirations := w.expirations.erase ⟨r.expires, key⟩
        devices := release w.devices key.device
        tenants := release w.tenants key.device.tenantId } := by
    simp [ReplayWindow.dropEntry, hentry]
  rw [hdrop]
  refine ⟨⟨?_, h.devices.erase hentry, h.tenants.erase hentry⟩, rfl⟩
  -- The erased expiry was the only one of this key.
  rintro ⟨time, key'⟩
  have hpresent := h.expirations ⟨time, key'⟩
  grind [lookup_erase_eq]

/-- The first expiry is the earliest one. -/
theorem expires_le_of_popFirst {e : ReplayExpiry} {u : Unit} {rest : Table ReplayExpiry Unit}
    (hpop : w.expirations.popFirst = some (e, u, rest)) {e' : ReplayExpiry}
    (hmem : (w.expirations.lookup e').isSome = true) : e.expires ≤ e'.expires := by
  obtain ⟨v, hv⟩ := Option.isSome_iff_exists.mp hmem
  have hle : e ≤ e' := popFirst_le hpop (mem_iff_lookup.mpr ⟨v, hv⟩)
  have hrank : e.rank ≤ e'.rank := hle
  rcases Prod.Lex.le_iff.mp hrank with hlt | ⟨heq, _⟩
  · exact Int64.le_of_lt hlt
  · exact Int64.le_of_eq heq

/-- If all expiries are later, no entry has expired. -/
theorem Exact.lookup_of_later (h : w.Exact)
    (hlater : ∀ e, (w.expirations.lookup e).isSome = true → now < e.expires) (key : ReplayKey) :
    w.entries.lookup key = (w.entries.lookup key).filter fun r => now < r.expires := by
  cases hentry : w.entries.lookup key with
  | none => rfl
  | some r => simp [Option.filter, hlater ⟨r.expires, key⟩ ((h.expirations _).mpr ⟨r, hentry, rfl⟩)]

/-- Pruning keeps the window exact and removes exactly the expired entries. -/
theorem Exact.pruneLoop (h : w.Exact) {fuel : ℕ} (hfuel : w.expirations.size ≤ fuel)
    (now : Int64) : (pruneLoop fuel now w).Exact ∧
      ∀ key, (ReplayWindow.pruneLoop fuel now w).entries.lookup key =
        (w.entries.lookup key).filter fun r => now < r.expires := by
  fun_induction ReplayWindow.pruneLoop fuel now w with
  | case1 now w =>
    have hempty : w.expirations = ∅ := AList.ext (List.length_eq_zero_iff.mp (by
      unfold AList.size at hfuel
      omega))
    exact ⟨h, h.lookup_of_later (by simp [hempty])⟩
  | case2 fuel now w hpop => exact ⟨h, h.lookup_of_later (by simp [popFirst_eq_none hpop])⟩
  | case3 fuel now w e u rest hpop hdue ih =>
    obtain ⟨hlookup, rfl⟩ := popFirst_eq_some hpop
    obtain ⟨r, hentry, hexpires⟩ := (h.expirations e).mp (by rw [hlookup]; rfl)
    have he : e = ⟨r.expires, e.key⟩ := by rw [hexpires]
    obtain ⟨hexact, hentries⟩ := h.dropEntry hentry
    rw [← he] at hexact hentries
    have hsize : ({ w with expirations := w.expirations.erase e }.dropEntry
        e.key).expirations.size ≤ fuel := by
      have hless := size_erase hlookup
      simp only [ReplayWindow.dropEntry]
      split <;> simp only <;> omega
    obtain ⟨hpruned, hrest⟩ := ih hexact hsize
    refine ⟨hpruned, fun key => ?_⟩
    rw [hrest, hentries, lookup_erase_eq]
    split
    · next hkey =>
      have hnot : ¬ now < r.expires := not_lt.mpr (hexpires ▸ hdue)
      rw [hkey, hentry]
      simp [Option.filter, hnot]
    · rfl
  | case4 fuel now w e u rest hpop hlater =>
    -- Nothing expires before the first expiry.
    exact ⟨h, h.lookup_of_later fun e' he' =>
      lt_of_lt_of_le (not_le.mp hlater) (expires_le_of_popFirst hpop he')⟩

theorem Exact.prune (h : w.Exact) (now : Int64) : (w.prune now).Exact :=
  (h.pruneLoop (Nat.le_refl _) now).1

/-- Pruning removes exactly the expired entries. -/
theorem Exact.lookup_prune (h : w.Exact) (now : Int64) (key : ReplayKey) :
    (w.prune now).entries.lookup key =
      (w.entries.lookup key).filter fun r => now < r.expires :=
  (h.pruneLoop (Nat.le_refl _) now).2 key

/-! ## Committing -/

@[simp] theorem entries_refresh (expires : Int64) :
    (w.refresh key expires).entries = w.entries := by
  unfold refresh
  simp only
  split
  · rfl
  · split <;> rfl

/-- The entry that committing stores. -/
def committed (limits : Limits) (w : ReplayWindow) (key : ReplayKey) (seq : ℕ) (now : Int64) :
    Replay :=
  { toWindow := (((w.entries.lookup key).map Replay.toWindow).getD ⟨seq, 0⟩).mark seq
    expires := expiryAt limits now }

theorem entries_commit : (w.commit limits key seq now).entries =
    w.entries.insert key (committed limits w key seq now) := by
  simp only [commit, entries_refresh, committed]
  cases w.entries.lookup key <;> rfl

/-- An entry that moves to a new expiry has that one and no other. -/
theorem Exact.refresh (h : w.Exact) (expires : Int64) (e : ReplayExpiry) :
    ((w.refresh key expires).expirations.lookup e).isSome = true ↔
      if e.key = key then e.expires = expires else (w.expirations.lookup e).isSome = true := by
  obtain ⟨time, key'⟩ := e
  have hpresent := h.expirations ⟨time, key'⟩
  cases hentry : w.entries.lookup key with
  | none =>
    simp only [ReplayWindow.refresh, hentry, Option.map_none, reduceCtorEq, if_false]
    grind [lookup_insert_eq]
  | some r =>
    simp only [ReplayWindow.refresh, hentry, Option.map_some, Option.some.injEq]
    grind [lookup_insert_eq, lookup_erase_eq]

/-- Committing keeps the window exact. -/
theorem Exact.commit (h : w.Exact) : (w.commit limits key seq now).Exact := by
  suffices hcounters : Tally (w.commit limits key seq now).devices ReplayKey.device
        (w.entries.insert key (committed limits w key seq now)) ∧
      Tally (w.commit limits key seq now).tenants (fun key => key.device.tenantId)
        (w.entries.insert key (committed limits w key seq now)) by
    rw [← entries_commit] at hcounters
    refine ⟨fun e => ?_, hcounters.1, hcounters.2⟩
    show ((w.refresh key _).expirations.lookup e).isSome = true ↔ _
    rw [h.refresh, entries_commit, lookup_insert_eq]
    split
    · simp [committed, eq_comm]
    · exact h.expirations e
  simp only [ReplayWindow.commit, ReplayWindow.refresh]
  cases hentry : w.entries.lookup key with
  | none => exact ⟨h.devices.insert_new _ hentry, h.tenants.insert_new _ hentry⟩
  | some r =>
    split <;> exact ⟨h.devices.replace _ hentry, h.tenants.replace _ hentry⟩

end ReplayWindow

end Netbaiot.Udp
