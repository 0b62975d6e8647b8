import Netbaiot.Auth.Cache

/-!
# The indexes of the authentication cache

The entries are indexed twice, by age for eviction and by deadline for expiry.  `cache_indexes`
says that both indexes describe the entries exactly after any sequence of operations, and that
the eviction loop ends because of it.
-/

namespace Netbaiot.Auth

open Lib AList

namespace AuthCacheState

/-- The expiry set holds the current deadline of every entry, and the bytes are those of the
entries. -/
def Filed (s : AuthCacheState) : Prop :=
  (∀ e, e ∈ s.expirations ↔
    ∃ entry, s.entries.lookup e.key = some entry ∧ entry.expires = e.expires) ∧
  s.bytes = s.entries.total fun _ entry => entry.bytes

/-- The order holds every entry once. -/
def Listed (s : AuthCacheState) : Prop :=
  s.order.Nodup ∧ ∀ key, key ∈ s.order ↔ key ∈ s.entries

/-- All indexes describe the same entries. -/
def Indexed (s : AuthCacheState) : Prop := s.Filed ∧ s.Listed

variable {s : AuthCacheState}

theorem Listed.ordered (h : s.Listed) : s.Ordered := fun key entry hentry =>
  (h.2 key).mpr (mem_iff_lookup.mpr ⟨entry, hentry⟩)

/-! ## Removing entries -/

theorem mem_removeCacheEntry (s : AuthCacheState) (key k : AuthCacheKey) :
    k ∈ (s.removeCacheEntry key).entries ↔ k ≠ key ∧ k ∈ s.entries := by
  simp only [mem_iff_lookup, lookup_removeCacheEntry]
  split <;> simp [*]

theorem Filed.removeCacheEntry (h : s.Filed) (key : AuthCacheKey) :
    (s.removeCacheEntry key).Filed := by
  obtain ⟨hexpirations, hbytes⟩ := h
  unfold AuthCacheState.removeCacheEntry
  cases hentry : s.entries.lookup key with
  | none => exact ⟨hexpirations, hbytes⟩
  | some entry =>
    refine ⟨fun e => ?_, ?_⟩
    · show e ∈ s.expirations.erase ⟨entry.expires, key⟩ ↔
        ∃ found, (s.entries.erase key).lookup e.key = some found ∧ found.expires = e.expires
      rw [mem_erase, hexpirations, lookup_erase_eq]
      obtain ⟨expires, k⟩ := e
      by_cases hk : k = key
      · subst hk
        simp [hentry, eq_comm]
      · simp [hk]
    · show s.bytes - entry.bytes = (s.entries.erase key).total _
      rw [hbytes, total_of_lookup _ hentry, Nat.add_sub_cancel_left]

/-- An order from which the keys without an entry are dropped. -/
theorem Listed.retain (hnodup : s.order.Nodup) (hordered : s.Ordered) :
    Listed { s with order := s.order.filter fun key => (s.entries.lookup key).isSome } := by
  refine ⟨hnodup.filter _, fun key => ?_⟩
  show key ∈ s.order.filter _ ↔ key ∈ s.entries
  rw [List.mem_filter, Option.isSome_iff_exists, mem_iff_lookup]
  refine ⟨And.right, fun hentry => ⟨?_, hentry⟩⟩
  obtain ⟨entry, hentry⟩ := hentry
  exact hordered key entry hentry

theorem Indexed.removed (h : s.Indexed) (key : AuthCacheKey) :
    Indexed { s.removeCacheEntry key with order := s.order.filter (· ≠ key) } := by
  refine ⟨h.1.removeCacheEntry key, h.2.1.filter _, fun k => ?_⟩
  show k ∈ s.order.filter (· ≠ key) ↔ k ∈ (s.removeCacheEntry key).entries
  rw [mem_removeCacheEntry, List.mem_filter, h.2.2 k, decide_eq_true_iff, and_comm]

theorem Indexed.replaceEntry (h : s.Indexed) (key : AuthCacheKey) :
    (s.replaceEntry key).Indexed := by
  unfold AuthCacheState.replaceEntry
  split
  · exact h.removed key
  · exact h

theorem Indexed.expireTarget (h : s.Indexed) (key : AuthCacheKey) (now : ℕ) :
    (s.expireTarget key now).Indexed := by
  unfold AuthCacheState.expireTarget
  split
  · exact h.removed key
  · exact h

theorem Indexed.invalidate (h : s.Indexed) (invalidation : AuthInvalidation) :
    (s.invalidate invalidation).Indexed := by
  have hfiled (keys : List AuthCacheKey) : ∀ s : AuthCacheState, s.Filed →
      (keys.foldl AuthCacheState.removeCacheEntry s).Filed := by
    induction keys with
    | nil => exact fun s h => h
    | cons key rest ih => exact fun s h => ih _ (h.removeCacheEntry key)
  refine ⟨hfiled _ s.beginEpoch h.1, Listed.retain ?_ ?_⟩
  all_goals
    obtain ⟨htrims, horder, -⟩ := foldl_removeCacheEntry_spec _ s.beginEpoch
  · rw [horder]
    exact h.2.1
  · intro key entry hentry
    rw [horder]
    exact h.2.ordered key entry (htrims.entries key entry hentry)

/-- While the expiry set is exact, the loop removes an entry in every round. -/
theorem Filed.pruneLoop (now : ℕ) : ∀ (budget : ℕ) (s : AuthCacheState), s.Filed →
    (s.pruneLoop budget now).Filed ∧
      (s.pruneLoop budget now = s ∨ (s.pruneLoop budget now).entries.size < s.entries.size) := by
  intro budget
  induction budget with
  | zero => exact fun s h => ⟨h, .inl rfl⟩
  | succ budget ih =>
    intro s h
    rw [AuthCacheState.pruneLoop]
    cases hfirst : s.expirations.popFirst with
    | none => exact ⟨h, .inl rfl⟩
    | some first =>
      obtain ⟨e, u, rest⟩ := first
      simp only
      split
      · exact ⟨h, .inl rfl⟩
      · obtain ⟨hmem, rfl⟩ := popFirst_eq_some hfirst
        obtain ⟨entry, hentry, hexpires⟩ := (h.1 e).mp (mem_iff_lookup.mpr ⟨u, hmem⟩)
        -- the popped deadline is that of the entry it names
        have hpopped : { s with
            expirations := s.expirations.erase e
            entries := s.entries.erase e.key
            bytes := s.bytes - ((s.entries.lookup e.key).map CacheEntry.bytes).getD 0 } =
              s.removeCacheEntry e.key := by
          simp only [AuthCacheState.removeCacheEntry, hentry, hexpires]
          rfl
        rw [hpopped]
        obtain ⟨hfiled, hsize⟩ := ih _ (h.removeCacheEntry e.key)
        have hless : (s.removeCacheEntry e.key).entries.size < s.entries.size := by
          rw [← hpopped]
          exact (size_erase hentry).le
        refine ⟨hfiled, .inr ?_⟩
        rcases hsize with heq | hlt
        · rw [heq]
          exact hless
        · exact hlt.trans hless

theorem Indexed.pruneExpiredUpTo (h : s.Indexed) (budget now : ℕ) :
    (s.pruneExpiredUpTo budget now).Indexed := by
  obtain ⟨hfiled, hsize⟩ := h.1.pruneLoop now budget s
  obtain ⟨htrims, horder⟩ := pruneLoop_trims now budget s
  unfold AuthCacheState.pruneExpiredUpTo
  simp only
  split
  · next hsame =>
    rw [hsize.resolve_right (by omega)]
    exact h
  · refine ⟨hfiled, Listed.retain (horder ▸ h.2.1) fun key entry hentry => ?_⟩
    rw [horder]
    exact h.2.ordered key entry (htrims.entries key entry hentry)

/-! ## Eviction and insertion -/

/-- The condition of the eviction loop. -/
def Crowded (limits : Limits) (bytes : ℕ) (s : AuthCacheState) : Prop :=
  (limits.authCacheMaxEntries ≤ s.entries.size ∨
    limits.authCacheMaxBytes < saturatingAdd 64 s.bytes bytes) ∧ s.entries.size ≠ 0

/-- One round of the eviction loop. -/
def evictOne (s : AuthCacheState) : AuthCacheState :=
  match s.order with
  | [] => s
  | old :: rest => { s.removeCacheEntry old with order := rest }

/-- What `evict` returns is reached by rounds of the loop while its condition holds. -/
theorem evict_rounds (limits : Limits) (bytes : ℕ) :
    ∀ (order : List AuthCacheKey) (s : AuthCacheState),
      ∃ n, (∀ i < n, Crowded limits bytes (evictOne^[i] { s with order := order })) ∧
        evictOne^[n] { s with order := order } = s.evict limits bytes order := by
  intro order
  induction order with
  | nil => exact fun s => ⟨0, by simp, rfl⟩
  | cons old rest ih =>
    intro s
    rw [evict]
    split
    · next hcrowded =>
      obtain ⟨n, hrounds, hevict⟩ := ih (s.removeCacheEntry old)
      have hround : evictOne { s with order := old :: rest } =
          { s.removeCacheEntry old with order := rest } := by
        simp only [evictOne, removeCacheEntry]
        cases s.entries.lookup old <;> rfl
      refine ⟨n + 1, fun i hi => ?_, ?_⟩
      · cases i with
        | zero => exact hcrowded
        | succ i =>
          rw [Function.iterate_succ_apply, hround]
          exact hrounds i (by omega)
      · rw [Function.iterate_succ_apply, hround, hevict]
    · exact ⟨0, by simp, rfl⟩

theorem Filed.evict (limits : Limits) (bytes : ℕ) :
    ∀ (order : List AuthCacheKey) (s : AuthCacheState), s.Filed → order.Nodup →
      (∀ key, key ∈ order ↔ key ∈ s.entries) → (s.evict limits bytes order).Indexed := by
  intro order
  induction order with
  | nil => exact fun s hfiled hnodup hmem => ⟨hfiled, hnodup, hmem⟩
  | cons old rest ih =>
    intro s hfiled hnodup hmem
    rw [AuthCacheState.evict]
    split
    · obtain ⟨hold, hrest⟩ := List.nodup_cons.mp hnodup
      refine ih _ (hfiled.removeCacheEntry old) hrest fun key => ?_
      rw [mem_removeCacheEntry, ← hmem, List.mem_cons]
      constructor
      · intro hkey
        exact ⟨fun h => hold (h ▸ hkey), .inr hkey⟩
      · rintro ⟨hne, hkey⟩
        exact hkey.resolve_left hne
    · exact ⟨hfiled, hnodup, hmem⟩

/-- The cache in which an insertion finds room. -/
def cleared (limits : Limits) (s : AuthCacheState) (key : AuthCacheKey) (bytes : ℕ) :
    AuthCacheState :=
  (s.replaceEntry key).evict limits bytes (s.replaceEntry key).order

/-- Both limits are kept.  The byte limit is compared with a saturating sum, so that the largest
machine integer needs a total that is one. -/
def Bounded (limits : Limits) (s : AuthCacheState) : Prop :=
  s.entries.size ≤ limits.authCacheMaxEntries ∧
    (limits.authCacheMaxBytes < 2 ^ 64 - 1 ∨ s.bytes < 2 ^ 64 →
      s.bytes ≤ limits.authCacheMaxBytes)

variable (limits : Limits) (key : AuthCacheKey) (value : CachedAuth) (ttl bytes now : ℕ)
  (origin : Origin)

/-- What an insertion starts from: the indexes are exact, the loop condition is false and the
key has no entry. -/
theorem Indexed.cleared (h : s.Indexed) :
    (s.cleared limits key bytes).Indexed ∧ ¬ Crowded limits bytes (s.cleared limits key bytes) ∧
      (s.cleared limits key bytes).entries.lookup key = none := by
  have hreplaced := h.replaceEntry key
  refine ⟨Filed.evict limits bytes _ _ hreplaced.1 hreplaced.2.1 hreplaced.2.2,
    evict_done limits bytes _ _ hreplaced.2.ordered, Option.eq_none_iff_forall_ne_some.mpr ?_⟩
  intro entry hentry
  have hold := (evict_trims limits bytes _ _).entries key entry hentry
  unfold AuthCacheState.replaceEntry at hold
  split at hold
  · have hgone := lookup_removeCacheEntry s key key
    exact absurd (hgone.symm.trans hold) (by simp)
  · next hnone => exact hnone (Option.isSome_iff_exists.mpr ⟨entry, hold⟩)

theorem Indexed.insertCacheEntry (h : s.Indexed) :
    (s.insertCacheEntry limits key value ttl bytes now origin).Indexed ∧
      Bounded limits (s.insertCacheEntry limits key value ttl bytes now origin) := by
  obtain ⟨hindexed, hdone, hnone⟩ := h.cleared limits key bytes
  have hnew : key ∉ (s.cleared limits key bytes).entries := by
    rw [mem_iff_lookup, hnone]
    simp
  have hempty : (s.cleared limits key bytes).entries.size = 0 →
      (s.cleared limits key bytes).bytes = 0 := by
    intro hsize
    rw [hindexed.1.2, total, List.length_eq_zero_iff.mp hsize]
    rfl
  have hcleared : (s.replaceEntry key).evict limits bytes (s.replaceEntry key).order =
    s.cleared limits key bytes := rfl
  simp only [AuthCacheState.insertCacheEntry, hcleared]
  generalize s.cleared limits key bytes = c at *
  simp only [Crowded, saturatingAdd] at hdone
  obtain ⟨⟨hexpirations, hbytes⟩, hnodup, hmem⟩ := hindexed
  split
  · refine ⟨⟨⟨fun e => ?_, ?_⟩, ?_, fun k => ?_⟩, ?_⟩
    · obtain ⟨expires, k⟩ := e
      show _ ∈ c.expirations.insert _ _ ↔
        ∃ entry, (c.entries.insert key _).lookup k = some entry ∧ entry.expires = expires
      rw [mem_insert, hexpirations, lookup_insert_eq]
      by_cases hk : k = key
      · subst hk
        simp [hnone, eq_comm]
      · simp [hk]
    · show c.bytes + bytes = (c.entries.insert key _).total _
      rw [total_insert_new _ hnone, hbytes, Nat.add_comm]
    · exact hnodup.append (List.nodup_singleton key)
        (List.disjoint_singleton.mpr fun hkey => hnew ((hmem key).mp hkey))
    · show k ∈ c.order ++ [key] ↔ k ∈ c.entries.insert key _
      rw [List.mem_append, List.mem_singleton, mem_insert, hmem, or_comm]
    · show (c.entries.insert key _).size ≤ _ ∧ (_ ∨ c.bytes + bytes < _ → c.bytes + bytes ≤ _)
      rw [size_insert, erase_of_lookup_none hnone]
      omega
  · refine ⟨⟨⟨hexpirations, hbytes⟩, hnodup, hmem⟩, ?_⟩
    unfold Bounded
    omega

/-! ## Runs -/

/-- The operations on the cache. -/
inductive CacheAction where
  | insert (key : AuthCacheKey) (value : CachedAuth) (ttl bytes now : ℕ) (origin : Origin)
  | hit (key : AuthCacheKey) (now : ℕ)
  | remove (key : AuthCacheKey)
  | invalidate (invalidation : AuthInvalidation)
  | prune (budget now : ℕ)
  | expire (key : AuthCacheKey) (now : ℕ)

/-- What an operation does to the cache; before a hit, expired entries are removed. -/
def CacheAction.run (s : AuthCacheState) : CacheAction → AuthCacheState
  | .insert key value ttl bytes now origin =>
      s.insertCacheEntry limits key value ttl bytes now origin
  | .hit key now => (s.pruneExpiredUpTo expiryPruneBudget now).expireTarget key now
  | .remove key => s.replaceEntry key
  | .invalidate invalidation => s.invalidate invalidation
  | .prune budget now => s.pruneExpiredUpTo budget now
  | .expire key now => s.expireTarget key now

theorem Indexed.run (h : s.Indexed) (action : CacheAction) : (action.run limits s).Indexed := by
  cases action with
  | insert key value ttl bytes now origin => exact (h.insertCacheEntry ..).1
  | hit key now => exact (h.pruneExpiredUpTo ..).expireTarget ..
  | remove key => exact h.replaceEntry key
  | invalidate invalidation => exact h.invalidate invalidation
  | prune budget now => exact h.pruneExpiredUpTo budget now
  | expire key now => exact h.expireTarget key now

theorem Indexed.runs (actions : List CacheAction) :
    ∀ s : AuthCacheState, s.Indexed → (actions.foldl (CacheAction.run limits) s).Indexed := by
  induction actions with
  | nil => exact fun s h => h
  | cons action rest ih => exact fun s h => ih _ (h.run limits action)

/-- After any sequence of operations the indexes are exact, and for every next insertion the
eviction loop ends and the cache is within its limits. -/
theorem cache_indexes (actions : List CacheAction) :
    let s := actions.foldl (CacheAction.run limits) new
    s.Indexed ∧
      (∃ n, (∀ i < n, Crowded limits bytes (evictOne^[i] (s.replaceEntry key))) ∧
        ¬ Crowded limits bytes (evictOne^[n] (s.replaceEntry key)) ∧
        evictOne^[n] (s.replaceEntry key) = s.cleared limits key bytes) ∧
      Bounded limits (s.insertCacheEntry limits key value ttl bytes now origin) := by
  intro s
  have hindexed : s.Indexed := by
    refine Indexed.runs limits actions new ⟨⟨fun e => ?_, rfl⟩, List.nodup_nil, fun key => ?_⟩
    · simp [new]
    · simp [new]
  obtain ⟨n, hrounds, hevict⟩ :=
    evict_rounds limits bytes (s.replaceEntry key).order (s.replaceEntry key)
  refine ⟨hindexed, ⟨n, hrounds, ?_, hevict⟩, (hindexed.insertCacheEntry ..).2⟩
  rw [show evictOne^[n] (s.replaceEntry key) = s.cleared limits key bytes from hevict]
  exact (hindexed.cleared limits key bytes).2.1

end AuthCacheState

end Netbaiot.Auth
