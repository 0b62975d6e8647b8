import Mathlib.Data.Prod.Lex
import Netbaiot.Lib.Sha256
import Netbaiot.Lib.Table
import Netbaiot.Limits

/-!
# The authentication cache

Positive and negative results of the authentication provider are cached under a
fingerprint of the credential, with an expiry, a first-in first-out order for eviction and
a byte total.  For a key that is not cached one request leads and calls the provider; the
epoch changes with every invalidation, so that a leader can tell whether its result is still
good.  It has 64 bits and comes back after 2 ^ 64 - 1 invalidations.  Every entry also remembers
how many invalidations there were before the steps that led to it, which the program does not.
-/

namespace Netbaiot.Auth

open Lib AList

/-- Whether an invalidation concerns an identity. -/
def invalidates (invalidation : AuthInvalidation) (auth : AuthenticatedDevice) : Bool :=
  match invalidation with
  | .device device => auth.deviceKey = device
  | .product tenantId productId =>
      auth.deviceKey.tenantId = tenantId && auth.deviceKey.productId = productId
  | .tenant tenantId => auth.deviceKey.tenantId = tenantId
  | .credentialVersion version => auth.credentialVersion = version
  | .authGeneration generation => auth.authGeneration = generation
  | .all => true

/-- What results are cached under. -/
structure AuthCacheKey where
  credentialId : List UInt8
  fingerprint : List UInt8
  verifier : Bool
deriving DecidableEq

/-- The key of a secret. -/
def cacheKey (sha : Sha256) (credentialId secret : List UInt8) : Except Error AuthCacheKey :=
  if credentialId.isEmpty ∨ 64 < credentialId.length then .error .authentication
  else .ok ⟨credentialId, sha.digest secret, false⟩

/-- The key of a verifier. -/
def verifierCacheKey (credentialId : List UInt8) : Except Error AuthCacheKey :=
  if credentialId.isEmpty ∨ 64 < credentialId.length then .error .authentication
  else .ok ⟨credentialId, List.replicate 32 0, true⟩

/-- An identity with the key that verifies its datagrams. -/
structure DeviceVerifier where
  identity : AuthenticatedDevice
  key : List UInt8

/-- What is kept of an answer. -/
inductive CachedAuth where
  | positive (auth : AuthenticatedDevice)
  | verifier (verifier : DeviceVerifier)
  | negative

/-- The identity of a cached result. -/
def CachedAuth.identity : CachedAuth → Option AuthenticatedDevice
  | .positive auth => some auth
  | .verifier found => some found.identity
  | .negative => none

/-- How many invalidations there were when the leader was elected, when it called the provider
and when the result was recorded. -/
structure Origin where
  elected : ℕ
  started : ℕ
  recorded : ℕ

/-- A cached answer. -/
structure CacheEntry where
  value : CachedAuth
  expires : ℕ
  bytes : ℕ
  origin : Origin

/-- An entry in the order of expiry. -/
structure CacheExpiry where
  expires : ℕ
  key : AuthCacheKey

/-- The order of the expiry set: by time first, then by the parts of the key. -/
def CacheExpiry.rank (e : CacheExpiry) : ℕ ×ₗ List ℕ ×ₗ List ℕ ×ₗ Bool :=
  toLex (e.expires, toLex (e.key.credentialId.map UInt8.toNat,
    toLex (e.key.fingerprint.map UInt8.toNat, e.key.verifier)))

theorem CacheExpiry.rank_injective : Function.Injective CacheExpiry.rank := by
  rintro ⟨expires, ⟨credentialId, fingerprint, verifier⟩⟩
    ⟨expires', ⟨credentialId', fingerprint', verifier'⟩⟩ h
  have hbytes : Function.Injective (List.map UInt8.toNat) :=
    List.map_injective_iff.mpr fun _ _ => UInt8.toNat_inj.mp
  simp only [rank, EmbeddingLike.apply_eq_iff_eq, Prod.mk.injEq] at h
  obtain ⟨rfl, hcredential, hfingerprint, rfl⟩ := h
  rw [hbytes hcredential, hbytes hfingerprint]

instance : LinearOrder CacheExpiry := LinearOrder.lift' CacheExpiry.rank CacheExpiry.rank_injective

/-- The call of the provider that a leader makes; `leader` is that request, `elected` as in
`Origin`. -/
structure Inflight where
  epoch : UInt64
  id : UInt64
  leader : ℕ
  elected : ℕ

/-- The cache, behind its lock. -/
structure AuthCacheState where
  entries : Table AuthCacheKey CacheEntry
  order : List AuthCacheKey
  expirations : Table CacheExpiry Unit
  bytes : ℕ
  inflight : Table AuthCacheKey Inflight
  epoch : UInt64
  nextInflightId : UInt64

namespace AuthCacheState

def new : AuthCacheState := ⟨∅, [], ∅, 0, ∅, 1, 1⟩

/-- Remove an entry with its expiry and its bytes; the caller keeps the order. -/
def removeCacheEntry (s : AuthCacheState) (key : AuthCacheKey) : AuthCacheState :=
  match s.entries.lookup key with
  | none => s
  | some entry =>
      { s with
        entries := s.entries.erase key
        expirations := s.expirations.erase ⟨entry.expires, key⟩
        bytes := s.bytes - entry.bytes }

/-- Replace an entry that is still there, also in the order. -/
def replaceEntry (s : AuthCacheState) (key : AuthCacheKey) : AuthCacheState :=
  if (s.entries.lookup key).isSome then
    { s.removeCacheEntry key with order := s.order.filter (· ≠ key) }
  else s

/-- Evict the oldest entries until a new one fits; the list is what is left of the order. -/
def evict (limits : Limits) (bytes : ℕ) : List AuthCacheKey → AuthCacheState → AuthCacheState
  | [], s => { s with order := [] }
  | old :: rest, s =>
      if (limits.authCacheMaxEntries ≤ s.entries.size ∨
          limits.authCacheMaxBytes < saturatingAdd 64 s.bytes bytes) ∧ s.entries.size ≠ 0 then
        evict limits bytes rest (s.removeCacheEntry old)
      else { s with order := old :: rest }

/-- Cache a result, if it is not larger than the whole cache. -/
def insertCacheEntry (limits : Limits) (s : AuthCacheState) (key : AuthCacheKey)
    (value : CachedAuth) (ttl bytes now : ℕ) (origin : Origin) : AuthCacheState :=
  let s := s.replaceEntry key
  let s := s.evict limits bytes s.order
  if 0 < limits.authCacheMaxEntries ∧ bytes ≤ limits.authCacheMaxBytes then
    let expires := now + ttl
    { s with
      bytes := s.bytes + bytes
      order := s.order ++ [key]
      expirations := s.expirations.insert ⟨expires, key⟩ ()
      entries := s.entries.insert key ⟨value, expires, bytes, origin⟩ }
  else s

/-- Remove the entry that is asked for if it has expired. -/
def expireTarget (s : AuthCacheState) (key : AuthCacheKey) (now : ℕ) : AuthCacheState :=
  if (s.entries.lookup key).any fun entry => entry.expires ≤ now then
    { s.removeCacheEntry key with order := s.order.filter (· ≠ key) }
  else s

/-- Remove expired entries, earliest first, up to a budget. -/
def pruneLoop : ℕ → ℕ → AuthCacheState → AuthCacheState
  | 0, _, s => s
  | budget + 1, now, s =>
      match s.expirations.popFirst with
      | none => s
      | some (e, _, rest) =>
          if now < e.expires then s
          else
            pruneLoop budget now
              { s with
                expirations := rest
                entries := s.entries.erase e.key
                bytes := s.bytes - ((s.entries.lookup e.key).map CacheEntry.bytes).getD 0 }

def pruneExpiredUpTo (budget now : ℕ) (s : AuthCacheState) : AuthCacheState :=
  let pruned := pruneLoop budget now s
  -- the order is scanned once, and only if the loop removed an entry
  if pruned.entries.size = s.entries.size then pruned
  else { pruned with order := pruned.order.filter fun key => (pruned.entries.lookup key).isSome }

/-- How many expired entries one lookup removes at most. -/
def expiryPruneBudget : ℕ := 32

/-- The next epoch begins; no epoch is 0. -/
def beginEpoch (s : AuthCacheState) : AuthCacheState := { s with epoch := max (s.epoch + 1) 1 }

/-- Begin an epoch and remove the cached results that an invalidation concerns, and all negative
ones. -/
def invalidate (s : AuthCacheState) (invalidation : AuthInvalidation) : AuthCacheState :=
  let removed := s.entries.keys.filter fun key =>
    (s.entries.lookup key).any fun entry =>
      (entry.value.identity.map (invalidates invalidation)).getD true
  let s := removed.foldl removeCacheEntry s.beginEpoch
  { s with order := s.order.filter fun key => (s.entries.lookup key).isSome }

end AuthCacheState

/-- The size that a cached result is charged. -/
def entryBytes (key : AuthCacheKey) (value : CachedAuth) : ℕ :=
  let identityBytes (auth : AuthenticatedDevice) : ℕ :=
    auth.deviceKey.tenantId.asStr.length + auth.deviceKey.productId.asStr.length +
      auth.deviceKey.deviceId.asStr.length + auth.codecId.asStr.length
  key.credentialId.length + 56 +
    match value with
    | .positive auth => identityBytes auth + 64
    | .verifier verifier => identityBytes verifier.identity + 96
    | .negative => 1

/-- How long a result is cached. -/
def entryTtl (limits : Limits) : CachedAuth → ℕ
  | .positive _ | .verifier _ => limits.authPositiveTtlMs
  | .negative => limits.authNegativeTtlMs

/-- Nothing happened to the cache except that entries were removed. -/
structure Trims (s s' : AuthCacheState) : Prop where
  entries : ∀ key entry, s'.entries.lookup key = some entry → s.entries.lookup key = some entry
  inflight : s'.inflight = s.inflight
  epoch : s'.epoch = s.epoch

/-- Every entry can be found by the eviction loop. -/
def AuthCacheState.Ordered (s : AuthCacheState) : Prop :=
  ∀ key entry, s.entries.lookup key = some entry → key ∈ s.order

namespace Trims

variable {s s' s'' : AuthCacheState}

theorem refl (s : AuthCacheState) : Trims s s := ⟨fun _ _ h => h, rfl, rfl⟩

theorem trans (h : Trims s s') (h' : Trims s' s'') : Trims s s'' :=
  ⟨fun key entry hentry => h.entries key entry (h'.entries key entry hentry),
    h'.inflight.trans h.inflight, h'.epoch.trans h.epoch⟩

/-- The order, the expiries and the byte total do not matter. -/
theorem of_erase {key : AuthCacheKey} (hentries : s'.entries = s.entries.erase key)
    (hinflight : s'.inflight = s.inflight) (hepoch : s'.epoch = s.epoch) : Trims s s' := by
  refine ⟨fun k entry h => ?_, hinflight, hepoch⟩
  rw [hentries, lookup_erase_eq] at h
  split at h
  · exact absurd h (by simp)
  · exact h

end Trims

variable {s : AuthCacheState}

namespace AuthCacheState

theorem lookup_removeCacheEntry (s : AuthCacheState) (key k : AuthCacheKey) :
    (s.removeCacheEntry key).entries.lookup k =
      if k = key then none else s.entries.lookup k := by
  unfold removeCacheEntry
  cases hentry : s.entries.lookup key with
  | none =>
    simp only
    split
    · next h => rw [h, hentry]
    · rfl
  | some entry => exact lookup_erase_eq key k s.entries

@[simp]
theorem order_removeCacheEntry (s : AuthCacheState) (key : AuthCacheKey) :
    (s.removeCacheEntry key).order = s.order := by
  unfold removeCacheEntry
  split <;> rfl

theorem removeCacheEntry_trims (s : AuthCacheState) (key : AuthCacheKey) :
    Trims s (s.removeCacheEntry key) := by
  unfold removeCacheEntry
  cases s.entries.lookup key with
  | none => exact .refl s
  | some entry => exact .of_erase rfl rfl rfl

/-- Removing an entry and its place in the order. -/
theorem removed_trims (s : AuthCacheState) (key : AuthCacheKey) (order : List AuthCacheKey) :
    Trims s { s.removeCacheEntry key with order := order } :=
  (s.removeCacheEntry_trims key).trans ⟨fun _ _ h => h, rfl, rfl⟩

/-- An order without the removed key still holds every entry. -/
theorem Ordered.removed (h : s.Ordered) (key : AuthCacheKey) :
    Ordered { s.removeCacheEntry key with order := s.order.filter (· ≠ key) } := by
  intro k entry hentry
  change (s.removeCacheEntry key).entries.lookup k = some entry at hentry
  rw [lookup_removeCacheEntry] at hentry
  split at hentry
  · exact absurd hentry (by simp)
  · next hne => exact List.mem_filter.mpr ⟨h k entry hentry, by simpa using hne⟩

theorem replaceEntry_trims (s : AuthCacheState) (key : AuthCacheKey) :
    Trims s (s.replaceEntry key) := by
  unfold replaceEntry
  split
  · exact s.removed_trims key _
  · exact .refl s

theorem Ordered.replaceEntry (h : s.Ordered) (key : AuthCacheKey) :
    (s.replaceEntry key).Ordered := by
  unfold AuthCacheState.replaceEntry
  split
  · exact h.removed key
  · exact h

theorem expireTarget_trims (s : AuthCacheState) (key : AuthCacheKey) (now : ℕ) :
    Trims s (s.expireTarget key now) := by
  unfold expireTarget
  split
  · exact s.removed_trims key _
  · exact .refl s

theorem Ordered.expireTarget (h : s.Ordered) (key : AuthCacheKey) (now : ℕ) :
    (s.expireTarget key now).Ordered := by
  unfold AuthCacheState.expireTarget
  split
  · exact h.removed key
  · exact h

theorem evict_trims (limits : Limits) (bytes : ℕ) :
    ∀ (order : List AuthCacheKey) (s : AuthCacheState), Trims s (s.evict limits bytes order) := by
  intro order
  induction order with
  | nil => exact fun s => ⟨fun _ _ h => h, rfl, rfl⟩
  | cons old rest ih =>
    intro s
    rw [evict]
    split
    · exact (s.removeCacheEntry_trims old).trans (ih _)
    · exact ⟨fun _ _ h => h, rfl, rfl⟩

/-- When the first key of an order is removed, the rest of the order holds every entry. -/
theorem mem_rest_of_removed {old : AuthCacheKey} {rest : List AuthCacheKey}
    (h : ∀ key entry, s.entries.lookup key = some entry → key ∈ old :: rest) (key : AuthCacheKey)
    (entry : CacheEntry) (hentry : (s.removeCacheEntry old).entries.lookup key = some entry) :
    key ∈ rest := by
  rw [lookup_removeCacheEntry] at hentry
  split at hentry
  · exact absurd hentry (by simp)
  · next hne => exact (List.mem_cons.mp (h key entry hentry)).resolve_left hne

/-- The eviction loop keeps every entry it leaves in the order. -/
theorem evict_ordered (limits : Limits) (bytes : ℕ) :
    ∀ (order : List AuthCacheKey) (s : AuthCacheState),
      (∀ key entry, s.entries.lookup key = some entry → key ∈ order) →
        (s.evict limits bytes order).Ordered := by
  intro order
  induction order with
  | nil => exact fun s h => h
  | cons old rest ih =>
    intro s h
    rw [evict]
    split
    · exact ih _ (mem_rest_of_removed h)
    · exact h

/-- When the order holds every entry, the eviction loop stops only once the new entry fits or
nothing is left. -/
theorem evict_done (limits : Limits) (bytes : ℕ) :
    ∀ (order : List AuthCacheKey) (s : AuthCacheState),
      (∀ key entry, s.entries.lookup key = some entry → key ∈ order) →
        let s' := s.evict limits bytes order
        ¬ ((limits.authCacheMaxEntries ≤ s'.entries.size ∨
          limits.authCacheMaxBytes < saturatingAdd 64 s'.bytes bytes) ∧ s'.entries.size ≠ 0) := by
  intro order
  induction order with
  | nil =>
    intro s h s' hloop
    have hempty : s.entries = ∅ := eq_empty_of_lookup fun key => by
      cases hentry : s.entries.lookup key with
      | none => rfl
      | some entry => exact absurd (h key entry hentry) (by simp)
    exact hloop.2 (congrArg size hempty)
  | cons old rest ih =>
    intro s h
    rw [evict]
    split
    · exact ih _ (mem_rest_of_removed h)
    · next hstop => exact hstop

theorem pruneLoop_trims (now : ℕ) :
    ∀ (budget : ℕ) (s : AuthCacheState),
      Trims s (pruneLoop budget now s) ∧ (pruneLoop budget now s).order = s.order := by
  intro budget
  induction budget with
  | zero => exact fun s => ⟨.refl s, rfl⟩
  | succ budget ih =>
    intro s
    rw [pruneLoop]
    cases s.expirations.popFirst with
    | none => exact ⟨.refl s, rfl⟩
    | some first =>
      obtain ⟨e, u, rest⟩ := first
      simp only
      split
      · exact ⟨.refl s, rfl⟩
      · let popped : AuthCacheState := { s with
          expirations := rest
          entries := s.entries.erase e.key
          bytes := s.bytes - ((s.entries.lookup e.key).map CacheEntry.bytes).getD 0 }
        have hpopped : Trims s popped := .of_erase rfl rfl rfl
        obtain ⟨htrims, horder⟩ := ih popped
        exact ⟨hpopped.trans htrims, horder⟩

theorem pruneExpiredUpTo_trims (budget now : ℕ) (s : AuthCacheState) :
    Trims s (pruneExpiredUpTo budget now s) := by
  have h := (pruneLoop_trims now budget s).1
  unfold pruneExpiredUpTo
  simp only
  split
  · exact h
  · exact ⟨h.entries, h.inflight, h.epoch⟩

/-- An order from which only keys without an entry are dropped still holds every entry. -/
theorem Ordered.retain (h : s.Ordered) :
    Ordered { s with order := s.order.filter fun key => (s.entries.lookup key).isSome } := by
  intro key entry hentry
  refine List.mem_filter.mpr ⟨h key entry hentry, ?_⟩
  change s.entries.lookup key = some entry at hentry
  rw [hentry]
  rfl

theorem Ordered.pruneExpiredUpTo (h : s.Ordered) (budget now : ℕ) :
    (s.pruneExpiredUpTo budget now).Ordered := by
  obtain ⟨htrims, horder⟩ := pruneLoop_trims now budget s
  have hloop : (pruneLoop budget now s).Ordered := fun key entry hentry => by
    rw [horder]
    exact h key entry (htrims.entries key entry hentry)
  unfold AuthCacheState.pruneExpiredUpTo
  simp only
  split
  · exact hloop
  · exact hloop.retain

/-- What the cache holds after a result is recorded. -/
theorem insertCacheEntry_spec (limits : Limits) (s : AuthCacheState) (key : AuthCacheKey)
    (value : CachedAuth) (ttl bytes now : ℕ) (origin : Origin) :
    let s' := s.insertCacheEntry limits key value ttl bytes now origin
    s'.inflight = s.inflight ∧ s'.epoch = s.epoch ∧
      ∀ k entry, s'.entries.lookup k = some entry →
        entry.value = value ∧ entry.origin = origin ∨ s.entries.lookup k = some entry := by
  have htrims : Trims s ((s.replaceEntry key).evict limits bytes (s.replaceEntry key).order) :=
    (s.replaceEntry_trims key).trans (evict_trims limits bytes _ _)
  intro s'
  simp only [s', insertCacheEntry]
  split
  · refine ⟨htrims.inflight, htrims.epoch, fun k entry h => ?_⟩
    simp only [lookup_insert_eq] at h
    split at h
    · left
      obtain rfl := Option.some.inj h
      exact ⟨rfl, rfl⟩
    · exact .inr (htrims.entries k entry h)
  · exact ⟨htrims.inflight, htrims.epoch, fun k entry h => .inr (htrims.entries k entry h)⟩

theorem Ordered.insertCacheEntry (h : s.Ordered) (limits : Limits) (key : AuthCacheKey)
    (value : CachedAuth) (ttl bytes now : ℕ) (origin : Origin) :
    (s.insertCacheEntry limits key value ttl bytes now origin).Ordered := by
  have hevict := evict_ordered limits bytes _ _ (h.replaceEntry key)
  simp only [AuthCacheState.insertCacheEntry]
  split
  · intro k entry hentry
    simp only [lookup_insert_eq] at hentry
    split at hentry
    · next hk => exact List.mem_append.mpr (.inr (by simp [hk]))
    · exact List.mem_append.mpr (.inl (hevict k entry hentry))
  · exact hevict

/-- Removing a list of entries. -/
theorem foldl_removeCacheEntry_spec (keys : List AuthCacheKey) :
    ∀ s : AuthCacheState,
      let s' := keys.foldl removeCacheEntry s
      Trims s s' ∧ s'.order = s.order ∧ ∀ key ∈ keys, s'.entries.lookup key = none := by
  induction keys with
  | nil => exact fun s => ⟨.refl s, rfl, by simp⟩
  | cons first rest ih =>
    intro s s'
    obtain ⟨htrims, horder, hgone⟩ := ih (s.removeCacheEntry first)
    refine ⟨(s.removeCacheEntry_trims first).trans htrims, by
      rw [show s'.order = _ from horder, order_removeCacheEntry], fun key hkey => ?_⟩
    rcases List.mem_cons.mp hkey with rfl | hkey
    · -- it is gone after the first removal and does not come back
      cases hentry : s'.entries.lookup key with
      | none => rfl
      | some entry =>
        have hback := htrims.entries key entry hentry
        rw [lookup_removeCacheEntry, if_pos rfl] at hback
        exact absurd hback (by simp)
    · exact hgone key hkey

/-- After an invalidation the epoch is a new one, and what is still cached is the identity of
a device that the invalidation does not concern. -/
theorem invalidate_spec (s : AuthCacheState) (invalidation : AuthInvalidation) :
    let s' := s.invalidate invalidation
    s'.epoch = max (s.epoch + 1) 1 ∧ s'.inflight = s.inflight ∧
      ∀ key entry, s'.entries.lookup key = some entry →
        s.entries.lookup key = some entry ∧
          ∃ auth, entry.value.identity = some auth ∧ invalidates invalidation auth = false := by
  intro s'
  let removed := s.entries.keys.filter fun key =>
    (s.entries.lookup key).any fun entry =>
      (entry.value.identity.map (invalidates invalidation)).getD true
  obtain ⟨htrims, -, hgone⟩ := foldl_removeCacheEntry_spec removed s.beginEpoch
  refine ⟨htrims.epoch, htrims.inflight, fun key entry hentry => ?_⟩
  have hold : s.entries.lookup key = some entry := htrims.entries key entry hentry
  refine ⟨hold, ?_⟩
  by_contra hno
  -- an entry that the invalidation concerns is among the removed ones
  have hmem : key ∈ removed := by
    refine List.mem_filter.mpr ⟨mem_keys.mpr (mem_iff_lookup.mpr ⟨entry, hold⟩), ?_⟩
    rw [hold]
    cases hidentity : entry.value.identity with
    | none => simp [hidentity]
    | some auth =>
      cases hmatches : invalidates invalidation auth with
      | false => exact absurd ⟨auth, hidentity, hmatches⟩ hno
      | true => simp [hidentity, hmatches]
  have hnone := hgone key hmem
  rw [show (removed.foldl removeCacheEntry s.beginEpoch).entries.lookup key = some entry
    from hentry] at hnone
  exact absurd hnone (by simp)

theorem Ordered.invalidate (h : s.Ordered) (invalidation : AuthInvalidation) :
    (s.invalidate invalidation).Ordered := by
  refine Ordered.retain fun key entry hentry => ?_
  obtain ⟨htrims, horder, -⟩ := foldl_removeCacheEntry_spec _ s.beginEpoch
  rw [horder]
  exact h key entry (htrims.entries key entry hentry)

end AuthCacheState

end Netbaiot.Auth
