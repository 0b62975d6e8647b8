import Netbaiot.Quota.ConnectionCounting

/-!
# Read accounts

A read buffer is charged to the read account of its connection, the account to its tenant.  While
one buffer replaces another the account holds both.  `Accounts` says that an account is the sum
of its buffers, that those in use fit the ceiling of a connection, and that an account is marked
exactly while one replacement is under way, so its capacity is at most twice the ceiling
(`Accounts.capacity_le`).  `Charged` says that the read bytes of a tenant are those of the accounts
bound to it.
-/

namespace Netbaiot.Quota

open Lib AList

/-- The bytes of the new buffer of a replacement. -/
def ReadAllocationReplacement.bytes (r : ReadAllocationReplacement) : ℕ :=
  r.allocation.elim 0 ReadAllocationPermit.capacity

theorem ReadAllocationReplacement.bytes_eq (r : ReadAllocationReplacement)
    {p : ReadAllocationPermit} (h : r.allocation = some p) : r.bytes = p.capacity := by
  rw [bytes, h, Option.elim_some]

/-- The bytes of the buffers of an account that are in use. -/
def published (permits : Table ℕ ReadAllocationPermit) (id : ℕ) : ℕ :=
  permits.total fun _ p => if p.state = id then p.capacity else 0

/-- The bytes of the new buffers of replacements in an account. -/
def replaced (replacements : Table ℕ ReadAllocationReplacement) (id : ℕ) : ℕ :=
  replacements.total fun _ r => if r.state = id then r.bytes else 0

/-- The replacements under way in an account. -/
def underWay (replacements : Table ℕ ReadAllocationReplacement) (id : ℕ) : ℕ :=
  replacements.total fun _ r => if r.state = id then 1 else 0

/-- Read accounts are the sums of their buffers. -/
structure Accounts (limits : Limits) (states : Table ℕ ReadAllocationState)
    (permits : Table ℕ ReadAllocationPermit)
    (replacements : Table ℕ ReadAllocationReplacement) : Prop where
  capacity : ∀ id state, states.lookup id = some state →
    state.capacity = published permits id + replaced replacements id
  published_le : ∀ id, published permits id ≤ limits.maxReadBufferPerConnection
  marked : ∀ id, underWay replacements id =
    (states.lookup id).elim 0 fun state => state.replacing.toNat
  allocation : ∀ key r, replacements.lookup key = some r → ∀ p, r.allocation = some p →
    p.state = r.state ∧ p.capacity ≤ limits.maxReadBufferPerConnection
  known : ∀ key p, permits.lookup key = some p → p.state ∈ states

/-- What the entries of a table weigh changes for one account, and on the whole, by what is put in
instead of what was there. -/
structure Moved {ν : Type} (stateOf weight : ν → ℕ) (id less more : ℕ) (t t' : Table ℕ ν) :
    Prop where
  account : ∀ id', (t'.total fun _ v => if stateOf v = id' then weight v else 0) +
      (if id = id' then less else 0) =
    (t.total fun _ v => if stateOf v = id' then weight v else 0) + if id = id' then more else 0
  whole : (t'.total fun _ v => weight v) + less = (t.total fun _ v => weight v) + more

namespace Moved

variable {ν : Type} {stateOf weight : ν → ℕ} {t : Table ℕ ν} {key : ℕ} {v v' : ν}

theorem refl (id : ℕ) (t : Table ℕ ν) : Moved stateOf weight id 0 0 t t := ⟨fun _ => rfl, rfl⟩

theorem insert (hkey : t.lookup key = none) (v : ν) :
    Moved stateOf weight (stateOf v) 0 (weight v) t (t.insert key v) := by
  refine ⟨fun id' => ?_, ?_⟩
  · rw [total_insert_new _ hkey, ite_self, Nat.add_zero, Nat.add_comm]
  · rw [total_insert_new _ hkey, Nat.add_zero, Nat.add_comm]

theorem erase (hkey : t.lookup key = some v) :
    Moved stateOf weight (stateOf v) (weight v) 0 t (t.erase key) := by
  refine ⟨fun id' => ?_, ?_⟩
  · rw [total_of_lookup _ hkey, ite_self, Nat.add_zero, Nat.add_comm]
  · rw [total_of_lookup _ hkey, Nat.add_zero, Nat.add_comm]

theorem replace (hkey : t.lookup key = some v) (hv : stateOf v' = stateOf v) :
    Moved stateOf weight (stateOf v) (weight v) (weight v') t (t.insert key v') := by
  refine ⟨fun id' => ?_, ?_⟩
  · rw [total_insert, total_of_lookup _ hkey, hv]
    omega
  · rw [total_insert, total_of_lookup _ hkey]
    omega

end Moved

namespace Accounts

variable {limits : Limits} {states : Table ℕ ReadAllocationState}
  {permits permits' : Table ℕ ReadAllocationPermit}
  {replacements replacements' : Table ℕ ReadAllocationReplacement} {id key : ℕ}
  {state state' : ReadAllocationState} {r : ReadAllocationReplacement} {p : ReadAllocationPermit}

theorem empty (limits : Limits) : Accounts limits ∅ ∅ ∅ := by
  refine ⟨by simp, fun id => Nat.zero_le _, fun id => rfl, by simp, by simp⟩

/-- A buffer in use is part of what is in use. -/
theorem capacity_le_published (hlookup : permits.lookup key = some p) :
    p.capacity ≤ published permits p.state := by
  have hle := le_total (f := fun (_ : ℕ) (p' : ReadAllocationPermit) =>
    if p'.state = p.state then p'.capacity else 0) hlookup
  rwa [if_pos rfl] at hle

/-- The new buffer of a replacement is part of those of its account. -/
theorem bytes_le_replaced (hlookup : replacements.lookup key = some r) :
    r.bytes ≤ replaced replacements r.state := by
  have hle := le_total (f := fun (_ : ℕ) (r' : ReadAllocationReplacement) =>
    if r'.state = r.state then r'.bytes else 0) hlookup
  rwa [if_pos rfl] at hle

section

variable (h : Accounts limits states permits replacements)

include h

/-- The new buffer of a replacement fits the ceiling. -/
theorem bytes_le (hlookup : replacements.lookup key = some r) :
    r.bytes ≤ limits.maxReadBufferPerConnection := by
  obtain ⟨account, allocation⟩ := r
  cases allocation with
  | none => exact Nat.zero_le _
  | some p => exact (h.allocation key _ hlookup p rfl).2

/-- New buffers fit the ceiling once for each replacement. -/
theorem replaced_le (id : ℕ) :
    replaced replacements id ≤
      limits.maxReadBufferPerConnection * underWay replacements id := by
  rw [underWay, ← total_mul_left]
  refine total_le_total fun key r hlookup => ?_
  split
  · rw [Nat.mul_one]
    exact h.bytes_le hlookup
  · exact Nat.zero_le _

/-- An account fits the ceiling, or twice the ceiling during a replacement. -/
theorem capacity_le (hlookup : states.lookup id = some state) :
    state.capacity ≤ limits.maxReadBufferPerConnection * (1 + state.replacing.toNat) := by
  have hle := h.replaced_le id
  have hmarked := h.marked id
  have hpublished := h.published_le id
  rw [hlookup, Option.elim_some] at hmarked
  rw [hmarked] at hle
  rw [h.capacity id state hlookup, Nat.mul_add, Nat.mul_one]
  exact Nat.add_le_add hpublished hle

/-- A replacement under way marks an account. -/
theorem replacing_of_lookup (hlookup : replacements.lookup key = some r) :
    ∃ state, states.lookup r.state = some state ∧ state.replacing = true ∧
      underWay replacements r.state = 1 := by
  have hone : 1 ≤ underWay replacements r.state := by
    have hle := le_total (f := fun (_ : ℕ) (r' : ReadAllocationReplacement) =>
      if r'.state = r.state then 1 else 0) hlookup
    rwa [if_pos rfl] at hle
  have hmarked := h.marked r.state
  cases hstate : states.lookup r.state with
  | none =>
    rw [hstate, Option.elim_none] at hmarked
    omega
  | some state =>
    rw [hstate, Option.elim_some] at hmarked
    cases hreplacing : state.replacing with
    | false =>
      rw [hreplacing, Bool.toNat_false] at hmarked
      omega
    | true =>
      rw [hreplacing, Bool.toNat_true] at hmarked
      exact ⟨state, rfl, hreplacing, hmarked⟩

/-- One account changes together with its buffers. -/
theorem update (hcapacity : state'.capacity = published permits' id + replaced replacements' id)
    (hpublished : published permits' id ≤ limits.maxReadBufferPerConnection)
    (hmarked : underWay replacements' id = state'.replacing.toNat)
    (hother : ∀ id' ≠ id, published permits' id' = published permits id' ∧
      replaced replacements' id' = replaced replacements id' ∧
      underWay replacements' id' = underWay replacements id')
    (hallocation : ∀ key r, replacements'.lookup key = some r → ∀ p, r.allocation = some p →
      p.state = r.state ∧ p.capacity ≤ limits.maxReadBufferPerConnection)
    (hknown : ∀ key p, permits'.lookup key = some p → p.state ∈ states) :
    Accounts limits (states.insert id state') permits' replacements' := by
  refine ⟨fun id' state hlookup => ?_, fun id' => ?_, fun id' => ?_, hallocation,
    fun key p hlookup => ?_⟩
  · rcases of_lookup_insert hlookup with ⟨rfl, rfl⟩ | ⟨hne, hlookup⟩
    · exact hcapacity
    · obtain ⟨hsame, hsame', -⟩ := hother id' hne
      rw [hsame, hsame', h.capacity id' state hlookup]
  · by_cases heq : id' = id
    · rw [heq]
      exact hpublished
    · rw [(hother id' heq).1]
      exact h.published_le id'
  · rw [lookup_insert_eq]
    split
    · next heq => rw [heq, hmarked, Option.elim_some]
    · next hne => rw [(hother id' hne).2.2, h.marked id']
  · exact (mem_insert _).mpr (.inr (hknown key p hlookup))

/-- A connection gets a read account. -/
theorem newAccount (hnew : states.lookup id = none) (tenant : Option TenantId) :
    Accounts limits (states.insert id ⟨tenant, 0, false⟩) permits replacements := by
  have hmarked : underWay replacements id = 0 := by
    rw [h.marked id, hnew, Option.elim_none]
  have hreplaced : replaced replacements id = 0 := by
    have hle := h.replaced_le id
    rw [hmarked, Nat.mul_zero] at hle
    exact Nat.le_zero.mp hle
  have hpublished : published permits id = 0 := by
    refine total_eq_zero fun key p hlookup => ?_
    rw [if_neg]
    intro heq
    have hmem := h.known key p hlookup
    rw [heq] at hmem
    exact lookup_eq_none.mp hnew hmem
  refine h.update ?_ (h.published_le id) hmarked (fun _ _ => ⟨rfl, rfl, rfl⟩) h.allocation h.known
  rw [hpublished, hreplaced]

section

variable (hlookup : states.lookup id = some state)

include hlookup

/-- An account changes with its buffers. -/
theorem move {less more less' more' ended begun : ℕ}
    (hpermits : Moved ReadAllocationPermit.state ReadAllocationPermit.capacity id less more
      permits permits')
    (hreplaced : Moved ReadAllocationReplacement.state ReadAllocationReplacement.bytes id less'
      more' replacements replacements')
    (hunder : Moved ReadAllocationReplacement.state (fun _ => 1) id ended begun
      replacements replacements')
    (hcapacity : state'.capacity + (less + less') = state.capacity + (more + more'))
    (hmarked : state'.replacing.toNat + ended = state.replacing.toNat + begun)
    (hfits : published permits id + more ≤ limits.maxReadBufferPerConnection + less)
    (hallocation : ∀ key r, replacements'.lookup key = some r → ∀ p, r.allocation = some p →
      p.state = r.state ∧ p.capacity ≤ limits.maxReadBufferPerConnection)
    (hknown : ∀ key p, permits'.lookup key = some p → p.state ∈ states) :
    Accounts limits (states.insert id state') permits' replacements' := by
  have hsame : ∀ {x y less more : ℕ} {id' : ℕ}, id' ≠ id →
      x + (if id = id' then less else 0) = y + (if id = id' then more else 0) → x = y := by
    intro x y less more id' hne heq
    simpa [Ne.symm hne] using heq
  have hold := h.capacity id state hlookup
  have hmark := h.marked id
  rw [hlookup, Option.elim_some] at hmark
  have hpublished := hpermits.account id
  have hbytes := hreplaced.account id
  have hnumber := hunder.account id
  simp only [if_true] at hpublished hbytes hnumber
  simp only [published, replaced, underWay] at hold hmark hfits
  refine h.update ?_ ?_ ?_ (fun id' hne => ⟨hsame hne (hpermits.account id'),
    hsame hne (hreplaced.account id'), hsame hne (hunder.account id')⟩) hallocation hknown
  · simp only [published, replaced]
    omega
  · simp only [published]
    omega
  · simp only [underWay]
    omega

/-- An account is bound to a tenant. -/
theorem bind (tenant : Option TenantId) :
    Accounts limits (states.insert id { state with tenant := tenant }) permits replacements :=
  h.move hlookup (.refl _ _) (.refl _ _) (.refl _ _) rfl rfl (h.published_le id) h.allocation
    h.known

/-- A buffer is reserved. -/
theorem reserve (hcalm : state.replacing = false) {capacity : ℕ}
    (hfits : state.capacity + capacity ≤ limits.maxReadBufferPerConnection)
    (hkey : permits.lookup key = none) :
    Accounts limits
      (states.insert id { state with capacity := state.capacity + capacity, replacing := false })
      (permits.insert key ⟨id, capacity⟩) replacements := by
  have hcapacity := h.capacity id state hlookup
  refine h.move hlookup (.insert hkey ⟨id, capacity⟩) (.refl _ _) (.refl _ _) rfl ?_ ?_
    h.allocation (forall_lookup_insert h.known (mem_iff_lookup.mpr ⟨state, hlookup⟩))
  · rw [hcalm]
  · show published permits id + capacity ≤ _ + 0
    omega

/-- The successor of a buffer is reserved. -/
theorem replace (hcalm : state.replacing = false) {capacity : ℕ}
    (hfits : capacity ≤ limits.maxReadBufferPerConnection) (hkey : replacements.lookup key = none) :
    Accounts limits
      (states.insert id { state with capacity := state.capacity + capacity, replacing := true })
      permits (replacements.insert key ⟨id, some ⟨id, capacity⟩⟩) := by
  refine h.move hlookup (.refl _ _) (.insert hkey ⟨id, some ⟨id, capacity⟩⟩)
    (.insert hkey ⟨id, some ⟨id, capacity⟩⟩) ?_ ?_ (h.published_le id)
    (forall_lookup_insert h.allocation ?_) h.known
  · show state.capacity + capacity + 0 = state.capacity + (0 + capacity)
    omega
  · rw [hcalm]
    rfl
  · rintro p ⟨⟩
    exact ⟨rfl, hfits⟩

/-- A buffer grows in place. -/
theorem expand (hcalm : state.replacing = false)
    (hkey : permits.lookup key = some p) (hp : p.state = id) {additional : ℕ}
    (hfits : state.capacity + additional ≤ limits.maxReadBufferPerConnection) :
    Accounts limits
      (states.insert id { state with capacity := state.capacity + additional, replacing := false })
      (permits.insert key { p with capacity := p.capacity + additional }) replacements := by
  subst hp
  have hcapacity := h.capacity _ state hlookup
  refine h.move hlookup (.replace hkey rfl) (.refl _ _) (.refl _ _) ?_ ?_ ?_ h.allocation
    (forall_lookup_insert h.known (h.known key p hkey))
  · show state.capacity + additional + p.capacity = state.capacity + (p.capacity + additional)
    omega
  · rw [hcalm]
  · show published permits p.state + (p.capacity + additional) ≤ _ + p.capacity
    omega

end

/-- The new buffer of a replacement is put to use. -/
theorem commit (hr : replacements.lookup key = some r) (hp : r.allocation = some p)
    (hlookup : states.lookup r.state = some state)
    (hfits : state.capacity ≤ limits.maxReadBufferPerConnection) {key' : ℕ}
    (hkey : permits.lookup key' = none) :
    Accounts limits (states.insert r.state { state with replacing := false })
      (permits.insert key' p) (replacements.erase key) := by
  obtain ⟨hstate, -⟩ := h.allocation key r hr p hp
  obtain ⟨marked, hmarked, hreplacing, -⟩ := h.replacing_of_lookup hr
  cases hlookup.symm.trans hmarked
  have hbytes := r.bytes_eq hp
  have hcapacity := h.capacity r.state state hlookup
  have hle := bytes_le_replaced hr
  have hmoved : Moved ReadAllocationPermit.state ReadAllocationPermit.capacity r.state 0 p.capacity
      permits (permits.insert key' p) := by
    rw [← hstate]
    exact .insert hkey p
  refine h.move hlookup hmoved (.erase hr) (.erase hr) ?_ ?_ ?_
    (fun key₀ r₀ hr₀ => h.allocation key₀ r₀ (of_lookup_erase hr₀).2)
    (forall_lookup_insert h.known (hstate ▸ mem_iff_lookup.mpr ⟨state, hlookup⟩))
  · show state.capacity + (0 + r.bytes) = state.capacity + (p.capacity + 0)
    omega
  · rw [hreplacing]
    rfl
  · omega

/-- The new buffer of a replacement is dropped. -/
theorem abort (hr : replacements.lookup key = some r) (hp : r.allocation = some p)
    (hlookup : states.lookup p.state = some state) :
    Accounts limits
      (states.insert p.state { state with capacity := state.capacity - p.capacity })
      permits (replacements.insert key ⟨r.state, none⟩) := by
  obtain ⟨hstate, -⟩ := h.allocation key r hr p hp
  rw [hstate] at hlookup ⊢
  have hbytes := r.bytes_eq hp
  have hcapacity := h.capacity r.state state hlookup
  have hle := bytes_le_replaced hr
  refine h.move hlookup (.refl _ _) (.replace hr rfl) (.replace hr rfl) ?_ rfl (h.published_le _)
    (forall_lookup_insert h.allocation ?_) h.known
  · show state.capacity - p.capacity + (0 + r.bytes) = state.capacity
    omega
  · rintro p ⟨⟩

/-- A replacement whose new buffer is dropped ends. -/
theorem finishAbort (hr : replacements.lookup key = some r) (hnone : r.allocation = none)
    (hlookup : states.lookup r.state = some state) :
    Accounts limits (states.insert r.state { state with replacing := false }) permits
      (replacements.erase key) := by
  obtain ⟨marked, hmarked, hreplacing, -⟩ := h.replacing_of_lookup hr
  cases hlookup.symm.trans hmarked
  have hbytes : r.bytes = 0 := by
    rw [ReadAllocationReplacement.bytes, hnone, Option.elim_none]
  refine h.move hlookup (.refl _ _) (.erase hr) (.erase hr) ?_ ?_ (h.published_le _)
    (fun key₀ r₀ hr₀ => h.allocation key₀ r₀ (of_lookup_erase hr₀).2) h.known
  · rw [hbytes]
  · rw [hreplacing]
    rfl

/-- A buffer in use is dropped. -/
theorem drop (hkey : permits.lookup key = some p) (hlookup : states.lookup p.state = some state) :
    Accounts limits
      (states.insert p.state { state with capacity := state.capacity - p.capacity })
      (permits.erase key) replacements := by
  have hle := capacity_le_published hkey
  have hcapacity := h.capacity p.state state hlookup
  refine h.move hlookup (.erase hkey) (.refl _ _) (.refl _ _) ?_ rfl
    ((h.published_le _).trans (Nat.le_add_right _ _)) h.allocation
    fun key₀ p₀ hp₀ => h.known key₀ p₀ (of_lookup_erase hp₀).2
  show state.capacity - p.capacity + p.capacity = state.capacity
  omega

end

end Accounts

/-! ## Tenants -/

/-- The bytes of an account that are those of a tenant. -/
def ReadAllocationState.bytesOf (state : ReadAllocationState) (tenant : TenantId) : ℕ :=
  if state.tenant = some tenant then state.capacity else 0

/-- The read bytes of a tenant are those of the accounts bound to it, and fit its limit together
with the reservations of its connections. -/
structure Charged (limits : Limits) (counts : ConnectionCounts)
    (states : Table ℕ ReadAllocationState) : Prop where
  readBytes : ∀ tenant, (counts.tenantOf tenant).readBytes =
    states.total fun _ state => state.bytesOf tenant
  within : ∀ tenant, (counts.tenantOf tenant).connections * limits.connectionMemoryReservation +
    (counts.tenantOf tenant).readBytes ≤ limits.maxConnectionBytesPerTenant

namespace Charged

variable {limits : Limits} {counts counts' : ConnectionCounts}
  {states : Table ℕ ReadAllocationState} {id : ℕ} {state : ReadAllocationState}

theorem empty (limits : Limits) : Charged limits ⟨∅, ∅, ∅, fun _ => 0, fun _ => 0⟩ ∅ := by
  refine ⟨fun tenant => rfl, fun tenant => ?_⟩
  show 0 * _ + 0 ≤ _
  omega

/-- An account bound to a tenant is part of its read bytes. -/
theorem capacity_le (h : Charged limits counts states) (hlookup : states.lookup id = some state)
    {tenant : TenantId} (hbound : state.tenant = some tenant) :
    state.capacity ≤ (counts.tenantOf tenant).readBytes := by
  have hle := le_total (f := fun (_ : ℕ) (state : ReadAllocationState) =>
    state.bytesOf tenant) hlookup
  rwa [ReadAllocationState.bytesOf, if_pos hbound, ← h.readBytes] at hle

/-- A new account has no bytes. -/
theorem newAccount (h : Charged limits counts states) (hnew : states.lookup id = none)
    (tenant : Option TenantId) : Charged limits counts (states.insert id ⟨tenant, 0, false⟩) := by
  refine ⟨fun tenant' => ?_, h.within⟩
  rw [h.readBytes, total_insert_new _ hnew, ReadAllocationState.bytesOf, ite_self, Nat.zero_add]

/-- One account changes, and the read bytes of tenants follow. -/
theorem change (h : Charged limits counts states) (hlookup : states.lookup id = some state)
    {state' : ReadAllocationState}
    (hread : ∀ tenant, (counts'.tenantOf tenant).readBytes + state.bytesOf tenant =
      (counts.tenantOf tenant).readBytes + state'.bytesOf tenant)
    (hwithin : ∀ tenant,
      (counts'.tenantOf tenant).connections * limits.connectionMemoryReservation +
        (counts'.tenantOf tenant).readBytes ≤ limits.maxConnectionBytesPerTenant) :
    Charged limits counts' (states.insert id state') := by
  refine ⟨fun tenant => ?_, hwithin⟩
  have hold := total_of_lookup (fun (_ : ℕ) (state : ReadAllocationState) =>
    state.bytesOf tenant) hlookup
  have hread := hread tenant
  rw [h.readBytes, hold] at hread
  rw [total_insert]
  omega

/-- Counts with the same read bytes and fewer connections are as good. -/
theorem ofConnections (h : Charged limits counts states)
    (hread : ∀ tenant, (counts'.tenantOf tenant).readBytes = (counts.tenantOf tenant).readBytes)
    (hle : ∀ tenant, (counts'.tenantOf tenant).connections ≤ (counts.tenantOf tenant).connections) :
    Charged limits counts' states := by
  refine ⟨fun tenant => (hread tenant).trans (h.readBytes tenant), fun tenant => ?_⟩
  rw [hread]
  exact (Nat.add_le_add_right (Nat.mul_le_mul_right _ (hle tenant)) _).trans (h.within tenant)

/-- A connection ends. -/
theorem dropLease (h : Charged limits counts states) (lease : ConnectionLease) :
    Charged limits (counts.dropLease lease) states := by
  refine h.ofConnections (fun tenant => ?_) fun tenant => ?_
  · rw [ConnectionCounts.tenantOf_dropLease]
    split <;> rfl
  · rw [ConnectionCounts.tenantOf_dropLease]
    split
    · exact Nat.sub_le _ _
    · exact le_rfl

end Charged

/-- The bytes of a tenant are checked against its limit. -/
theorem checkConnectionTenantBytes_le {limits : Limits} {connections readBytes : ℕ}
    (h : checkConnectionTenantBytes limits connections readBytes = .ok ()) :
    connections * limits.connectionMemoryReservation + readBytes ≤
      limits.maxConnectionBytesPerTenant := by
  unfold checkConnectionTenantBytes at h
  cases hmul : checkedMul 64 connections limits.connectionMemoryReservation with
  | none => simp [hmul] at h
  | some fixed =>
    cases hadd : checkedAdd 64 fixed readBytes with
    | none => simp [hmul, hadd] at h
    | some total =>
      obtain ⟨-, rfl⟩ := checkedMul_eq_some.mp hmul
      obtain ⟨-, rfl⟩ := checkedAdd_eq_some.mp hadd
      simpa [hmul, hadd] using h

end Netbaiot.Quota
