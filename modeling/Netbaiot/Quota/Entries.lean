import Netbaiot.Lib.Follows
import Netbaiot.Quota.Admission

/-!
# What a section under the lock does to the tables

Pruning spares every entry one of whose permits is in use, and new entries get a semaphore
of their own.  So an entry that is in use keeps its semaphore through every section, and
the entries of a table always name semaphores of the table's capacity.
-/

namespace Netbaiot.Quota

open Lib Op AList

variable {units : ℕ}

namespace Registry

/-- Semaphores are numbered in the order in which they are made. -/
def Fresh (r : Registry) : Prop :=
  ∀ number semaphore, r.semaphores.lookup number = some semaphore → number < r.nextSlots

/-- Some permits of the entry's semaphore are in use. -/
def Busy (r : Registry) (capacity : ℕ) (entry : AdmissionEntry) : Prop :=
  ∃ semaphore, r.semaphores.lookup entry.slots = some semaphore ∧
    semaphore.availablePermits < capacity

/-- The tables hold these semaphores for a device and its tenant. -/
def Registered (r : Registry) (device : DeviceKey) (found : ℕ × ℕ) : Prop :=
  (r.devices.lookup device).map AdmissionEntry.slots = some found.1 ∧
    (r.tenants.lookup device.tenantId).map AdmissionEntry.slots = some found.2

end Registry

/-! ## One table -/

section Entries

variable {κ : Type} [DecidableEq κ] {capacity : ℕ} {r r' r'' : Registry}
  {t t' t'' : Table κ AdmissionEntry}

/-- Entries in use keep their semaphore; every other semaphore in the table is a new one. -/
structure EntriesEvolve (capacity : ℕ) (r r' : Registry) (t t' : Table κ AdmissionEntry) :
    Prop where
  busy : ∀ key entry, t.lookup key = some entry → r.Busy capacity entry →
    ∃ entry', t'.lookup key = some entry' ∧ entry'.slots = entry.slots
  origin : ∀ key entry', t'.lookup key = some entry' →
    (∃ entry, t.lookup key = some entry ∧ entry'.slots = entry.slots) ∨
      r'.semaphores.lookup entry'.slots = some (.new capacity)

namespace EntriesEvolve

theorem refl : EntriesEvolve capacity r r' t t where
  busy _ entry h _ := ⟨entry, h, rfl⟩
  origin _ entry h := .inl ⟨entry, h, rfl⟩

theorem trans
    (hkept : ∀ number semaphore, r.semaphores.lookup number = some semaphore →
      r'.semaphores.lookup number = some semaphore)
    (hkept' : ∀ number semaphore, r'.semaphores.lookup number = some semaphore →
      r''.semaphores.lookup number = some semaphore)
    (h : EntriesEvolve capacity r r' t t') (h' : EntriesEvolve capacity r' r'' t' t'') :
    EntriesEvolve capacity r r'' t t'' where
  busy key entry hentry hbusy := by
    obtain ⟨semaphore, hsemaphore, hused⟩ := hbusy
    obtain ⟨entry', hentry', hslots⟩ := h.busy key entry hentry ⟨semaphore, hsemaphore, hused⟩
    have hbusy' : r'.Busy capacity entry' :=
      ⟨semaphore, by rw [hslots]; exact hkept _ _ hsemaphore, hused⟩
    obtain ⟨entry'', hentry'', hslots'⟩ := h'.busy key entry' hentry' hbusy'
    exact ⟨entry'', hentry'', hslots'.trans hslots⟩
  origin key entry'' hentry'' := by
    rcases h'.origin key entry'' hentry'' with ⟨entry', hentry', hslots'⟩ | hnew
    · rcases h.origin key entry' hentry' with ⟨entry, hentry, hslots⟩ | hnew
      · exact .inl ⟨entry, hentry, hslots'.trans hslots⟩
      · exact .inr (by rw [hslots']; exact hkept' _ _ hnew)
    · exact .inr hnew

/-- Pruning drops only entries none of whose permits is in use. -/
theorem prune (limits : Limits) (now : ℕ) (key : κ) :
    EntriesEvolve capacity r r' t (prune limits r now capacity key t) := by
  unfold Quota.prune
  split
  · exact refl
  · refine ⟨fun k entry hentry hbusy => ⟨entry, ?_, rfl⟩, fun k entry hentry => ?_⟩
    · obtain ⟨semaphore, hsemaphore, hused⟩ := hbusy
      simp [lookup_retain, hentry, Registry.availablePermits, hsemaphore, hused]
    · rw [lookup_retain, Option.filter_eq_some_iff] at hentry
      exact .inl ⟨entry, hentry.1, rfl⟩

/-- An entry may change apart from its semaphore. -/
theorem insert {key : κ} {entry entry' : AdmissionEntry} (h : t.lookup key = some entry)
    (hslots : entry'.slots = entry.slots) :
    EntriesEvolve capacity r r' t (t.insert key entry') := by
  refine ⟨fun k old hold _ => ?_, fun k new hnew => ?_⟩
  · rw [lookup_insert_eq]
    by_cases hk : k = key
    · subst hk
      obtain rfl : entry = old := Option.some.inj (h.symm.trans hold)
      exact ⟨entry', if_pos rfl, hslots⟩
    · exact ⟨old, by rw [if_neg hk, hold], rfl⟩
  · rw [lookup_insert_eq] at hnew
    by_cases hk : k = key
    · subst hk
      rw [if_pos rfl, Option.some.injEq] at hnew
      subst hnew
      exact .inl ⟨entry, h, hslots⟩
    · rw [if_neg hk] at hnew
      exact .inl ⟨new, hnew, rfl⟩

end EntriesEvolve

/-- Semaphores stay, and further ones begin with all their permits. -/
structure SemaphoresGrow (r r' : Registry) : Prop where
  kept : ∀ number semaphore, r.semaphores.lookup number = some semaphore →
    r'.semaphores.lookup number = some semaphore
  made : ∀ number semaphore, r'.semaphores.lookup number = some semaphore →
    r.semaphores.lookup number = some semaphore ∨
      r.semaphores.lookup number = none ∧ ∃ capacity, semaphore = .new capacity

theorem SemaphoresGrow.of_eq (h : r'.semaphores = r.semaphores) : SemaphoresGrow r r' := by
  refine ⟨fun number semaphore hold => ?_, fun number semaphore hnew => .inl ?_⟩
  · rwa [h]
  · rwa [h] at hnew

theorem SemaphoresGrow.trans (h : SemaphoresGrow r r') (h' : SemaphoresGrow r' r'') :
    SemaphoresGrow r r'' where
  kept number semaphore hold := h'.kept number semaphore (h.kept number semaphore hold)
  made number semaphore hnew := by
    rcases h'.made number semaphore hnew with hmid | ⟨hnone, hcapacity⟩
    · exact h.made number semaphore hmid
    · refine .inr ⟨Option.eq_none_iff_forall_ne_some.mpr fun old hold => ?_, hcapacity⟩
      rw [h.kept number old hold] at hnone
      cases hnone

/-- What making the entry of a key does, with the table it belongs to. -/
structure Made (capacity : ℕ) (r : Registry) (t : Table κ AdmissionEntry)
    (out : AdmissionEntry × Table κ AdmissionEntry × Registry) : Prop where
  fresh : out.2.2.Fresh
  grow : SemaphoresGrow r out.2.2
  entries : EntriesEvolve capacity r out.2.2 t out.2.1
  devices : out.2.2.devices = r.devices
  tenants : out.2.2.tenants = r.tenants

/-- The entry of a key keeps its semaphore, or gets a new one. -/
theorem orInsert_spec (now capacity : ℕ) (key : κ) (t : Table κ AdmissionEntry) (hfresh : r.Fresh) :
    Made capacity r t (orInsert now capacity key t r) := by
  unfold orInsert
  cases hkey : t.lookup key with
  | some entry =>
    exact {
      fresh := hfresh
      grow := .of_eq rfl
      entries := .refl
      devices := rfl
      tenants := rfl }
  | none =>
    have hunused : r.semaphores.lookup r.nextSlots = none := by
      refine Option.eq_none_iff_forall_ne_some.mpr fun semaphore h => ?_
      exact lt_irrefl _ (hfresh _ _ h)
    refine ⟨fun number semaphore h => ?_, ⟨fun number semaphore h => ?_, fun number semaphore h =>
      ?_⟩, ⟨fun k entry hentry _ => ⟨entry, ?_, rfl⟩, fun k entry hentry => ?_⟩, rfl, rfl⟩
    · show number < r.nextSlots + 1
      rw [lookup_insert_eq] at h
      split at h
      · omega
      · have := hfresh number semaphore h
        omega
    · rw [lookup_insert_eq, if_neg]
      · exact h
      · rintro rfl
        rw [hunused] at h
        cases h
    · rw [lookup_insert_eq] at h
      split at h
      · next hnumber =>
        cases h
        exact .inr ⟨by rw [hnumber, hunused], capacity, rfl⟩
      · exact .inl h
    · rw [lookup_insert_eq, if_neg]
      · exact hentry
      · rintro rfl
        rw [hkey] at hentry
        cases hentry
    · rw [lookup_insert_eq] at hentry
      split at hentry
      · cases hentry
        exact .inr (lookup_insert _)
      · exact .inl ⟨entry, hentry, rfl⟩

end Entries

/-! ## Sections -/

/-- What every section under the lock does. -/
structure Grown (limits : Limits) (r r' : Registry) : Prop where
  fresh : r'.Fresh
  semaphores : SemaphoresGrow r r'
  devices : EntriesEvolve limits.maxIngressPerDevice r r' r.devices r'.devices
  tenants : EntriesEvolve limits.maxIngressPerTenant r r' r.tenants r'.tenants

/-- From a registry with fresh numbers the section only lets it grow. -/
def Evolves (limits : Limits) (r r' : Registry) : Prop := r.Fresh → Grown limits r r'

variable {limits : Limits} {now : ℕ} {r r' : Registry} {device : DeviceKey}

instance : Std.Refl (Evolves limits) where
  refl _ hfresh := ⟨hfresh, .of_eq rfl, .refl, .refl⟩

instance : IsTrans Registry (Evolves limits) where
  trans _ _ _ h h' hfresh := by
    have hfirst := h hfresh
    have hsecond := h' hfirst.fresh
    have hkept := hfirst.semaphores.kept
    have hkept' := hsecond.semaphores.kept
    exact {
      fresh := hsecond.fresh
      semaphores := hfirst.semaphores.trans hsecond.semaphores
      devices := hfirst.devices.trans hkept hkept' hsecond.devices
      tenants := hfirst.tenants.trans hkept hkept' hsecond.tenants }

/-- A section that changes the device table and makes no semaphore. -/
theorem Evolves.of_devices {devices : Table DeviceKey AdmissionEntry}
    (h : EntriesEvolve limits.maxIngressPerDevice r r r.devices devices) :
    Evolves limits r { r with devices := devices } :=
  fun hfresh => ⟨hfresh, .of_eq rfl, ⟨h.busy, h.origin⟩, .refl⟩

/-- A section that changes the tenant table and makes no semaphore. -/
theorem Evolves.of_tenants {tenants : Table TenantId AdmissionEntry}
    (h : EntriesEvolve limits.maxIngressPerTenant r r r.tenants tenants) :
    Evolves limits r { r with tenants := tenants } :=
  fun hfresh => ⟨hfresh, .of_eq rfl, .refl, ⟨h.busy, h.origin⟩⟩

theorem follows_makeRoom : Follows (Evolves limits) (makeRoom limits now device) := by
  intro r
  refine followsAt_modify_bind (.of_devices (.prune limits now device)) ?_
  refine followsAt_modify_bind (.of_tenants (.prune limits now device.tenantId)) ?_
  exact followsAt_get_bind (followsAt_ensure _ _ _)

theorem follows_deviceEntry : Follows (Evolves limits) (deviceEntry limits now device) := by
  intro r hfresh
  have hmade := orInsert_spec now limits.maxIngressPerDevice device r.devices hfresh
  refine ⟨hmade.fresh, ⟨hmade.grow.kept, hmade.grow.made⟩,
    ⟨hmade.entries.busy, hmade.entries.origin⟩, ?_⟩
  show EntriesEvolve _ _ _ _
    (orInsert now limits.maxIngressPerDevice device r.devices r).2.2.tenants
  rw [hmade.tenants]
  exact .refl

theorem follows_tenantEntry {tenant : TenantId} :
    Follows (Evolves limits) (tenantEntry limits now tenant) := by
  intro r hfresh
  have hmade := orInsert_spec now limits.maxIngressPerTenant tenant r.tenants hfresh
  refine ⟨hmade.fresh, ⟨hmade.grow.kept, hmade.grow.made⟩, ?_,
    ⟨hmade.entries.busy, hmade.entries.origin⟩⟩
  show EntriesEvolve _ _ _ _
    (orInsert now limits.maxIngressPerTenant tenant r.tenants r).2.2.devices
  rw [hmade.devices]
  exact .refl

theorem follows_takeGlobal : Follows (Evolves limits) (takeGlobal limits now units) := by
  intro r
  refine followsAt_get_bind (followsAt_modify_bind ?_ (followsAt_fromExcept _ _))
  exact fun hfresh => ⟨hfresh, .of_eq rfl, .refl, .refl⟩

theorem follows_takeDevice : Follows (Evolves limits) (takeDevice limits now units device) := by
  intro r
  refine followsAt_get_bind (followsAt_someOr_bind fun entry hentry => ?_)
  exact followsAt_modify_bind (.of_devices (.insert hentry rfl)) (followsAt_fromExcept _ _)

theorem follows_takeTenant {tenant : TenantId} :
    Follows (Evolves limits) (takeTenant limits now units tenant) := by
  intro r
  refine followsAt_get_bind (followsAt_someOr_bind fun entry hentry => ?_)
  exact followsAt_modify_bind (.of_tenants (.insert hentry rfl)) (followsAt_fromExcept _ _)

theorem follows_finishAcquire : Follows (Evolves limits) (finishAcquire limits now device) :=
  follows_takeGlobal.bind fun _ => follows_takeDevice.bind fun _ => follows_takeTenant

theorem follows_checkRateWeighted :
    Follows (Evolves limits) (checkRateWeighted limits now device units) := by
  intro r
  refine followsAt_ensure_bind fun _ => ?_
  refine follows_takeGlobal.bind (fun _ => follows_makeRoom.bind fun _ => ?_) r
  refine follows_deviceEntry.bind fun _ => follows_takeDevice.bind fun _ => ?_
  exact follows_tenantEntry.bind fun _ => follows_takeTenant

theorem follows_entrySlots : Follows (Evolves limits) (entrySlots limits now device) := by
  refine follows_makeRoom.bind fun _ => follows_deviceEntry.bind fun _ => ?_
  exact follows_tenantEntry.bind fun _ => fun s => followsAt_pure _ s

end Netbaiot.Quota
