import Netbaiot.Lib.Follows
import Netbaiot.Rpc.Registry

/-!
# What operations on the provider do to pending calls

An entry is pending only under the epoch of the registered provider.  Every operation on
the provider keeps this: it drops the entries that would no longer belong to the provider,
and dropping an entry gives its permits back.
-/

namespace Netbaiot.Rpc

open Lib AList

variable {epoch : UInt64} {p : Provider}

/-! ## The registry -/

namespace Registry

variable {r r' : Registry} {key : PendingKey}

/-- The slots that are available or pending. -/
def slots (r : Registry) : ℕ := r.pendingSlots + r.pending.size

/-- The bytes that are available, pending or in messages. -/
def bytes (r : Registry) : ℕ :=
  r.pendingBytes + r.pending.total (fun _ p => p.bytes) + (r.outbound.map fun m => m.bytes).sum

/-- Every pending entry is under the epoch of the registered provider. -/
def Owned (r : Registry) : Prop :=
  ∀ key p, r.pending.lookup key = some p → r.provider.any (fun q => q.epoch = key.1) = true

/-- Only pending entries were dropped, and their permits were given back. -/
structure Drops (r r' : Registry) : Prop where
  slots : r'.slots = r.slots
  bytes : r'.bytes = r.bytes
  pending : ∀ key p, r'.pending.lookup key = some p → r.pending.lookup key = some p

theorem Drops.refl (r : Registry) : Drops r r := ⟨rfl, rfl, fun _ _ h => h⟩

theorem Drops.trans {r'' : Registry} (h : Drops r r') (h' : Drops r' r'') : Drops r r'' :=
  ⟨h'.slots.trans h.slots, h'.bytes.trans h.bytes,
    fun key p hp => h.pending key p (h'.pending key p hp)⟩

@[simp] theorem provider_dropPending : (r.dropPending key).provider = r.provider := by
  unfold dropPending
  split <;> rfl

theorem lookup_dropPending (key' : PendingKey) : (r.dropPending key).pending.lookup key' =
    if key' = key then none else r.pending.lookup key' := by
  unfold dropPending
  split
  · next hnone =>
    split
    · next heq => rw [heq, hnone]
    · rfl
  · exact lookup_erase_eq key key' r.pending

theorem Drops.dropPending (r : Registry) (key : PendingKey) : Drops r (r.dropPending key) := by
  refine ⟨?_, ?_, ?_⟩
  · unfold Registry.dropPending
    split
    · rfl
    · next p hp =>
      have hsize := size_erase hp
      simp only [Registry.slots]
      omega
  · unfold Registry.dropPending
    split
    · rfl
    · next p hp =>
      have hmove := total_of_lookup (fun (_ : PendingKey) (p : Pending) => p.bytes) hp
      simp only [Registry.bytes]
      omega
  · intro key' p hp
    rw [lookup_dropPending] at hp
    split at hp
    · cases hp
    · exact hp

theorem Drops.dropEpoch (r : Registry) (epoch : UInt64) : Drops r (r.dropEpoch epoch) := by
  unfold Registry.dropEpoch
  generalize r.pending.keys.filter (fun key => key.1 = epoch) = keys
  induction keys generalizing r with
  | nil => exact .refl r
  | cons key keys ih => exact (Drops.dropPending r key).trans (ih _)

@[simp] theorem provider_dropEpoch (r : Registry) (epoch : UInt64) :
    (r.dropEpoch epoch).provider = r.provider := by
  unfold dropEpoch
  generalize r.pending.keys.filter (fun key => key.1 = epoch) = keys
  induction keys generalizing r with
  | nil => rfl
  | cons key keys ih => exact (ih _).trans provider_dropPending

/-- No entry of the epoch stays pending. -/
theorem lookup_dropEpoch (r : Registry) (epoch : UInt64) (hkey : key.1 = epoch) :
    (r.dropEpoch epoch).pending.lookup key = none := by
  have hdropped : ∀ (keys : List PendingKey) (r : Registry),
      key ∈ keys ∨ r.pending.lookup key = none →
      (keys.foldl dropPending r).pending.lookup key = none := by
    intro keys
    induction keys with
    | nil =>
      intro r h
      rcases h with hmem | hnone
      · cases hmem
      · exact hnone
    | cons key' keys ih =>
      intro r h
      apply ih
      rw [lookup_dropPending]
      rcases h with hmem | hnone
      · rcases List.mem_cons.mp hmem with rfl | hmem
        · exact .inr (if_pos rfl)
        · exact .inl hmem
      · right
        split
        · rfl
        · exact hnone
  apply hdropped
  cases hlookup : r.pending.lookup key with
  | none => exact .inr rfl
  | some p =>
    refine .inl (List.mem_filter.mpr ⟨?_, by simpa using hkey⟩)
    exact mem_keys.mp (mem_iff_lookup.mpr ⟨p, hlookup⟩)

/-- Making an entry pending charges its permits. -/
theorem insertPending_charge (r : Registry) (key : PendingKey) (p : Pending) :
    (r.insertPending key p).slots = r.slots + 1 ∧
      (r.insertPending key p).bytes = r.bytes + p.bytes := by
  have hdrop := Drops.dropPending r key
  have hnone : (r.dropPending key).pending.lookup key = none := by
    rw [lookup_dropPending, if_pos rfl]
  have hsize : ((r.dropPending key).pending.insert key p).size =
      (r.dropPending key).pending.size + 1 := by
    rw [size_eq_total, total_insert_new _ hnone, ← size_eq_total, Nat.add_comm]
  have htotal := total_insert_new (fun (_ : PendingKey) (p : Pending) => p.bytes) hnone (v := p)
  constructor
  · rw [← hdrop.slots]
    simp only [slots, insertPending, hsize]
    omega
  · rw [← hdrop.bytes]
    simp only [bytes, insertPending, htotal]
    omega

theorem lookup_insertPending (p : Pending) (key' : PendingKey) :
    (r.insertPending key p).pending.lookup key' =
      if key' = key then some p else r.pending.lookup key' := by
  simp only [insertPending, lookup_insert_eq, lookup_dropPending]
  split <;> rfl

@[simp] theorem provider_insertPending (p : Pending) :
    (r.insertPending key p).provider = r.provider := provider_dropPending

/-- Dropping entries keeps the others owned, if the provider stays. -/
theorem Owned.drops (h : r.Owned) (hdrops : Drops r r') (hprovider : r'.provider = r.provider) :
    r'.Owned := by
  intro key p hp
  rw [hprovider]
  exact h key p (hdrops.pending key p hp)

/-- The entries of another provider can only be there if its epoch is dropped. -/
theorem Owned.replaced (h : r.Owned) (hp : r.provider = some p) (hepoch : p.epoch = epoch)
    {pending : Pending} (hpending : r.pending.lookup key = some pending) : key.1 = epoch := by
  have hany := h key pending hpending
  rw [hp] at hany
  simp only [Option.any_some, hepoch, decide_eq_true_eq] at hany
  exact hany.symm

/-- What an operation on the provider does to the pending entries. -/
structure Moves (r r' : Registry) : Prop where
  drops : Drops r r'
  owned : r.Owned → r'.Owned

instance : Std.Refl Moves := ⟨fun r => ⟨.refl r, id⟩⟩

end Registry

open Op

theorem exec_currentProvider_bind {α : Type} (epoch : UInt64) (f : Provider → RegistryM α)
    (r : Registry) : exec (currentProvider epoch >>= f) r =
      match r.provider.filter fun p => p.epoch = epoch with
      | some p => exec (f p) r
      | none => (.error .unavailable, r) := by
  rw [currentProvider, bind_assoc, exec_get_bind, exec_someOr_bind]
  cases r.provider.filter fun p => p.epoch = epoch <;> rfl

theorem filter_epoch_eq_some {provider : Option Provider}
    (h : provider.filter (fun p => p.epoch = epoch) = some p) :
    provider = some p ∧ p.epoch = epoch := by
  simpa [Option.filter_eq_some_iff] using h

/-- An operation of a lease that is not current does nothing. -/
theorem followsAt_currentProvider_bind {α : Type} {R : Registry → Registry → Prop} [Std.Refl R]
    {f : Provider → RegistryM α} {r : Registry}
    (h : ∀ p, r.provider = some p → p.epoch = epoch → FollowsAt R (f p) r) :
    FollowsAt R (currentProvider epoch >>= f) r := by
  rw [FollowsAt, exec_currentProvider_bind]
  split
  · next p hp =>
    obtain ⟨hprovider, hepoch⟩ := filter_epoch_eq_some hp
    exact h p hprovider hepoch
  · exact Std.Refl.refl r

open Registry

theorem moves_registerWithExpiry (scope : BusinessProviderScope) (expiresAtMs : Option Int64)
    (instant : ℕ) : Follows Moves (registerWithExpiry scope expiresAtMs instant) := by
  intro r
  refine followsAt_get_bind (followsAt_ensure_bind fun hnone => ?_)
  refine ⟨⟨rfl, rfl, fun _ _ h => h⟩, fun howned key p hp => ?_⟩
  -- Without a provider nothing was pending.
  have hany := howned key p hp
  rw [Option.isNone_iff_eq_none.mp hnone] at hany
  cases hany

theorem moves_markServing (epoch : UInt64) (revision : ℕ) (nowMs : Int64) (instant : ℕ) :
    Follows Moves (markServing epoch revision nowMs instant) := by
  intro r
  refine followsAt_currentProvider_bind fun p hp hepoch => ?_
  refine followsAt_ensure_bind fun _ => followsAt_ensure_bind fun _ =>
    followsAt_ensure_bind fun _ => followsAt_modify
      ⟨⟨rfl, rfl, fun _ _ h => h⟩, fun howned key pending hpending => ?_⟩
  have hkey := howned.replaced hp hepoch hpending
  simp [updateStatus, setProvider, hkey, hepoch]

theorem drops_dropEpoch (r : Registry) (q : Option Provider) (epoch : UInt64) :
    Drops r ((r.setProvider q).dropEpoch epoch) :=
  have h := Drops.dropEpoch (r.setProvider q) epoch
  ⟨h.slots, h.bytes, h.pending⟩

/-- After the entries of the current provider are dropped nothing is pending. -/
theorem owned_dropEpoch {r : Registry} (q : Option Provider) (hp : r.provider = some p)
    (hepoch : p.epoch = epoch) (howned : r.Owned) : ((r.setProvider q).dropEpoch epoch).Owned := by
  intro key pending hpending
  have hkey := howned.replaced hp hepoch
    ((Drops.dropEpoch (r.setProvider q) epoch).pending key pending hpending)
  rw [lookup_dropEpoch _ _ hkey] at hpending
  cases hpending

theorem moves_markSyncing (epoch : UInt64) (instant : ℕ) :
    Follows Moves (markSyncing epoch instant) := by
  intro r
  refine followsAt_currentProvider_bind fun p hp hepoch => followsAt_modify ⟨?_, fun howned => ?_⟩
  · have h := drops_dropEpoch r (some { p with serving := false, revision := 0 }) epoch
    exact ⟨h.slots, h.bytes, h.pending⟩
  · exact owned_dropEpoch (some { p with serving := false, revision := 0 }) hp hepoch howned

theorem moves_advanceRevision (epoch : UInt64) (revision : ℕ) :
    Follows Moves (advanceRevision epoch revision) := by
  intro r
  refine followsAt_currentProvider_bind fun p hp hepoch => followsAt_ensure_bind fun _ =>
    followsAt_modify ⟨?_, fun howned => ?_⟩
  · exact drops_dropEpoch r _ epoch
  · exact owned_dropEpoch (some { p with revision }) hp hepoch howned

theorem moves_release (epoch : UInt64) (instant : ℕ) : Follows Moves (release epoch instant) := by
  intro r
  refine followsAt_modify ?_
  split
  · next hsome =>
    obtain ⟨p, hp⟩ := Option.isSome_iff_exists.mp hsome
    obtain ⟨hprovider, hepoch⟩ := filter_epoch_eq_some hp
    have h := drops_dropEpoch r none epoch
    exact ⟨⟨h.slots, h.bytes, h.pending⟩, owned_dropEpoch none hprovider hepoch⟩
  · exact Std.Refl.refl r

end Netbaiot.Rpc
