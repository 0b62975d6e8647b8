import Netbaiot.Quota.ReadAccounts

/-!
# Connection quotas are conserved

`Connections.Sound` joins the counts (`Counted`), the read accounts (`Accounts`) and the read
bytes of tenants (`Charged`) with the balance of the two semaphores: the slots and bytes that are
free make up the limits together with what connections, read buffers and the calls under way
hold.  The operations on connections keep it; those on read buffers are in the next module.
-/

namespace Netbaiot.Quota

open Lib AList

/-- The slots that a call under way holds. -/
def Held.slots : Held → ℕ
  | .slot _ _ => 1
  | .reserved _ _ => 1
  | .dropping held _ => held.toNat

/-- The bytes that a call under way holds. -/
def Held.bytes (limits : Limits) : Held → ℕ
  | .slot _ _ => 0
  | .reserved _ _ => limits.connectionMemoryReservation
  | .dropping _ bytes => bytes

namespace Connections

/-- The bytes of all read buffers. -/
def buffers (s : Connections) : ℕ :=
  s.permits.total (fun _ p => p.capacity) + s.replacements.total fun _ r => r.bytes

/-- What holds between any two steps. -/
structure Sound (limits : Limits) (s : Connections) : Prop where
  slots : s.slots + s.leases.size + s.held.total (fun _ held => held.slots) = limits.maxConnections
  memory : s.memory + s.leases.total (fun _ _ => limits.connectionMemoryReservation) +
    s.held.total (fun _ held => held.bytes limits) + s.buffers +
      s.releasing.total (fun _ bytes => bytes) = limits.globalConnectionLogicalBytes
  counted : Counted limits s.counts s.leases
  accounts : Accounts limits s.readStates s.permits s.replacements
  charged : Charged limits s.counts s.readStates
  apart : ∀ id held, s.held.lookup id = some held → s.leases.lookup id = none
  inUse : ∀ permit p, s.permits.lookup permit = some p → s.releasing.lookup permit = none

namespace Sound

variable {limits : Limits} {s s' : Connections} {id : ℕ} {lease : ConnectionLease}
  {state : ReadAllocationState}

theorem new (limits : Limits) : Sound limits (.new limits) :=
  ⟨rfl, rfl, .empty limits, .empty limits, .empty limits, by simp [Connections.new],
    by simp [Connections.new]⟩

/-! ### Calls under way -/

section

variable (h : Sound limits s)

include h

/-- A call under way goes on, and what it takes from or gives to the semaphores is what it holds
more or less. -/
theorem hold {held : Held} (slots memory : ℕ) (hlease : s.leases.lookup id = none)
    (hslots : slots + held.slots =
      s.slots + weigh (fun _ held => held.slots) id (s.held.lookup id))
    (hmemory : memory + held.bytes limits =
      s.memory + weigh (fun _ held => held.bytes limits) id (s.held.lookup id)) :
    Sound limits { s with slots := slots, memory := memory, held := s.held.insert id held } := by
  have hput := total_put (fun (_ : ℕ) (held : Held) => held.slots) id (some held) s.held
  have hput' := total_put (fun (_ : ℕ) (held : Held) => held.bytes limits) id (some held) s.held
  rw [weigh_some, put_some] at hput hput'
  refine ⟨?_, ?_, h.counted, h.accounts, h.charged, fun id' held' hlookup => ?_, h.inUse⟩
  · have := h.slots
    show slots + s.leases.size + (s.held.insert id held).total (fun _ held => held.slots) = _
    omega
  · have := h.memory
    show memory + s.leases.total (fun _ _ => limits.connectionMemoryReservation) +
      (s.held.insert id held).total (fun _ held => held.bytes limits) + s.buffers +
        s.releasing.total (fun _ bytes => bytes) = _
    omega
  · rw [lookup_insert_eq] at hlookup
    split at hlookup
    · next heq => rwa [heq]
    · exact h.apart id' held' hlookup

/-! ### Connections -/

/-- A connection ends. -/
theorem closeLease (hlookup : s.leases.lookup id = some lease) :
    Sound limits (s.closeLease limits id lease) := by
  have hheld : s.held.lookup id = none := by
    cases hheld : s.held.lookup id with
    | none => rfl
    | some held => cases (h.apart id held hheld).symm.trans hlookup
  have hsize := size_erase hlookup
  have htotal := total_of_lookup (fun (_ : ℕ) (_ : ConnectionLease) =>
    limits.connectionMemoryReservation) hlookup
  have hslots := h.slots
  have hmemory := h.memory
  refine ⟨?_, ?_, h.counted.dropLease hlookup, h.accounts, h.charged.dropLease lease,
    fun id' held' hlookup' => ?_, h.inUse⟩
  · show s.slots + (s.leases.erase id).size + (s.held.insert id _).total _ = _
    rw [total_insert_new _ hheld, Held.slots, Bool.toNat_true]
    omega
  · show s.memory + (s.leases.erase id).total _ + (s.held.insert id _).total _ + s.buffers +
      s.releasing.total _ = _
    rw [total_insert_new _ hheld, Held.bytes]
    omega
  · show (s.leases.erase id).lookup id' = none
    replace hlookup' : (s.held.insert id _).lookup id' = some held' := hlookup'
    rw [lookup_insert_eq] at hlookup'
    rw [lookup_erase_eq]
    split
    · rfl
    · next hne =>
      rw [if_neg hne] at hlookup'
      exact h.apart id' held' hlookup'

/-- A reserved connection is counted for its peer or refused. -/
theorem enter {ip : IpAddr} {deviceIngress : Bool}
    (hheld : s.held.lookup id = some (.reserved ip deviceIngress)) :
    Sound limits (s.enter limits id ip deviceIngress) := by
  have hnew := h.apart id _ hheld
  unfold Connections.enter
  split
  · refine h.hold s.slots s.memory hnew ?_ ?_
    · rw [hheld]
      rfl
    · rw [hheld]
      rfl
  · next hroom =>
    have hsize : (s.leases.insert id ⟨ip, none, none, deviceIngress, true⟩).size =
        s.leases.size + 1 := by
      rw [size_insert, erase_of_lookup_none hnew]
    have hslots := h.slots
    have hmemory := h.memory
    have hheldSlots : s.held.total (fun _ held => held.slots) =
        1 + (s.held.erase id).total fun _ held => held.slots := total_of_lookup _ hheld
    have hheldBytes : s.held.total (fun _ held => held.bytes limits) =
        limits.connectionMemoryReservation +
          (s.held.erase id).total fun _ held => held.bytes limits :=
      total_of_lookup _ hheld
    refine ⟨?_, ?_, h.counted.enter hnew (not_le.mp hroom) deviceIngress, h.accounts,
      h.charged.ofConnections (fun _ => rfl) (fun _ => le_rfl), fun id' held hlookup => ?_,
      h.inUse⟩
    · show s.slots + (s.leases.insert id _).size + (s.held.erase id).total _ = _
      omega
    · show s.memory + (s.leases.insert id _).total _ + (s.held.erase id).total _ + s.buffers +
        s.releasing.total _ = _
      rw [total_insert_new _ hnew]
      omega
    · show (s.leases.insert id _).lookup id' = none
      rw [lookup_erase_eq] at hlookup
      split at hlookup
      · cases hlookup
      · next hne =>
        rw [lookup_insert_ne hne]
        exact h.apart id' held hlookup

/-- A connection changes while it is counted otherwise, and its read account with it. -/
theorem changeLease (hlookup : s.leases.lookup id = some lease) {lease' : ConnectionLease}
    {counts : ConnectionCounts} {readStates : Table ℕ ReadAllocationState}
    (hcounted : Counted limits counts (s.leases.insert id lease'))
    (haccounts : Accounts limits readStates s.permits s.replacements)
    (hcharged : Charged limits counts readStates) :
    Sound limits { s with
      counts := counts, readStates := readStates, leases := s.leases.insert id lease' } := by
  have hsize : (s.leases.insert id lease').size = s.leases.size := by
    rw [size_insert, size_erase hlookup]
  have htotal : (s.leases.insert id lease').total
      (fun _ _ => limits.connectionMemoryReservation) =
      s.leases.total fun _ _ => limits.connectionMemoryReservation := by
    exact (total_of_lookup (fun (_ : ℕ) (_ : ConnectionLease) =>
      limits.connectionMemoryReservation) hlookup).symm
  refine ⟨?_, ?_, hcounted, haccounts, hcharged, fun id' held hheld => ?_, h.inUse⟩
  · show s.slots + (s.leases.insert id lease').size + s.held.total _ = _
    rw [hsize]
    exact h.slots
  · show s.memory + (s.leases.insert id lease').total _ + s.held.total _ + s.buffers +
      s.releasing.total _ = _
    rw [htotal]
    exact h.memory
  · have hnone := h.apart id' held hheld
    show (s.leases.insert id lease').lookup id' = none
    rw [lookup_insert_ne, hnone]
    rintro rfl
    cases hnone.symm.trans hlookup

/-- The protocol of a pending connection becomes known, or the connection is refused. -/
theorem classify (hlookup : s.leases.lookup id = some lease) (hpending : lease.pending = true)
    (transport : Transport) : Sound limits (s.classify limits id lease transport) := by
  unfold Connections.classify
  split
  · exact h.closeLease hlookup
  · next hroom =>
    refine h.changeLease hlookup (h.counted.classify hlookup hpending fun hingress => ?_)
      h.accounts (h.charged.ofConnections (fun _ => rfl) (fun _ => le_rfl))
    exact not_le.mp fun hfull => hroom ⟨hingress, .inr hfull⟩

/-- A pending connection becomes a management connection, or is refused. -/
theorem intoManagement (hlookup : s.leases.lookup id = some lease) :
    Sound limits (s.intoManagement limits id lease) := by
  unfold Connections.intoManagement
  split
  · exact h.closeLease hlookup
  · exact h.changeLease hlookup (h.counted.intoManagement hlookup) h.accounts h.charged

end

/-- What an authentication that succeeds has checked, and what it does. -/
theorem authenticate_eq_ok {device : DeviceKey}
    (h : s.authenticate limits id lease device = .ok s') :
    s' = s ∨ lease.device = none ∧
      (s.counts.tenantOf device.tenantId).connections < limits.maxConnectionsPerTenant ∧
      countOf s.counts.devices device < limits.maxConnectionsPerDevice ∧
      ∃ newlyBound, s.newlyBoundBytes id device.tenantId = .ok newlyBound ∧
        ((s.counts.tenantOf device.tenantId).connections + 1) * limits.connectionMemoryReservation +
          ((s.counts.tenantOf device.tenantId).readBytes + newlyBound) ≤
            limits.maxConnectionBytesPerTenant ∧
        s' = { s with
          counts := { s.counts with
            tenants := s.counts.tenants.insert device.tenantId
              ⟨(s.counts.tenantOf device.tenantId).connections + 1,
                (s.counts.tenantOf device.tenantId).readBytes + newlyBound⟩
            devices := s.counts.devices.insert device (countOf s.counts.devices device + 1) }
          readStates :=
            match s.readStates.lookup id with
            | some state => s.readStates.insert id { state with tenant := some device.tenantId }
            | none => s.readStates
          leases := s.leases.insert id { lease with device := some device } } := by
  unfold Connections.authenticate at h
  split at h
  · cases h
    exact .inl rfl
  · obtain ⟨hnone, h⟩ := check_bind_eq_ok.mp h
    obtain ⟨⟨htenant, hdevice⟩, h⟩ := check_bind_eq_ok.mp h
    obtain ⟨newlyBound, hbound, h⟩ := except_bind_eq_ok.mp h
    cases hread : checkedAdd 64 (s.counts.tenantOf device.tenantId).readBytes newlyBound with
    | none => simp [hread] at h
    | some readBytes =>
      cases hconnections : checkedAdd 64 (s.counts.tenantOf device.tenantId).connections 1 with
      | none => simp [hread, hconnections] at h
      | some connections =>
        obtain ⟨-, rfl⟩ := checkedAdd_eq_some.mp hread
        obtain ⟨-, rfl⟩ := checkedAdd_eq_some.mp hconnections
        simp only [hread, hconnections] at h
        obtain ⟨⟨⟩, hcheck, h⟩ := except_bind_eq_ok.mp h
        cases h
        exact .inr ⟨hnone, htenant, hdevice, newlyBound, hbound,
          checkConnectionTenantBytes_le hcheck, rfl⟩

/-- The bytes an account brings to a tenant are those that are not yet the tenant's, and no other
tenant has any. -/
theorem newlyBoundBytes_add {tenant : TenantId} {newlyBound : ℕ}
    (h : s.newlyBoundBytes id tenant = .ok newlyBound)
    (hlookup : s.readStates.lookup id = some state) (tenant' : TenantId) :
    (if tenant' = tenant then newlyBound else 0) + state.bytesOf tenant' =
      { state with tenant := some tenant }.bytesOf tenant' := by
  obtain ⟨bound, capacity, replacing⟩ := state
  simp only [newlyBoundBytes, hlookup] at h
  cases bound with
  | none =>
    cases h
    by_cases htenant : tenant' = tenant
    · simp [ReadAllocationState.bytesOf, htenant]
    · simp [ReadAllocationState.bytesOf, htenant, Ne.symm htenant]
  | some bound =>
    by_cases hbound : bound = tenant
    · simp only [hbound, if_true, Except.ok.injEq] at h
      simp [ReadAllocationState.bytesOf, hbound, ← h]
    · simp [hbound] at h

/-- The device of a connection becomes known. -/
theorem authenticate (h : Sound limits s) (hlookup : s.leases.lookup id = some lease)
    (hactive : lease.pending = false) {device : DeviceKey}
    (hs' : s.authenticate limits id lease device = .ok s') : Sound limits s' := by
  obtain rfl | ⟨hnone, htenant, hdevice, newlyBound, hbound, hbytes, rfl⟩ := authenticate_eq_ok hs'
  · exact h
  let entry := s.counts.tenantOf device.tenantId
  let counts : ConnectionCounts := { s.counts with
    tenants := s.counts.tenants.insert device.tenantId
      ⟨entry.connections + 1, entry.readBytes + newlyBound⟩
    devices := s.counts.devices.insert device (countOf s.counts.devices device + 1) }
  have htenantOf : ∀ tenant, counts.tenantOf tenant =
      if tenant = device.tenantId then ⟨entry.connections + 1, entry.readBytes + newlyBound⟩
      else s.counts.tenantOf tenant :=
    fun tenant => ConnectionCounts.tenantOf_insert s.counts device.tenantId tenant _
  have hwithin : ∀ tenant,
      (counts.tenantOf tenant).connections * limits.connectionMemoryReservation +
        (counts.tenantOf tenant).readBytes ≤ limits.maxConnectionBytesPerTenant := by
    intro tenant
    rw [htenantOf]
    split
    · exact hbytes
    · exact h.charged.within tenant
  have hcounted := h.counted.authenticate hlookup hactive hnone htenant hdevice
    (entry.readBytes + newlyBound)
  cases hstate : s.readStates.lookup id with
  | none =>
    refine h.changeLease hlookup hcounted h.accounts ⟨fun tenant => ?_, hwithin⟩
    simp only [newlyBoundBytes, hstate, Except.ok.injEq] at hbound
    show (counts.tenantOf tenant).readBytes = _
    rw [htenantOf, ← h.charged.readBytes, ← hbound]
    split
    · next heq => rw [heq]; rfl
    · rfl
  | some state =>
    refine h.changeLease hlookup hcounted (h.accounts.bind hstate _)
      (h.charged.change hstate (fun tenant => ?_) hwithin)
    show (counts.tenantOf tenant).readBytes + _ = _
    rw [htenantOf, ← newlyBoundBytes_add hbound hstate tenant]
    split
    · next heq =>
      rw [heq]
      show entry.readBytes + newlyBound + _ = entry.readBytes + _
      omega
    · omega

end Sound

end Connections

end Netbaiot.Quota
