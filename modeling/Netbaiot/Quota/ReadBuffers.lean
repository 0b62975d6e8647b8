import Netbaiot.Quota.ConnectionBalance

/-!
# Read buffers keep the balance

A buffer is charged to the bytes of the gateway, to its account and to the tenant of the account
in one step, and taken from the account and the tenant in one step; its bytes are given back
after that.  Each operation keeps `Connections.Sound`.
-/

namespace Netbaiot.Quota

open Lib AList ConnectionCounts

variable {additional capacity memory permit replacement : ℕ} {p : ReadAllocationPermit}
  {r : ReadAllocationReplacement}

namespace Connections.Sound

variable {limits : Limits} {s s' : Connections} {id : ℕ} {lease : ConnectionLease}
  {state : ReadAllocationState}

/-! ### Charging -/

/-- A connection gets its read account. -/
theorem readBudget (h : Sound limits s) : Sound limits (s.readBudget id lease) := by
  unfold Connections.readBudget
  cases hstate : s.readStates.lookup id with
  | some state => exact h
  | none =>
    exact ⟨h.slots, h.memory, h.counted, h.accounts.newAccount hstate _,
      h.charged.newAccount hstate _, h.apart, h.inUse⟩

/-- A step of read buffers touches no connection, and what it takes from or gives to the bytes is
what buffers hold more or less. -/
theorem read (h : Sound limits s) (memory : ℕ) {counts : ConnectionCounts}
    {readStates : Table ℕ ReadAllocationState} {permits : Table ℕ ReadAllocationPermit}
    {replacements : Table ℕ ReadAllocationReplacement} {releasing : Table ℕ ℕ}
    (hmemory : memory + (permits.total (fun _ p => p.capacity) +
        replacements.total fun _ r => r.bytes) + releasing.total (fun _ bytes => bytes) =
      s.memory + s.buffers + s.releasing.total fun _ bytes => bytes)
    (hrest : ∃ tenants, counts = { s.counts with tenants := tenants })
    (hconnections : ∀ tenant, (counts.tenantOf tenant).connections =
      (s.counts.tenantOf tenant).connections)
    (haccounts : Accounts limits readStates permits replacements)
    (hcharged : Charged limits counts readStates)
    (hinUse : ∀ permit p, permits.lookup permit = some p → releasing.lookup permit = none) :
    Sound limits { s with
      memory := memory, counts := counts, readStates := readStates, permits := permits,
      replacements := replacements, releasing := releasing } := by
  refine ⟨h.slots, ?_, h.counted.ofConnections hrest hconnections, haccounts, hcharged, h.apart,
    hinUse⟩
  have := h.memory
  show memory + s.leases.total _ + s.held.total _ +
    (permits.total (fun _ p => p.capacity) + replacements.total fun _ r => r.bytes) +
      releasing.total _ = _
  omega

/-- The tenant of an account can take bytes when it has an entry with room for them. -/
theorem checkTenant_le (h : s.checkTenant limits state additional = .ok ()) {tenant : TenantId}
    (hbound : state.tenant = some tenant) :
    ∃ entry, s.counts.tenants.lookup tenant = some entry ∧
      entry.connections * limits.connectionMemoryReservation + (entry.readBytes + additional) ≤
        limits.maxConnectionBytesPerTenant := by
  simp only [checkTenant, hbound] at h
  cases hentry : s.counts.tenants.lookup tenant with
  | none => simp [hentry] at h
  | some entry =>
    cases hadd : checkedAdd 64 entry.readBytes additional with
    | none => simp [hentry, hadd] at h
    | some bytes =>
      obtain ⟨-, rfl⟩ := checkedAdd_eq_some.mp hadd
      simp only [hentry, hadd] at h
      exact ⟨entry, rfl, checkConnectionTenantBytes_le h⟩

/-- What charging an account does to tenants. -/
theorem tenantOf_charge {replacing : Bool}
    (hcheck : s.checkTenant limits state additional = .ok ()) (tenant : TenantId) :
    (s.charge id state additional memory replacing).counts.tenantOf tenant =
      if state.tenant = some tenant then
        { s.counts.tenantOf tenant with
          readBytes := (s.counts.tenantOf tenant).readBytes + additional }
      else s.counts.tenantOf tenant := by
  obtain ⟨bound, capacity, marked⟩ := state
  cases bound with
  | none => rfl
  | some bound =>
    obtain ⟨entry, hentry, -⟩ := checkTenant_le hcheck rfl
    refine (tenantOf_modifyTenant_of_some hentry tenant _).trans ?_
    by_cases htenant : tenant = bound
    · simp [htenant]
    · simp [htenant, Ne.symm htenant]

theorem charge_counts_eq (s : Connections) (state : ReadAllocationState)
    (additional memory : ℕ) (replacing : Bool) :
    ∃ tenants, (s.charge id state additional memory replacing).counts =
      { s.counts with tenants := tenants } := by
  obtain ⟨bound, capacity, marked⟩ := state
  cases bound with
  | none => exact ⟨_, rfl⟩
  | some bound => exact s.counts.modifyTenant_eq bound _

/-- Bytes are charged to the tenant of an account together with the account. -/
theorem charged_charge (h : Charged limits s.counts s.readStates)
    (hlookup : s.readStates.lookup id = some state) {replacing : Bool}
    (hcheck : s.checkTenant limits state additional = .ok ()) :
    Charged limits (s.charge id state additional memory replacing).counts
      (s.charge id state additional memory replacing).readStates := by
  refine h.change hlookup (fun tenant => ?_) fun tenant => ?_
  · rw [tenantOf_charge hcheck]
    by_cases hbound : state.tenant = some tenant
    · simp only [hbound, if_true, ReadAllocationState.bytesOf]
      omega
    · simp [hbound, ReadAllocationState.bytesOf]
  · rw [tenantOf_charge hcheck]
    split
    · next hbound =>
      obtain ⟨entry, hentry, hle⟩ := checkTenant_le hcheck hbound
      simpa [tenantOf, hentry] using hle
    · exact h.within tenant

theorem reserve_eq_ok {bytes memory' : ℕ} (h : reserve memory bytes = .ok memory') :
    memory' + bytes = memory := by
  obtain ⟨-, h⟩ := check_bind_eq_ok.mp h
  obtain ⟨hle, h⟩ := check_bind_eq_ok.mp h
  cases h
  exact Nat.sub_add_cancel hle

/-- What a reservation that succeeds has checked, and what it does. -/
theorem reserveAllocationInner_eq_ok {previous : Option ℕ}
    (h : s.reserveAllocationInner limits id state capacity previous = .ok s') :
    state.replacing = false ∧ capacity ≤ limits.maxReadBufferPerConnection ∧
      state.capacity + capacity - previous.getD 0 ≤ limits.maxReadBufferPerConnection ∧
      s.checkTenant limits state capacity = .ok () ∧
      ∃ memory, memory + capacity = s.memory ∧
        s' = s.charge id state capacity memory previous.isSome := by
  obtain ⟨hcalm, h⟩ := check_bind_eq_ok.mp h
  cases hadd : checkedAdd 64 state.capacity capacity with
  | none => simp [hadd] at h
  | some next =>
    obtain ⟨-, rfl⟩ := checkedAdd_eq_some.mp hadd
    simp only [hadd] at h
    obtain ⟨-, h⟩ := check_bind_eq_ok.mp h
    obtain ⟨⟨hcapacity, hnext⟩, h⟩ := check_bind_eq_ok.mp h
    obtain ⟨⟨⟩, hcheck, h⟩ := except_bind_eq_ok.mp h
    obtain ⟨memory, hmemory, h⟩ := except_bind_eq_ok.mp h
    cases h
    exact ⟨hcalm, hcapacity, hnext, hcheck, memory, reserve_eq_ok hmemory, rfl⟩

/-- A buffer is reserved. -/
theorem reserveAllocation (h : Sound limits s) (hlookup : s.readStates.lookup id = some state)
    (hnew : s.permits.lookup permit = none) (hfree : s.releasing.lookup permit = none)
    (hs' : s.reserveAllocationInner limits id state capacity none = .ok s') :
    Sound limits { s' with permits := s'.permits.insert permit ⟨id, capacity⟩ } := by
  obtain ⟨hcalm, -, hfits, hcheck, memory, hmemory, rfl⟩ := reserveAllocationInner_eq_ok hs'
  refine h.read memory ?_ (charge_counts_eq s state capacity memory _) (fun tenant => ?_)
    (h.accounts.reserve hlookup hcalm hfits hnew) (charged_charge h.charged hlookup hcheck)
    (forall_lookup_insert h.inUse hfree)
  · have hinsert : (s.permits.insert permit ⟨id, capacity⟩).total (fun _ p => p.capacity) =
        capacity + s.permits.total fun _ p => p.capacity := total_insert_new _ hnew
    show memory + (total _ (s.permits.insert permit _) + s.replacements.total _) +
      s.releasing.total _ = _
    rw [hinsert, buffers]
    omega
  · rw [tenantOf_charge hcheck]
    split <;> rfl

/-- The successor of a buffer is reserved. -/
theorem reserveReplacement (h : Sound limits s) (hlookup : s.readStates.lookup id = some state)
    {previous : ℕ} (hnew : s.replacements.lookup replacement = none)
    (hs' : s.reserveAllocationInner limits id state capacity (some previous) = .ok s') :
    Sound limits { s' with
      replacements := s'.replacements.insert replacement ⟨id, some ⟨id, capacity⟩⟩ } := by
  obtain ⟨hcalm, hfits, -, hcheck, memory, hmemory, rfl⟩ := reserveAllocationInner_eq_ok hs'
  refine h.read memory ?_ (charge_counts_eq s state capacity memory _) (fun tenant => ?_)
    (h.accounts.replace hlookup hcalm hfits hnew) (charged_charge h.charged hlookup hcheck) h.inUse
  · have hinsert : (s.replacements.insert replacement ⟨id, some ⟨id, capacity⟩⟩).total
        (fun _ r => r.bytes) = capacity + s.replacements.total fun _ r => r.bytes :=
      total_insert_new _ hnew
    show memory + (s.permits.total _ + total _ (s.replacements.insert replacement _)) +
      s.releasing.total _ = _
    rw [hinsert, buffers]
    omega
  · rw [tenantOf_charge hcheck]
    split <;> rfl

/-- What an expansion that succeeds has checked, and what it does. -/
theorem expandAllocation_eq_ok {previous : ReadAllocationPermit}
    (h : s.expandAllocation limits id state permit previous capacity = .ok s') :
    previous.state = id ∧ state.replacing = false ∧ ∃ additional memory,
      capacity = previous.capacity + additional ∧
      state.capacity + additional ≤ limits.maxReadBufferPerConnection ∧
      s.checkTenant limits state additional = .ok () ∧ memory + additional = s.memory ∧
      s' = { s.charge id state additional memory false with
        permits := s.permits.insert permit { previous with capacity := capacity } } := by
  obtain ⟨hstate, h⟩ := check_bind_eq_ok.mp h
  obtain ⟨hle, h⟩ := check_bind_eq_ok.mp h
  cases hadd : checkedAdd 64 state.capacity (capacity - previous.capacity) with
  | none => simp [hadd] at h
  | some next =>
    obtain ⟨-, rfl⟩ := checkedAdd_eq_some.mp hadd
    simp only [hadd] at h
    obtain ⟨⟨hcalm, hfits⟩, h⟩ := check_bind_eq_ok.mp h
    obtain ⟨⟨⟩, hcheck, h⟩ := except_bind_eq_ok.mp h
    obtain ⟨memory, hmemory, h⟩ := except_bind_eq_ok.mp h
    cases h
    exact ⟨hstate, hcalm, capacity - previous.capacity, memory, by omega, hfits, hcheck,
      reserve_eq_ok hmemory, rfl⟩

/-- A buffer grows in place. -/
theorem expandAllocation (h : Sound limits s) (hlookup : s.readStates.lookup id = some state)
    {previous : ReadAllocationPermit} (hkey : s.permits.lookup permit = some previous)
    (hs' : s.expandAllocation limits id state permit previous capacity = .ok s') :
    Sound limits s' := by
  obtain ⟨hstate, hcalm, additional, memory, rfl, hfits, hcheck, hmemory, rfl⟩ :=
    expandAllocation_eq_ok hs'
  refine h.read memory ?_ (charge_counts_eq s state additional memory _)
    (fun tenant => ?_) (h.accounts.expand hlookup hcalm hkey hstate hfits)
    (charged_charge h.charged hlookup hcheck) (forall_lookup_insert h.inUse (h.inUse permit _ hkey))
  · have hput := total_put (fun (_ : ℕ) (p : ReadAllocationPermit) => p.capacity) permit
      (some { previous with capacity := previous.capacity + additional }) s.permits
    simp only [put_some, hkey, weigh_some] at hput
    show memory + (total _ (s.permits.insert permit _) + s.replacements.total _) +
      s.releasing.total _ = _
    rw [buffers]
    omega
  · rw [tenantOf_charge hcheck]
    split <;> rfl

/-- An account is bound to the tenant of a device. -/
theorem bindReader (h : Sound limits s) (hlookup : s.readStates.lookup id = some state)
    {device : DeviceKey} (hs' : s.bindReader limits id state device = .ok s') :
    Sound limits s' := by
  revert hs'
  fun_cases Connections.bindReader limits s id state device with
  | case1 =>
    rintro ⟨⟩
    exact h
  | case3 hbound entry hentry bytes hadd =>
    intro hs'
    obtain ⟨-, rfl⟩ := checkedAdd_eq_some.mp hadd
    obtain ⟨⟨⟩, hcheck, hs'⟩ := except_bind_eq_ok.mp hs'
    cases hs'
    have hof : s.counts.tenantOf device.tenantId = entry := by
      simp [tenantOf, hentry]
    refine h.read s.memory rfl ⟨_, rfl⟩ (fun tenant => ?_)
      (h.accounts.bind hlookup _) (h.charged.change hlookup (fun tenant => ?_)
      fun tenant => ?_) h.inUse
    · rw [tenantOf_insert]
      split
      · next heq => rw [heq, hof]
      · rfl
    · rw [tenantOf_insert]
      by_cases htenant : tenant = device.tenantId
      · simp [htenant, hof, ReadAllocationState.bytesOf, hbound]
      · simp [htenant, Ne.symm htenant, ReadAllocationState.bytesOf, hbound]
    · rw [tenantOf_insert]
      split
      · exact checkConnectionTenantBytes_le hcheck
      · exact h.charged.within tenant
  | _ => rintro ⟨⟩

/-- What dropping a buffer does to tenants. -/
theorem tenantOf_discharge (hlookup : s.readStates.lookup p.state = some state)
    (tenant : TenantId) :
    (s.discharge p).counts.tenantOf tenant =
      if state.tenant = some tenant then
        { s.counts.tenantOf tenant with
          readBytes := (s.counts.tenantOf tenant).readBytes - p.capacity }
      else s.counts.tenantOf tenant := by
  simp only [discharge, hlookup]
  cases hbound : state.tenant with
  | none => simp
  | some bound =>
    show ((s.counts.modifyTenant bound _).pruneConnectionTenant bound).tenantOf tenant = _
    rw [tenantOf_pruneConnectionTenant, tenantOf_modifyTenant]
    · by_cases htenant : tenant = bound
      · simp [htenant]
      · simp [htenant, Ne.symm htenant]
    · simp

theorem discharge_counts_eq (s : Connections) (p : ReadAllocationPermit) :
    ∃ tenants, (s.discharge p).counts = { s.counts with tenants := tenants } := by
  unfold discharge
  cases hlookup : s.readStates.lookup p.state with
  | none => exact ⟨_, rfl⟩
  | some state =>
    cases hbound : state.tenant with
    | none => exact ⟨s.counts.tenants, by simp only [hbound]⟩
    | some bound =>
      obtain ⟨modified, hmodify⟩ := s.counts.modifyTenant_eq bound fun entry =>
        { entry with readBytes := entry.readBytes - p.capacity }
      obtain ⟨pruned, hprune⟩ :=
        pruneConnectionTenant_eq { s.counts with tenants := modified } bound
      refine ⟨pruned, ?_⟩
      simp only [hbound, hmodify, hprune]

/-- A dropped buffer is taken from its account and from its tenant. -/
theorem charged_discharge (h : Charged limits s.counts s.readStates)
    (hlookup : s.readStates.lookup p.state = some state) (hle : p.capacity ≤ state.capacity) :
    Charged limits (s.discharge p).counts
      (s.readStates.insert p.state { state with capacity := state.capacity - p.capacity }) := by
  refine h.change hlookup (fun tenant => ?_) fun tenant => ?_
  · rw [tenantOf_discharge hlookup]
    by_cases hbound : state.tenant = some tenant
    · have hread := h.capacity_le hlookup hbound
      simp only [hbound, if_true, ReadAllocationState.bytesOf]
      omega
    · simp [hbound, ReadAllocationState.bytesOf]
  · have hwithin := h.within tenant
    rw [tenantOf_discharge hlookup]
    split
    · exact (Nat.add_le_add_left (Nat.sub_le _ _) _).trans hwithin
    · exact hwithin

theorem discharge_eq (hlookup : s.readStates.lookup p.state = some state) :
    s.discharge p =
      { s with
        counts := (s.discharge p).counts
        readStates := s.readStates.insert p.state
          { state with capacity := state.capacity - p.capacity } } := by
  simp only [discharge, hlookup]

theorem connections_discharge (hlookup : s.readStates.lookup p.state = some state)
    (tenant : TenantId) :
    ((s.discharge p).counts.tenantOf tenant).connections =
      (s.counts.tenantOf tenant).connections := by
  rw [tenantOf_discharge hlookup]
  split <;> rfl

/-- A buffer in use is dropped. -/
theorem dropPermit (h : Sound limits s) (hkey : s.permits.lookup permit = some p) :
    Sound limits { s.discharge p with
      permits := s.permits.erase permit
      releasing := s.releasing.insert permit p.capacity } := by
  obtain ⟨state, hlookup⟩ := mem_iff_lookup.mp (h.accounts.known permit p hkey)
  have hle : p.capacity ≤ state.capacity := by
    rw [h.accounts.capacity _ _ hlookup]
    exact (Accounts.capacity_le_published hkey).trans (Nat.le_add_right _ _)
  have hpermits := total_of_lookup (fun (_ : ℕ) (p : ReadAllocationPermit) => p.capacity) hkey
  have hreleasing := total_insert_new (fun (_ bytes : ℕ) => bytes)
    (v := p.capacity) (h.inUse permit p hkey)
  rw [discharge_eq hlookup]
  refine h.read s.memory ?_ (discharge_counts_eq s p) (connections_discharge hlookup)
    (h.accounts.drop hkey hlookup) (charged_discharge h.charged hlookup hle)
    fun permit' p' hlookup' => ?_
  · show s.memory + ((s.permits.erase permit).total _ + s.replacements.total _) +
      total _ (s.releasing.insert permit p.capacity) = _
    rw [hreleasing, buffers, hpermits]
    omega
  · obtain ⟨hne, hlookup'⟩ := of_lookup_erase hlookup'
    rw [lookup_insert_ne hne]
    exact h.inUse permit' p' hlookup'

/-- The new buffer of a replacement is dropped. -/
theorem abort (h : Sound limits s) (hr : s.replacements.lookup replacement = some r)
    (hp : r.allocation = some p) (hkey : s.permits.lookup permit = none)
    (hfree : s.releasing.lookup permit = none) :
    Sound limits { s.discharge p with
      replacements := s.replacements.insert replacement ⟨r.state, none⟩
      releasing := s.releasing.insert permit p.capacity } := by
  obtain ⟨hstate, -⟩ := h.accounts.allocation replacement r hr p hp
  obtain ⟨state, hlookup, -⟩ := h.accounts.replacing_of_lookup hr
  rw [← hstate] at hlookup
  have hbytes := r.bytes_eq hp
  have hle : p.capacity ≤ state.capacity := by
    rw [h.accounts.capacity _ _ hlookup, hstate, ← hbytes]
    exact (Accounts.bytes_le_replaced hr).trans (Nat.le_add_left _ _)
  have hold := total_of_lookup (fun (_ : ℕ) (r : ReadAllocationReplacement) => r.bytes) hr
  have hnew : (s.replacements.insert replacement ⟨r.state, none⟩).total (fun _ r => r.bytes) =
      0 + (s.replacements.erase replacement).total fun _ r => r.bytes := total_insert _ _ _ _
  have hreleasing := total_insert_new (fun (_ bytes : ℕ) => bytes) (v := p.capacity) hfree
  rw [discharge_eq hlookup]
  refine h.read s.memory ?_ (discharge_counts_eq s p) (connections_discharge hlookup)
    (h.accounts.abort hr hp hlookup) (charged_discharge h.charged hlookup hle)
    fun permit' p' hlookup' => ?_
  · show s.memory + (s.permits.total _ + total _ (s.replacements.insert replacement _)) +
      total _ (s.releasing.insert permit p.capacity) = _
    rw [hreleasing, buffers, hold, hnew, hbytes]
    omega
  · rw [lookup_insert_ne]
    · exact h.inUse permit' p' hlookup'
    · rintro rfl
      cases hkey.symm.trans hlookup'

/-- A dropped buffer gives its bytes back. -/
theorem releasePermit (h : Sound limits s) {bytes : ℕ}
    (hkey : s.releasing.lookup permit = some bytes) :
    Sound limits { s with
      memory := s.memory + bytes, releasing := s.releasing.erase permit } := by
  have hreleasing := total_of_lookup (fun (_ bytes : ℕ) => bytes) hkey
  refine h.read (s.memory + bytes) ?_ ⟨s.counts.tenants, rfl⟩ (fun _ => rfl) h.accounts h.charged
    fun permit' p hlookup => ?_
  · rw [hreleasing, buffers]
    omega
  · rw [lookup_erase_eq]
    split
    · rfl
    · exact h.inUse permit' p hlookup

theorem clearReplacing_eq (hlookup : s.readStates.lookup id = some state) :
    s.clearReplacing id =
      { s with readStates := s.readStates.insert id { state with replacing := false } } := by
  simp only [clearReplacing, hlookup]

/-- Putting a mark down moves no bytes. -/
theorem charged_clearReplacing (h : Sound limits s)
    (hlookup : s.readStates.lookup id = some state) :
    Charged limits s.counts (s.readStates.insert id { state with replacing := false }) :=
  h.charged.change hlookup (fun _ => rfl) h.charged.within

/-- The new buffer of a replacement is put to use. -/
theorem commit (h : Sound limits s) (hr : s.replacements.lookup replacement = some r)
    (hlookup : s.readStates.lookup r.state = some state) (hkey : s.permits.lookup permit = none)
    (hfree : s.releasing.lookup permit = none)
    (hs' : s.commit limits replacement permit r state = .ok s') : Sound limits s' := by
  obtain ⟨hfits, hs'⟩ := check_bind_eq_ok.mp hs'
  cases hp : r.allocation with
  | none => simp [hp] at hs'
  | some p =>
    simp only [hp] at hs'
    cases hs'
    have hbytes := r.bytes_eq hp
    have hold := total_of_lookup (fun (_ : ℕ) (r : ReadAllocationReplacement) => r.bytes) hr
    have hnew := total_insert_new (fun (_ : ℕ) (p : ReadAllocationPermit) => p.capacity)
      (v := p) hkey
    rw [clearReplacing_eq hlookup]
    refine h.read s.memory ?_ ⟨s.counts.tenants, rfl⟩ (fun _ => rfl)
      (h.accounts.commit hr hp hlookup hfits hkey) (h.charged_clearReplacing hlookup)
      (forall_lookup_insert h.inUse hfree)
    show s.memory + (total _ (s.permits.insert permit p) +
      (s.replacements.erase replacement).total _) + s.releasing.total _ = _
    rw [hnew, buffers, hold, hbytes]
    omega

/-- A replacement whose new buffer is dropped ends. -/
theorem finishAbort (h : Sound limits s) (hr : s.replacements.lookup replacement = some r)
    (hnone : r.allocation = none) :
    Sound limits { s.clearReplacing r.state with
      replacements := s.replacements.erase replacement } := by
  obtain ⟨state, hlookup, -⟩ := h.accounts.replacing_of_lookup hr
  have hold := total_of_lookup (fun (_ : ℕ) (r : ReadAllocationReplacement) => r.bytes) hr
  rw [ReadAllocationReplacement.bytes, hnone, Option.elim_none, Nat.zero_add] at hold
  rw [clearReplacing_eq hlookup]
  refine h.read s.memory ?_ ⟨s.counts.tenants, rfl⟩ (fun _ => rfl)
    (h.accounts.finishAbort hr hnone hlookup) (h.charged_clearReplacing hlookup) h.inUse
  show s.memory + (s.permits.total _ + (s.replacements.erase replacement).total _) +
    s.releasing.total _ = _
  rw [buffers, hold]

end Connections.Sound

end Netbaiot.Quota
