import Netbaiot.Quota.Connections

/-!
# Connections are counted

A counter is for a class of connections: those of a peer, of a device, of a tenant, of a
protocol, or of a protocol for devices.  `Counted` says that every counter equals the number of
live connections of its class and is within its limit; each operation on a connection keeps it.
-/

namespace Netbaiot.Quota

open Lib AList

/-! ## Counting -/

section Count

variable {κ : Type} [DecidableEq κ]

theorem countOf_insert (counts : Table κ ℕ) (key key' : κ) (n : ℕ) :
    countOf (counts.insert key n) key' = if key' = key then n else countOf counts key' := by
  unfold countOf
  rw [lookup_insert_eq]
  split <;> rfl

theorem countOf_decrement (counts : Table κ ℕ) (key key' : κ) :
    countOf (decrement counts key) key' =
      if key' = key then countOf counts key - 1 else countOf counts key' := by
  unfold decrement
  cases hlookup : counts.lookup key with
  | none =>
    show countOf counts key' = _
    split
    · next heq =>
      subst heq
      simp [countOf, hlookup]
    · rfl
  | some count =>
    by_cases hzero : count - 1 = 0
    · simp only [hzero, if_true]
      unfold countOf
      rw [lookup_erase_eq]
      split
      · simp [hlookup, hzero]
      · rfl
    · simp only [hzero, if_false]
      rw [countOf_insert]
      split
      · simp [countOf, hlookup]
      · rfl

end Count

namespace ConnectionCounts

theorem tenantOf_insert (c : ConnectionCounts) (tenant tenant' : TenantId)
    (entry : TenantConnections) :
    { c with tenants := c.tenants.insert tenant entry }.tenantOf tenant' =
      if tenant' = tenant then entry else c.tenantOf tenant' := by
  unfold tenantOf
  rw [lookup_insert_eq]
  split <;> rfl

/-- Pruning forgets only tenants that count nothing. -/
theorem tenantOf_pruneConnectionTenant (c : ConnectionCounts) (tenant tenant' : TenantId) :
    (c.pruneConnectionTenant tenant).tenantOf tenant' = c.tenantOf tenant' := by
  unfold pruneConnectionTenant
  split
  · next hzero =>
    unfold tenantOf
    rw [lookup_erase_eq]
    split
    · next heq => rw [heq, hzero]; rfl
    · rfl
  · rfl

/-- A change that leaves an empty entry alone acts on what is counted for the tenant. -/
theorem tenantOf_modifyTenant (c : ConnectionCounts) (tenant tenant' : TenantId)
    {f : TenantConnections → TenantConnections} (hf : f ⟨0, 0⟩ = ⟨0, 0⟩) :
    (c.modifyTenant tenant f).tenantOf tenant' =
      if tenant' = tenant then f (c.tenantOf tenant) else c.tenantOf tenant' := by
  unfold modifyTenant
  cases hlookup : c.tenants.lookup tenant with
  | none =>
    show c.tenantOf tenant' = _
    split
    · next heq =>
      subst heq
      simp [tenantOf, hlookup, hf]
    · rfl
  | some entry =>
    rw [tenantOf_insert]
    simp [tenantOf, hlookup]

theorem tenantOf_modifyTenant_of_some {c : ConnectionCounts} {tenant : TenantId}
    {entry : TenantConnections} (h : c.tenants.lookup tenant = some entry) (tenant' : TenantId)
    (f : TenantConnections → TenantConnections) :
    (c.modifyTenant tenant f).tenantOf tenant' =
      if tenant' = tenant then f (c.tenantOf tenant) else c.tenantOf tenant' := by
  unfold modifyTenant
  rw [h]
  exact (tenantOf_insert c tenant tenant' (f entry)).trans (by simp [tenantOf, h])

end ConnectionCounts

/-- The tenant of a connection. -/
def ConnectionLease.tenant (lease : ConnectionLease) : Option TenantId :=
  lease.device.map DeviceKey.tenantId

/-- The classes of connections that are counted: by peer, device, tenant and protocol, and by
protocol for devices. -/
inductive Counter where
  | ip (address : IpAddr)
  | device (key : DeviceKey)
  | tenant (id : TenantId)
  | transport (protocol : Transport)
  | deviceTransport (protocol : Transport)

/-- What a counter says. -/
@[simp]
def Counter.count : Counter → ConnectionCounts → ℕ
  | .ip address, c => countOf c.ips address
  | .device key, c => countOf c.devices key
  | .tenant id, c => (c.tenantOf id).connections
  | .transport protocol, c => c.transports protocol
  | .deviceTransport protocol, c => c.deviceTransports protocol

/-- The connections a counter is for. -/
@[simp]
def Counter.counts : Counter → ConnectionLease → Bool
  | .ip address, lease => lease.ip = address
  | .device key, lease => lease.device = some key
  | .tenant id, lease => lease.tenant = some id
  | .transport protocol, lease => lease.transport = some protocol
  | .deviceTransport protocol, lease =>
    lease.deviceIngress && decide (lease.transport = some protocol)

/-- The limit of a counter; protocols are limited for devices only. -/
def Counter.Within (limits : Limits) : Counter → ℕ → Prop
  | .ip _, n => n ≤ limits.maxConnectionsPerIp
  | .device _, n => n ≤ limits.maxConnectionsPerDevice
  | .tenant _, n => n ≤ limits.maxConnectionsPerTenant
  | .transport _, _ => True
  | .deviceTransport _, n => n ≤ limits.maxDeviceConnectionsPerProtocol

/-- One for a connection that a counter is for. -/
def Counter.weight (counter : Counter) (lease : ConnectionLease) : ℕ :=
  if counter.counts lease then 1 else 0

/-- The live connections of a class. -/
def Counter.live (counter : Counter) (leases : Table ℕ ConnectionLease) : ℕ :=
  leases.total fun _ lease => counter.weight lease

/-- Every count is the number of connections of its class and within its limit. -/
structure Counted (limits : Limits) (c : ConnectionCounts) (leases : Table ℕ ConnectionLease) :
    Prop where
  count : ∀ counter : Counter, counter.count c = counter.live leases
  within : ∀ counter : Counter, counter.Within limits (counter.count c)
  pending : ∀ id lease, leases.lookup id = some lease → lease.pending = true →
    lease.device = none ∧ lease.transport = none

theorem Counter.Within.mono {limits : Limits} {counter : Counter} {m n : ℕ}
    (h : counter.Within limits n) (hle : m ≤ n) : counter.Within limits m := by
  cases counter <;> first | exact hle.trans h | trivial

namespace Counted

variable {limits : Limits} {c c' : ConnectionCounts} {leases : Table ℕ ConnectionLease}

theorem empty (limits : Limits) : Counted limits ⟨∅, ∅, ∅, fun _ => 0, fun _ => 0⟩ ∅ := by
  refine ⟨fun counter => ?_, fun counter => ?_, by simp⟩
  · cases counter <;> rfl
  · cases counter <;> first | exact Nat.zero_le _ | trivial

/-- Counts that say the same are as good. -/
theorem congr (h : Counted limits c leases) (hsame : ∀ counter : Counter,
    counter.count c' = counter.count c) : Counted limits c' leases :=
  ⟨fun counter => (hsame counter).trans (h.count counter),
    fun counter => hsame counter ▸ h.within counter, h.pending⟩

/-- A connection is entered, changed or ended while the counters it moves between follow. -/
theorem put (h : Counted limits c leases) (id : ℕ) (new : Option ConnectionLease)
    (hcount : ∀ counter : Counter,
      counter.count c' + weigh (fun _ lease => counter.weight lease) id (leases.lookup id) =
        counter.count c + weigh (fun _ lease => counter.weight lease) id new)
    (hwithin : ∀ counter : Counter, counter.count c' = counter.count c ∨
      counter.Within limits (counter.count c'))
    (hpending : ∀ lease, new = some lease → lease.pending = true →
      lease.device = none ∧ lease.transport = none) :
    Counted limits c' (leases.put id new) := by
  refine ⟨fun counter => ?_, fun counter => ?_, fun id' lease hlookup => ?_⟩
  · have hput := total_put (fun (_ : ℕ) lease => counter.weight lease) id new leases
    have hold := h.count counter
    have hnew := hcount counter
    simp only [Counter.live] at hold ⊢
    omega
  · exact (hwithin counter).elim (fun hsame => hsame ▸ h.within counter) fun hnew => hnew
  · rw [lookup_put] at hlookup
    split at hlookup
    · exact hpending lease hlookup
    · exact h.pending id' lease hlookup

/-- A live connection is counted in each of its classes. -/
theorem weight_le (h : Counted limits c leases) {id : ℕ} {lease : ConnectionLease}
    (hlookup : leases.lookup id = some lease) (counter : Counter) :
    counter.weight lease ≤ counter.count c := by
  rw [h.count counter]
  exact le_total (f := fun _ lease => counter.weight lease) hlookup

end Counted

/-! ## Operations -/

namespace ConnectionCounts

section

variable (c : ConnectionCounts)

theorem modifyTenant_eq (tenant : TenantId) (f : TenantConnections → TenantConnections) :
    ∃ tenants, c.modifyTenant tenant f = { c with tenants := tenants } := by
  unfold modifyTenant
  split <;> exact ⟨_, rfl⟩

theorem pruneConnectionTenant_eq (tenant : TenantId) :
    ∃ tenants, c.pruneConnectionTenant tenant = { c with tenants := tenants } := by
  unfold pruneConnectionTenant
  split <;> exact ⟨_, rfl⟩

theorem dropDevice_eq (device : DeviceKey) :
    ∃ tenants, c.dropDevice device =
      { c with tenants := tenants, devices := decrement c.devices device } := by
  obtain ⟨modified, hmodify⟩ := c.modifyTenant_eq device.tenantId fun entry =>
    { entry with connections := entry.connections - 1 }
  obtain ⟨pruned, hprune⟩ := pruneConnectionTenant_eq { c with tenants := modified } device.tenantId
  refine ⟨pruned, ?_⟩
  simp only [dropDevice, hmodify, hprune]

/-- A device that leaves takes one connection from its tenant. -/
theorem tenantOf_dropDevice (device : DeviceKey) (tenant : TenantId) :
    (c.dropDevice device).tenantOf tenant =
      if tenant = device.tenantId then
        { c.tenantOf device.tenantId with
          connections := (c.tenantOf device.tenantId).connections - 1 }
      else c.tenantOf tenant := by
  change ((c.modifyTenant device.tenantId _).pruneConnectionTenant _).tenantOf tenant = _
  rw [tenantOf_pruneConnectionTenant, tenantOf_modifyTenant]
  rfl

/-- A connection that leaves takes one connection from its tenant. -/
theorem tenantOf_dropLease (lease : ConnectionLease) (tenant : TenantId) :
    (c.dropLease lease).tenantOf tenant =
      if lease.tenant = some tenant then
        { c.tenantOf tenant with connections := (c.tenantOf tenant).connections - 1 }
      else c.tenantOf tenant := by
  obtain ⟨ip, device, transport, ingress, pending⟩ := lease
  let counted : ConnectionCounts := { c with ips := decrement c.ips ip }
  have hdrop : (c.dropLease ⟨ip, device, transport, ingress, pending⟩).tenantOf tenant =
      (device.elim counted counted.dropDevice).tenantOf tenant := by
    cases transport <;> cases device <;> rfl
  rw [hdrop]
  cases device with
  | none => rfl
  | some device =>
    refine (tenantOf_dropDevice counted device tenant).trans ?_
    by_cases htenant : tenant = device.tenantId
    · subst htenant
      simp [ConnectionLease.tenant, tenantOf, counted]
    · simp [ConnectionLease.tenant, tenantOf, counted, htenant, Ne.symm htenant]

/-- What a connection that leaves does to the counters of peers, devices and protocols. -/
theorem dropLease_eq (lease : ConnectionLease) :
    ∃ tenants, c.dropLease lease =
      { ips := decrement c.ips lease.ip
        tenants := tenants
        devices := lease.device.elim c.devices (decrement c.devices)
        transports := lease.transport.elim c.transports fun transport =>
          Function.update c.transports transport (c.transports transport - 1)
        deviceTransports := lease.transport.elim c.deviceTransports fun transport =>
          if lease.deviceIngress then
            Function.update c.deviceTransports transport (c.deviceTransports transport - 1)
          else c.deviceTransports } := by
  obtain ⟨ip, device, transport, ingress, pending⟩ := lease
  cases device with
  | none => cases transport <;> exact ⟨_, rfl⟩
  | some device =>
    obtain ⟨tenants, hdrop⟩ := dropDevice_eq { c with ips := decrement c.ips ip } device
    refine ⟨tenants, ?_⟩
    cases transport <;> simp only [dropLease, hdrop] <;> rfl

/-- A connection that leaves the counts leaves each of its classes. -/
theorem count_dropLease (lease : ConnectionLease) (counter : Counter) :
    counter.count (c.dropLease lease) = counter.count c - counter.weight lease := by
  obtain ⟨tenants, hdrop⟩ := dropLease_eq c lease
  cases counter with
  | tenant id =>
    show ((c.dropLease lease).tenantOf id).connections = _
    rw [tenantOf_dropLease]
    by_cases htenant : lease.tenant = some id <;>
      simp [Counter.weight, htenant]
  | ip address =>
    rw [hdrop]
    show countOf (decrement c.ips lease.ip) address = _
    rw [countOf_decrement]
    by_cases hip : lease.ip = address
    · simp [Counter.weight, hip]
    · simp [Counter.weight, hip, Ne.symm hip]
  | device key =>
    rw [hdrop]
    cases hdevice : lease.device with
    | none => simp [Counter.weight, hdevice]
    | some device =>
      show countOf (decrement c.devices device) key = _
      rw [countOf_decrement]
      by_cases hkey : device = key
      · simp [Counter.weight, hdevice, hkey]
      · simp [Counter.weight, hdevice, hkey, Ne.symm hkey]
  | transport protocol =>
    rw [hdrop]
    cases htransport : lease.transport with
    | none => simp [Counter.weight, htransport]
    | some transport =>
      by_cases hprotocol : transport = protocol
      · simp [Counter.weight, htransport, hprotocol]
      · simp [Counter.weight, htransport, hprotocol, Ne.symm hprotocol]
  | deviceTransport protocol =>
    rw [hdrop]
    cases htransport : lease.transport with
    | none => simp [Counter.weight, htransport]
    | some transport =>
      by_cases hprotocol : transport = protocol <;> cases hingress : lease.deviceIngress
      all_goals simp_all [Counter.weight, Function.update_apply]
      intro heq
      exact absurd heq.symm hprotocol

end

end ConnectionCounts

namespace Counted

variable {limits : Limits} {c : ConnectionCounts} {leases : Table ℕ ConnectionLease} {id : ℕ}
  {lease : ConnectionLease}

section

variable (h : Counted limits c leases)

include h

/-- A connection ends. -/
theorem dropLease (hlookup : leases.lookup id = some lease) :
    Counted limits (c.dropLease lease) (leases.erase id) := by
  refine h.put id none (fun counter => ?_) (fun counter => ?_) (by simp)
  · have hweight := h.weight_le hlookup counter
    rw [ConnectionCounts.count_dropLease, hlookup, weigh_some, weigh_none]
    omega
  · rw [ConnectionCounts.count_dropLease]
    exact .inr ((h.within counter).mono (Nat.sub_le _ _))

/-- A reserved connection is entered for its peer. -/
theorem enter (hnew : leases.lookup id = none) {ip : IpAddr}
    (hroom : countOf c.ips ip < limits.maxConnectionsPerIp) (deviceIngress : Bool) :
    Counted limits { c with ips := c.ips.insert ip (countOf c.ips ip + 1) }
      (leases.insert id ⟨ip, none, none, deviceIngress, true⟩) := by
  refine h.put id (some _) (fun counter => ?_) (fun counter => ?_) ?_
  · rw [hnew]
    cases counter with
    | ip address =>
      by_cases hip : address = ip
      · subst hip
        simp [Counter.weight, countOf_insert]
      · simp [Counter.weight, countOf_insert, hip, Ne.symm hip]
    | deviceTransport protocol => simp [Counter.weight]
    | _ => rfl
  · cases counter with
    | ip address =>
      rw [Counter.count, countOf_insert, Counter.Within]
      split
      · exact .inr hroom
      · exact .inl rfl
    | _ => exact .inl rfl
  · rintro _ ⟨⟩ -
    exact ⟨rfl, rfl⟩

/-- The protocol of a pending connection becomes known. -/
theorem classify (hlookup : leases.lookup id = some lease)
    (hpending : lease.pending = true) {transport : Transport}
    (hroom : lease.deviceIngress = true →
      c.deviceTransports transport < limits.maxDeviceConnectionsPerProtocol) :
    Counted limits
      { c with
        deviceTransports :=
          if lease.deviceIngress then
            Function.update c.deviceTransports transport (c.deviceTransports transport + 1)
          else c.deviceTransports
        transports := Function.update c.transports transport (c.transports transport + 1) }
      (leases.insert id { lease with transport := some transport, pending := false }) := by
  obtain ⟨_, hnone⟩ := h.pending id lease hlookup hpending
  refine h.put id (some _) (fun counter => ?_) (fun counter => ?_) (by simp)
  · rw [hlookup]
    cases counter with
    | transport protocol =>
      by_cases hprotocol : protocol = transport
      · simp [Counter.weight, hnone, hprotocol]
      · simp [Counter.weight, hnone, hprotocol, Ne.symm hprotocol]
    | deviceTransport protocol =>
      cases hingress : lease.deviceIngress with
      | false => simp [Counter.weight, hingress]
      | true =>
        by_cases hprotocol : protocol = transport
        · simp [Counter.weight, hnone, hprotocol, hingress]
        · simp [Counter.weight, hnone, hprotocol, Ne.symm hprotocol, hingress]
    | _ => rfl
  · cases counter with
    | deviceTransport protocol =>
      simp only [Counter.count, Counter.Within]
      split
      · next hingress =>
        rw [Function.update_apply]
        split
        · exact .inr (hroom hingress)
        · exact .inl rfl
      · exact .inl rfl
    | transport protocol => exact .inr trivial
    | _ => exact .inl rfl

/-- A pending connection becomes a management connection. -/
theorem intoManagement (hlookup : leases.lookup id = some lease) :
    Counted limits c (leases.insert id { lease with pending := false }) := by
  refine h.put id (some _) (fun counter => ?_) (fun _ => .inl rfl) (by simp)
  rw [hlookup]
  cases counter <;> rfl

/-- The device of a connection becomes known. -/
theorem authenticate (hlookup : leases.lookup id = some lease)
    (hactive : lease.pending = false) (hnone : lease.device = none) {device : DeviceKey}
    (htenant : (c.tenantOf device.tenantId).connections < limits.maxConnectionsPerTenant)
    (hdevice : countOf c.devices device < limits.maxConnectionsPerDevice) (readBytes : ℕ) :
    Counted limits
      { c with
        tenants := c.tenants.insert device.tenantId
          ⟨(c.tenantOf device.tenantId).connections + 1, readBytes⟩
        devices := c.devices.insert device (countOf c.devices device + 1) }
      (leases.insert id { lease with device := some device }) := by
  have hcount : ∀ id, (ConnectionCounts.tenantOf { c with
      tenants := c.tenants.insert device.tenantId
        ⟨(c.tenantOf device.tenantId).connections + 1, readBytes⟩
      devices := c.devices.insert device (countOf c.devices device + 1) } id).connections =
      if id = device.tenantId then (c.tenantOf device.tenantId).connections + 1
      else (c.tenantOf id).connections := by
    intro id
    refine (congrArg _ (ConnectionCounts.tenantOf_insert c device.tenantId id
      ⟨(c.tenantOf device.tenantId).connections + 1, readBytes⟩)).trans ?_
    split <;> rfl
  refine h.put id (some _) (fun counter => ?_) (fun counter => ?_) (by simp [hactive])
  · rw [hlookup]
    cases counter with
    | tenant id =>
      rw [Counter.count, Counter.count, hcount]
      by_cases hid : id = device.tenantId
      · simp [Counter.weight, ConnectionLease.tenant, hnone, hid]
      · simp [Counter.weight, ConnectionLease.tenant, hnone, hid, Ne.symm hid]
    | device key =>
      rw [Counter.count, Counter.count, countOf_insert]
      by_cases hkey : key = device
      · simp [Counter.weight, hnone, hkey]
      · simp [Counter.weight, hnone, hkey, Ne.symm hkey]
    | _ => rfl
  · cases counter with
    | tenant id =>
      rw [Counter.count, hcount, Counter.Within]
      split
      · exact .inr htenant
      · exact .inl rfl
    | device key =>
      rw [Counter.count, countOf_insert, Counter.Within]
      split
      · exact .inr hdevice
      · exact .inl rfl
    | _ => exact .inl rfl

/-- Counts that differ in read bytes only count the same connections. -/
theorem ofConnections {c' : ConnectionCounts}
    (hrest : ∃ tenants, c' = { c with tenants := tenants })
    (htenant : ∀ id, (c'.tenantOf id).connections = (c.tenantOf id).connections) :
    Counted limits c' leases := by
  refine h.congr fun counter => ?_
  obtain ⟨tenants, rfl⟩ := hrest
  cases counter with
  | tenant id => exact htenant id
  | _ => rfl

end

end Counted

end Netbaiot.Quota
