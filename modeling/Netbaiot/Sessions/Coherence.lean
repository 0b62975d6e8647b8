import Netbaiot.Lib.Ends
import Netbaiot.Sessions.Registry

/-!
# The tables of the session registry agree

`Coherent` says how the four tables of the registry fit together.  Pruning observations and
tenants keeps it because connected devices and counted tenants stay; registration and the
drop of a lease write all four tables together.
-/

namespace Netbaiot.Sessions

open Lib Op AList SessionState

variable {device : DeviceKey} {s : SessionState} {generation : ℕ} {endpoint : SessionEndpoint}
  {r : Registry}

/-- The live sessions of a tenant. -/
def SessionState.sessionsOf (s : SessionState) (tenant : TenantId) : ℕ :=
  s.sessions.total fun device _ => if device.tenantId = tenant then 1 else 0

/-- How the tables fit together. -/
structure Coherent (limits : Limits) (s : SessionState) : Prop where
  ordered : ∀ device, device ∈ s.orderedSessions ↔ device ∈ s.sessions
  connections : ∀ tenant, s.connections tenant = s.sessionsOf tenant
  connected : ∀ device endpoint, s.sessions.lookup device = some endpoint →
    ∃ p, s.presence.lookup device = some p ∧ p.connected = true ∧
      p.sessionGeneration = some endpoint.generation
  live : ∀ device p, s.presence.lookup device = some p → p.connected = true →
    device ∈ s.sessions
  sessions_size : s.sessions.size ≤ limits.maxConnections
  tenants_size : s.tenants.size ≤ limits.maxDevices
  presence_size : s.presence.size ≤ limits.maxDevices
  per_tenant : ∀ tenant, s.connections tenant ≤ limits.maxConnectionsPerTenant
  generation : ∀ device endpoint, s.sessions.lookup device = some endpoint →
    endpoint.generation ≤ s.generation

theorem coherent_new (limits : Limits) : Coherent limits .new := by
  constructor
  case sessions_size => exact Nat.zero_le _
  case tenants_size => exact Nat.zero_le _
  case presence_size => exact Nat.zero_le _
  case connections => exact fun _ => rfl
  case per_tenant => exact fun _ => Nat.zero_le _
  all_goals simp [new]

/-! ## Changes of one table -/

/-- The observations of connected devices stay, and no device becomes connected. -/
structure KeepsConnected (presence presence' : Table DeviceKey Presence) : Prop where
  kept : ∀ device p, presence.lookup device = some p → p.connected = true →
    ∃ p', presence'.lookup device = some p' ∧ p'.connected = true ∧
      p'.sessionGeneration = p.sessionGeneration
  only : ∀ device p', presence'.lookup device = some p' → p'.connected = true →
    ∃ p, presence.lookup device = some p ∧ p.connected = true

theorem KeepsConnected.refl (presence : Table DeviceKey Presence) :
    KeepsConnected presence presence :=
  ⟨fun _ p h hp => ⟨p, h, hp, rfl⟩, fun _ p h hp => ⟨p, h, hp⟩⟩

theorem KeepsConnected.trans {p₁ p₂ p₃ : Table DeviceKey Presence} (h : KeepsConnected p₁ p₂)
    (h' : KeepsConnected p₂ p₃) : KeepsConnected p₁ p₃ := by
  refine ⟨fun device p hp hconnected => ?_, fun device p hp hconnected => ?_⟩
  · obtain ⟨q, hq, hqc, hqg⟩ := h.kept device p hp hconnected
    obtain ⟨r, hr, hrc, hrg⟩ := h'.kept device q hq hqc
    exact ⟨r, hr, hrc, hrg.trans hqg⟩
  · obtain ⟨q, hq, hqc⟩ := h'.only device p hp hconnected
    exact h.only device q hq hqc

/-- Forgetting devices that are not connected. -/
theorem keepsConnected_retain {keep : DeviceKey → Presence → Bool}
    (hkeep : ∀ device p, p.connected = true → keep device p = true)
    (presence : Table DeviceKey Presence) : KeepsConnected presence (presence.retain keep) := by
  refine ⟨fun device p hp hconnected => ⟨p, ?_, hconnected, rfl⟩, fun device p hp hconnected => ?_⟩
  · rw [lookup_retain, hp]
    simp [hkeep device p hconnected]
  · rw [lookup_retain, Option.filter_eq_some_iff] at hp
    exact ⟨p, hp.1, hconnected⟩

/-- Writing or forgetting one device that is not connected. -/
theorem keepsConnected_put {presence : Table DeviceKey Presence} (p' : Option Presence)
    (hold : ∀ p, presence.lookup device = some p → p.connected = false)
    (hnew : ∀ p, p' = some p → p.connected = false) :
    KeepsConnected presence (presence.put device p') := by
  refine ⟨fun other p hp hconnected => ⟨p, ?_, hconnected, rfl⟩, fun other p hp hconnected => ?_⟩
  · rw [lookup_put, if_neg, hp]
    rintro rfl
    rw [hold p hp] at hconnected
    cases hconnected
  · rw [lookup_put] at hp
    split at hp
    · rw [hnew p hp] at hconnected
      cases hconnected
    · exact ⟨p, hp, hconnected⟩

/-- A change of the observations that keeps connected devices keeps the tables coherent. -/
theorem Coherent.presence {limits : Limits} (h : Coherent limits s)
    {presence : Table DeviceKey Presence} (hkeeps : KeepsConnected s.presence presence)
    (hsize : presence.size ≤ limits.maxDevices) : Coherent limits { s with presence := presence } :=
  { h with
    connected := fun device endpoint hlookup => by
      obtain ⟨p, hp, hconnected, hgeneration⟩ := h.connected device endpoint hlookup
      obtain ⟨p', hp', hconnected', hgeneration'⟩ := hkeeps.kept device p hp hconnected
      exact ⟨p', hp', hconnected', hgeneration'.trans hgeneration⟩
    live := fun device p hp hconnected => by
      obtain ⟨p', hp', hconnected'⟩ := hkeeps.only device p hp hconnected
      exact h.live device p' hp' hconnected'
    presence_size := hsize }

/-- A change of the tenants that keeps every count keeps the tables coherent. -/
theorem Coherent.tenants {limits : Limits} (h : Coherent limits s)
    {tenants : Table TenantId TenantState}
    (hcount : ∀ tenant,
      (tenants.lookup tenant).elim 0 TenantState.connections = s.connections tenant)
    (hsize : tenants.size ≤ limits.maxDevices) : Coherent limits { s with tenants := tenants } :=
  { h with
    connections := fun tenant => (hcount tenant).trans (h.connections tenant)
    tenants_size := hsize
    per_tenant := fun tenant => (hcount tenant).trans_le (h.per_tenant tenant) }

/-! ## Observations -/

variable {limits : Limits}

theorem Presence.current_of_connected {now : Int64} {p : Presence} (h : p.connected = true) :
    p.current limits now = true := by
  simp [Presence.current, h]

theorem Presence.offline_of_not_current {now : Int64} {p : Presence}
    (h : ¬ p.current limits now = true) : p.connected = false :=
  Bool.eq_false_iff.mpr fun hconnected => h (Presence.current_of_connected hconnected)

/-- The devices forgotten under pressure are not connected. -/
theorem offline_of_oldestOffline {presence : Table DeviceKey Presence}
    (h : device ∈ oldestOffline presence) :
    ∃ p, presence.lookup device = some p ∧ p.connected = false := by
  simp only [oldestOffline, List.mem_map, List.mem_filter] at h
  obtain ⟨⟨_, p⟩, ⟨⟨hmem, hoffline⟩, -⟩, rfl⟩ := h
  exact ⟨p, mem_entries_iff.mp hmem, by simpa using hoffline⟩

theorem offline_of_firstOldest {presence : Table DeviceKey Presence} {preferred : DeviceKey}
    (h : firstOldest preferred presence = some device) :
    ∃ p, presence.lookup device = some p ∧ p.connected = false := by
  unfold firstOldest at h
  split at h
  · next hmem =>
    cases h
    exact offline_of_oldestOffline hmem
  · exact offline_of_oldestOffline (List.mem_of_head? h)

/-- Making room changes the observations only, keeps connected devices, and ends with room. -/
theorem ends_ensurePresenceSlot (hsize : s.presence.size ≤ limits.maxDevices) (now : Int64)
    (preferred device : DeviceKey) :
    Ends (ensurePresenceSlot limits now preferred device) s fun r s' =>
      ∃ presence, s' = { s with presence := presence } ∧ KeepsConnected s.presence presence ∧
        presence.size ≤ limits.maxDevices ∧
        (r = .ok () → device ∈ presence ∨ presence.size < limits.maxDevices) := by
  have hprune : KeepsConnected s.presence (prunePresence limits now s.presence) :=
    keepsConnected_retain (fun _ _ h => Presence.current_of_connected h) s.presence
  have hpruned := (size_retain_le (fun _ p => p.current limits now) s.presence).trans hsize
  refine ends_get_bind (ends_ite (fun hroom => ?_) fun _ => ?_)
  · exact ⟨s.presence, rfl, .refl _, hsize, fun _ => hroom⟩
  refine ends_modify_bind (ends_ite (fun hroom => ?_) fun _ => ?_)
  · exact ⟨_, rfl, hprune, hpruned, fun _ => .inr hroom⟩
  refine ends_someOr_bind (fun oldest hoffline => ?_) fun _ => ?_
  · obtain ⟨p, hp, hconnected⟩ := offline_of_firstOldest hoffline
    have herased := size_erase hp
    refine ⟨(prunePresence limits now s.presence).erase oldest, rfl, ?_, ?_, fun _ => .inr ?_⟩
    · refine hprune.trans (keepsConnected_put none (fun q hq => ?_) (by simp))
      cases hp.symm.trans hq
      exact hconnected
    · exact (size_erase_le _ _).trans hpruned
    · exact Nat.lt_of_succ_le (herased.trans_le hpruned)
  · exact ⟨_, rfl, hprune, hpruned, fun h => by cases h⟩

/-- An observation of a device that is not connected. -/
theorem ends_observe (h : Coherent limits s)
    (hoffline : ∀ p, s.presence.lookup device = some p → p.connected = false) (pruneNow : Int64)
    (preferred : DeviceKey) {p : Presence} (hp : p.connected = false) :
    Ends (do
      ensurePresenceSlot limits pruneNow preferred device
      modify fun s => { s with presence := s.presence.insert device p }) s
      fun _ s' => Coherent limits s' ∧ s'.generation = s.generation ∧ s'.sessions = s.sessions := by
  refine ends_bind (ends_ensurePresenceSlot h.presence_size pruneNow preferred device) ?_ ?_
  · rintro ⟨⟩ s' ⟨presence, rfl, hkeeps, hsize, hroom⟩
    have hoffline' : ∀ q, presence.lookup device = some q → q.connected = false := by
      intro q hq
      by_contra hconnected
      rw [Bool.not_eq_false] at hconnected
      obtain ⟨q', hq', hconnected'⟩ := hkeeps.only device q hq hconnected
      rw [hoffline q' hq'] at hconnected'
      cases hconnected'
    have hinsert : KeepsConnected presence (presence.put device (some p)) :=
      keepsConnected_put (some p) hoffline' fun q hq => by
        cases hq
        exact hp
    have hfits := size_insert_le (hroom rfl) hsize p
    exact ⟨h.presence (hkeeps.trans hinsert) hfits, rfl, rfl⟩
  · rintro e s' ⟨presence, rfl, hkeeps, hsize, -⟩
    exact ⟨h.presence hkeeps hsize, rfl, rfl⟩

/-- Hearing of a device keeps the tables coherent and all sessions. -/
theorem ends_touch (h : Coherent limits s) (now pruneNow : Int64) (preferred device : DeviceKey)
    (transport : Transport) :
    Ends (touch limits now pruneNow preferred device transport) s
      fun _ s' => Coherent limits s' ∧ s'.generation = s.generation ∧ s'.sessions = s.sessions := by
  refine ends_get_bind ?_
  cases hp : s.presence.lookup device with
  | none => exact ends_observe h (by simp [hp]) pruneNow preferred rfl
  | some p =>
    refine ends_ite (fun _ => ?_) fun hcurrent => ?_
    · -- only the instant of the observation changes
      have hkeeps : KeepsConnected s.presence
          (s.presence.insert device { p with lastSeen := now }) := by
        refine ⟨fun other q hq hconnected => ?_, fun other q hq hconnected => ?_⟩
        all_goals grind [lookup_insert_eq]
      have hsize := size_insert_le (.inl (mem_iff_lookup.mpr ⟨p, hp⟩))
        h.presence_size { p with lastSeen := now }
      exact ⟨h.presence hkeeps hsize, rfl, rfl⟩
    · have hoffline := Presence.offline_of_not_current hcurrent
      have herase : KeepsConnected s.presence (s.presence.put device none) :=
        keepsConnected_put none (fun q hq => by cases hp.symm.trans hq; exact hoffline) (by simp)
      have herased := h.presence herase ((size_erase_le _ _).trans h.presence_size)
      exact ends_modify_bind (ends_observe herased (by simp) pruneNow preferred rfl)

/-! ## Registration -/

/-- Making room for a tenant changes the tenants only, keeps every count, and ends with room. -/
theorem ends_ensureTenantSlot (hsize : s.tenants.size ≤ limits.maxDevices)
    (referenced : TenantId → Bool) (tenant : TenantId) :
    Ends (ensureTenantSlot limits referenced tenant) s fun r s' =>
      ∃ tenants, s' = { s with tenants := tenants } ∧
        (∀ tenant, (tenants.lookup tenant).elim 0 TenantState.connections =
          s.connections tenant) ∧ tenants.size ≤ limits.maxDevices ∧
        (r = .ok () → tenant ∈ tenants ∨ tenants.size < limits.maxDevices) := by
  refine ends_get_bind (ends_ite (fun hmem => ?_) fun _ => ?_)
  · exact ⟨s.tenants, rfl, fun _ => rfl, hsize, fun _ => .inl hmem⟩
  have hretained : ∀ id, ((s.tenants.retain fun id t =>
      0 < t.connections || referenced id).lookup id).elim 0 TenantState.connections =
        s.connections id := by
    intro id
    rw [lookup_retain, connections]
    cases hlookup : s.tenants.lookup id with
    | none => rfl
    | some t =>
      by_cases hkept : (0 < t.connections || referenced id) = true
      · simp [Option.filter, hkept]
      · -- a tenant that is forgotten has no connections
        have hzero : t.connections = 0 := by
          simp only [Bool.or_eq_true, decide_eq_true_eq, not_or] at hkept
          omega
        rw [Option.filter_some, if_neg hkept]
        exact hzero.symm
  have hshrunk := (size_retain_le
    (fun id (t : TenantState) => 0 < t.connections || referenced id) s.tenants).trans hsize
  have hpruned : Ends (whenever (limits.maxDevices ≤ s.tenants.size)
      (modify fun s => { s with
        tenants := s.tenants.retain fun id t => 0 < t.connections || referenced id })) s
      fun (r : Except Error Unit) s' => r = .ok () ∧
        ∃ tenants, s' = { s with tenants := tenants } ∧
          (∀ tenant, (tenants.lookup tenant).elim 0 TenantState.connections =
            s.connections tenant) ∧ tenants.size ≤ limits.maxDevices := by
    refine ends_whenever (fun _ => ?_) fun _ => ?_
    · exact ⟨rfl, _, rfl, hretained, hshrunk⟩
    · exact ⟨rfl, s.tenants, rfl, fun _ => rfl, hsize⟩
  refine ends_bind hpruned ?_ ?_
  · rintro ⟨⟩ s' ⟨-, tenants, rfl, hcounts, hle⟩
    refine ends_get_bind (ends_ensure (fun hroom => ?_) fun _ => ?_)
    · exact ⟨tenants, rfl, hcounts, hle, fun _ => .inr hroom⟩
    · exact ⟨tenants, rfl, hcounts, hle, fun h => by cases h⟩
  · rintro e s' ⟨herror, -⟩
    cases herror

/-- The sessions of a tenant after one session was entered. -/
theorem sessionsOf_insert (s : SessionState) (device : DeviceKey) (endpoint : SessionEndpoint)
    (tenant : TenantId) :
    (s.sessions.insert device endpoint).total
        (fun device _ => if device.tenantId = tenant then 1 else 0) =
      s.sessionsOf tenant +
        if device.tenantId = tenant ∧ device ∉ s.sessions then 1 else 0 := by
  have htotal := total_put (fun (device : DeviceKey) (_ : SessionEndpoint) =>
    if device.tenantId = tenant then 1 else 0) device (some endpoint) s.sessions
  rw [put_some, weigh_some] at htotal
  rw [sessionsOf]
  cases hlookup : s.sessions.lookup device with
  | none =>
    have habsent : device ∉ s.sessions := lookup_eq_none.mp hlookup
    rw [hlookup, weigh_none] at htotal
    simp only [habsent, not_false_eq_true, and_true]
    omega
  | some old =>
    have hpresent : device ∈ s.sessions := mem_iff_lookup.mpr ⟨old, hlookup⟩
    rw [hlookup, weigh_some] at htotal
    simp only [hpresent, not_true_eq_false, and_false, if_false]
    omega

/-- Entering a session for which there is room keeps the tables coherent. -/
theorem Coherent.install (h : Coherent limits s) {auth : AuthenticatedDevice}
    (hsessions : auth.deviceKey ∈ s.sessions ∨ s.sessions.size < limits.maxConnections)
    (hpresence : auth.deviceKey ∈ s.presence ∨ s.presence.size < limits.maxDevices)
    (htenants : auth.deviceKey.tenantId ∈ s.tenants ∨ s.tenants.size < limits.maxDevices)
    (hcount : auth.deviceKey ∈ s.sessions ∨
      s.connections auth.deviceKey.tenantId < limits.maxConnectionsPerTenant)
    (hgeneration : s.generation < generation) (transport : Transport) (connectedAt : Int64) :
    Coherent limits (s.install auth transport generation connectedAt) := by
  -- the count of the tenant moves with its sessions
  have hconnections : ∀ tenant,
      (s.install auth transport generation connectedAt).connections tenant =
        s.connections tenant +
          if auth.deviceKey.tenantId = tenant ∧ auth.deviceKey ∉ s.sessions then 1 else 0 := by
    intro tenant
    rw [SessionState.connections, SessionState.install, lookup_insert_eq]
    by_cases htenant : tenant = auth.deviceKey.tenantId
    · subst htenant
      by_cases hmem : auth.deviceKey ∈ s.sessions <;> simp [hmem]
    · simp [htenant, Ne.symm htenant, SessionState.connections]
  constructor
  case ordered =>
    intro other
    show (other ∈ if decide (auth.deviceKey ∈ s.sessions) = true then s.orderedSessions
      else insert auth.deviceKey s.orderedSessions) ↔ other ∈ s.sessions.insert auth.deviceKey _
    rw [mem_insert]
    split
    · next hmem =>
      rw [h.ordered other]
      refine ⟨.inr, fun hother => hother.elim (fun heq => ?_) id⟩
      exact heq ▸ of_decide_eq_true hmem
    · rw [Finset.mem_insert, h.ordered other]
  case connections =>
    intro tenant
    rw [hconnections, h.connections]
    exact (sessionsOf_insert s auth.deviceKey _ tenant).symm
  case connected =>
    intro other endpoint hlookup
    rcases of_lookup_insert hlookup with ⟨rfl, rfl⟩ | ⟨hne, hlookup⟩
    · exact ⟨_, lookup_insert .., rfl, rfl⟩
    · obtain ⟨p, hp, hp'⟩ := h.connected other endpoint hlookup
      exact ⟨p, (lookup_insert_ne hne).trans hp, hp'⟩
  case live =>
    intro other p hp
    have hold := h.live other p
    rw [SessionState.install] at *
    grind [lookup_insert_eq, mem_insert]
  case sessions_size => exact size_insert_le hsessions h.sessions_size _
  case tenants_size => exact size_insert_le htenants h.tenants_size _
  case presence_size => exact size_insert_le hpresence h.presence_size _
  case per_tenant =>
    intro tenant
    rw [hconnections]
    have hle := h.per_tenant tenant
    split
    · next hnew =>
      rw [← hnew.1]
      exact hcount.resolve_left hnew.2
    · exact hle
  case generation =>
    intro other endpoint hlookup
    rcases of_lookup_insert hlookup with ⟨-, rfl⟩ | ⟨-, hlookup⟩
    · exact le_rfl
    · exact (h.generation other endpoint hlookup).trans hgeneration.le

/-- A registration keeps the tables coherent whether or not it succeeds; a new session gets a
larger generation than any before. -/
theorem ends_registerWith (h : Coherent limits s) (hlimit : 0 < limits.maxConnectionsPerTenant)
    (auth : AuthenticatedDevice) (transport : Transport) (around : Surroundings) :
    Ends (registerWith limits auth transport around) s fun r s' => Coherent limits s' ∧
      match r with
      | .ok generation => s.generation < generation ∧ s'.generation = generation ∧
          s'.sessions = s.sessions.insert auth.deviceKey ⟨generation, transport, auth⟩
      | .error _ => s'.generation = s.generation ∧ s'.sessions = s.sessions := by
  refine ends_ensure_bind (fun _ => ?_) fun _ => ⟨h, rfl, rfl⟩
  refine ends_get_bind (ends_ensure_bind (fun hsessions => ?_) fun _ => ⟨h, rfl, rfl⟩)
  refine ends_bind (ends_ensurePresenceSlot h.presence_size around.now around.preferred
    auth.deviceKey) ?_ ?_
  case refine_2 =>
    rintro e s' ⟨presence, rfl, hkeeps, hsize, -⟩
    exact ⟨h.presence hkeeps hsize, rfl, rfl⟩
  rintro ⟨⟩ s' ⟨presence, rfl, hkeeps, hsize, hpresence⟩
  have hobserved := h.presence hkeeps hsize
  refine ends_someOr_bind (fun generation hgeneration => ?_) fun _ => ⟨hobserved, rfl, rfl⟩
  refine ends_bind (ends_ensureTenantSlot hobserved.tenants_size around.referenced
    auth.deviceKey.tenantId) ?_ ?_
  case refine_2 =>
    rintro e s' ⟨tenants, rfl, hcounts, hle, -⟩
    exact ⟨hobserved.tenants hcounts hle, rfl, rfl⟩
  rintro ⟨⟩ s' ⟨tenants, rfl, hcounts, hle, htenants⟩
  have hpruned := hobserved.tenants hcounts hle
  refine ends_get_bind (ends_ensure_bind (fun hcount => ?_) fun _ => ⟨hpruned, rfl, rfl⟩)
  refine ends_fromExcept_bind (fun _ _ => ?_) fun _ _ => ⟨hpruned, rfl, rfl⟩
  obtain ⟨-, rfl⟩ := checkedAdd_eq_some.mp hgeneration
  refine ends_modify_bind ⟨hpruned.install hsessions (hpresence rfl) (htenants rfl) ?_
    (Nat.lt_succ_self s.generation) transport around.connectedAt, Nat.lt_succ_self _, rfl, rfl⟩
  -- a tenant that has no entry has no connections yet
  refine hcount.imp_right fun hany => ?_
  show (tenants.lookup auth.deviceKey.tenantId).elim 0 TenantState.connections < _
  cases hlookup : tenants.lookup auth.deviceKey.tenantId with
  | none => exact hlimit
  | some tenant => simpa [hlookup] using hany

/-! ## The end of a session -/

/-- The sessions of a tenant after a live session was taken out. -/
theorem sessionsOf_erase (hlive : s.sessions.lookup device = some endpoint) (tenant : TenantId) :
    s.sessionsOf tenant = (s.sessions.erase device).total
        (fun device _ => if device.tenantId = tenant then 1 else 0) +
      if device.tenantId = tenant then 1 else 0 := by
  rw [sessionsOf, total_of_lookup _ hlive]
  exact Nat.add_comm _ _

/-- The connections of a tenant after a live session was taken out. -/
theorem connections_remove (h : Coherent limits s)
    (hlive : s.sessions.lookup device = some endpoint) (now : Int64) (tenant : TenantId) :
    (s.remove device now).connections tenant + (if device.tenantId = tenant then 1 else 0) =
      s.connections tenant := by
  -- the tenant of a live session has an entry that counts it
  have hpos : 0 < s.connections device.tenantId := by
    rw [h.connections, sessionsOf_erase hlive]
    simp
  obtain ⟨entry, hentry⟩ : ∃ entry, s.tenants.lookup device.tenantId = some entry := by
    rw [connections] at hpos
    cases hlookup : s.tenants.lookup device.tenantId with
    | none => simp [hlookup] at hpos
    | some entry => exact ⟨entry, rfl⟩
  rw [connections, hentry] at hpos
  simp only [connections, remove, hentry, lookup_insert_eq]
  by_cases htenant : tenant = device.tenantId
  · subst htenant
    simp only [if_true, hentry, Option.elim_some] at hpos ⊢
    omega
  · simp [htenant, Ne.symm htenant]

/-- Taking a live session out keeps the tables coherent. -/
theorem Coherent.remove (h : Coherent limits s) (hlive : s.sessions.lookup device = some endpoint)
    (now : Int64) : Coherent limits (s.remove device now) := by
  obtain ⟨p, hp, -, -⟩ := h.connected device endpoint hlive
  have hpresence : ∀ other, (s.remove device now).presence.lookup other =
      if other = device then some { p with
        connected := false, connectedAt := none, lastSeen := now, sessionGeneration := none }
      else s.presence.lookup other := by
    intro other
    simp only [SessionState.remove, hp]
    exact lookup_insert_eq device other _ _
  constructor
  case ordered =>
    intro other
    show other ∈ s.orderedSessions.erase device ↔ other ∈ s.sessions.erase device
    rw [Finset.mem_erase, h.ordered, mem_erase]
  case connections =>
    intro tenant
    have hcount := connections_remove h hlive now tenant
    have hsessions := sessionsOf_erase hlive tenant
    have hold := h.connections tenant
    show _ = (s.sessions.erase device).total _
    omega
  case connected =>
    intro other endpoint' hlookup
    obtain ⟨hne, hlookup⟩ := of_lookup_erase hlookup
    obtain ⟨q, hq, hq'⟩ := h.connected other endpoint' hlookup
    exact ⟨q, (hpresence other).trans ((if_neg hne).trans hq), hq'⟩
  case live =>
    intro other q hq hconnected
    rw [hpresence] at hq
    show other ∈ s.sessions.erase device
    split at hq
    · cases hq
      cases hconnected
    · next hne => exact mem_erase.mpr ⟨hne, h.live other q hq hconnected⟩
  case sessions_size => exact (size_erase_le _ _).trans h.sessions_size
  case tenants_size =>
    unfold SessionState.remove
    split
    · next tenant htenant =>
      exact size_insert_le (.inl (mem_iff_lookup.mpr ⟨tenant, htenant⟩)) h.tenants_size _
    · exact h.tenants_size
  case presence_size =>
    simp only [SessionState.remove, hp]
    exact size_insert_le (.inl (mem_iff_lookup.mpr ⟨p, hp⟩)) h.presence_size _
  case per_tenant =>
    intro tenant
    have hcount := connections_remove h hlive now tenant
    have hle := h.per_tenant tenant
    omega
  case generation =>
    intro other endpoint' hlookup
    exact h.generation other endpoint' (of_lookup_erase hlookup).2

/-- Dropping a lease whose session was replaced or is gone changes nothing. -/
theorem dropLease_of_stale
    (h : ∀ endpoint, s.sessions.lookup device = some endpoint → endpoint.generation ≠ generation)
    (now : Int64) : s.dropLease device generation now = s := by
  unfold dropLease
  rw [if_neg]
  cases hlookup : s.sessions.lookup device with
  | none => simp
  | some endpoint => simpa using h endpoint hlookup

theorem dropLease_of_current (h : s.sessions.lookup device = some endpoint) (now : Int64) :
    s.dropLease device endpoint.generation now = s.remove device now := by
  unfold dropLease
  simp [h]

/-! ## Runs -/

/-- The tables are coherent, every live session has its lease, and no lease is newer than the
generation of the registry. -/
structure Registry.Sound (limits : Limits) (r : Registry) : Prop where
  coherent : Coherent limits r.state
  leased : ∀ device endpoint, r.state.sessions.lookup device = some endpoint →
    r.leases.lookup endpoint.generation = some device
  issued : ∀ generation device, r.leases.lookup generation = some device →
    generation ≤ r.state.generation

/-- A call that keeps all sessions and leases. -/
theorem Registry.Sound.observe (h : r.Sound limits)
    (hs : Coherent limits s ∧ s.generation = r.state.generation ∧ s.sessions = r.state.sessions) :
    Registry.Sound limits { r with state := s } where
  coherent := hs.1
  leased device endpoint hlookup := h.leased device endpoint (hs.2.2 ▸ hlookup)
  issued generation device hlookup := (h.issued generation device hlookup).trans_eq hs.2.1.symm

/-- A new session comes with its lease. -/
theorem Registry.Sound.register (h : r.Sound limits) {transport : Transport}
    {auth : AuthenticatedDevice} (hs : Coherent limits s)
    (hnewer : r.state.generation < generation) (hgeneration : s.generation = generation)
    (hsessions : s.sessions = r.state.sessions.insert device ⟨generation, transport, auth⟩) :
    Registry.Sound limits ⟨s, r.leases.insert generation device⟩ where
  coherent := hs
  leased other endpoint hlookup := by
    rw [hsessions] at hlookup
    rw [lookup_insert_eq]
    rcases of_lookup_insert hlookup with ⟨rfl, rfl⟩ | ⟨-, hlookup⟩
    · rw [if_pos rfl]
    · -- the generations of the other sessions are older
      have hle := h.coherent.generation other endpoint hlookup
      rw [if_neg (by omega)]
      exact h.leased other endpoint hlookup
  issued generation' other hlookup := by
    show generation' ≤ s.generation
    rcases of_lookup_insert hlookup with ⟨rfl, -⟩ | ⟨-, hlookup⟩
    · exact hgeneration.ge
    · have hle := h.issued generation' other hlookup
      omega

/-- A lease that is dropped takes its own session with it and no other. -/
theorem Registry.Sound.dropLease (h : r.Sound limits)
    (hlease : r.leases.lookup generation = some device) (now : Int64) :
    Registry.Sound limits
      ⟨r.state.dropLease device generation now, r.leases.erase generation⟩ := by
  have hissued : ∀ generation' other, (r.leases.erase generation).lookup generation' = some other →
      generation' ≤ r.state.generation := fun generation' other hlookup =>
    h.issued generation' other (of_lookup_erase hlookup).2
  -- a session with the dropped generation is the one of the lease
  have hleased : ∀ other endpoint, r.state.sessions.lookup other = some endpoint →
      endpoint.generation = generation → other = device := by
    intro other endpoint hlookup heq
    have hother := h.leased other endpoint hlookup
    rw [heq, hlease] at hother
    exact (Option.some.inj hother).symm
  by_cases hcurrent : ∃ endpoint, r.state.sessions.lookup device = some endpoint ∧
      endpoint.generation = generation
  · obtain ⟨endpoint, hlive, rfl⟩ := hcurrent
    rw [dropLease_of_current hlive]
    refine ⟨h.coherent.remove hlive now, fun other endpoint' hlookup => ?_, hissued⟩
    obtain ⟨hne, hlookup⟩ := of_lookup_erase hlookup
    rw [lookup_erase_eq, if_neg]
    · exact h.leased other endpoint' hlookup
    · exact fun heq => hne (hleased other endpoint' hlookup heq)
  · have hstale : ∀ endpoint, r.state.sessions.lookup device = some endpoint →
        endpoint.generation ≠ generation := fun endpoint hlookup heq =>
      hcurrent ⟨endpoint, hlookup, heq⟩
    rw [dropLease_of_stale hstale]
    refine ⟨h.coherent, fun other endpoint hlookup => ?_, hissued⟩
    rw [lookup_erase_eq, if_neg]
    · exact h.leased other endpoint hlookup
    · intro heq
      cases hleased other endpoint hlookup heq
      exact hstale endpoint hlookup heq

/-- Every call keeps the registry sound and never lowers its generation. -/
theorem Registry.Sound.perform (h : r.Sound limits) (hlimit : 0 < limits.maxConnectionsPerTenant)
    (action : Action) :
    (r.perform limits action).Sound limits ∧
      r.state.generation ≤ (r.perform limits action).state.generation := by
  cases action with
  | registerWith auth transport around =>
    have hends := ends_registerWith h.coherent hlimit auth transport around
    simp only [Registry.perform]
    split
    · next generation state hexec =>
      obtain ⟨hcoherent, hnewer, hgeneration, hsessions⟩ := hends.of_exec hexec
      exact ⟨h.register hcoherent hnewer hgeneration hsessions, hgeneration ▸ hnewer.le⟩
    · next e state hexec =>
      have hfailed := hends.of_exec hexec
      exact ⟨h.observe hfailed, hfailed.2.1.ge⟩
  | dropLease generation now =>
    simp only [Registry.perform]
    split
    · next device hlease =>
      refine ⟨h.dropLease hlease now, ?_⟩
      show _ ≤ (r.state.dropLease device generation now).generation
      unfold SessionState.dropLease
      split <;> exact le_rfl
    · exact ⟨h, le_rfl⟩
  | touch device transport now pruneNow preferred =>
    have hends := ends_touch h.coherent now pruneNow preferred device transport
    exact ⟨h.observe hends, hends.2.1.ge⟩
  | presence device now =>
    have hkeeps : KeepsConnected r.state.presence
        (prunePresenceEntry limits now device r.state.presence) ∧
        (prunePresenceEntry limits now device r.state.presence).size ≤
          r.state.presence.size := by
      fun_cases prunePresenceEntry limits now device r.state.presence with
      | case2 p hp hcurrent =>
        refine ⟨keepsConnected_put none (fun q hq => ?_) (by simp), size_erase_le _ _⟩
        cases hp.symm.trans hq
        exact Presence.offline_of_not_current hcurrent
      | _ => exact ⟨.refl _, le_rfl⟩
    refine ⟨h.observe ⟨h.coherent.presence hkeeps.1 ?_, rfl, rfl⟩, le_rfl⟩
    exact hkeeps.2.trans h.coherent.presence_size
  | registryCounts now =>
    have hkeeps : KeepsConnected r.state.presence (prunePresence limits now r.state.presence) :=
      keepsConnected_retain (fun _ _ hp => Presence.current_of_connected hp) _
    refine ⟨h.observe ⟨h.coherent.presence hkeeps ?_, rfl, rfl⟩, le_rfl⟩
    exact (size_retain_le _ _).trans h.coherent.presence_size

/-- Every reachable registry is sound. -/
theorem sound_of_reachable (hlimit : 0 < limits.maxConnectionsPerTenant)
    (h : (system limits).Reachable r) : r.Sound limits := by
  refine h.invariant ?_ ?_
  · rintro _ rfl
    exact ⟨coherent_new limits, by simp [Registry.new, new], by simp [Registry.new]⟩
  · rintro r action _ hsound rfl
    exact (hsound.perform hlimit action).1

/-- Validated limits allow a tenant at least one connection. -/
theorem maxConnectionsPerTenant_pos (h : limits.validate = .ok ()) :
    0 < limits.maxConnectionsPerTenant := by
  have hrange : ScalarRange.ordinary.minimum ≤ limits.maxConnectionsPerTenant :=
    (Limits.scalar_range h (by simp [Limits.scalars])).1
  exact hrange

/-- After any calls in any order, the index holds exactly the devices with a session, the count of
every tenant is the number of its sessions, a device is observed as connected exactly while it
has a session and then with its generation, and all tables are within their limits.  The
generation never goes down and a new session makes it larger, so that no generation is given out
twice, and the drop of a lease whose session is no longer current changes nothing. -/
theorem registry_coherent (hlimits : limits.validate = .ok ()) {r : Registry}
    (h : (system limits).Reachable r) :
    (∀ device, device ∈ r.state.orderedSessions ↔ device ∈ r.state.sessions) ∧
    (∀ tenant, r.state.connections tenant = r.state.sessionsOf tenant) ∧
    (∀ device, (∃ p, r.state.presence.lookup device = some p ∧ p.connected = true) ↔
      device ∈ r.state.sessions) ∧
    (∀ device endpoint p, r.state.sessions.lookup device = some endpoint →
      r.state.presence.lookup device = some p →
      p.connected = true ∧ p.sessionGeneration = some endpoint.generation) ∧
    r.state.sessions.size ≤ limits.maxConnections ∧
    r.state.tenants.size ≤ limits.maxDevices ∧
    r.state.presence.size ≤ limits.maxDevices ∧
    (∀ tenant, r.state.connections tenant ≤ limits.maxConnectionsPerTenant) ∧
    (∀ action, r.state.generation ≤ (r.perform limits action).state.generation) ∧
    (∀ auth transport around generation s,
      exec (registerWith limits auth transport around) r.state = (.ok generation, s) →
      r.state.generation < generation ∧ s.generation = generation ∧
      (∀ device endpoint, r.state.sessions.lookup device = some endpoint →
        endpoint.generation < generation) ∧
      ∀ lease device, r.leases.lookup lease = some device → lease < generation) ∧
    (∀ generation device now, r.leases.lookup generation = some device →
      (∀ endpoint, r.state.sessions.lookup device = some endpoint →
        endpoint.generation ≠ generation) →
      (r.perform limits (.dropLease generation now)).state = r.state) := by
  have hlimit := maxConnectionsPerTenant_pos hlimits
  have hsound := sound_of_reachable hlimit h
  have hcoherent := hsound.coherent
  refine ⟨hcoherent.ordered, hcoherent.connections, fun device => ?_, ?_,
    hcoherent.sessions_size, hcoherent.tenants_size, hcoherent.presence_size,
    hcoherent.per_tenant, fun action => (hsound.perform hlimit action).2, ?_, ?_⟩
  · constructor
    · rintro ⟨p, hp, hconnected⟩
      exact hcoherent.live device p hp hconnected
    · intro hlive
      obtain ⟨endpoint, hlookup⟩ := mem_iff_lookup.mp hlive
      obtain ⟨p, hp, hconnected, -⟩ := hcoherent.connected device endpoint hlookup
      exact ⟨p, hp, hconnected⟩
  · intro device endpoint p hlookup hp
    obtain ⟨p', hp', hconnected⟩ := hcoherent.connected device endpoint hlookup
    cases hp.symm.trans hp'
    exact hconnected
  · intro auth transport around generation s hexec
    obtain ⟨-, hnewer, hgeneration, -⟩ :=
      (ends_registerWith hcoherent hlimit auth transport around).of_exec hexec
    refine ⟨hnewer, hgeneration, fun device endpoint hlookup => ?_, fun lease device hlease => ?_⟩
    · exact (hcoherent.generation device endpoint hlookup).trans_lt hnewer
    · exact (hsound.issued lease device hlease).trans_lt hnewer
  · intro generation device now hlease hstale
    simp only [Registry.perform, hlease]
    exact dropLease_of_stale hstale now

/-- A device of one letter, as authenticated by the default profile. -/
def oneDevice : AuthenticatedDevice where
  deviceKey := ⟨.t, .p, .d⟩
  credentialVersion := 1
  authGeneration := 1
  codecId := .c
  codecVersion := 1
  permissions := ⟨true, true⟩

/-- A registration that meets no obstacle. -/
def calm : Surroundings where
  now := 0
  connectedAt := 0
  preferred := oneDevice.deviceKey
  referenced _ := false
  finalize _ _ := .ok ()

/-- A device takes its own session over, and then the older lease is dropped. -/
theorem registry_coherent_takeover : ∃ r : Registry,
    (system .default).Reachable r ∧ r.leases.size = 1 ∧ r.state.sessions.size = 1 ∧
    ∀ tenant, r.state.connections tenant = r.state.sessionsOf tenant := by
  let calls : List Action :=
    [.registerWith oneDevice .tcp calm, .registerWith oneDevice .mqtt calm, .dropLease 1 5]
  have hreach : (system .default).Reachable (calls.foldl (Registry.perform .default) .new) :=
    System.Reachable.foldl (fun _ _ => rfl) calls (.start rfl)
  refine ⟨_, hreach, by decide +kernel, by decide +kernel, ?_⟩
  exact (registry_coherent (by decide +kernel) hreach).2.1

end Netbaiot.Sessions
