import Netbaiot.Quota.ReadBuffers

/-!
# Connection quotas over whole runs

Every step of a call keeps the balance, so along every interleaving each count is the number of
live connections of its class, the bytes in use are those of connections, read buffers and calls
under way, and what is dropped is given back once.
-/

namespace Netbaiot.Quota

open Lib AList

namespace Connections

namespace Sound

variable {limits : Limits} {s s' : Connections}

/-! ### Steps -/

/-- A call that fails changes nothing. -/
theorem settle (h : Sound limits s) {result : Except Error Connections}
    (hok : ∀ s', result = .ok s' → Sound limits s') : Sound limits (s.settle result) := by
  cases result with
  | ok s' => exact hok s' rfl
  | error e => exact h

/-- A call under way goes on with what it holds. -/
theorem rehold (h : Sound limits s) {id slots memory : ℕ} {old held : Held}
    (hheld : s.held.lookup id = some old) (hslots : slots + held.slots = s.slots + old.slots)
    (hmemory : memory + held.bytes limits = s.memory + old.bytes limits) :
    Sound limits { s with slots := slots, memory := memory, held := s.held.insert id held } := by
  refine h.hold slots memory (h.apart id old hheld) ?_ ?_
  · rw [hheld]
    exact hslots
  · rw [hheld]
    exact hmemory

/-- Steps of the life of a connection. -/
theorem performLease (h : Sound limits s) {action : ConnectionAction}
    (hs' : s.performLease limits action = some s') : Sound limits s' := by
  revert hs'
  fun_cases Connections.performLease limits s action with
  | case1 id ip deviceIngress hfree =>
    rintro ⟨⟩
    split
    · exact h
    · next hslots =>
      have hheld := lookup_eq_none.mpr hfree.2.1
      refine h.hold (s.slots - 1) s.memory (lookup_eq_none.mpr hfree.1) ?_ ?_
      · rw [hheld, weigh_none, Held.slots]
        omega
      · rw [hheld]
        rfl
  | case3 id ip deviceIngress hheld memory hmemory =>
    rintro ⟨⟩
    exact h.rehold hheld rfl (reserve_eq_ok hmemory)
  | case4 id ip deviceIngress hheld =>
    rintro ⟨⟩
    exact h.rehold hheld rfl rfl
  | case6 id ip deviceIngress hheld =>
    rintro ⟨⟩
    exact h.enter hheld
  | case8 id transport lease hlookup hpending =>
    rintro ⟨⟩
    exact h.classify hlookup hpending transport
  | case11 id lease hlookup =>
    rintro ⟨⟩
    exact h.intoManagement hlookup
  | case15 id device lease hlookup hactive =>
    rintro ⟨⟩
    exact h.settle fun s' hs' => h.authenticate hlookup (Bool.eq_false_iff.mpr hactive) hs'
  | case18 =>
    rintro ⟨⟩
    exact h.readBudget
  | case20 id =>
    rw [Option.map_eq_some_iff]
    rintro ⟨lease, hlookup, rfl⟩
    exact h.closeLease hlookup
  | case21 id bytes hheld | case23 id slot bytes hheld =>
    rintro ⟨⟩
    exact h.rehold hheld rfl rfl
  | _ => rintro ⟨⟩

/-- Steps of read buffers. -/
theorem performRead (h : Sound limits s) {action : ConnectionAction}
    (hs' : s.performRead limits action = some s') : Sound limits s' := by
  revert hs'
  fun_cases Connections.performRead limits s action with
  | case1 id device =>
    rw [Option.map_eq_some_iff]
    rintro ⟨state, hlookup, rfl⟩
    exact h.settle fun s' hs' => h.bindReader hlookup hs'
  | case2 id capacity permit state hlookup hfree s₁ hs₁ =>
    rintro ⟨⟩
    exact h.reserveAllocation hlookup (lookup_eq_none.mpr hfree.1) (lookup_eq_none.mpr hfree.2) hs₁
  | case8 id capacity previous replacement state old _ hlookup hnew _ s₁ hs₁ =>
    rintro ⟨⟩
    exact h.reserveReplacement hlookup (lookup_eq_none.mpr hnew) hs₁
  | case3 | case7 | case9 =>
    rintro ⟨⟩
    exact h
  | case11 id permit capacity state previous hkey hlookup =>
    rintro ⟨⟩
    exact h.settle fun s' hs' => h.expandAllocation hlookup hkey hs'
  | case13 replacement permit r hr state hlookup hfree =>
    rintro ⟨⟩
    exact h.settle fun s' hs' => h.commit hr hlookup (lookup_eq_none.mpr hfree.1)
      (lookup_eq_none.mpr hfree.2) hs'
  | case17 replacement permit state p hr hfree =>
    rintro ⟨⟩
    exact h.abort hr rfl (lookup_eq_none.mpr hfree.1) (lookup_eq_none.mpr hfree.2)
  | case20 replacement state hr =>
    rintro ⟨⟩
    exact h.finishAbort hr rfl
  | case22 permit p hkey =>
    rintro ⟨⟩
    exact h.dropPermit hkey
  | case24 permit bytes hkey =>
    rintro ⟨⟩
    exact h.releasePermit hkey
  | _ => rintro ⟨⟩

/-- Every step of every call keeps the balance. -/
theorem perform (h : Sound limits s) {action : ConnectionAction}
    (hs' : s.perform limits action = some s') : Sound limits s' := by
  unfold Connections.perform at hs'
  cases hlease : s.performLease limits action with
  | some s₁ =>
    rw [hlease] at hs'
    cases hs'
    exact h.performLease hlease
  | none =>
    rw [hlease] at hs'
    exact h.performRead hs'

end Sound

/-- A read account is bound to a tenant. -/
def boundTo (s : Connections) (tenant : TenantId) (account : ℕ) : Bool :=
  (s.readStates.lookup account).any fun state => state.tenant = some tenant

/-- The bytes of the live read buffers bound to a tenant. -/
def tenantBuffers (s : Connections) (tenant : TenantId) : ℕ :=
  s.permits.total (fun _ p => if s.boundTo tenant p.state then p.capacity else 0) +
    s.replacements.total fun _ r => if s.boundTo tenant r.state then r.bytes else 0

/-- Nothing is live, and every call that ended has given back what it held. -/
structure Idle (s : Connections) : Prop where
  leases : s.leases = ∅
  permits : s.permits = ∅
  replacements : s.replacements = ∅
  releasing : s.releasing = ∅
  held : ∀ id held, s.held.lookup id = some held → held = .dropping false 0

namespace Sound

variable {limits : Limits} {s : Connections}

/-- What is charged to the account of a buffer, if the account is bound to a tenant. -/
theorem weigh_bound (s : Connections) (tenant : TenantId) (account bytes : ℕ) :
    weigh (fun (_ : ℕ) (state : ReadAllocationState) =>
      if state.tenant = some tenant then bytes else 0) account (s.readStates.lookup account) =
      if s.boundTo tenant account then bytes else 0 := by
  unfold boundTo
  cases s.readStates.lookup account with
  | none => rfl
  | some state => simp

/-- The bytes of an account that are a tenant's, buffer by buffer. -/
theorem bytesOf_eq (h : Sound limits s) (tenant : TenantId) {id : ℕ} {state : ReadAllocationState}
    (hlookup : s.readStates.lookup id = some state) :
    state.bytesOf tenant =
      s.permits.total (fun _ p => if p.state = id then
        if state.tenant = some tenant then p.capacity else 0 else 0) +
      s.replacements.total fun _ r => if r.state = id then
        if state.tenant = some tenant then r.bytes else 0 else 0 := by
  unfold ReadAllocationState.bytesOf
  by_cases hbound : state.tenant = some tenant
  · simp only [hbound, if_true]
    exact h.accounts.capacity id state hlookup
  · simp [hbound, total]

/-- The read bytes of a tenant are those of the live buffers bound to it. -/
theorem readBytes_eq (h : Sound limits s) (tenant : TenantId) :
    (s.counts.tenantOf tenant).readBytes = s.tenantBuffers tenant := by
  rw [h.charged.readBytes, total_congr fun id state hlookup => h.bytesOf_eq tenant hlookup,
    total_add]
  -- each buffer belongs to one account: sum over buffers instead of accounts
  refine congrArg₂ _ ?_ ?_
  · refine (total_total ReadAllocationPermit.state (fun state p =>
      if state.tenant = some tenant then p.capacity else 0) s.readStates s.permits).trans ?_
    exact total_congr fun _ p _ => weigh_bound s tenant p.state p.capacity
  · refine (total_total ReadAllocationReplacement.state (fun state r =>
      if state.tenant = some tenant then r.bytes else 0) s.readStates s.replacements).trans ?_
    exact total_congr fun _ r _ => weigh_bound s tenant r.state r.bytes

/-- Once nothing is live, everything is free. -/
theorem idle (h : Sound limits s) (hidle : s.Idle) :
    s.slots = limits.maxConnections ∧ s.memory = limits.globalConnectionLogicalBytes ∧
      (∀ counter : Counter, counter.count s.counts = 0) ∧
      ∀ tenant, s.counts.tenantOf tenant = ⟨0, 0⟩ := by
  have hslots := h.slots
  have hmemory := h.memory
  have hheldSlots : s.held.total (fun _ held => held.slots) = 0 :=
    total_eq_zero fun id held hlookup => by rw [hidle.held id held hlookup]; rfl
  have hheldBytes : s.held.total (fun _ held => held.bytes limits) = 0 :=
    total_eq_zero fun id held hlookup => by rw [hidle.held id held hlookup]; rfl
  have hcount : ∀ counter : Counter, counter.count s.counts = 0 := by
    intro counter
    rw [h.counted.count counter, Counter.live, hidle.leases, total_empty]
  rw [hidle.leases, hheldSlots] at hslots
  rw [hidle.leases, hheldBytes, buffers, hidle.permits, hidle.replacements,
    hidle.releasing] at hmemory
  refine ⟨hslots, hmemory, hcount, fun tenant => ?_⟩
  have hconnections : (s.counts.tenantOf tenant).connections = 0 := hcount (.tenant tenant)
  have hread := h.readBytes_eq tenant
  rw [tenantBuffers, hidle.permits, hidle.replacements] at hread
  exact TenantConnections.ext hconnections hread

end Sound

end Connections

end Netbaiot.Quota
