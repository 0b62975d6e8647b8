import Netbaiot.Quota.Entries

/-!
# The ingress bound

Each semaphore has at least as many permits as are in its pool and in use together.  A live
lease holds a permit of its device's and of its tenant's semaphore, so as long as all leases
of a key hold permits of one semaphore, its capacity bounds their number.  The entry of a
key in use is never pruned.  A call that is still to take its permits does not use its entry
yet, though: the entry may be pruned and made again with a second semaphore.
-/

namespace Netbaiot.Quota

open Lib Op AList Admission

variable {s : Admission} {semaphores : Table ℕ Semaphore} {capacity : ℕ} {r' : Registry}
  {limits : Limits}

/-! ## Permits in use -/

/-- The permits of one semaphore in a list. -/
def permitsOf (number : ℕ) (permits : List Permit) : ℕ :=
  (permits.map fun permit => if permit.1 = number then permit.2 else 0).sum

@[simp] theorem permitsOf_nil (number : ℕ) : permitsOf number [] = 0 := rfl

@[simp] theorem permitsOf_cons (number : ℕ) (permit : Permit) (permits : List Permit) :
    permitsOf number (permit :: permits) =
      (if permit.1 = number then permit.2 else 0) + permitsOf number permits := rfl

@[simp] theorem permitsOf_append (number : ℕ) (permits permits' : List Permit) :
    permitsOf number (permits ++ permits') =
      permitsOf number permits + permitsOf number permits' := by
  simp [permitsOf]

@[simp] theorem permitsOf_reverse (number : ℕ) (permits : List Permit) :
    permitsOf number permits.reverse = permitsOf number permits :=
  (permits.reverse_perm.map _).sum_eq

/-- A lease holds a permit of its device's semaphore. -/
theorem one_le_permitsOf_device (found : ℕ × ℕ) (amount : ℕ) :
    1 ≤ permitsOf found.1 (leasePermits found amount) := by
  simp [leasePermits]

/-- A lease holds a permit of its tenant's semaphore. -/
theorem one_le_permitsOf_tenant (found : ℕ × ℕ) (amount : ℕ) :
    1 ≤ permitsOf found.2 (leasePermits found amount) := by
  simp only [leasePermits, permitsOf_cons, if_true]
  omega

/-- The permits of a semaphore that a call holds. -/
def Call.permits (number : ℕ) (call : Call) : ℕ := permitsOf number (call.held ++ call.waiter)

namespace Admission

/-- The permits of a semaphore that calls and leases hold. -/
def inUse (s : Admission) (number : ℕ) : ℕ :=
  s.calls.total (fun _ call => call.permits number) +
    s.leases.total fun _ lease => permitsOf number lease.held

/-- The permits in the pool of a semaphore. -/
def poolOf (semaphores : Table ℕ Semaphore) (number : ℕ) : ℕ :=
  (semaphores.lookup number).elim 0 Semaphore.pool

/-- The permits a semaphore was made with. -/
def capacityOf (semaphores : Table ℕ Semaphore) (number : ℕ) : ℕ :=
  (semaphores.lookup number).elim 0 Semaphore.capacity

/-- The permits of a semaphore in its pool or in use. -/
def ledger (s : Admission) (number : ℕ) : ℕ := poolOf s.semaphores number + s.inUse number

/-- No semaphore hands out more permits than it was made with. -/
def Balanced (s : Admission) : Prop :=
  ∀ number, s.ledger number ≤ capacityOf s.semaphores number

theorem poolOf_insert (semaphores : Table ℕ Semaphore) (k : ℕ) (semaphore : Semaphore)
    (number : ℕ) : poolOf (semaphores.insert k semaphore) number =
      if number = k then semaphore.pool else poolOf semaphores number := by
  unfold poolOf
  rw [lookup_insert_eq]
  split <;> rfl

theorem inUse_setCall {id : ℕ} {call : Call} (h : s.calls.lookup id = some call) (call' : Call)
    (number : ℕ) :
    (s.setCall id call').inUse number + call.permits number =
      s.inUse number + call'.permits number := by
  have hput := total_put (fun _ (call : Call) => call.permits number) id (some call') s.calls
  rw [put_some, h, weigh_some, weigh_some] at hput
  simp only [inUse, setCall]
  omega

end Admission

/-! ## Steps outside the lock -/

/-- A call goes on with what it looked up, or has ended. -/
def Call.Continues (call call' : Call) : Prop :=
  call'.stage = .acquiring → call.stage = .acquiring ∧ call'.device = call.device ∧
    call'.slots = call.slots ∧ call'.bytes = call.bytes ∧
    call'.held.reverse ++ call'.todo = call.held.reverse ++ call.todo

theorem Call.Continues.refl (call : Call) : call.Continues call :=
  fun h => ⟨h, rfl, rfl, rfl, rfl⟩

theorem Call.Continues.trans {call call' call'' : Call} (h : call.Continues call')
    (h' : call'.Continues call'') : call.Continues call'' := by
  intro hstage
  obtain ⟨hstage', hdevice', hslots', hbytes', hplan'⟩ := h' hstage
  obtain ⟨hstage, hdevice, hslots, hbytes, hplan⟩ := h hstage'
  exact ⟨hstage, hdevice'.trans hdevice, hslots'.trans hslots, hbytes'.trans hbytes,
    hplan'.trans hplan⟩

theorem Call.continues_ended (call call' : Call) : call.Continues call'.ended := by
  intro h
  cases h

/-- Permits a call was waiting for are the next it takes. -/
theorem Call.continues_granted (call : Call) (permit : Permit) :
    call.Continues (call.granted permit) := by
  unfold Call.granted
  split
  · exact .refl call
  · next next rest htodo =>
    split
    · next hnext =>
      intro _
      refine ⟨hnext.1, rfl, rfl, rfl, ?_⟩
      simp [htodo, hnext.2]
    · exact .refl call

theorem Call.permits_granted_le (call : Call) (permit : Permit) (number : ℕ) :
    (call.granted permit).permits number ≤
      call.permits number + if permit.1 = number then permit.2 else 0 := by
  unfold Call.granted
  split
  · omega
  · split
    · simp only [Call.permits, List.cons_append, permitsOf_cons]
      omega
    · omega

theorem Call.permits_ended (call : Call) (number : ℕ) :
    call.ended.permits number = call.permits number := by
  simp [Call.permits, Call.ended]

/-- Every call that takes permits did so before. -/
def CallsContinue (calls calls' : Table ℕ Call) : Prop :=
  ∀ id call', calls'.lookup id = some call' → call'.stage = .acquiring →
    ∃ call, calls.lookup id = some call ∧ call.Continues call'

theorem CallsContinue.refl (calls : Table ℕ Call) : CallsContinue calls calls :=
  fun _ call h _ => ⟨call, h, .refl call⟩

theorem CallsContinue.trans {calls calls' calls'' : Table ℕ Call} (h : CallsContinue calls calls')
    (h' : CallsContinue calls' calls'') : CallsContinue calls calls'' := by
  intro id call'' hcall'' hstage
  obtain ⟨call', hcall', hnext⟩ := h' id call'' hcall'' hstage
  obtain ⟨call, hcall, hfirst⟩ := h id call' hcall' (hnext hstage).1
  exact ⟨call, hcall, hfirst.trans hnext⟩

theorem CallsContinue.insert {calls : Table ℕ Call} {id : ℕ} {call' : Call}
    (h : call'.stage = .acquiring → ∃ call, calls.lookup id = some call ∧ call.Continues call') :
    CallsContinue calls (calls.insert id call') := by
  intro k call'' hcall'' hstage
  rw [lookup_insert_eq] at hcall''
  split at hcall''
  · next hk =>
    cases hcall''
    exact hk ▸ h hstage
  · exact ⟨call'', hcall'', .refl call''⟩

/-- A step outside the lock leaves the tables alone, makes no semaphore and no lease. -/
structure Frame (s s' : Admission) : Prop where
  devices : s'.devices = s.devices
  tenants : s'.tenants = s.tenants
  next : s'.nextSlots = s.nextSlots
  capacity : ∀ number, (s'.semaphores.lookup number).map Semaphore.capacity =
    (s.semaphores.lookup number).map Semaphore.capacity
  calls : CallsContinue s.calls s'.calls
  leases : ∀ id lease, s'.leases.lookup id = some lease → s.leases.lookup id = some lease

/-- A step outside the lock moves permits and makes none. -/
structure Moves (s s' : Admission) : Prop extends Frame s s' where
  permits : ∀ number, s'.ledger number ≤ s.ledger number

theorem Frame.refl (s : Admission) : Frame s s :=
  ⟨rfl, rfl, rfl, fun _ => rfl, .refl _, fun _ _ h => h⟩

theorem Frame.trans {s' s'' : Admission} (h : Frame s s') (h' : Frame s' s'') : Frame s s'' where
  devices := h'.devices.trans h.devices
  tenants := h'.tenants.trans h.tenants
  next := h'.next.trans h.next
  capacity number := (h'.capacity number).trans (h.capacity number)
  calls := h.calls.trans h'.calls
  leases id lease hlease := h.leases id lease (h'.leases id lease hlease)

theorem Moves.refl (s : Admission) : Moves s s := ⟨.refl s, fun _ => le_rfl⟩

namespace Admission

variable {s : Admission} {id number : ℕ} {call call' : Call}

theorem frame_setCall (hcall : s.calls.lookup id = some call) (h : call.Continues call') :
    Frame s (s.setCall id call') :=
  { Frame.refl s with calls := .insert fun _ => ⟨call, hcall, h⟩ }

theorem ledger_setCall (hcall : s.calls.lookup id = some call) (call' : Call) (number : ℕ) :
    (s.setCall id call').ledger number + call.permits number =
      s.ledger number + call'.permits number := by
  have hused := inUse_setCall hcall call' number
  simp only [ledger, setCall] at hused ⊢
  omega

/-- A call ends and still holds its permits. -/
theorem moves_ended (hcall : s.calls.lookup id = some call) :
    Moves s (s.setCall id call.ended) := by
  refine ⟨frame_setCall hcall (call.continues_ended call), fun number => ?_⟩
  have hledger := ledger_setCall hcall call.ended number
  rw [call.permits_ended number] at hledger
  omega

theorem frame_insert {old semaphore : Semaphore} (hold : s.semaphores.lookup number = some old)
    (hcapacity : semaphore.capacity = old.capacity) :
    Frame s { s with semaphores := s.semaphores.insert number semaphore } := by
  refine { Frame.refl s with capacity := fun k => ?_ }
  rw [lookup_insert_eq]
  split
  · next hk => rw [hk, hold, Option.map_some, Option.map_some, hcapacity]
  · rfl

/-! ### Serving the waiters of a semaphore -/

theorem callsContinue_grant (number : ℕ) (calls : Table ℕ Call) (waiter : ℕ × ℕ) :
    CallsContinue calls (grant number calls waiter) := by
  unfold grant
  cases hcall : calls.lookup waiter.1 with
  | none => exact .refl calls
  | some call => exact .insert fun _ => ⟨call, hcall, call.continues_granted _⟩

/-- A grant adds at most the permits granted. -/
theorem total_grant_le (number k : ℕ) (calls : Table ℕ Call) (waiter : ℕ × ℕ) :
    (grant number calls waiter).total (fun _ call => call.permits k) ≤
      calls.total (fun _ call => call.permits k) + if number = k then waiter.2 else 0 := by
  unfold grant
  cases hcall : calls.lookup waiter.1 with
  | none => exact Nat.le_add_right _ _
  | some call =>
    have hput := total_put (fun _ (call : Call) => call.permits k) waiter.1
      (some (call.granted (number, waiter.2))) calls
    rw [put_some, hcall, weigh_some, weigh_some] at hput
    have hgranted := call.permits_granted_le (number, waiter.2) k
    show total _ (calls.insert waiter.1 (call.granted (number, waiter.2))) ≤ _
    dsimp only at hput hgranted
    omega

theorem callsContinue_grants (number : ℕ) (granted : List (ℕ × ℕ)) (calls : Table ℕ Call) :
    CallsContinue calls (granted.foldl (grant number) calls) := by
  induction granted generalizing calls with
  | nil => exact .refl calls
  | cons waiter rest ih => exact (callsContinue_grant number calls waiter).trans (ih _)

theorem total_grants_le (number k : ℕ) (granted : List (ℕ × ℕ)) (calls : Table ℕ Call) :
    (granted.foldl (grant number) calls).total (fun _ call => call.permits k) ≤
      calls.total (fun _ call => call.permits k) +
        if number = k then Semaphore.grantedPermits granted else 0 := by
  induction granted generalizing calls with
  | nil => exact Nat.le_add_right _ _
  | cons waiter rest ih =>
    have hfirst := total_grant_le number k calls waiter
    have hrest := ih (grant number calls waiter)
    rw [List.foldl_cons, Semaphore.grantedPermits, List.map_cons, List.sum_cons]
    rw [Semaphore.grantedPermits] at hrest
    by_cases hk : number = k
    · simp only [if_pos hk] at hfirst hrest ⊢
      omega
    · simp only [if_neg hk] at hfirst hrest ⊢
      omega

theorem frame_serve {old semaphore : Semaphore} (hold : s.semaphores.lookup number = some old)
    (hcapacity : semaphore.capacity = old.capacity) : Frame s (s.serve number semaphore) := by
  let served : Semaphore := { semaphore with
    pool := (Semaphore.serve semaphore.pool semaphore.waiters).2.1
    waiters := (Semaphore.serve semaphore.pool semaphore.waiters).2.2 }
  have hserved : served.capacity = old.capacity := hcapacity
  refine (frame_insert hold hserved).trans ?_
  exact { Frame.refl _ with calls := callsContinue_grants number _ s.calls }

/-- Serving moves permits from the pool to the waiters. -/
theorem ledger_serve_le (semaphore : Semaphore) (k : ℕ) :
    (s.serve number semaphore).ledger k ≤
      (if k = number then semaphore.pool else poolOf s.semaphores k) + s.inUse k := by
  have htotal := Semaphore.serve_total semaphore.pool semaphore.waiters
  rcases hserve : Semaphore.serve semaphore.pool semaphore.waiters with ⟨granted, left, waiting⟩
  have hgrants := total_grants_le number k granted s.calls
  simp only [ledger, serve, inUse, poolOf_insert, hserve] at htotal ⊢
  by_cases hk : k = number
  · subst hk
    simp only [if_pos] at hgrants ⊢
    omega
  · simp only [if_neg (Ne.symm hk), if_neg hk] at hgrants ⊢
    omega

theorem frame_release (permit : Permit) : Frame s (s.release permit) := by
  unfold release
  split
  · next semaphore hsemaphore => exact frame_serve hsemaphore rfl
  · exact .refl s

/-- Permits given back are in the pool or with a waiter. -/
theorem ledger_release_le (permit : Permit) (k : ℕ) :
    (s.release permit).ledger k ≤ s.ledger k + if permit.1 = k then permit.2 else 0 := by
  unfold release
  split
  · next semaphore hsemaphore =>
    refine (ledger_serve_le _ k).trans ?_
    by_cases hk : permit.1 = k
    · subst hk
      simp only [if_pos, ledger, poolOf, hsemaphore, Option.elim_some]
      omega
    · simp only [if_neg hk, if_neg (Ne.symm hk), ledger]
      omega
  · exact Nat.le_add_right _ _

theorem moves_withdraw (id number : ℕ) : Moves s (s.withdraw id number) := by
  unfold withdraw
  split
  · next semaphore hsemaphore =>
    refine ⟨frame_serve hsemaphore rfl, fun k => (ledger_serve_le _ k).trans ?_⟩
    by_cases hk : k = number
    · subst hk
      simp only [if_pos, ledger, poolOf, hsemaphore, Option.elim_some, le_refl]
    · simp only [if_neg hk, ledger, le_refl]
  · exact .refl s

/-- Taking permits moves them out of the pool. -/
theorem tryTake_eq_some {permit : Permit} (h : s.tryTake permit = some semaphores) :
    Frame s { s with semaphores := semaphores } ∧
      ∀ k, poolOf semaphores k + (if permit.1 = k then permit.2 else 0) =
        poolOf s.semaphores k := by
  unfold tryTake at h
  split at h
  · simp only [Option.bind_eq_some_iff, Option.map_eq_some_iff] at h
    obtain ⟨semaphore, hsemaphore, semaphore', hacquire, rfl⟩ := h
    obtain ⟨hpool, hcapacity⟩ := Semaphore.tryAcquire_eq_some hacquire
    refine ⟨frame_insert hsemaphore hcapacity, fun k => ?_⟩
    rw [poolOf_insert]
    by_cases hk : permit.1 = k
    · subst hk
      simp only [if_pos, poolOf, hsemaphore, Option.elim_some, hpool]
    · simp only [if_neg hk, if_neg (Ne.symm hk), Nat.add_zero]
  · cases h

/-- Permits taken from the pool go to the call that takes them. -/
theorem moves_taken {permit : Permit} (htake : s.tryTake permit = some semaphores)
    (hcall : s.calls.lookup id = some call) (hcontinues : call.Continues call')
    (hpermits : ∀ k, call'.permits k = call.permits k + if permit.1 = k then permit.2 else 0) :
    Moves s ({ s with semaphores := semaphores }.setCall id call') := by
  obtain ⟨hframe, hpool⟩ := tryTake_eq_some htake
  refine ⟨hframe.trans (frame_setCall hcall hcontinues), fun k => ?_⟩
  have hledger := ledger_setCall (s := { s with semaphores := semaphores }) hcall call' k
  rw [hpermits k] at hledger
  have hk := hpool k
  simp only [ledger, inUse] at hledger ⊢
  omega

/-! ### The steps of a call -/

theorem moves_begin (device : DeviceKey) (amount : ℕ) (waits : Bool) :
    Moves s (s.begin device amount waits) := by
  refine ⟨{ Frame.refl s with calls := .insert ?_ }, fun k => ?_⟩
  · intro h
    cases h
  · have hcalls := total_insert_le (f := fun _ (call : Call) => call.permits k) s.nextCall
      { device := device, bytes := amount, waits := waits, stage := .entering, slots := (0, 0),
        todo := if waits then [(waiterSlots, 1), (waiterBytes, amount)] else [],
        held := [], waiter := [] } s.calls
    exact Nat.add_le_add_left (Nat.add_le_add_right hcalls _) _

section

variable (hcall : s.calls.lookup id = some call)

include hcall

theorem moves_enter (hstage : call.stage = .entering) : Moves s (s.enter id call) := by
  fun_cases enter s id call with
  | case1 => exact .refl s
  | case2 next rest htodo semaphores htake =>
    refine moves_taken htake hcall (fun h => ?_) fun k => ?_
    · exact absurd (hstage.symm.trans h) (by decide)
    · simp only [Call.permits, permitsOf_append, permitsOf_cons]
      omega
  | case3 => exact moves_ended hcall

theorem moves_take : Moves s (s.take id call) := by
  fun_cases take s id call with
  | case4 next rest htodo semaphore hsemaphore _ semaphores htake =>
    refine moves_taken htake hcall (fun h => ⟨h, rfl, rfl, rfl, ?_⟩) fun k => ?_
    · simp [htodo]
    · simp only [Call.permits, List.cons_append, permitsOf_cons]
      omega
  | case5 next rest htodo semaphore hsemaphore =>
    -- Queueing leaves the pool alone.
    refine ⟨frame_insert hsemaphore rfl, fun k => Nat.add_le_add_right ?_ _⟩
    rw [poolOf_insert]
    split
    · next hk =>
      rw [hk, poolOf, hsemaphore]
      exact le_rfl
    · exact le_rfl
  | case6 => exact moves_ended hcall
  | _ => exact .refl s

theorem moves_timeout : Moves s (s.timeout id call) := by
  unfold timeout
  split
  · exact moves_ended hcall
  · next next rest htodo =>
    have hended := moves_ended hcall
    have hwithdrawn := moves_withdraw (s := s.setCall id call.ended) id next.1
    exact ⟨hended.toFrame.trans hwithdrawn.toFrame, fun k =>
      (hwithdrawn.permits k).trans (hended.permits k)⟩

theorem moves_dropPermit (hstage : call.stage = .dropping) : Moves s (s.dropPermit id call) := by
  fun_cases dropPermit s id call with
  | case1 =>
    refine ⟨{ Frame.refl s with calls := fun k call' hcall' _ => ⟨call', ?_, .refl call'⟩ }, ?_⟩
    · exact (of_lookup_erase hcall').2
    · intro k
      have hcalls := total_erase_le (f := fun _ (call : Call) => call.permits k) id s.calls
      exact Nat.add_le_add_left (Nat.add_le_add_right hcalls _) _
  | case2 permit rest hheld =>
    have hcontinues : call.Continues { call with held := rest } := fun h =>
      absurd (hstage.symm.trans h) (by decide)
    refine ⟨(frame_setCall hcall hcontinues).trans (frame_release permit), fun k => ?_⟩
    have hreleased := ledger_release_le (s := s.setCall id { call with held := rest }) permit k
    have hset := ledger_setCall hcall { call with held := rest } k
    simp only [Call.permits, hheld, List.cons_append, permitsOf_cons] at hset
    omega

end

theorem moves_dropLease {lease : AdmissionLease} (hlease : s.leases.lookup id = some lease) :
    Moves s (s.dropLease id lease) := by
  refine ⟨{ Frame.refl s with calls := .insert nofun, leases := ?_ }, fun k => ?_⟩
  · exact fun k lease' hlease' => (of_lookup_erase hlease').2
  · have hcalls := total_insert_le (f := fun _ (call : Call) => call.permits k) s.nextCall
      { device := lease.device, bytes := 0, waits := false, stage := .dropping,
        slots := lease.slots, todo := [], held := lease.held, waiter := [] } s.calls
    have hleases := total_of_lookup
      (fun _ (lease : AdmissionLease) => permitsOf k lease.held) hlease
    simp only [ledger, inUse, dropLease, Call.permits, List.append_nil] at hcalls hleases ⊢
    omega

end Admission

/-! ## The invariant -/

/-- The entries of a table name semaphores of its capacity. -/
def EntriesSized {κ : Type} [DecidableEq κ] (capacity : ℕ) (r : Registry)
    (entries : Table κ AdmissionEntry) : Prop :=
  ∀ key entry, entries.lookup key = some entry →
    (r.semaphores.lookup entry.slots).map Semaphore.capacity = some capacity

/-- What holds between the steps of every run in which calls finish with the semaphores that
the tables hold. -/
structure Sound (limits : Limits) (s : Admission) : Prop where
  fresh : s.Fresh
  balanced : s.Balanced
  devices : EntriesSized limits.maxIngressPerDevice s.toRegistry s.devices
  tenants : EntriesSized limits.maxIngressPerTenant s.toRegistry s.tenants
  plans : ∀ id call, s.calls.lookup id = some call → call.stage = .acquiring →
    call.held.reverse ++ call.todo = leasePermits call.slots call.bytes
  holds : ∀ id lease, s.leases.lookup id = some lease →
    ∃ amount, lease.held = leasePermits lease.slots amount
  registered : ∀ id lease, s.leases.lookup id = some lease →
    s.Registered lease.device lease.slots

section Invariant

variable {limits : Limits} {s s' : Admission} {id now : ℕ} {call : Call}

theorem capacityOf_eq {semaphores' : Table ℕ Semaphore} {number : ℕ}
    (h : (semaphores'.lookup number).map Semaphore.capacity =
      (semaphores.lookup number).map Semaphore.capacity) :
    capacityOf semaphores' number = capacityOf semaphores number := by
  have helim : ∀ o : Option Semaphore,
      o.elim 0 Semaphore.capacity = (o.map Semaphore.capacity).getD 0 := by
    intro o
    cases o <;> rfl
  rw [capacityOf, capacityOf, helim, helim, h]

/-- Steps outside the lock keep the invariant. -/
theorem Sound.moves (hsound : Sound limits s) (h : Moves s s') : Sound limits s' where
  fresh number semaphore hnumber := by
    have hcapacity := h.capacity number
    rw [hnumber, Option.map_some, eq_comm, Option.map_eq_some_iff] at hcapacity
    obtain ⟨old, hold, _⟩ := hcapacity
    rw [h.next]
    exact hsound.fresh number old hold
  balanced number := by
    rw [capacityOf_eq (h.capacity number)]
    exact (h.permits number).trans (hsound.balanced number)
  devices key entry hentry := by
    rw [h.capacity]
    exact hsound.devices key entry (h.devices ▸ hentry)
  tenants key entry hentry := by
    rw [h.capacity]
    exact hsound.tenants key entry (h.tenants ▸ hentry)
  plans id call' hcall' hstage := by
    obtain ⟨call, hcall, hcontinues⟩ := h.calls id call' hcall' hstage
    obtain ⟨hstage, _, hslots, hbytes, hplan⟩ := hcontinues hstage
    rw [hplan, hslots, hbytes]
    exact hsound.plans id call hcall hstage
  holds id lease hlease := hsound.holds id lease (h.leases id lease hlease)
  registered id lease hlease := by
    rw [Registry.Registered, h.devices, h.tenants]
    exact hsound.registered id lease (h.leases id lease hlease)

/-- A semaphore of which permits are in use is not idle. -/
theorem Sound.busy (hsound : Sound limits s) {entry : AdmissionEntry}
    (hsized : (s.semaphores.lookup entry.slots).map Semaphore.capacity = some capacity)
    (hused : 1 ≤ s.inUse entry.slots) : s.Busy capacity entry := by
  rw [Option.map_eq_some_iff] at hsized
  obtain ⟨semaphore, hsemaphore, rfl⟩ := hsized
  refine ⟨semaphore, hsemaphore, ?_⟩
  have hbalanced := hsound.balanced entry.slots
  have havailable := semaphore.availablePermits_le
  simp only [ledger, poolOf, capacityOf, hsemaphore, Option.elim_some] at hbalanced
  omega

/-- A section under the lock keeps the semaphores of whoever uses them. -/
theorem Sound.registered_of_used (hsound : Sound limits s) {device : DeviceKey} {found : ℕ × ℕ}
    (hgrown : Grown limits s.toRegistry r') (hregistered : s.Registered device found)
    (hdevice : 1 ≤ s.inUse found.1) (htenant : 1 ≤ s.inUse found.2) :
    r'.Registered device found := by
  obtain ⟨hfirst, hsecond⟩ := hregistered
  rw [Option.map_eq_some_iff] at hfirst hsecond
  obtain ⟨entry, hentry, hslots⟩ := hfirst
  obtain ⟨tenantEntry, htenantEntry, htenantSlots⟩ := hsecond
  rw [← hslots] at hdevice
  rw [← htenantSlots] at htenant
  obtain ⟨entry', hentry', hslots'⟩ := hgrown.devices.busy _ _ hentry
    (hsound.busy (hsound.devices _ _ hentry) hdevice)
  obtain ⟨tenantEntry', htenantEntry', htenantSlots'⟩ := hgrown.tenants.busy _ _ htenantEntry
    (hsound.busy (hsound.tenants _ _ htenantEntry) htenant)
  refine ⟨?_, ?_⟩
  · rw [hentry', Option.map_some, hslots', hslots]
  · rw [htenantEntry', Option.map_some, htenantSlots', htenantSlots]

theorem Sound.lease_used (hsound : Sound limits s) {lease : AdmissionLease}
    (hlease : s.leases.lookup id = some lease) :
    1 ≤ s.inUse lease.slots.1 ∧ 1 ≤ s.inUse lease.slots.2 := by
  obtain ⟨amount, hheld⟩ := hsound.holds id lease hlease
  have hle : ∀ number, permitsOf number lease.held ≤ s.inUse number := fun number =>
    (le_total (f := fun _ (lease : AdmissionLease) => permitsOf number lease.held)
      hlease).trans (Nat.le_add_left _ _)
  have hdevice := hle lease.slots.1
  have htenant := hle lease.slots.2
  rw [hheld] at hdevice htenant
  exact ⟨(one_le_permitsOf_device _ _).trans hdevice, (one_le_permitsOf_tenant _ _).trans htenant⟩

theorem EntriesSized.grown {κ : Type} [DecidableEq κ] {r : Registry}
    {t t' : Table κ AdmissionEntry} (h : EntriesSized capacity r t) (hgrow : SemaphoresGrow r r')
    (hentries : EntriesEvolve capacity r r' t t') : EntriesSized capacity r' t' := by
  intro key entry' hentry'
  rcases hentries.origin key entry' hentry' with ⟨entry, hentry, hslots⟩ | hnew
  · have hsized := h key entry hentry
    rw [Option.map_eq_some_iff] at hsized
    obtain ⟨semaphore, hsemaphore, hcapacity⟩ := hsized
    rw [hslots, hgrow.kept _ _ hsemaphore, Option.map_some, hcapacity]
  · rw [hnew]
    rfl

section

variable (hsound : Sound limits s)

include hsound

/-- Sections under the lock keep the invariant. -/
theorem Sound.locked (hevolves : Evolves limits s.toRegistry r') :
    Sound limits { s with toRegistry := r' } := by
  have hgrown := hevolves hsound.fresh
  refine ⟨hgrown.fresh, fun number => ?_, hsound.devices.grown hgrown.semaphores hgrown.devices,
    hsound.tenants.grown hgrown.semaphores hgrown.tenants, hsound.plans, hsound.holds,
    fun id lease hlease => ?_⟩
  · have hbalanced := hsound.balanced number
    simp only [ledger, poolOf, capacityOf] at hbalanced ⊢
    show _ + s.inUse number ≤ _
    cases hnumber : r'.semaphores.lookup number with
    | none =>
      have hold : s.semaphores.lookup number = none := by
        refine Option.eq_none_iff_forall_ne_some.mpr fun semaphore hsemaphore => ?_
        rw [hgrown.semaphores.kept _ _ hsemaphore] at hnumber
        cases hnumber
      rwa [hold] at hbalanced
    | some semaphore =>
      rcases hgrown.semaphores.made number semaphore hnumber with hold | ⟨hnone, capacity, rfl⟩
      · rwa [hold] at hbalanced
      · -- Nobody can hold permits of a semaphore that did not exist.
        rw [hnone] at hbalanced
        simp only [Option.elim_none, Option.elim_some, Semaphore.new] at hbalanced ⊢
        omega
  · obtain ⟨hdevice, htenant⟩ := hsound.lease_used hlease
    exact hsound.registered_of_used hgrown (hsound.registered id lease hlease) hdevice htenant

/-- A call that looks up its semaphores begins to take the permits of a lease. -/
theorem Sound.lookup (hcall : s.calls.lookup id = some call) :
    Sound limits (s.lookup limits id call now) := by
  rcases hexec : exec (entrySlots limits now call.device) s.toRegistry with ⟨result, r'⟩
  have hevolves : Evolves limits s.toRegistry r' := follows_entrySlots.of_exec hexec
  have hlocked := hsound.locked hevolves
  simp only [Admission.lookup, Admission.locked, hexec]
  cases result with
  | error e => exact hlocked.moves (Admission.moves_ended hcall)
  | ok found =>
    show Sound limits ({ s with toRegistry := r' }.setCall id _)
    refine { hlocked with
      balanced := fun number => ?_
      plans := forall_lookup_insert hsound.plans fun _ => rfl }
    have hledger := Admission.ledger_setCall (s := { s with toRegistry := r' }) hcall
      { call with
        stage := .acquiring, slots := found, todo := leasePermits found call.bytes,
        held := [] } number
    have hbalanced := hlocked.balanced number
    simp only [Call.permits, permitsOf_append, List.nil_append] at hledger
    show Admission.ledger _ number ≤ Admission.capacityOf r'.semaphores number
    dsimp only at hbalanced
    omega

/-- A call that finishes with the semaphores of the tables becomes a lease of them. -/
theorem Sound.finish (hcall : s.calls.lookup id = some call) (hstage : call.stage = .acquiring)
    (htodo : call.todo = []) (hregistered : s.Registered call.device call.slots) :
    Sound limits (s.finish limits id call now) := by
  rcases hexec : exec (finishAcquire limits now call.device) s.toRegistry with ⟨result, r'⟩
  have hevolves : Evolves limits s.toRegistry r' := follows_finishAcquire.of_exec hexec
  have hlocked := hsound.locked hevolves
  simp only [Admission.finish, Admission.locked, hexec]
  cases result with
  | error e => exact hlocked.moves (Admission.moves_ended hcall)
  | ok _ =>
    have hplan := hsound.plans id call hcall hstage
    rw [htodo, List.append_nil] at hplan
    -- The call holds all permits of the lease it becomes.
    have hused : ∀ number, permitsOf number (leasePermits call.slots call.bytes) ≤
        s.inUse number := by
      intro number
      rw [← hplan, permitsOf_reverse]
      have hcalls := le_total (f := fun _ (call : Call) => call.permits number) hcall
      simp only [Call.permits, permitsOf_append] at hcalls
      simp only [Admission.inUse, Call.permits, permitsOf_append]
      omega
    have hdevice := (one_le_permitsOf_device call.slots call.bytes).trans (hused _)
    have htenant := (one_le_permitsOf_tenant call.slots call.bytes).trans (hused _)
    refine { hlocked with
      balanced := fun number => ?_
      plans := forall_lookup_insert hsound.plans nofun
      holds := forall_lookup_insert hsound.holds ⟨call.bytes, hplan⟩
      registered := forall_lookup_insert hlocked.registered
        (hsound.registered_of_used (hevolves hsound.fresh) hregistered hdevice htenant) }
    have hledger := Admission.ledger_setCall (s := { s with toRegistry := r' }) hcall
      { call with held := [] }.ended number
    have hleases := total_insert_le
      (f := fun _ (lease : AdmissionLease) => permitsOf number lease.held) id
      ⟨call.device, call.slots, call.held.reverse⟩ s.leases
    have hbalanced := hlocked.balanced number
    rw [Call.permits_ended] at hledger
    simp only [Call.permits, permitsOf_append, permitsOf_reverse, permitsOf_nil,
      Admission.ledger, Admission.inUse, Admission.setCall] at hledger hleases hbalanced ⊢
    omega

theorem Sound.checkRate (device : DeviceKey) (units : ℕ) :
    Sound limits (s.locked (checkRateWeighted limits now device units)).2 :=
  hsound.locked (follows_checkRateWeighted s.toRegistry)

theorem Sound.withCall {stage : Stage} {next : Call → Admission}
    (h : ∀ call, s.calls.lookup id = some call → call.stage = stage → Sound limits (next call)) :
    Sound limits (s.withCall id stage next) := by
  unfold Admission.withCall
  split
  · next call hcall =>
    split
    · next hstage => exact h call hcall hstage
    · exact hsound
  · exact hsound

end

theorem sound_new (limits : Limits) (now : ℕ) : Sound limits (.new limits now) where
  fresh number semaphore h := by
    simp only [new, lookup_insert_eq, slots, bytes, waiterSlots, waiterBytes, lookup_empty] at h ⊢
    split_ifs at h <;> omega
  balanced number := by
    simp only [ledger, inUse, poolOf, capacityOf, new, lookup_insert_eq, total_empty]
    split_ifs <;> simp [Semaphore.new]
  devices _ _ h := by cases h
  tenants _ _ h := by cases h
  plans _ _ h := by cases h
  holds _ _ h := by cases h
  registered _ _ h := by cases h

end Invariant

/-! ## Runs -/

/-- A call that finishes finds the semaphores it looked up in the tables. -/
def Current (s : Admission) : Action → Prop
  | .finish id _ => ∀ call, s.calls.lookup id = some call → call.stage = .acquiring →
      s.Registered call.device call.slots
  | _ => True

section

variable (hsound : Sound limits s)

include hsound

/-- Every step of a run in which calls finish with current semaphores keeps the invariant. -/
theorem Sound.perform {action : Action} (hcurrent : Current s action) :
    Sound limits (perform limits s action) := by
  cases action with
  | acquire device amount => exact hsound.moves (moves_begin device amount false)
  | acquireWait device amount => exact hsound.moves (moves_begin device amount true)
  | enter id =>
    exact hsound.withCall fun call hcall hstage =>
      hsound.moves (moves_enter hcall hstage)
  | lookup id now =>
    refine hsound.withCall fun call hcall _ => ?_
    split
    · exact hsound.lookup hcall
    · exact hsound
  | take id => exact hsound.withCall fun call hcall _ => hsound.moves (moves_take hcall)
  | timeout id =>
    refine hsound.withCall fun call hcall _ => ?_
    split
    · exact hsound.moves (moves_timeout hcall)
    · exact hsound
  | finish id now =>
    refine hsound.withCall fun call hcall hstage => ?_
    split
    · next htodo => exact hsound.finish hcall hstage htodo (hcurrent call hcall hstage)
    · exact hsound
  | dropPermit id =>
    exact hsound.withCall fun call hcall hstage =>
      hsound.moves (moves_dropPermit hcall hstage)
  | dropLease id =>
    simp only [Quota.perform]
    split
    · next lease hlease => exact hsound.moves (moves_dropLease hlease)
    · exact hsound
  | checkRate device units now => exact hsound.checkRate device units

/-- Leases that all hold a permit of one semaphore are at most as many as it has permits. -/
theorem Sound.leases_le {counted : AdmissionLease → Prop} [DecidablePred counted] {number : ℕ}
    (hcapacity : (s.semaphores.lookup number).map Semaphore.capacity = some capacity)
    (h : ∀ id lease, s.leases.lookup id = some lease → counted lease →
      1 ≤ permitsOf number lease.held) :
    s.leases.total (fun _ lease => if counted lease then 1 else 0) ≤ capacity := by
  have hheld : s.leases.total (fun _ lease => if counted lease then 1 else 0) ≤
      s.leases.total fun _ lease => permitsOf number lease.held := by
    refine total_le_total fun id lease hlease => ?_
    split
    · next hcounted => exact h id lease hlease hcounted
    · exact Nat.zero_le _
  have hbalanced := hsound.balanced number
  rw [Option.map_eq_some_iff] at hcapacity
  obtain ⟨semaphore, hsemaphore, rfl⟩ := hcapacity
  simp only [ledger, inUse, capacityOf, hsemaphore, Option.elim_some] at hbalanced
  omega

/-- Leases whose key is registered with their semaphore are within the capacity of its
entry. -/
theorem Sound.keyLeases_le {κ : Type} [DecidableEq κ] {entries : Table κ AdmissionEntry}
    (hsized : EntriesSized capacity s.toRegistry entries) (keyOf : AdmissionLease → κ)
    (slotOf : ℕ × ℕ → ℕ)
    (hpermit : ∀ found amount, 1 ≤ permitsOf (slotOf found) (leasePermits found amount))
    (hregistered : ∀ id lease, s.leases.lookup id = some lease →
      (entries.lookup (keyOf lease)).map AdmissionEntry.slots = some (slotOf lease.slots))
    (key : κ) : s.leases.total (fun _ lease => if keyOf lease = key then 1 else 0) ≤ capacity := by
  cases hentry : entries.lookup key with
  | none =>
    refine (total_eq_zero fun id lease hlease => if_neg ?_).le.trans (Nat.zero_le _)
    rintro rfl
    have hfound := hregistered id lease hlease
    rw [hentry] at hfound
    cases hfound
  | some entry =>
    refine hsound.leases_le (hsized key entry hentry) ?_
    rintro id lease hlease rfl
    obtain ⟨amount, hheld⟩ := hsound.holds id lease hlease
    have hslots := hregistered id lease hlease
    rw [hentry, Option.map_some, Option.some.injEq] at hslots
    rw [hslots, hheld]
    exact hpermit _ _

theorem Sound.deviceLeases_le (device : DeviceKey) :
    s.deviceLeases device ≤ limits.maxIngressPerDevice :=
  hsound.keyLeases_le hsound.devices AdmissionLease.device Prod.fst one_le_permitsOf_device
    (fun id lease hlease => (hsound.registered id lease hlease).1) device

theorem Sound.tenantLeases_le (tenant : TenantId) :
    s.tenantLeases tenant ≤ limits.maxIngressPerTenant :=
  hsound.keyLeases_le hsound.tenants (fun lease => lease.device.tenantId) Prod.snd
    one_le_permitsOf_tenant (fun id lease hlease => (hsound.registered id lease hlease).2) tenant

end

/-- In every run whose calls finish with the semaphores that the tables hold, the live leases
of every device and tenant stay within their ceilings. -/
theorem ingress_within_ceilings (limits : Limits) {s : Admission}
    (h : ((admitting limits).restrict Current).Reachable s) :
    (∀ device, s.deviceLeases device ≤ limits.maxIngressPerDevice) ∧
      ∀ tenant, s.tenantLeases tenant ≤ limits.maxIngressPerTenant := by
  have hsound : Sound limits s := by
    refine h.invariant (I := Sound limits) ?_ ?_
    · rintro s ⟨now, rfl⟩
      exact sound_new limits now
    · rintro s action s' hsound ⟨hcurrent, rfl⟩
      exact hsound.perform hcurrent
  exact ⟨hsound.deviceLeases_le, hsound.tenantLeases_le⟩

/-- Three devices of one tenant. -/
def meter : DeviceKey := ⟨.t, .p, .a⟩
def valve : DeviceKey := ⟨.t, .p, .b⟩
def pump : DeviceKey := ⟨.t, .p, .c⟩

/-- Ceilings for two devices. -/
def twoDevices : Limits := { Limits.default with maxDevices := 2, maxDevicesPerTenant := 2 }

/-- The steps of a call from its first permit to its lease. -/
def takeAll (id now : ℕ) : List Action := [.take id, .take id, .take id, .take id, .finish id now]

/-- A second message of a device waits while the lease of the first is live, another device gets
a lease, and the permits of the first lease go to the message that waits. -/
def handedOn : List Action :=
  [.acquire meter 1, .lookup 0 0] ++ takeAll 0 0 ++
  [.acquireWait meter 1, .enter 1, .enter 1, .lookup 1 0, .take 1, .acquire valve 1, .lookup 2 0] ++
  takeAll 2 0 ++ [.dropLease 0, .dropPermit 3, .dropPermit 3, .dropPermit 3, .dropPermit 3] ++
  takeAll 1 0

instance (s : Admission) (device : DeviceKey) (found : ℕ × ℕ) :
    Decidable (s.Registered device found) := inferInstanceAs (Decidable (_ ∧ _))

instance decidableCurrent (s : Admission) : ∀ action, Decidable (Current s action)
  | .finish id _ => inferInstanceAs (Decidable (∀ call ∈ s.calls.lookup id,
      call.stage = .acquiring → s.Registered call.device call.slots))
  | .acquire .. | .acquireWait .. | .enter _ | .lookup .. | .take _ | .timeout _ | .dropPermit _
  | .dropLease _ | .checkRate .. => .isTrue trivial

/-- Then the message that waited has a lease, and both ceilings hold. -/
theorem ingress_within_ceilings_sample :
    let s := handedOn.foldl (perform twoDevices) (.new twoDevices 0)
    s.leases.keys = [1, 2] ∧ s.deviceLeases meter = 1 ∧ s.tenantLeases meter.tenantId = 2 ∧
      s.deviceLeases meter ≤ twoDevices.maxIngressPerDevice ∧
      s.tenantLeases meter.tenantId ≤ twoDevices.maxIngressPerTenant := by
  intro s
  have hreachable : ((admitting twoDevices).restrict Current).Reachable s :=
    System.Reachable.foldl_restrict (fun _ _ => rfl) handedOn (.start ⟨0, rfl⟩) (by decide +kernel)
  obtain ⟨hdevice, htenant⟩ := ingress_within_ceilings twoDevices hreachable
  exact ⟨by decide +kernel, by decide +kernel, by decide +kernel, hdevice meter,
    htenant meter.tenantId⟩

/-- Two calls of one device that use different semaphores: the device's entry is pruned
after the first call looked it up and before it takes a permit. -/
def prunedBetween : List Action :=
  [.checkRate meter 1 0, .checkRate valve 1 0, .acquire meter 1, .lookup 0 (2 * second),
    .checkRate pump 1 (2 * second), .acquire meter 1, .lookup 1 (2 * second)] ++
  takeAll 1 (2 * second) ++ takeAll 0 (2 * second)

/-- A device with one ingress slot has two live leases. -/
theorem ingress_exceeds_ceiling : twoDevices.validate = .ok () ∧
    twoDevices.maxIngressPerDevice = 1 ∧
    ∃ s, (admitting twoDevices).Reachable s ∧ s.deviceLeases meter = 2 := by
  refine ⟨by decide +kernel, rfl, prunedBetween.foldl (perform twoDevices) (.new twoDevices 0),
    ?_, by decide +kernel⟩
  exact System.Reachable.foldl (fun _ _ => rfl) prunedBetween (.start ⟨0, rfl⟩)

end Netbaiot.Quota
