import Netbaiot.Rpc.Calls
import Netbaiot.Rpc.RegistryMoves

/-!
# Calls in every interleaving

A pending entry belongs to a running call that was issued with exactly its epoch, revision
and method; every permit is available, or held by a call, a pending entry or a message; and
a call only ever holds a body that was delivered to it.  `Coherent` states this of the whole
exchange; every action keeps it.
-/

namespace Netbaiot.Rpc

open Lib AList Op Registry

variable {r : Registry}

variable {Body : Type}

/-! ## Responses -/

/-- An accepted body carries an identity of the scope, at least as new as the call. -/
theorem checkBody_ok {decode : Method → Body → Option AuthenticatedDeviceWire}
    {scope : BusinessProviderScope} {minRevision : ℕ} {method : Method} {result : Except Error Body}
    {body : Body} (h : result.bind (checkBody decode scope minRevision method) = .ok body) :
    ∃ identity, decode method body = some identity ∧ minRevision ≤ identity.authRevision ∧
      scope.allows identity.deviceKey.tenantId = true := by
  cases result with
  | error e => cases h
  | ok raw =>
    rw [Except.bind] at h
    revert h
    fun_cases checkBody decode scope minRevision method raw with
    | case4 _ _ identity hidentity hallowed =>
      rintro ⟨⟩
      simp only [not_or, Bool.not_eq_false, Nat.not_lt] at hallowed
      exact ⟨identity, hidentity, hallowed.1, hallowed.2⟩
    | _ => rintro ⟨⟩

/-! ## The exchange -/

variable (decode : Method → Body → Option AuthenticatedDeviceWire)

/-- A call was answered with this body by the provider it was issued to, which still had the
revision of the issue, served and was authorized, for an identity it may speak for. -/
def Answered (completions : List (Completion Body)) (c : CallId) (issue : Option Issue)
    (body : Body) : Prop :=
  ∃ i, issue = some i ∧ ∃ m ∈ completions, m.call = c ∧ m.result = .ok body ∧ m.method = i.method ∧
    ∃ p, m.provider = some p ∧ p.epoch = i.epoch ∧ p.revision = i.revision ∧ p.serving = true ∧
      p.authorizedAt m.nowMs = true ∧
      ∃ identity, decode i.method body = some identity ∧ i.revision ≤ identity.authRevision ∧
        p.scope.allows identity.deviceKey.tenantId = true

variable {decode}

theorem Answered.mono {completions completions' : List (Completion Body)} {c : CallId}
    {issue : Option Issue} {body : Body} (h : Answered decode completions c issue body)
    (hsub : completions ⊆ completions') : Answered decode completions' c issue body := by
  obtain ⟨i, hi, m, hm, hrest⟩ := h
  exact ⟨i, hi, m, hsub hm, hrest⟩

/-- What holds of a running call: before it is issued it has no guard, and whatever it was
answered or will return was answered to it. -/
structure Call.Sound (decode : Method → Body → Option AuthenticatedDeviceWire)
    (completions : List (Completion Body)) (c : CallId) (call : Call Body) : Prop where
  unissued : call.stage.guard = none → call.issue = none
  replied : ∀ body, call.reply = some (.ok body) → Answered decode completions c call.issue body
  settled : ∀ key body, call.stage = .closing key (some (.ok body)) →
    Answered decode completions c call.issue body

theorem Call.Sound.mono {completions completions' : List (Completion Body)} {c : CallId}
    {call : Call Body} (h : call.Sound decode completions c) (hsub : completions ⊆ completions') :
    call.Sound decode completions' c :=
  ⟨h.unissued, fun body hbody => (h.replied body hbody).mono hsub,
    fun key body hstage => (h.settled key body hstage).mono hsub⟩

/-- What holds of the exchange in every interleaving. -/
structure Exchange.Coherent (decode : Method → Body → Option AuthenticatedDeviceWire)
    (maxPending maxBytes : ℕ) (x : Exchange Body) : Prop where
  slots : x.registry.slots + x.calls.total (fun _ call => call.slots) = maxPending
  bytes : x.registry.bytes + x.calls.total (fun _ call => call.bytes) = maxBytes
  owned : x.registry.Owned
  linked : ∀ key p, x.registry.pending.lookup key = some p → ∃ call,
    x.calls.lookup p.result = some call ∧ call.stage.guard = some key ∧
      call.issue = some ⟨key.1, p.minRevision, p.method⟩
  numbered : ∀ c, x.nextCall ≤ c → x.calls.lookup c = none
  calls : ∀ c call, x.calls.lookup c = some call → call.Sound decode x.completions c
  returned : ∀ m ∈ x.returned, ∀ body, m.result = .ok body →
    Answered decode x.completions m.call m.issue body

namespace Exchange

variable {x : Exchange Body} {c : CallId} {call : Call Body} {maxPending maxBytes : ℕ}

/-- What any action does to other calls: only a call that was not issued gets an entry, only
new calls are not issued, and only the call of an entry is answered. -/
structure Effect (x y : Exchange Body) : Prop where
  next : x.nextCall ≤ y.nextCall
  calls : ∀ c call, y.calls.lookup c = some call → call.stage.guard = none →
    x.nextCall ≤ c ∨ ∃ old, x.calls.lookup c = some old ∧ old.stage.guard = none
  pending : ∀ key p, y.registry.pending.lookup key = some p →
    x.registry.pending.lookup key = some p ∨
      ∃ old, x.calls.lookup p.result = some old ∧ old.stage.guard = none
  completions : ∀ m ∈ y.completions, m ∈ x.completions ∨
    ∃ key p, x.registry.pending.lookup key = some p ∧ m.call = p.result

theorem Effect.refl (x : Exchange Body) : Effect x x :=
  ⟨Nat.le_refl _, fun _ call h hguard => .inr ⟨call, h, hguard⟩, fun _ _ h => .inl h,
    fun _ h => .inl h⟩

/-- An action that leaves all calls and responses alone and adds no entry. -/
theorem Effect.of_registry
    (hpending : ∀ key p, r.pending.lookup key = some p → x.registry.pending.lookup key = some p) :
    Effect x { x with registry := r } :=
  ⟨Nat.le_refl _, fun _ call h hguard => .inr ⟨call, h, hguard⟩,
    fun key p hp => .inl (hpending key p hp), fun _ h => .inl h⟩

/-- A step keeps the exchange coherent. -/
def Keeps (decode : Method → Body → Option AuthenticatedDeviceWire) (maxPending maxBytes : ℕ)
    (x y : Exchange Body) : Prop := y.Coherent decode maxPending maxBytes ∧ Effect x y

section

variable (h : x.Coherent decode maxPending maxBytes)

include h

/-- An operation on the provider keeps the exchange coherent. -/
theorem Coherent.moves (hr : Moves x.registry r) :
    Keeps decode maxPending maxBytes x { x with registry := r } := by
  refine ⟨⟨?_, ?_, hr.owned h.owned, ?_, h.numbered, h.calls, h.returned⟩,
    .of_registry hr.drops.pending⟩
  · rw [hr.drops.slots]
    exact h.slots
  · rw [hr.drops.bytes]
    exact h.bytes
  · intro key p hp
    exact h.linked key p (hr.drops.pending key p hp)

theorem Coherent.lt_nextCall (hcall : x.calls.lookup c = some call) : c < x.nextCall := by
  by_contra hnew
  rw [h.numbered c (Nat.not_lt.mp hnew)] at hcall
  cases hcall

/-- One call comes, moves on or leaves: the permits stay balanced, what is pending is for this
call or was pending before for another one, and only a new call is not issued. -/
theorem Coherent.put {x' : Exchange Body} (new : Option (Call Body))
    (hcalls : x'.calls = x.calls.put c new) (hnext : x.nextCall ≤ x'.nextCall)
    (hnew : new.isSome → c < x'.nextCall)
    (hslots : x'.registry.slots + weigh (fun _ call => call.slots) c new =
      x.registry.slots + weigh (fun _ call => call.slots) c (x.calls.lookup c))
    (hbytes : x'.registry.bytes + weigh (fun _ call => call.bytes) c new =
      x.registry.bytes + weigh (fun _ call => call.bytes) c (x.calls.lookup c))
    (howned : x'.registry.Owned)
    (hlinked : ∀ key p, x'.registry.pending.lookup key = some p →
      (p.result = c ∧ (x.registry.pending.lookup key = some p ∨
          ∃ old, x.calls.lookup c = some old ∧ old.stage.guard = none) ∧
        ∃ call, new = some call ∧ call.stage.guard = some key ∧
          call.issue = some ⟨key.1, p.minRevision, p.method⟩) ∨
      p.result ≠ c ∧ x.registry.pending.lookup key = some p)
    (hsub : x.completions ⊆ x'.completions)
    (hanswers : ∀ m ∈ x'.completions, m ∈ x.completions ∨
      ∃ key p, x.registry.pending.lookup key = some p ∧ m.call = p.result)
    (hsound : ∀ call, new = some call → call.Sound decode x'.completions c ∧
      (call.stage.guard = none → x.nextCall ≤ c ∨
        ∃ old, x.calls.lookup c = some old ∧ old.stage.guard = none))
    (hreturned : ∀ m ∈ x'.returned, m ∈ x.returned ∨
      ∀ body, m.result = .ok body → Answered decode x'.completions m.call m.issue body) :
    Keeps decode maxPending maxBytes x x' := by
  refine ⟨⟨?_, ?_, howned, ?_, ?_, ?_, ?_⟩, hnext, ?_, ?_, hanswers⟩
  · have hmove := total_put (fun _ call => call.slots) c new x.calls
    have hbalance := h.slots
    rw [hcalls]
    omega
  · have hmove := total_put (fun _ call => call.bytes) c new x.calls
    have hbalance := h.bytes
    rw [hcalls]
    omega
  · intro key p hp
    rw [hcalls, lookup_put]
    rcases hlinked key p hp with ⟨hc, _, call, hcall, hrest⟩ | ⟨hc, hp⟩
    · exact ⟨call, (if_pos hc).trans hcall, hrest⟩
    · obtain ⟨old, hold, hrest⟩ := h.linked key p hp
      exact ⟨old, (if_neg hc).trans hold, hrest⟩
  · intro c' hc'
    rw [hcalls, lookup_put]
    split
    · next hc =>
      refine Option.not_isSome_iff_eq_none.mp fun hsome => ?_
      exact Nat.not_lt.mpr hc' (hc ▸ hnew hsome)
    · exact h.numbered c' (hnext.trans hc')
  · intro c' found hfound
    rw [hcalls, lookup_put] at hfound
    split at hfound
    · next hc => exact hc ▸ (hsound found hfound).1
    · exact (h.calls c' found hfound).mono hsub
  · intro m hm body hbody
    rcases hreturned m hm with hm | hm
    · exact (h.returned m hm body hbody).mono hsub
    · exact hm body hbody
  · intro c' found hfound hnone
    rw [hcalls, lookup_put] at hfound
    split at hfound
    · next hc => exact hc ▸ (hsound found hfound).2 hnone
    · exact .inr ⟨found, hfound, hnone⟩
  · intro key p hp
    rcases hlinked key p hp with ⟨hc, hold, _⟩ | ⟨_, hp⟩
    · exact hc ▸ hold
    · exact .inl hp

/-- What was pending stays linked when its call keeps its guard and its issue. -/
theorem Coherent.linked_put (call' : Call Body) (hcall : x.calls.lookup c = some call)
    (hguard : call'.stage.guard = call.stage.guard) (hissue : call'.issue = call.issue)
    {key : PendingKey} {p : Pending} (hp : x.registry.pending.lookup key = some p) :
    (p.result = c ∧ (x.registry.pending.lookup key = some p ∨
          ∃ old, x.calls.lookup c = some old ∧ old.stage.guard = none) ∧
        ∃ call, some call' = some call ∧ call.stage.guard = some key ∧
          call.issue = some ⟨key.1, p.minRevision, p.method⟩) ∨
      p.result ≠ c ∧ x.registry.pending.lookup key = some p := by
  by_cases hc : p.result = c
  · obtain ⟨old, hold, hkey, hi⟩ := h.linked key p hp
    rw [hc, hcall] at hold
    cases hold
    exact .inl ⟨hc, .inl hp, call', rfl, hguard.trans hkey, hissue.trans hi⟩
  · exact .inr ⟨hc, hp⟩

/-- A call that moves to another stage under the same guard stays in balance. -/
theorem Coherent.move {old stage : Stage Body}
    (hcall : x.calls.lookup c = some call) (hold : call.stage = old)
    (hslots : r.slots + ({ call with stage } : Call Body).slots =
      x.registry.slots + ({ call with stage := old } : Call Body).slots)
    (hbytes : r.bytes + ({ call with stage } : Call Body).bytes =
      x.registry.bytes + ({ call with stage := old } : Call Body).bytes)
    (hpending : r.pending = x.registry.pending) (hprovider : r.provider = x.registry.provider)
    (hguard : stage.guard = old.guard)
    (hsettled : ∀ key body, stage = .closing key (some (.ok body)) →
      Answered decode x.completions c call.issue body) :
    Keeps decode maxPending maxBytes x
      ({ x with registry := r }.setCall c { call with stage }) := by
  subst hold
  have hsound := h.calls c call hcall
  refine h.put (some _) rfl le_rfl (fun _ => h.lt_nextCall hcall) (by rwa [hcall])
    (by rwa [hcall]) ?_ ?_ (List.Subset.refl _) (fun _ hm => .inl hm) ?_ fun m hm => .inl hm
  · intro key p hp
    show r.provider.any _ = true
    rw [hprovider]
    exact h.owned key p (hpending ▸ hp)
  · exact fun key p hp => h.linked_put { call with stage } hcall hguard rfl (hpending ▸ hp)
  · rintro _ ⟨⟩
    exact ⟨⟨fun hnone => hsound.unissued (hguard ▸ hnone), hsound.replied, hsettled⟩,
      fun hnone => .inr ⟨call, hcall, hguard ▸ hnone⟩⟩

/-- A call leaves: its permits are given back and nothing stays pending under its guard. -/
theorem Coherent.leave {returned : List (Returned Body)} (hcall : x.calls.lookup c = some call)
    (hslots : r.slots = x.registry.slots + call.slots)
    (hbytes : r.bytes = x.registry.bytes + call.bytes)
    (hpending : ∀ key p, r.pending.lookup key = some p →
      x.registry.pending.lookup key = some p ∧ call.stage.guard ≠ some key)
    (hprovider : r.provider = x.registry.provider)
    (hreturned : ∀ m ∈ returned, m ∈ x.returned ∨
      ∀ body, m.result = .ok body → Answered decode x.completions m.call m.issue body) :
    Keeps decode maxPending maxBytes x
      { x with registry := r, calls := x.calls.erase c, returned } := by
  refine h.put none rfl le_rfl nofun (by rwa [hcall]) (by rwa [hcall]) ?_ ?_
    (List.Subset.refl _) (fun _ hm => .inl hm) nofun hreturned
  · intro key p hp
    rw [hprovider]
    exact h.owned key p (hpending key p hp).1
  · intro key p hp
    obtain ⟨hold, hother⟩ := hpending key p hp
    obtain ⟨old, hlookup, hkey, hi⟩ := h.linked key p hold
    refine .inr ⟨?_, hold⟩
    rintro rfl
    rw [hcall] at hlookup
    cases hlookup
    exact hother hkey

/-- A call that has no guard returns an error and gives its permits back. -/
theorem Coherent.finish {e : Error} (hcall : x.calls.lookup c = some call)
    (hguard : call.stage.guard = none) (hslots : r.slots = x.registry.slots + call.slots)
    (hbytes : r.bytes = x.registry.bytes + call.bytes) (hpending : r.pending = x.registry.pending)
    (hprovider : r.provider = x.registry.provider) :
    Keeps decode maxPending maxBytes x ({ x with registry := r }.finish c call (.error e)) := by
  refine h.leave hcall hslots hbytes (fun key p hp => ⟨hpending ▸ hp, ?_⟩) hprovider ?_
  · rw [hguard]
    exact Option.some_ne_none key ∘ Eq.symm
  · intro m hm
    rcases List.mem_cons.mp hm with rfl | hm
    · exact .inr nofun
    · exact .inl hm

/-- A new call takes a slot, or fails at once. -/
theorem Coherent.takeSlot (method : Method) (size : ℕ) :
    Keeps decode maxPending maxBytes x (x.takeSlot method size) := by
  have hfresh := h.numbered x.nextCall (Nat.le_refl _)
  have hlinked : ∀ key p, x.registry.pending.lookup key = some p → p.result ≠ x.nextCall := by
    intro key p hp heq
    obtain ⟨old, hold, _⟩ := h.linked key p hp
    rw [heq, hfresh] at hold
    cases hold
  have hrefused : ∀ e, Keeps decode maxPending maxBytes x ({ x with
      nextCall := x.nextCall + 1 }.finish x.nextCall ⟨method, size, .slotTaken, none, none⟩
        (.error e)) := by
    intro e
    refine h.put none rfl (Nat.le_succ _) (by rintro ⟨⟩) (by rw [hfresh]; rfl)
      (by rw [hfresh]; rfl) h.owned (fun key p hp => .inr ⟨hlinked key p hp, hp⟩)
      (List.Subset.refl _) (fun _ hm => .inl hm) (by rintro _ ⟨⟩) fun m hm => ?_
    rcases List.mem_cons.mp hm with rfl | hm
    · exact .inr (by rintro _ ⟨⟩)
    · exact .inl hm
  have hadmitted : x.registry.pendingSlots ≠ 0 → Keeps decode maxPending maxBytes x ({ x with
      nextCall := x.nextCall + 1
      registry := { x.registry with pendingSlots := x.registry.pendingSlots - 1 } }.setCall
        x.nextCall ⟨method, size, .slotTaken, none, none⟩) := by
    intro hslot
    refine h.put (some _) rfl (Nat.le_succ _) (fun _ => Nat.lt_succ_self _) ?_
      (by rw [hfresh]; rfl) h.owned (fun key p hp => .inr ⟨hlinked key p hp, hp⟩)
      (List.Subset.refl _) (fun _ hm => .inl hm) ?_ fun m hm => .inl hm
    · simp only [hfresh, weigh_some, weigh_none, Call.slots, Registry.slots, Exchange.setCall]
      omega
    · rintro _ ⟨⟩
      exact ⟨⟨fun _ => rfl, (by rintro _ ⟨⟩), (by rintro _ _ ⟨⟩)⟩, fun _ => .inl le_rfl⟩
  cases method with
  | other name => exact hrefused _
  | deviceAuthenticate | deviceResolveVerifier =>
    simp only [Exchange.takeSlot]
    split
    · exact hrefused _
    · next hroom =>
      simp only [not_or] at hroom
      exact hadmitted hroom.2.2

/-- Issuing a call moves its permits to a pending entry of the current provider. -/
theorem Coherent.issue (hcall : x.calls.lookup c = some call) (hstage : call.stage = .admitted)
    (id : RequestId) (deadline : ℕ) (nowMs : Int64) :
    Keeps decode maxPending maxBytes x (x.issue c call id deadline nowMs) := by
  have hguard : call.stage.guard = none := by
    rw [hstage]
    rfl
  have hslots : call.slots = 1 := by simp only [Call.slots, hstage]
  have hbytes : call.bytes = call.size := by simp only [Call.bytes, hstage]
  unfold Exchange.issue
  split
  · refine h.finish hcall hguard ?_ ?_ rfl rfl
    · simp only [Registry.slots, hslots]
      omega
    · simp only [Registry.bytes, hbytes]
      omega
  · next p hp =>
    obtain ⟨hprovider, _⟩ := Option.filter_eq_some_iff.mp hp
    have hsound := h.calls c call hcall
    obtain ⟨hslots', hbytes'⟩ := insertPending_charge x.registry (p.epoch, id)
      ⟨call.method, deadline, p.revision, c, call.size⟩
    refine h.put (some _) rfl le_rfl (fun _ => h.lt_nextCall hcall) ?_ ?_ ?_ ?_
      (List.Subset.refl _) (fun _ hm => .inl hm) ?_ fun m hm => .inl hm
    · simp only [hcall, weigh_some, Call.slots, hstage]
      exact hslots'
    · simp only [hcall, weigh_some, Call.bytes, hstage]
      exact hbytes'
    · intro key q hq
      change (x.registry.insertPending _ _).pending.lookup key = some q at hq
      show (x.registry.insertPending _ _).provider.any _ = true
      rw [lookup_insertPending] at hq
      rw [provider_insertPending]
      split at hq
      · next hkey =>
        rw [hprovider, hkey]
        simp
      · exact h.owned key q hq
    · intro key q hq
      change (x.registry.insertPending _ _).pending.lookup key = some q at hq
      rw [lookup_insertPending] at hq
      split at hq
      · next hkey =>
        cases hq
        subst hkey
        exact .inl ⟨rfl, .inr ⟨call, hcall, hguard⟩, _, rfl, rfl, rfl⟩
      · refine .inr ⟨?_, hq⟩
        rintro rfl
        obtain ⟨old, hold, hkey, _⟩ := h.linked key q hq
        rw [hcall] at hold
        cases hold
        rw [hguard] at hkey
        cases hkey
    · rintro _ ⟨⟩
      refine ⟨⟨(by rintro ⟨⟩), fun body hbody => ?_, (by rintro _ _ ⟨⟩)⟩, (by rintro ⟨⟩)⟩
      have hanswered := hsound.replied body hbody
      rw [hsound.unissued hguard] at hanswered
      obtain ⟨i, hi, _⟩ := hanswered
      cases hi

end

/-- The sum over a list after one element is taken out. -/
theorem sum_eraseIdx {α : Type} (f : α → ℕ) {l : List α} {i : ℕ} {a : α} (h : l[i]? = some a) :
    ((l.eraseIdx i).map f).sum + f a = (l.map f).sum := by
  induction l generalizing i with
  | nil => cases h
  | cons b l ih =>
    cases i with
    | zero =>
      cases h
      simp [Nat.add_comm]
    | succ i =>
      have hrest := ih (i := i) (by simpa using h)
      simp only [List.eraseIdx_cons_succ, List.map_cons, List.sum_cons]
      omega

/-- Dropping a guard drops the entry under its key and balances the permits. -/
theorem dropGuard_registry (key : PendingKey) (accepted : Bool) :
    (x.dropGuard key accepted).registry.slots = x.registry.slots ∧
      (x.dropGuard key accepted).registry.bytes = x.registry.bytes ∧
      (x.dropGuard key accepted).registry.provider = x.registry.provider ∧
      ∀ key', (x.dropGuard key accepted).registry.pending.lookup key' =
        if key' = key then none else x.registry.pending.lookup key' := by
  have hdrops := Drops.dropPending x.registry key
  unfold dropGuard
  split
  · next hnone =>
    refine ⟨rfl, rfl, rfl, fun key' => ?_⟩
    split
    · next heq => rw [heq, Option.isNone_iff_eq_none.mp hnone]
    · rfl
  · simp only
    split
    · next hroom =>
      have hslots := hdrops.slots
      have hbytes := hdrops.bytes
      simp only [Registry.slots, Registry.bytes] at hslots hbytes
      refine ⟨?_, ?_, @provider_dropPending x.registry key,
        fun key' => @lookup_dropPending x.registry key key'⟩
      · exact hslots
      · simp only [Registry.bytes, List.map_append, List.map_cons, List.map_nil, List.sum_append,
          List.sum_cons, List.sum_nil]
        omega
    · exact ⟨hdrops.slots, hdrops.bytes, provider_dropPending, fun key' => lookup_dropPending key'⟩

theorem dropGuard_rest (key : PendingKey) (accepted : Bool) :
    x.dropGuard key accepted = { x with registry := (x.dropGuard key accepted).registry } := by
  unfold dropGuard
  split
  · rfl
  · simp only
    split <;> rfl

/-- A closing call drops its guard and returns what it was answered. -/
theorem Coherent.close {key : PendingKey} {result : Option (Except Error Body)}
    (h : x.Coherent decode maxPending maxBytes) (hcall : x.calls.lookup c = some call)
    (hstage : call.stage = .closing key result) (accepted : Bool) :
    Keeps decode maxPending maxBytes x (x.close c call key result accepted) := by
  obtain ⟨hslots, hbytes, hprovider, hlookup⟩ := x.dropGuard_registry key accepted
  have hleave : ∀ returned : List (Returned Body),
      (∀ m ∈ returned, m ∈ x.returned ∨ ∀ body, m.result = .ok body →
        Answered decode x.completions m.call m.issue body) →
      Keeps decode maxPending maxBytes x { x with
        registry := (x.dropGuard key accepted).registry, calls := x.calls.erase c, returned } := by
    intro returned hreturned
    refine h.leave hcall ?_ ?_ ?_ hprovider hreturned
    · simp only [Call.slots, hstage, hslots, Nat.add_zero]
    · simp only [Call.bytes, hstage, hbytes, Nat.add_zero]
    · intro key' p hp
      rw [hlookup] at hp
      split at hp
      · cases hp
      · next hne =>
        refine ⟨hp, ?_⟩
        rw [hstage]
        exact fun heq => hne (Option.some.inj heq).symm
  have hrest := x.dropGuard_rest key accepted
  generalize (x.dropGuard key accepted).registry = r at hleave hrest
  unfold Exchange.close
  rw [hrest]
  cases result with
  | none => exact hleave x.returned fun m hm => .inl hm
  | some result =>
    refine hleave (⟨c, call.issue, result⟩ :: x.returned) fun m hm => ?_
    rcases List.mem_cons.mp hm with rfl | hm
    · refine .inr fun body hbody => ?_
      simp only at hbody
      rw [hbody] at hstage
      exact (h.calls c call hcall).settled key body hstage
    · exact .inl hm

/-- What a response does: nothing, or it is delivered to the call whose entry it removes; an
accepted body was checked against the provider and the entry. -/
theorem complete_cases (r : Registry) (epoch : UInt64) (id : RequestId) (method : Method)
    (result : Except Error Body) (instant : ℕ) (nowMs : Int64) :
    Rpc.complete decode r epoch id method result instant nowMs = (none, r) ∨
      ∃ pending reply, r.pending.lookup (epoch, id) = some pending ∧
        Rpc.complete decode r epoch id method result instant nowMs =
          (some (pending.result, reply), r.dropPending (epoch, id)) ∧
        ∀ body, reply = .ok body → pending.method = method ∧
          ∃ p, r.provider = some p ∧ p.epoch = epoch ∧ p.revision = pending.minRevision ∧
            p.serving = true ∧ p.authorizedAt nowMs = true ∧
            ∃ identity, decode method body = some identity ∧
              pending.minRevision ≤ identity.authRevision ∧
              p.scope.allows identity.deviceKey.tenantId = true := by
  fun_cases Rpc.complete decode r epoch id method result instant nowMs with
  | case3 pending hpending => exact .inr ⟨pending, _, hpending, rfl, nofun⟩
  | case5 pending hpending hmethod _ p hp =>
    refine .inr ⟨pending, _, hpending, rfl, fun body hbody => ?_⟩
    simp only [Option.filter_eq_some_iff, Provider.available, Bool.and_eq_true,
      decide_eq_true_eq] at hp
    obtain ⟨hprovider, hepoch, ⟨hserving, hauthorized⟩, hrevision⟩ := hp
    exact ⟨not_not.mp hmethod, p, hprovider, hepoch, hrevision, hserving, hauthorized,
      checkBody_ok hbody⟩
  | _ => exact .inl rfl

/-- A delivered response answers the call of the entry it removes. -/
theorem Coherent.complete (h : x.Coherent decode maxPending maxBytes) (epoch : UInt64)
    (id : RequestId) (method : Method) (result : Except Error Body) (instant : ℕ) (nowMs : Int64) :
    Keeps decode maxPending maxBytes x
      (x.complete decode epoch id method result instant nowMs) := by
  unfold Exchange.complete
  rcases @complete_cases _ decode x.registry epoch id method result instant nowMs with
    hnone | ⟨pending, reply, hpending, hcompleted, hreply⟩
  · rw [hnone]
    exact ⟨h, .refl x⟩
  · rw [hcompleted]
    obtain ⟨call, hcall, hguard, hissue⟩ := h.linked _ pending hpending
    have hdrops := Drops.dropPending x.registry (epoch, id)
    simp only [hcall, Option.map_some, put_some]
    have hsound := h.calls _ call hcall
    have hmono : x.completions ⊆
        ⟨pending.result, x.registry.provider, nowMs, method, reply⟩ :: x.completions :=
      List.subset_cons_self _ _
    refine h.put (some _) rfl le_rfl (fun _ => h.lt_nextCall hcall) ?_ ?_
      (h.owned.drops hdrops provider_dropPending) ?_ hmono ?_ ?_ fun m hm => .inl hm
    · rw [hdrops.slots, hcall]
      rfl
    · rw [hdrops.bytes, hcall]
      rfl
    · exact fun key p hp => h.linked_put { call with reply := some reply } hcall rfl rfl
        (hdrops.pending key p hp)
    · intro m hm
      rcases List.mem_cons.mp hm with rfl | hm
      · exact .inr ⟨_, pending, hpending, rfl⟩
      · exact .inl hm
    · rintro _ ⟨⟩
      refine ⟨⟨hsound.unissued, fun body hbody => ?_,
        fun key body hstage => (hsound.settled key body hstage).mono hmono⟩,
        fun hnone => .inr ⟨call, hcall, hnone⟩⟩
      obtain ⟨hmethod, p, hp, hepoch, hrevision, hserving, hauthorized, identity, hidentity⟩ :=
        hreply body (Option.some.inj hbody)
      refine ⟨_, hissue, _, List.mem_cons_self .., rfl, Option.some.inj hbody, hmethod.symm,
        p, hp, hepoch, hrevision, hserving, hauthorized, identity, ?_⟩
      rw [hmethod]
      exact hidentity

/-- What an action can do: nothing, an operation of the registry, a response, a new call, a
written message, or a running call goes on from its stage. -/
theorem step_cases {P : Exchange Body → Prop} (same : P x)
    (registry : ∀ r, Moves x.registry r → P { x with registry := r })
    (complete : ∀ epoch id method result instant nowMs,
      P (x.complete decode epoch id method result instant nowMs))
    (takeSlot : ∀ method size, P (x.takeSlot method size))
    (written : ∀ (index : ℕ) message, x.registry.outbound[index]? = some message →
      P { x with registry := { x.registry with
        outbound := x.registry.outbound.eraseIdx index
        pendingBytes := x.registry.pendingBytes + message.bytes } })
    (takeBytes : ∀ c call, x.calls.lookup c = some call → call.stage = .slotTaken →
      P (x.takeBytes c call))
    (issue : ∀ c call, x.calls.lookup c = some call → call.stage = .admitted →
      ∀ id deadline nowMs, P (x.issue c call id deadline nowMs))
    (charge : ∀ c call, x.calls.lookup c = some call → ∀ key, call.stage = .issued key →
      P (x.charge c call key))
    (trySend : ∀ c call, x.calls.lookup c = some call → ∀ key, call.stage = .charged key →
      ∀ accepted, P (x.trySend c call key accepted))
    (settle : ∀ c call, x.calls.lookup c = some call → ∀ key, call.stage = .waiting key →
      ∀ result, (∀ body, result = some (.ok body) → call.reply = some (.ok body)) →
        P (x.setCall c { call with stage := .closing key result }))
    (close : ∀ c call, x.calls.lookup c = some call → ∀ key result,
      call.stage = .closing key result → ∀ accepted, P (x.close c call key result accepted))
    (a : Action Body) : P (x.step decode a) := by
  fun_cases Exchange.step decode x a with
  | case1 scope expiresAtMs instant =>
    exact registry _ (moves_registerWithExpiry scope expiresAtMs instant x.registry)
  | case2 epoch revision nowMs instant =>
    exact registry _ (moves_markServing epoch revision nowMs instant x.registry)
  | case3 epoch instant => exact registry _ (moves_markSyncing epoch instant x.registry)
  | case4 epoch revision => exact registry _ (moves_advanceRevision epoch revision x.registry)
  | case5 epoch instant => exact registry _ (moves_release epoch instant x.registry)
  | case6 => exact complete ..
  | case7 => exact takeSlot ..
  | case9 index message hmessage => exact written index message hmessage
  | case10 c call hcall hstage => exact takeBytes c call hcall hstage
  | case13 c id deadline nowMs call hcall hstage => exact issue c call hcall hstage ..
  | case16 c call hcall key hstage => exact charge c call hcall key hstage
  | case19 c accepted call hcall key hstage => exact trySend c call hcall key hstage accepted
  | case22 c call hcall key reply hreply hstage =>
    refine settle c call hcall key hstage _ fun body hbody => ?_
    cases reply with
    | error e => cases hbody
    | ok answer =>
      simp only [outcome, Option.some.injEq] at hbody
      split at hbody
      · rwa [← hbody]
      · cases hbody
  | case25 c _ call hcall key _ hstage | case28 c call hcall key hstage =>
    exact settle c call hcall key hstage _ nofun
  | case31 c accepted call hcall key result hstage =>
    exact close c call hcall key result hstage accepted
  | _ => exact same

/-- Every action keeps the exchange coherent. -/
theorem Coherent.step (h : x.Coherent decode maxPending maxBytes) (a : Action Body) :
    Keeps decode maxPending maxBytes x (x.step decode a) := by
  refine step_cases ⟨h, .refl x⟩ (fun r hr => h.moves hr) h.complete h.takeSlot ?_ ?_
    (fun c call hcall hstage => h.issue hcall hstage) ?_ ?_ ?_
    (fun c call hcall key result hstage => h.close hcall hstage) a
  · intro index message hmessage
    refine ⟨⟨h.slots, ?_, h.owned, h.linked, h.numbered, h.calls, h.returned⟩,
      .of_registry fun _ _ hp => hp⟩
    have hbalance := h.bytes
    have hsum := sum_eraseIdx (fun m : BusinessRpcOutbound => m.bytes) hmessage
    simp only [Registry.bytes] at hbalance ⊢
    omega
  · intro c call hcall hstage
    unfold Exchange.takeBytes
    split
    · refine h.finish hcall (by rw [hstage]; rfl) ?_ ?_ rfl rfl
      · simp only [Registry.slots, Call.slots, hstage]
        omega
      · simp only [Registry.bytes, Call.bytes, hstage]
        omega
    · refine h.move hcall hstage rfl ?_ rfl rfl rfl (by rintro _ _ ⟨⟩)
      simp only [Registry.bytes, Call.bytes]
      omega
  · intro c call hcall key hstage
    unfold Exchange.charge
    split
    · exact h.move hcall hstage rfl rfl rfl rfl rfl (by rintro _ _ ⟨⟩)
    · refine h.move hcall hstage (by simp only [Registry.slots, Call.slots]) ?_ rfl rfl rfl
        (by rintro _ _ ⟨⟩)
      simp only [Registry.bytes, Call.bytes, Call.wireBytes] at *
      omega
  · intro c call hcall key hstage accepted
    unfold Exchange.trySend
    split
    · refine h.move hcall hstage rfl ?_ rfl rfl rfl (by rintro _ _ ⟨⟩)
      simp only [Registry.bytes, Call.bytes, Call.wireBytes, List.map_append, List.map_cons,
        List.map_nil, List.sum_append, List.sum_cons, List.sum_nil]
      omega
    · refine h.move hcall hstage rfl ?_ rfl rfl rfl (by rintro _ _ ⟨⟩)
      simp only [Registry.bytes, Call.bytes, Call.wireBytes]
      omega
  · intro c call hcall key hstage result hresult
    refine h.move hcall hstage rfl rfl rfl rfl rfl fun key' body hclosing => ?_
    simp only [Stage.closing.injEq] at hclosing
    exact (h.calls c call hcall).replied _ (hresult body hclosing.2)

theorem coherent_of_reachable (h : (exchanging decode maxPending maxBytes).Reachable x) :
    x.Coherent decode maxPending maxBytes := by
  refine h.invariant ?_ ?_
  · rintro x ⟨instant, rfl⟩
    have hnone : ∀ c, (∅ : Table CallId (Call Body)).lookup c = none := fun c => lookup_empty c
    refine ⟨rfl, rfl, ?_, ?_, fun c _ => hnone c, ?_, ?_⟩
    · intro key p hp
      cases hp
    · intro key p hp
      cases hp
    · intro c call hcall
      cases hcall
    · intro m hm
      cases hm
  · rintro x a _ hx rfl
    exact (hx.step a).1

end Exchange

end Netbaiot.Rpc
