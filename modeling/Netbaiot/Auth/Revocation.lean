import Netbaiot.Auth.Fencing

/-!
# Sessions and invalidation

A registration checks its candidate while it holds the gate, and an invalidation holds the
gate until it has cancelled the sessions it concerns.  `Revoked` says what this gives in
every state: a session that is not cancelled is still registered, and one that a completed
invalidation concerns was authenticated after it or is cancelled.  Start reading at
`epoch_fencing`; `stale_result_after_wrap` is a run in which the epoch comes back.
-/

namespace Netbaiot.Auth

open Lib

/-- What the holder of the gate may rely on. -/
def GateSound (s : Authentication) : Prop :=
  match s.gate with
  | none => True
  | some (.registering candidate checked) =>
      (∃ x ∈ s.returned, x.result = .ok candidate) ∧
        (Unwrapped candidate.taken checked → ∀ i ∈ s.completed, i.number ≤ candidate.taken)
  | some (.invalidating i) => i.number ≤ s.count

/-- The sessions agree with the completed invalidations. -/
structure Revoked (s : Authentication) : Prop where
  held : ∀ lease ∈ s.leases, lease.generation ∈ s.cancelled ∨
    s.sessions.lookup lease.candidate.identity.deviceKey =
      some ⟨lease.generation, lease.candidate.identity⟩
  leases : ∀ lease ∈ s.leases, ∃ x ∈ s.returned, x.result = .ok lease.candidate
  completed : ∀ i ∈ s.completed, i.number ≤ s.count
  fenced : ∀ lease ∈ s.leases, Unwrapped lease.candidate.taken lease.checked →
    ∀ i ∈ s.completed, lease.candidate.taken < i.number →
      invalidates i.invalidation lease.candidate.identity = true → lease.generation ∈ s.cancelled
  gate : GateSound s

namespace Revoked

variable {s s' : Authentication} {r : ℕ}

theorem new (limits : Limits) : Revoked (.new limits) where
  held _ h := nomatch h
  leases _ h := nomatch h
  completed _ h := nomatch h
  fenced _ h := nomatch h
  gate := trivial

section

variable (h : Revoked s)

include h

/-- More invalidations and further results do not matter. -/
theorem mono (hcount : s.count ≤ s'.count) (hreturned : ∀ x ∈ s.returned, x ∈ s'.returned)
    (hcompleted : s'.completed = s.completed) (hgate : s'.gate = s.gate)
    (hsessions : s'.sessions = s.sessions) (hcancelled : s'.cancelled = s.cancelled)
    (hleases : s'.leases = s.leases) : Revoked s' := by
  have hgrant : ∀ g, (∃ x ∈ s.returned, x.result = .ok g) → ∃ x ∈ s'.returned, x.result = .ok g :=
    fun g ⟨x, hx, hg⟩ => ⟨x, hreturned x hx, hg⟩
  constructor
  · rw [hleases, hcancelled, hsessions]
    exact h.held
  · rw [hleases]
    exact fun lease hlease => hgrant _ (h.leases lease hlease)
  · rw [hcompleted]
    exact fun i hi => (h.completed i hi).trans hcount
  · rw [hleases, hcompleted, hcancelled]
    exact h.fenced
  · have hold := h.gate
    unfold GateSound at hold ⊢
    rw [hgate, hcompleted]
    cases hcase : s.gate with
    | none => trivial
    | some gate =>
      rw [hcase] at hold
      cases gate with
      | registering candidate checked => exact ⟨hgrant _ hold.1, hold.2⟩
      | invalidating i => exact hold.trans hcount

theorem turn (hturn : Turn r s s') : Revoked s' :=
  h.mono (congrArg List.length hturn.invalidations).ge hturn.kept hturn.completed hturn.gate
    hturn.sessions
    hturn.cancelled hturn.leases

theorem enter (key : Except Error AuthCacheKey) : Revoked (s.enter key) := by
  cases key with
  | error e => exact h.mono le_rfl (fun x hx => List.mem_cons_of_mem _ hx) rfl rfl rfl rfl rfl
  | ok key => exact h.mono le_rfl (fun x hx => hx) rfl rfl rfl rfl rfl

theorem invalidate (invalidation : AuthInvalidation) : Revoked (s.invalidate invalidation) :=
  h.mono (Nat.le_succ _) (fun _ hx => hx) rfl rfl rfl rfl rfl

/-- The gate changes hands. -/
theorem setGate {gate : Option Gate} (hgate : GateSound { s with gate := gate }) :
    Revoked { s with gate := gate } :=
  ⟨h.held, h.leases, h.completed, h.fenced, hgate⟩

/-- A candidate that is current when the registration takes the gate is newer than every
completed invalidation. -/
theorem beginRegister (hfresh : Fresh s) {x : Returned} {candidate : Grant} (hx : x ∈ s.returned)
    (hcandidate : x.result = .ok candidate) : Revoked (s.beginRegister candidate) := by
  unfold Authentication.beginRegister
  split
  · exact h
  · next hcurrent =>
    obtain ⟨-, hepoch, htaken, hserved, -⟩ := hfresh.returned x hx candidate hcandidate
    refine h.setGate ⟨⟨x, hx, hcandidate⟩, fun hfew i hi => ?_⟩
    have hsame : epochAt candidate.taken = epochAt s.count := by
      rw [← hepoch, ← hfresh.epoch, not_not.mp hcurrent]
    exact (hfew.eq (htaken.trans hserved) hsame).symm ▸ h.completed i hi

/-- More sessions are cancelled. -/
theorem cancel (generations : List ℕ) :
    Revoked { s with cancelled := generations ++ s.cancelled } where
  held lease hlease := (h.held lease hlease).imp_left fun hmem => List.mem_append_right _ hmem
  leases := h.leases
  completed := h.completed
  fenced lease hlease hfew i hi hbefore hmatches :=
    List.mem_append_right _ (h.fenced lease hlease hfew i hi hbefore hmatches)
  gate := h.gate

/-- The session of the candidate takes the place of an older one, which is cancelled. -/
theorem register {candidate : Grant} {checked : ℕ}
    (hcandidate : ∃ x ∈ s.returned, x.result = .ok candidate)
    (hnewer : Unwrapped candidate.taken checked → ∀ i ∈ s.completed, i.number ≤ candidate.taken)
    (hgate : s.gate = none) : Revoked (s.register candidate checked) := by
  have hcancelled : ∀ {g}, g ∈ s.cancelled → g ∈ (s.register candidate checked).cancelled :=
    fun hg => List.mem_append_right _ hg
  refine ⟨fun lease hlease => ?_, fun lease hlease => ?_, h.completed,
    fun lease hlease hfew i hi hbefore hmatches => ?_, ?_⟩
  · show _ ∨ (s.sessions.insert _ _).lookup _ = _
    rw [AList.lookup_insert_eq]
    rcases List.mem_cons.mp hlease with rfl | hlease
    · exact .inr (if_pos rfl)
    · rcases h.held lease hlease with hgone | hlive
      · exact .inl (hcancelled hgone)
      · split
        · next hdevice =>
          -- it was registered for the same device and is replaced
          refine .inl (List.mem_append_left _ ?_)
          rw [← hdevice, hlive]
          simp
        · exact .inr hlive
  · rcases List.mem_cons.mp hlease with rfl | hlease
    · exact hcandidate
    · exact h.leases lease hlease
  · rcases List.mem_cons.mp hlease with rfl | hlease
    · exact absurd (hnewer hfew i hi) (Nat.not_le_of_lt hbefore)
    · exact hcancelled (h.fenced lease hlease hfew i hi hbefore hmatches)
  · simp only [GateSound, Authentication.register, hgate]

/-- An invalidation that completes has cancelled every session it concerns. -/
theorem finishInvalidate {i : Invalidated} (hi : i.number ≤ s.count) :
    Revoked { s.disconnectMatching i.invalidation with
      gate := none, completed := i :: s.completed } := by
  have hcancel := h.cancel ((s.sessions.values.filter fun endpoint =>
    invalidates i.invalidation endpoint.auth).map SessionEndpoint.generation)
  refine ⟨hcancel.held, h.leases, fun j hj => ?_,
    fun lease hlease hfew j hj hbefore hmatches => ?_, trivial⟩
  · rcases List.mem_cons.mp hj with rfl | hj
    · exact hi
    · exact h.completed j hj
  · rcases List.mem_cons.mp hj with rfl | hj
    · rcases h.held lease hlease with hgone | hlive
      · exact List.mem_append_right _ hgone
      · refine List.mem_append_left _ (List.mem_map.mpr ⟨_, List.mem_filter.mpr
          ⟨AList.mem_values_iff.mpr ⟨_, hlive⟩, hmatches⟩, rfl⟩)
    · exact hcancel.fenced lease hlease hfew j hj hbefore hmatches

/-- The lease of a registered session is dropped, which cancels the session. -/
theorem dropLease (device : DeviceKey) (generation : ℕ) :
    Revoked (s.dropLease device generation) := by
  unfold Authentication.dropLease
  split
  · next hcurrent =>
    have hcancel := h.cancel [generation]
    refine ⟨fun lease hlease => ?_, h.leases, h.completed, hcancel.fenced, h.gate⟩
    rcases h.held lease hlease with hgone | hlive
    · exact .inl (List.mem_cons_of_mem _ hgone)
    · show _ ∨ (s.sessions.erase device).lookup _ = _
      rw [AList.lookup_erase_eq]
      split
      · next hdevice =>
        rw [← hdevice, hlive] at hcurrent
        have : lease.generation = generation := by simpa using hcurrent
        exact .inl (this ▸ List.mem_cons_self)
      · exact .inr hlive
  · exact h

end

end Revoked

/-- Every step keeps what is cached, returned and registered in agreement with the
invalidations. -/
theorem Authentication.step_sound (limits : Limits) (sha : Sha256) {s : Authentication}
    (h : Fresh s ∧ Revoked s) (a : AuthAction) :
    Fresh (s.step limits sha a) ∧ Revoked (s.step limits sha a) := by
  obtain ⟨hfresh, hrevoked⟩ := h
  unfold Authentication.step
  split
  · next r req hrequest =>
    simp only [Option.bind_eq_some_iff, Option.map_eq_some_iff, Prod.mk.injEq] at hrequest
    obtain ⟨_, -, _, hreq, rfl, rfl⟩ := hrequest
    have hturn := stepRequest_turn limits hfresh hreq a
    exact ⟨hfresh.turn hturn, hrevoked.turn hturn⟩
  · split
    · exact ⟨hfresh.enter _, hrevoked.enter _⟩
    · exact ⟨hfresh.enter _, hrevoked.enter _⟩
    · exact ⟨hfresh.invalidate _, hrevoked.invalidate _⟩
    · split
      · next index _ _ candidate hx =>
        have hrevoked' := hrevoked.beginRegister hfresh (List.mem_of_getElem? hx) rfl
        refine ⟨?_, hrevoked'⟩
        unfold Authentication.beginRegister
        split
        · exact hfresh
        · exact hfresh.congr rfl rfl rfl rfl
      · exact ⟨hfresh, hrevoked⟩
    · next admitted candidate checked hgate _ =>
      have hsound := hrevoked.gate
      simp only [GateSound, hgate] at hsound
      have hfree : Revoked { s with gate := none } := hrevoked.setGate trivial
      split
      · exact ⟨hfresh.congr rfl rfl rfl rfl, hfree.register hsound.1 hsound.2 rfl⟩
      · exact ⟨hfresh.congr rfl rfl rfl rfl, hfree⟩
    · next invalidation _ _ =>
      exact ⟨(hfresh.invalidate invalidation).congr rfl rfl rfl rfl,
        (hrevoked.invalidate invalidation).setGate (le_refl (s.invalidate invalidation).count)⟩
    · next invalidated hgate _ =>
      have hsound := hrevoked.gate
      simp only [GateSound, hgate] at hsound
      exact ⟨hfresh.congr rfl rfl rfl rfl, hrevoked.finishInvalidate hsound⟩
    · exact ⟨hfresh.congr rfl rfl rfl rfl, hrevoked.cancel _⟩
    · next device generation _ =>
      refine ⟨?_, hrevoked.dropLease device generation⟩
      unfold Authentication.dropLease
      split
      · exact hfresh.congr rfl rfl rfl rfl
      · exact hfresh
    · exact ⟨hfresh, hrevoked⟩

/-- A state of a run is fresh and revoked. -/
theorem sound_of_reachable {limits : Limits} {sha : Sha256} {s : Authentication}
    (h : (authenticating limits sha).Reachable s) : Fresh s ∧ Revoked s := by
  refine System.Reachable.invariant (I := fun s => Fresh s ∧ Revoked s) (fun s hs => ?_)
    (fun s a s' hs hstep => ?_) h
  · subst hs
    exact ⟨.new limits, .new limits⟩
  · subst hstep
    exact s.step_sound limits sha hs a

/-- A call of the provider is in flight. -/
def Request.inCall (req : Request) : Bool :=
  match req.stage with
  | .calling .. => true
  | _ => false

/-- In any order of requests, invalidations, expiry, eviction, cancellation, registration and
the end of sessions, as long as the epoch does not come back during what is spoken of:
no invalidation fell between the start of the call and the record of a result that is cached
or was returned;
no identity was returned after an invalidation that concerns it and that came after its
record;
once an invalidation through the gate has completed, every session it concerns whose identity
was obtained before it is cancelled;
and for each key at most one call of the provider is in flight. -/
theorem epoch_fencing (limits : Limits) (sha : Sha256) {s : Authentication}
    (h : (authenticating limits sha).Reachable s) :
    (∀ key entry, s.cache.entries.lookup key = some entry →
      Unwrapped entry.origin.elected entry.origin.recorded → ∀ i ∈ s.invalidations,
        ¬ (entry.origin.started < i.number ∧ i.number ≤ entry.origin.recorded)) ∧
    (∀ x ∈ s.returned, ∀ g, x.result = .ok g → Unwrapped g.origin.elected g.origin.recorded →
      ∀ i ∈ s.invalidations, ¬ (g.origin.started < i.number ∧ i.number ≤ g.origin.recorded)) ∧
    (∀ x ∈ s.returned, ∀ g, x.result = .ok g → Unwrapped g.taken g.served →
      ∀ i ∈ s.invalidations, g.origin.recorded < i.number → i.number ≤ g.served →
        invalidates i.invalidation g.identity = false) ∧
    (∀ lease ∈ s.leases, Unwrapped lease.candidate.taken lease.checked →
      ∀ i ∈ s.completed, lease.candidate.served < i.number →
        invalidates i.invalidation lease.candidate.identity = true →
          lease.generation ∈ s.cancelled) ∧
    (∀ r r' req req', s.requests.lookup r = some req → s.requests.lookup r' = some req' →
      req.inCall = true → req'.inCall = true → req.key = req'.key → r = r') := by
  obtain ⟨hfresh, hrevoked⟩ := sound_of_reachable h
  refine ⟨fun key entry hentry hfew i _ hbetween => ?_, fun x hx g hg hfew i _ hbetween => ?_,
    fun x hx g hg hfew i hi hafter hbefore => ?_,
    fun lease hlease hfew i hi hbefore hmatches => ?_,
    fun r r' req req' hreq hreq' hcall hcall' hkey => ?_⟩
  · have := (hfresh.entries key entry hentry).started hfew
    omega
  · have := (hfresh.returned x hx g hg).1.started hfew
    omega
  · obtain ⟨hstands, -, -, -, hsame⟩ := hfresh.returned x hx g hg
    obtain ⟨auth, hauth, hclear⟩ := hstands.clear i hi hafter (hsame hfew ▸ hbefore)
    exact Option.some.inj hauth ▸ hclear
  · obtain ⟨x, hx, hg⟩ := hrevoked.leases lease hlease
    obtain ⟨-, -, htaken, -, -⟩ := hfresh.returned x hx _ hg
    exact hrevoked.fenced lease hlease hfew i hi (htaken.trans_lt hbefore) hmatches
  · -- both own the one election of the key
    have hleads : ∀ r req, s.requests.lookup r = some req → req.inCall = true →
        ∃ i, s.cache.inflight.lookup req.key = some i ∧ i.leader = r := by
      intro r req hreq hcall
      have hstage := hfresh.requests r req hreq
      unfold Request.inCall at hcall
      split at hcall
      · next id epoch started hcalling =>
        simp only [StageSound, hcalling] at hstage
        obtain ⟨i, hi, hleader, -⟩ := hstage
        exact ⟨i, hi, hleader⟩
      · exact absurd hcall (by simp)
    obtain ⟨i, hi, rfl⟩ := hleads r req hreq hcall
    obtain ⟨i', hi', rfl⟩ := hleads r' req' hreq' hcall'
    rw [hkey, hi'] at hi
    rw [Option.some.inj hi]

/-- A digest that does not look at its input. -/
def sampleSha : Sha256 := ⟨fun _ => List.replicate 32 0, fun _ => by simp⟩

/-- The identity that the provider answers. -/
def sampleAuth : AuthenticatedDevice :=
  ⟨⟨.a, .b, .c⟩, 1, 1, .d, 1,
    ⟨true, true⟩⟩

/-- A device is authenticated and its session registered; then everything is invalidated. -/
def sampleActions : List AuthAction :=
  [.authenticate [97] [98], .lookup 0 0 0, .startCall 0, .respond 0 (.ok sampleAuth), .record 0 1,
    .beginRegister 0, .finishRegister true, .beginInvalidate .all, .finishInvalidate]

def sampleState : Authentication :=
  sampleActions.foldl (·.step Limits.default sampleSha) (.new Limits.default)

/-- The key of the sample. -/
def sampleKey : AuthCacheKey := ⟨[97], List.replicate 32 0, false⟩

/-- What the session of the sample was registered with. -/
def sampleGrant : Grant := ⟨sampleKey, sampleAuth, 1, ⟨0, 0, 0⟩, 0, 0⟩

/-- The session was obtained before the invalidation, so it is cancelled. -/
theorem epoch_fencing_sample :
    sampleState.leases = [⟨1, sampleGrant, 0⟩] ∧ 1 ∈ sampleState.cancelled := by
  have hreachable : (authenticating Limits.default sampleSha).Reachable sampleState :=
    System.Reachable.foldl (fun _ _ => rfl) sampleActions (.start rfl)
  have hleases : sampleState.leases = [⟨1, sampleGrant, 0⟩] := rfl
  have hcompleted : sampleState.completed = [⟨1, .all⟩] := rfl
  obtain ⟨-, -, -, hcancelled, -⟩ := epoch_fencing Limits.default sampleSha hreachable
  refine ⟨hleases, ?_⟩
  exact hcancelled ⟨1, sampleGrant, 0⟩ (by rw [hleases]; exact List.mem_singleton.mpr rfl)
    (by decide) ⟨1, .all⟩ (by rw [hcompleted]; exact List.mem_singleton.mpr rfl) (by decide) rfl

/-! ## When the epoch comes back -/

/-- A leader calls the provider, and then there are these invalidations, which leave this
epoch. -/
def callingState (epoch : UInt64) (log : List Invalidated) : Authentication :=
  let s : Authentication :=
    (sampleActions.take 3).foldl (·.step Limits.default sampleSha) (.new Limits.default)
  { s with cache := { s.cache with epoch := epoch }, invalidations := log }

/-- So many invalidations of everything. -/
def floodedLog : ℕ → List Invalidated
  | 0 => []
  | n + 1 => ⟨n + 1, .all⟩ :: floodedLog n

theorem length_floodedLog (n : ℕ) : (floodedLog n).length = n := by
  induction n with
  | zero => rfl
  | succ n ih => exact congrArg (· + 1) ih

theorem flooded_reachable (n : ℕ) : (authenticating Limits.default sampleSha).Reachable
    (callingState (epochAt n) (floodedLog n)) := by
  induction n with
  | zero =>
    have hstart : (authenticating Limits.default sampleSha).Reachable (.new Limits.default) :=
      .start rfl
    exact hstart.foldl (fun _ _ => rfl) (sampleActions.take 3)
  | succ n ih =>
    refine ih.step (a := .invalidate .all) ?_
    show callingState (epochAt (n + 1)) (⟨n + 1, .all⟩ :: floodedLog n) =
      callingState (epochAt (n + 1)) (⟨(floodedLog n).length + 1, .all⟩ :: floodedLog n)
    rw [length_floodedLog]

/-- After 2 ^ 64 - 1 invalidations during one call of the provider the epoch is that of the
election: the result is cached and returned although every one of them concerns it. -/
theorem stale_result_after_wrap : ∃ s entry g i,
    (authenticating Limits.default sampleSha).Reachable s ∧
      s.cache.entries.lookup sampleKey = some entry ∧ ⟨0, .ok g⟩ ∈ s.returned ∧
      entry.value.identity = some g.identity ∧ entry.origin = g.origin ∧ i ∈ s.invalidations ∧
      g.origin.started < i.number ∧ i.number ≤ g.origin.recorded ∧
      invalidates i.invalidation g.identity = true := by
  have hepoch : epochAt (2 ^ 64 - 1) = 1 := UInt64.toNat_inj.mp (toNat_epochAt _)
  have hreachable := flooded_reachable (2 ^ 64 - 1)
  rw [hepoch] at hreachable
  have hlength := length_floodedLog (2 ^ 64 - 1)
  have hmem : ⟨2 ^ 64 - 1, .all⟩ ∈ floodedLog (2 ^ 64 - 1) := List.mem_cons_self
  generalize floodedLog (2 ^ 64 - 1) = log at hreachable hlength hmem
  refine ⟨_, _, ⟨sampleKey, sampleAuth, 1, ⟨0, 0, log.length⟩, log.length, log.length⟩,
    ⟨2 ^ 64 - 1, .all⟩,
    (hreachable.step (a := .respond 0 (.ok sampleAuth)) rfl).step (a := .record 0 0) rfl,
    rfl, List.mem_singleton.mpr rfl, rfl, rfl, hmem, ?_, ?_, rfl⟩
  · show 0 < 2 ^ 64 - 1
    decide
  · exact hlength.ge

end Netbaiot.Auth
