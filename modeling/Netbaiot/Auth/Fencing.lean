import Netbaiot.Auth.Requests

/-!
# Epoch fencing

`Stands` says that no invalidation came between the call of the provider and the record of a
result, unless the epoch came back in between, and that no later invalidation up to a given one
concerns it.  Everything that is cached stands now and everything that was returned stood when
it was read; a request that leads owns the election for its key.  `Turn` collects what one step
of one request can do, so that these facts are shown once for each kind of change.
`epoch_fencing` is the result.
-/

namespace Netbaiot.Auth

open Lib AList

/-- The epoch after so many invalidations. -/
def epochAt : ℕ → UInt64
  | 0 => 1
  | n + 1 => max (epochAt n + 1) 1

theorem toNat_epochAt (n : ℕ) : (epochAt n).toNat = n % (2 ^ 64 - 1) + 1 := by
  induction n with
  | zero => rfl
  | succ n ih =>
    have hnext : (epochAt n + 1).toNat = ((epochAt n).toNat + 1) % 2 ^ 64 := UInt64.toNat_add _ _
    show (if epochAt n + 1 ≤ 1 then 1 else epochAt n + 1).toNat = _
    split
    · next hle =>
      have : (epochAt n + 1).toNat ≤ 1 := UInt64.le_iff_toNat_le.mp hle
      show 1 = _
      omega
    · next hle =>
      have : ¬ (epochAt n + 1).toNat ≤ 1 := fun h => hle (UInt64.le_iff_toNat_le.mpr h)
      omega

/-- So few invalidations came between that the epoch did not come back. -/
def Unwrapped (before after : ℕ) : Prop := after < before + (2 ^ 64 - 1)

instance (before after : ℕ) : Decidable (Unwrapped before after) := Nat.decLt _ _

/-- Then the epoch tells whether there was one. -/
theorem Unwrapped.eq {m n : ℕ} (h : Unwrapped m n) (hle : m ≤ n) (heq : epochAt m = epochAt n) :
    m = n := by
  have hmod := congrArg UInt64.toNat heq
  rw [toNat_epochAt, toNat_epochAt] at hmod
  unfold Unwrapped at h
  omega

variable {origin : Origin} {c : AuthCacheState} {epoch : UInt64} {n : ℕ}

/-- A result with this origin may be used after `n` invalidations: none came between the start
of its call and its record, and none between its record and the last of the `n` concerns it. -/
structure Stands (log : List Invalidated) (identity : Option AuthenticatedDevice)
    (origin : Origin) (n : ℕ) : Prop where
  started : Unwrapped origin.elected origin.recorded → origin.started = origin.recorded
  recorded : origin.recorded ≤ n
  clear : ∀ i ∈ log, origin.recorded < i.number → i.number ≤ n →
    ∃ auth, identity = some auth ∧ invalidates i.invalidation auth = false

namespace Stands

variable {log : List Invalidated} {identity : Option AuthenticatedDevice} {origin : Origin}

/-- A result stands when it is recorded. -/
theorem fresh (hstarted : Unwrapped origin.elected origin.recorded →
      origin.started = origin.recorded) (hrecorded : origin.recorded = n) :
    Stands log identity origin n :=
  ⟨hstarted, hrecorded.le, fun i _ hafter hbefore => by omega⟩

/-- A later invalidation does not matter. -/
theorem logged (h : Stands log identity origin n) {i : Invalidated} (hlater : n < i.number) :
    Stands (i :: log) identity origin n := by
  refine ⟨h.started, h.recorded, fun j hj hafter hbefore => ?_⟩
  rcases List.mem_cons.mp hj with rfl | hj
  · omega
  · exact h.clear j hj hafter hbefore

/-- An identity that the next invalidation does not concern still stands after it. -/
theorem next (h : Stands log identity origin n) {invalidation : AuthInvalidation}
    (hlog : ∀ i ∈ log, i.number ≤ n)
    (hclear : ∃ auth, identity = some auth ∧ invalidates invalidation auth = false) :
    Stands (⟨n + 1, invalidation⟩ :: log) identity origin (n + 1) := by
  refine ⟨h.started, Nat.le_succ_of_le h.recorded, fun i hi hafter _ => ?_⟩
  rcases List.mem_cons.mp hi with rfl | hi
  · exact hclear
  · exact h.clear i hi hafter (hlog i hi)

end Stands

/-- What holds of a request: a leader owns the election of its key, and a verifier stood when
it was taken from the cache. -/
def StageSound (cache : AuthCacheState) (log : List Invalidated) (r : ℕ) (req : Request) : Prop :=
  match req.stage with
  | .looking | .subscribed | .following => True
  | .elected => ∃ i, cache.inflight.lookup req.key = some i ∧ i.leader = r ∧
      i.epoch = epochAt i.elected ∧ i.elected ≤ log.length
  | .calling id epoch started | .returned id epoch started _ =>
      ∃ i, cache.inflight.lookup req.key = some i ∧ i.leader = r ∧ i.id = id ∧
        epoch = epochAt i.elected ∧ i.elected ≤ started ∧ started ≤ log.length
  | .verifying found epoch origin taken =>
      Stands log (some found.identity) origin taken ∧ epoch = epochAt taken ∧ taken ≤ log.length

/-- What holds of a result that was returned. -/
def ReturnSound (log : List Invalidated) (x : Returned) : Prop :=
  ∀ g, x.result = .ok g → Stands log (some g.identity) g.origin g.taken ∧
    g.epoch = epochAt g.taken ∧ g.taken ≤ g.served ∧ g.served ≤ log.length ∧
    (Unwrapped g.taken g.served → g.taken = g.served)

/-- The cache, the requests and the results that were returned agree with the invalidations. -/
structure Fresh (s : Authentication) : Prop where
  epoch : s.cache.epoch = epochAt s.count
  entries : ∀ key entry, s.cache.entries.lookup key = some entry →
    Stands s.invalidations entry.value.identity entry.origin s.count
  requests : ∀ r req, s.requests.lookup r = some req →
    StageSound s.cache s.invalidations r req
  returned : ∀ x ∈ s.returned, ReturnSound s.invalidations x
  logged : ∀ i ∈ s.invalidations, i.number ≤ s.count
  ordered : s.cache.Ordered

/-- What one step of a request may do to the cache. -/
structure CacheMove (log : List Invalidated) (r : ℕ) (c c' : AuthCacheState) : Prop where
  epoch : c'.epoch = c.epoch
  entries : ∀ key entry, c'.entries.lookup key = some entry →
    c.entries.lookup key = some entry ∨ Stands log entry.value.identity entry.origin log.length
  inflight : ∀ key i, c.inflight.lookup key = some i → i.leader ≠ r →
    c'.inflight.lookup key = some i
  ordered : c.Ordered → c'.Ordered

namespace CacheMove

variable {log : List Invalidated} {r : ℕ} {c c' c'' : AuthCacheState}

theorem refl (log : List Invalidated) (r : ℕ) (c : AuthCacheState) : CacheMove log r c c :=
  ⟨rfl, fun _ _ h => .inl h, fun _ _ h _ => h, id⟩

theorem trans (h : CacheMove log r c c') (h' : CacheMove log r c' c'') : CacheMove log r c c'' := by
  refine ⟨h'.epoch.trans h.epoch, fun key entry hentry => ?_, fun key i hi hleader =>
    h'.inflight key i (h.inflight key i hi hleader) hleader, fun ho => h'.ordered (h.ordered ho)⟩
  rcases h'.entries key entry hentry with hold | hnew
  · exact h.entries key entry hold
  · exact .inr hnew

theorem of_trims (h : Trims c c') (hordered : c.Ordered → c'.Ordered) : CacheMove log r c c' :=
  ⟨h.epoch, fun key entry hentry => .inl (h.entries key entry hentry),
    fun _ _ hi _ => h.inflight ▸ hi, hordered⟩

/-- Only elections of the request itself are removed or replaced. -/
theorem of_inflight {inflight : Table AuthCacheKey Inflight} {next : UInt64}
    (h : ∀ key i, c.inflight.lookup key = some i → i.leader ≠ r → inflight.lookup key = some i) :
    CacheMove log r c { c with inflight := inflight, nextInflightId := next } :=
  ⟨rfl, fun _ _ hentry => .inl hentry, h, id⟩

/-- A leader removes its own election. -/
theorem erase {key : AuthCacheKey} {i : Inflight} (hi : c.inflight.lookup key = some i)
    (hleader : i.leader = r) : CacheMove log r c { c with inflight := c.inflight.erase key } := by
  refine of_inflight fun k j hj hother => ?_
  rw [lookup_erase_eq, if_neg]
  · exact hj
  · rintro rfl
    rw [hi] at hj
    exact hother (Option.some.inj hj ▸ hleader)

/-- A result that stands is recorded. -/
theorem insert (limits : Limits) (key : AuthCacheKey) (value : CachedAuth) (ttl bytes now : ℕ)
    (h : Stands log value.identity origin log.length) :
    CacheMove log r c (c.insertCacheEntry limits key value ttl bytes now origin) := by
  obtain ⟨hinflight, hepoch, hentries⟩ :=
    c.insertCacheEntry_spec limits key value ttl bytes now origin
  refine ⟨hepoch, fun k entry hentry => ?_, fun k i hi _ => hinflight ▸ hi, fun ho =>
    ho.insertCacheEntry limits key value ttl bytes now origin⟩
  rcases hentries k entry hentry with ⟨hvalue, horigin⟩ | hold
  · right
    rw [hvalue, horigin]
    exact h
  · exact .inl hold

end CacheMove

/-- What one step of request `r` can do.  The sessions, the gate and the invalidations stay as
they are. -/
structure Turn (r : ℕ) (s s' : Authentication) : Prop where
  cache : CacheMove s.invalidations r s.cache s'.cache
  requests : ∀ r' req, s'.requests.lookup r' = some req → r' ≠ r → s.requests.lookup r' = some req
  own : ∀ req, s'.requests.lookup r = some req → StageSound s'.cache s.invalidations r req
  returned : ∀ x ∈ s'.returned, x ∈ s.returned ∨ ReturnSound s.invalidations x
  kept : ∀ x ∈ s.returned, x ∈ s'.returned
  invalidations : s'.invalidations = s.invalidations
  completed : s'.completed = s.completed
  gate : s'.gate = s.gate
  sessions : s'.sessions = s.sessions
  cancelled : s'.cancelled = s.cancelled
  leases : s'.leases = s.leases

namespace Turn

variable {s : Authentication} {r : ℕ} {req : Request} {c : AuthCacheState} {waiters : ℕ}

section

variable (hcache : CacheMove s.invalidations r s.cache c)

include hcache

/-- The request moves on. -/
theorem setStage {stage : RequestStage}
    (hstage : StageSound c s.invalidations r { req with stage := stage }) :
    Turn r s ({ s with cache := c, waiters := waiters }.setStage r req stage) := by
  refine ⟨hcache, fun r' req' h hne => ?_, fun req' h => ?_, fun x hx => .inl hx, fun x hx => hx,
    rfl, rfl, rfl, rfl, rfl, rfl⟩
  · simpa only [Authentication.setStage, lookup_insert_eq, if_neg hne] using h
  · simp only [Authentication.setStage, lookup_insert_eq, if_pos] at h
    exact Option.some.inj h ▸ hstage

/-- The request ends without a result. -/
theorem dropped :
    Turn r s { s with cache := c, waiters := waiters, requests := s.requests.erase r } := by
  refine ⟨hcache, fun r' req' h hne => ?_, fun req' h => ?_, fun x hx => .inl hx, fun x hx => hx,
    rfl, rfl, rfl, rfl, rfl, rfl⟩
  · simpa only [lookup_erase_eq, if_neg hne] using h
  · exact absurd h (by simp)

/-- The request returns. -/
theorem finish {result : Except Error Grant} (hresult : ReturnSound s.invalidations ⟨r, result⟩) :
    Turn r s ({ s with cache := c, waiters := waiters }.finish r result) := by
  obtain ⟨-, hrequests, hown, -, -, -, -, -, -, -, -⟩ := @dropped s r c waiters hcache
  refine ⟨hcache, hrequests, hown, fun x hx => ?_, fun x hx => List.mem_cons_of_mem _ hx,
    rfl, rfl, rfl, rfl, rfl, rfl⟩
  rcases List.mem_cons.mp hx with rfl | hx
  · exact .inr hresult
  · exact .inl hx

/-- The request returns an error. -/
theorem fail {e : Error} :
    Turn r s ({ s with cache := c, waiters := waiters }.finish r (.error e)) :=
  finish hcache fun _ hg => nomatch hg

/-- The request returns an identity that stands. -/
theorem grant {identity : AuthenticatedDevice} (hepoch : s.cache.epoch = epochAt s.count)
    (hstands : Stands s.invalidations (some identity) origin s.count) :
    Turn r s ({ s with cache := c, waiters := waiters }.grant r req identity origin) := by
  refine finish hcache fun g hg => ?_
  obtain rfl := Except.ok.inj hg
  exact ⟨hstands, hcache.epoch.trans hepoch, le_rfl, le_rfl, fun _ => rfl⟩

end

/-- Nothing happens. -/
theorem same (hreq : s.requests.lookup r = some req)
    (hstage : StageSound s.cache s.invalidations r req) : Turn r s s := by
  refine ⟨.refl _ _ _, fun _ _ h _ => h, fun req' h => ?_, fun x hx => .inl hx, fun x hx => hx,
    rfl, rfl, rfl, rfl, rfl, rfl⟩
  rw [hreq] at h
  exact Option.some.inj h ▸ hstage

end Turn

namespace Authentication

variable {s : Authentication} {r : ℕ} {req : Request}

/-- A request that finds a cached result. -/
theorem hit_turn {entry : CacheEntry} (h : Fresh s) (hcache : CacheMove s.invalidations r s.cache c)
    (hentry : Stands s.invalidations entry.value.identity entry.origin s.count) :
    Turn r s ({ s with cache := c }.hit r req entry) := by
  fun_cases hit { s with cache := c } r req entry with
  | case1 _ auth hvalue =>
    rw [hvalue] at hentry
    exact .grant hcache h.epoch hentry
  | case2 _ found hvalue =>
    rw [hvalue] at hentry
    exact .setStage hcache ⟨hentry, hcache.epoch.trans h.epoch, le_rfl⟩
  | _ => exact .fail hcache

/-- A request that becomes the leader for its key. -/
theorem elect_turn (h : Fresh s) (hcache : CacheMove s.invalidations r s.cache c)
    (hnone : c.inflight.lookup req.key = none) : Turn r s ({ s with cache := c }.elect r req) := by
  refine .setStage (hcache.trans (.of_inflight fun key i hi _ => ?_)) ?_
  · -- nobody led for the key, so no other election is replaced
    rw [lookup_insert_eq, if_neg]
    · exact hi
    · rintro rfl
      rw [hnone] at hi
      exact absurd hi (by simp)
  · exact ⟨_, lookup_insert _, rfl, hcache.epoch.trans h.epoch, le_rfl⟩

theorem lookup_turn (h : Fresh s) (now later : ℕ) : Turn r s (s.lookup r req now later) := by
  let pruned := s.cache.pruneExpiredUpTo AuthCacheState.expiryPruneBudget now
  let c := pruned.expireTarget req.key later
  have htrims : Trims s.cache c :=
    (s.cache.pruneExpiredUpTo_trims _ now).trans (pruned.expireTarget_trims req.key later)
  have hcache : CacheMove s.invalidations r s.cache c :=
    .of_trims htrims fun ho => (ho.pruneExpiredUpTo _ now).expireTarget req.key later
  fun_cases lookup s r req now later with
  | case1 _ _ entry hentry =>
    exact hit_turn h hcache (h.entries _ entry (htrims.entries _ entry hentry))
  | case2 => exact .setStage hcache trivial
  | case3 _ _ _ hinflight => exact elect_turn h hcache hinflight

theorem acquire_turn : Turn r s (s.acquire r req) := by
  unfold acquire
  split
  · exact .fail (.refl _ _ _)
  · exact .setStage (.refl _ _ _) trivial

theorem wake_turn (timeout : Bool) : Turn r s (s.wake r req timeout) := by
  cases timeout with
  | true => exact .fail (.refl _ _ _)
  | false => exact .setStage (.refl _ _ _) trivial

theorem startCall_turn (hstage : StageSound s.cache s.invalidations r req)
    (helected : req.stage = .elected) : Turn r s (s.startCall r req) := by
  simp only [StageSound, helected] at hstage
  obtain ⟨i, hi, hleader, hepoch, helected⟩ := hstage
  unfold startCall
  rw [hi]
  exact .setStage (.refl _ _ _) ⟨i, hi, hleader, rfl, hepoch, helected, le_rfl⟩

/-- The answer of the provider does not change the election. -/
theorem respond_turn {id : UInt64} {started : ℕ} (hstage : StageSound s.cache s.invalidations r req)
    (hcalling : req.stage = .calling id epoch started)
    (result : Except Error (AuthenticatedDevice ⊕ DeviceVerifier)) :
    Turn r s (s.setStage r req (.returned id epoch started result)) := by
  simp only [StageSound, hcalling] at hstage
  exact .setStage (.refl _ _ _) hstage

/-- The leader records a result in the epoch of its election. -/
theorem conclude_turn (limits : Limits) (hcache : CacheMove s.invalidations r s.cache c)
    (hepoch : s.cache.epoch = epochAt s.count)
    (hstarted : Unwrapped origin.elected origin.recorded → origin.started = origin.recorded)
    (hrecorded : origin.recorded = s.count)
    (result : Except Error (AuthenticatedDevice ⊕ DeviceVerifier)) (now : ℕ) :
    Turn r s ({ s with cache := c }.conclude limits r req result now origin) := by
  have hinsert : ∀ value : CachedAuth, CacheMove s.invalidations r s.cache
      (c.insertCacheEntry limits req.key value (entryTtl limits value)
        (entryBytes req.key value) now origin) := fun value =>
    hcache.trans (.insert limits req.key value _ _ now (.fresh hstarted hrecorded))
  rcases result with e | auth | found
  · simp only [conclude]
    split
    · exact .fail (hinsert _)
    · exact .fail hcache
  · exact .grant (hinsert _) hepoch (.fresh hstarted hrecorded)
  · exact .setStage (hinsert (.verifier found)) ⟨.fresh hstarted hrecorded,
      (hinsert (.verifier found)).epoch.trans hepoch, le_rfl⟩

theorem record_turn (limits : Limits) (h : Fresh s)
    (hstage : StageSound s.cache s.invalidations r req) {id : UInt64} {started : ℕ}
    {result : Except Error (AuthenticatedDevice ⊕ DeviceVerifier)}
    (hreturned : req.stage = .returned id epoch started result) (now : ℕ) :
    Turn r s (s.record limits r req epoch started result now) := by
  simp only [StageSound, hreturned] at hstage
  obtain ⟨i, hi, hleader, -, rfl, hstarted, hcurrent⟩ := hstage
  have hcache : CacheMove s.invalidations r s.cache
      { s.cache with inflight := s.cache.inflight.erase req.key } := .erase hi hleader
  unfold record
  rw [hi]
  simp only
  split
  · exact .fail hcache
  · next hepoch =>
    refine conclude_turn limits hcache h.epoch (fun hfew => ?_) rfl result now
    -- the call started between the election and now, which are in the same epoch
    have hsame : epochAt i.elected = epochAt s.count := (not_not.mp hepoch).symm.trans h.epoch
    have hnone : i.elected = s.count := hfew.eq (hstarted.trans hcurrent) hsame
    exact le_antisymm hcurrent (hnone ▸ hstarted)

theorem check_turn (h : Fresh s) (hstage : StageSound s.cache s.invalidations r req)
    {found : DeviceVerifier} {taken : ℕ}
    (hverifying : req.stage = .verifying found epoch origin taken) (valid : Bool) :
    Turn r s (s.check r req found epoch origin taken valid) := by
  simp only [StageSound, hverifying] at hstage
  obtain ⟨hstands, htaken, hle⟩ := hstage
  fun_cases check s r req found epoch origin taken valid with
  | case3 _ hepoch =>
    have hsame : epochAt taken = epochAt s.count := by
      rw [← htaken, ← h.epoch, not_not.mp hepoch]
    refine .finish (.refl _ _ _) fun g hg => ?_
    obtain rfl := Except.ok.inj hg
    exact ⟨hstands, htaken, hle, le_rfl, fun hfew => hfew.eq hle hsame⟩
  | _ => exact .fail (.refl _ _ _)

theorem cancel_turn (hreq : s.requests.lookup r = some req)
    (hstage : StageSound s.cache s.invalidations r req) : Turn r s (s.cancel r req) := by
  fun_cases cancel s r req with
  | case1 | case2 => exact .dropped (.refl _ _ _)
  | case3 dropped id epoch started hcalling =>
    simp only [StageSound, hcalling] at hstage
    obtain ⟨i, hi, hleader, -, -, -, -⟩ := hstage
    simp only [dropLeader]
    split
    · exact .dropped (.erase hi hleader)
    · exact .dropped (.refl _ _ _)
  | case4 => exact .same hreq hstage

/-- Every step of a request is a turn. -/
theorem stepRequest_turn (limits : Limits) (h : Fresh s) (hreq : s.requests.lookup r = some req)
    (a : AuthAction) : Turn r s (s.stepRequest limits r req a) := by
  have hstage := h.requests r req hreq
  fun_cases stepRequest s limits r req a with
  | case1 _ now later => exact lookup_turn h now later
  | case3 => exact acquire_turn
  | case5 _ timeout => exact wake_turn timeout
  | case7 _ helected => exact startCall_turn hstage helected
  | case9 _ _ _ _ _ _ hcalling | case11 _ _ _ _ _ _ hcalling => exact respond_turn hstage hcalling _
  | case13 _ now id epoch started result hreturned =>
    exact record_turn limits h hstage hreturned now
  | case15 _ valid found epoch origin taken hverifying => exact check_turn h hstage hverifying valid
  | case17 => exact cancel_turn hreq hstage
  | _ => exact .same hreq hstage

end Authentication

namespace StageSound

variable {c c' : AuthCacheState} {log : List Invalidated} {r r' : ℕ} {req : Request}

/-- The step of another request leaves the election of a leader alone. -/
theorem move (h : StageSound c log r' req) (hcache : CacheMove log r c c') (hne : r' ≠ r) :
    StageSound c' log r' req := by
  have hkeep : ∀ i, c.inflight.lookup req.key = some i → i.leader = r' →
      c'.inflight.lookup req.key = some i := fun i hi hleader =>
    hcache.inflight _ i hi (by rw [hleader]; exact hne)
  unfold StageSound at h ⊢
  cases hstage : req.stage <;> simp only [hstage] at h ⊢
  case elected | calling | returned =>
    obtain ⟨i, hi, hleader, hrest⟩ := h
    exact ⟨i, hkeep i hi hleader, hleader, hrest⟩
  case verifying => exact h

/-- An invalidation leaves every election as it is. -/
theorem invalidate (h : StageSound c log r req) (invalidation : AuthInvalidation) :
    StageSound (c.invalidate invalidation) (⟨log.length + 1, invalidation⟩ :: log) r req := by
  obtain ⟨-, hinflight, -⟩ := c.invalidate_spec invalidation
  unfold StageSound at h ⊢
  rw [hinflight, List.length_cons]
  cases hstage : req.stage <;> simp only [hstage] at h ⊢
  case elected =>
    obtain ⟨i, hi, hleader, hepoch, helected⟩ := h
    exact ⟨i, hi, hleader, hepoch, Nat.le_succ_of_le helected⟩
  case calling | returned =>
    obtain ⟨i, hi, hleader, hid, hepoch, hstarted, hcurrent⟩ := h
    exact ⟨i, hi, hleader, hid, hepoch, hstarted, Nat.le_succ_of_le hcurrent⟩
  case verifying found epoch origin taken =>
    obtain ⟨hstands, hepoch, htaken⟩ := h
    exact ⟨hstands.logged (Nat.lt_succ_of_le htaken), hepoch, Nat.le_succ_of_le htaken⟩

end StageSound

namespace Fresh

variable {s s' : Authentication} {r : ℕ}

theorem new (limits : Limits) : Fresh (.new limits) where
  epoch := rfl
  entries _ _ h := nomatch h
  requests _ _ h := nomatch h
  returned _ h := nomatch h
  logged _ h := nomatch h
  ordered _ _ h := nomatch h

/-- A step of one request. -/
theorem turn (h : Fresh s) (hturn : Turn r s s') : Fresh s' where
  epoch := by
    rw [hturn.cache.epoch, Authentication.count, hturn.invalidations]
    exact h.epoch
  entries key entry hentry := by
    rw [Authentication.count, hturn.invalidations]
    rcases hturn.cache.entries key entry hentry with hold | hnew
    · exact h.entries key entry hold
    · exact hnew
  requests r' req hreq := by
    rw [hturn.invalidations]
    by_cases hr : r' = r
    · subst hr
      exact hturn.own req hreq
    · exact (h.requests r' req (hturn.requests r' req hreq hr)).move hturn.cache hr
  returned x hx := by
    rw [hturn.invalidations]
    rcases hturn.returned x hx with hold | hnew
    · exact h.returned x hold
    · exact hnew
  logged i hi := by
    rw [Authentication.count, hturn.invalidations] at *
    exact h.logged i hi
  ordered := hturn.cache.ordered h.ordered

/-- A new request has not done anything yet. -/
theorem enter (h : Fresh s) (key : Except Error AuthCacheKey) : Fresh (s.enter key) := by
  cases key with
  | error e =>
    refine ⟨h.epoch, h.entries, h.requests, fun x hx => ?_, h.logged, h.ordered⟩
    rcases List.mem_cons.mp hx with rfl | hx
    · exact fun _ hg => nomatch hg
    · exact h.returned x hx
  | ok key =>
    refine ⟨h.epoch, h.entries, fun r req hreq => ?_, h.returned, h.logged, h.ordered⟩
    simp only [Authentication.enter, lookup_insert_eq] at hreq
    split at hreq
    · obtain rfl := Option.some.inj hreq
      trivial
    · exact h.requests r req hreq

theorem invalidate (h : Fresh s) (invalidation : AuthInvalidation) :
    Fresh (s.invalidate invalidation) := by
  obtain ⟨hepoch, -, hentries⟩ := s.cache.invalidate_spec invalidation
  refine ⟨?_, fun key entry hentry => ?_, fun r req hreq =>
    (h.requests r req hreq).invalidate invalidation, fun x hx g hg => ?_, fun i hi => ?_,
    h.ordered.invalidate invalidation⟩
  · show (s.cache.invalidate invalidation).epoch = max (epochAt s.count + 1) 1
    rw [hepoch, h.epoch]
  · obtain ⟨hold, hclear⟩ := hentries key entry hentry
    exact (h.entries key entry hold).next h.logged hclear
  · obtain ⟨hstands, hgepoch, htaken, hserved, hsame⟩ := h.returned x hx g hg
    exact ⟨hstands.logged (Nat.lt_succ_of_le (htaken.trans hserved)), hgepoch, htaken,
      Nat.le_succ_of_le hserved, hsame⟩
  · rcases List.mem_cons.mp hi with rfl | hi
    · exact le_rfl
    · exact Nat.le_succ_of_le (h.logged i hi)

/-- The gate and the sessions do not matter. -/
theorem congr (h : Fresh s) (hcache : s'.cache = s.cache) (hrequests : s'.requests = s.requests)
    (hreturned : s'.returned = s.returned) (hlog : s'.invalidations = s.invalidations) :
    Fresh s' := by
  have hcount : s'.count = s.count := congrArg List.length hlog
  constructor
  · rw [hcache, hcount]
    exact h.epoch
  · rw [hcache, hlog, hcount]
    exact h.entries
  · rw [hrequests, hcache, hlog]
    exact h.requests
  · rw [hreturned, hlog]
    exact h.returned
  · rw [hlog, hcount]
    exact h.logged
  · rw [hcache]
    exact h.ordered

end Fresh

end Netbaiot.Auth
