import Netbaiot.Commands.Service

/-!
# Receipts are kept for their retention

The queue of expirations has one element for each receipt in the table, so pruning removes
exactly the receipts whose element it takes.  A key in flight belongs to the one send that
has reserved it; a recorded dispatch keeps its receipt in the table until its retention ends.
`Sound` is kept by every step, and `one_dispatch_per_retention` reads off the contract.
-/

namespace Netbaiot.Commands

open Lib AList

variable {Payload ι : Type}

variable {key : Key} {d : CommandDedup ι} {point : Point ι} {call other : Call Payload ι}
  {instant : ℕ}

/-! ## The table and its queue -/

namespace CommandDedup

/-- The queue holds one element for each receipt, with the end of its retention. -/
structure Matched (d : CommandDedup ι) : Prop where
  queued : ∀ t key, (t, key) ∈ d.expirations ↔
    ∃ accepted, d.entries.lookup key = some (.accepted accepted) ∧ accepted.retainedUntil = t
  nodup : (d.expirations.map Prod.snd).Nodup

/-- What pruning leaves: it removes only receipts whose retention is over. -/
structure Pruned (now : ℕ) (d d' : CommandDedup ι) : Prop where
  matched : d'.Matched
  kept : ∀ key, d'.entries.lookup key = d.entries.lookup key ∨
    d'.entries.lookup key = none ∧ ∃ accepted,
      d.entries.lookup key = some (.accepted accepted) ∧ accepted.retainedUntil ≤ now
  suffix : d'.expirations <:+ d.expirations
  size : d'.entries.size ≤ d.entries.size

theorem Matched.empty : Matched (⟨∅, []⟩ : CommandDedup ι) :=
  ⟨fun t key => by simp, List.nodup_nil⟩

/-- The element at the front of the queue stands for a receipt of that time. -/
theorem Matched.dropExpired_eq {entries : Table Key (CommandEntry ι)} {t : ℕ}
    {rest : List (ℕ × Key)} (h : Matched ⟨entries, (t, key) :: rest⟩) :
    dropExpired entries t key = entries.erase key := by
  obtain ⟨accepted, hlookup, htime⟩ := (h.queued t key).mp (List.mem_cons_self ..)
  simp only [dropExpired, hlookup, htime, if_true]

/-- Taking the front element together with its receipt keeps queue and table matched. -/
theorem Matched.erase {entries : Table Key (CommandEntry ι)} {t : ℕ} {rest : List (ℕ × Key)}
    (h : Matched ⟨entries, (t, key) :: rest⟩) : Matched ⟨entries.erase key, rest⟩ := by
  have hnodup := h.nodup
  simp only [List.map_cons, List.nodup_cons] at hnodup
  refine ⟨fun t' key' => ?_, hnodup.2⟩
  rw [lookup_erase_eq]
  split
  · next hkey =>
    subst hkey
    simp only [reduceCtorEq, false_and, exists_false, iff_false]
    exact fun hmem => hnodup.1 (List.mem_map.mpr ⟨(t', key'), hmem, rfl⟩)
  · next hkey =>
    rw [← h.queued t' key']
    simp [hkey]

/-- Pruning takes due elements with their receipts. -/
theorem pruned_pruneExpired (now : ℕ) (expirations : List (ℕ × Key))
    (entries : Table Key (CommandEntry ι)) (h : Matched ⟨entries, expirations⟩) :
    Pruned now ⟨entries, expirations⟩ (pruneExpired now entries expirations) := by
  induction expirations generalizing entries with
  | nil => exact ⟨h, fun _ => .inl rfl, List.suffix_refl _, le_rfl⟩
  | cons front rest ih =>
    obtain ⟨t, key⟩ := front
    obtain ⟨accepted, hlookup, htime⟩ := (h.queued t key).mp (List.mem_cons_self ..)
    rw [pruneExpired]
    split
    · next hdue =>
      rw [h.dropExpired_eq]
      have hrest := ih (entries.erase key) h.erase
      refine ⟨hrest.matched, fun key' => ?_, hrest.suffix.trans (List.suffix_cons _ _), ?_⟩
      · have hkept := hrest.kept key'
        rw [lookup_erase_eq] at hkept
        by_cases hkey : key' = key
        · subst hkey
          refine .inr ⟨?_, accepted, hlookup, htime.trans_le hdue⟩
          simpa using hkept
        · simpa [hkey] using hkept
      · have hsize : (entries.erase key).size + 1 = entries.size := size_erase hlookup
        have hle : (entries.erase key).size ≤ entries.size := by omega
        exact hrest.size.trans hle
    · exact ⟨h, fun _ => .inl rfl, List.suffix_refl _, le_rfl⟩

/-- Pruning the table removes receipts whose retention is over and nothing else. -/
theorem Matched.prune (h : d.Matched) (now : ℕ) : Pruned now d (d.prune now) :=
  pruned_pruneExpired now d.expirations d.entries h

/-- A key that has no receipt may be reserved or given up. -/
theorem Matched.put (h : d.Matched)
    (hold : ∀ accepted, d.entries.lookup key ≠ some (.accepted accepted))
    (entry : Option (CommandEntry ι)) (hnew : ∀ accepted, entry ≠ some (.accepted accepted)) :
    Matched { d with entries := d.entries.put key entry } := by
  refine ⟨fun t key' => ?_, h.nodup⟩
  rw [h.queued t key', lookup_put]
  split
  · next hkey =>
    subst hkey
    simp [hold, hnew]
  · rfl

/-- A key that has no receipt may get one, with an element at the end of the queue. -/
theorem Matched.accept (h : d.Matched)
    (hold : ∀ accepted, d.entries.lookup key ≠ some (.accepted accepted))
    (accepted : AcceptedCommand) :
    Matched ⟨d.entries.insert key (.accepted accepted),
      d.expirations ++ [(accepted.retainedUntil, key)]⟩ := by
  have habsent : ∀ t, (t, key) ∉ d.expirations := fun t hmem => by
    obtain ⟨old, hlookup, -⟩ := (h.queued t key).mp hmem
    exact hold old hlookup
  refine ⟨fun t key' => ?_, ?_⟩
  · rw [List.mem_append, lookup_insert_eq]
    split
    · next hkey =>
      subst hkey
      simp [habsent, eq_comm]
    · next hkey =>
      rw [h.queued t key']
      simp [hkey]
  · rw [List.map_append, List.nodup_append]
    refine ⟨h.nodup, List.nodup_singleton _, fun key' hmem last hlast => ?_⟩
    obtain ⟨⟨t, key'⟩, hqueued, rfl⟩ := List.mem_map.mp hmem
    rw [List.map_singleton, List.mem_singleton] at hlast
    rintro rfl
    cases hlast
    exact habsent t hqueued

end CommandDedup

/-! ## Sends and the keys they own -/

/-- The send has reserved its key and its answer is not yet recorded. -/
def Point.owns : Point ι → Bool
  | .reserved _ | .dispatched _ _ => true
  | _ => false

/-- When the command of a send was handed to a session. -/
def Point.dispatchedAt : Point ι → Option ℕ
  | .dispatched instant (.ok _) => some instant
  | .recorded instant _ _ => some instant
  | _ => none

/-- The retention of the send's receipt is over at an instant. -/
def Point.expiredBy (instant : ℕ) : Point ι → Bool
  | .recorded _ retainedUntil _ => retainedUntil ≤ instant
  | _ => false

/-- Points of a send that owns no key and has dispatched nothing. -/
def Point.passive : Point ι → Bool
  | .ready | .waiting _ | .abandoned | .returned _ => true
  | _ => false

theorem Point.owns_of_passive (h : point.passive = true) : point.owns = false := by
  cases point <;> first | rfl | cases h

theorem Point.dispatchedAt_of_passive (h : point.passive = true) : point.dispatchedAt = none := by
  cases point <;> first | rfl | cases h

/-- Of two dispatches of one key, one came after the retention of the other. -/
def Call.Apart (call other : Call Payload ι) : Prop :=
  call.key = other.key → ∀ instant instant', call.point.dispatchedAt = some instant →
    other.point.dispatchedAt = some instant' →
      call.point.expiredBy instant' = true ∨ other.point.expiredBy instant = true

theorem Call.Apart.symm (h : call.Apart other) : other.Apart call :=
  fun hkey instant instant' hother hcall => (h hkey.symm instant' instant hcall hother).symm

theorem Call.apart_of_passive (h : call.point.passive = true) :
    call.Apart other := fun _ instant _ hcall _ => by
  rw [Point.dispatchedAt_of_passive h] at hcall
  cases hcall

/-- What holds between the table, the clock and the sends. -/
structure Service.Sound (settings : Settings Payload) (s : Service Payload ι) : Prop where
  matched : s.dedup.Matched
  size : s.dedup.entries.size ≤ settings.limits.commandDedupMaxEntries
  owned : ∀ key fingerprint i, s.dedup.entries.lookup key = some (.inFlight fingerprint i) →
    ∃ call, s.calls i = some call ∧ call.key = key ∧ call.point.owns = true
  owns : ∀ i call, s.calls i = some call → call.point.owns = true →
    s.dedup.entries.lookup call.key = some (.inFlight call.fingerprint i)
  retained : ∀ i call instant retainedUntil dispatch, s.calls i = some call →
    call.point = .recorded instant retainedUntil dispatch → retainedUntil ≤ s.now ∨
      s.dedup.entries.lookup call.key =
        some (.accepted ⟨call.fingerprint, dispatch, retainedUntil⟩)
  apart : ∀ i j call other, i ≠ j → s.calls i = some call → s.calls j = some other →
    call.Apart other
  due : ∀ e ∈ s.dedup.expirations, e.1 ≤ s.now + settings.retention
  fallback : ∀ i call, s.calls i = some call →
    call.fallbackDeadline ≤ s.now + settings.retention
  ordered : s.now + settings.retention ≤ settings.latest →
    (s.dedup.expirations.map Prod.fst).Pairwise (· ≤ ·)

namespace Service.Sound

variable {settings : Settings Payload} {s : Service Payload ι}

theorem new : Sound settings (.new : Service Payload ι) := by
  constructor
  case matched => exact .empty
  case size => exact Nat.zero_le _
  all_goals simp [Service.new]

/-- Time passes. -/
theorem tick (h : Sound settings s) (elapsed : ℕ) :
    Sound settings { s with now := s.now + elapsed } where
  matched := h.matched
  size := h.size
  owned := h.owned
  owns := h.owns
  retained i call instant retainedUntil dispatch hcall hpoint := by
    refine (h.retained i call instant retainedUntil dispatch hcall hpoint).imp_left fun hle => ?_
    exact hle.trans (Nat.le_add_right _ _)
  apart := h.apart
  due e he := (h.due e he).trans (by dsimp only; omega)
  fallback i call hcall := (h.fallback i call hcall).trans (by dsimp only; omega)
  ordered hlatest := h.ordered (le_trans (by dsimp only; omega) hlatest)

/-- Receipts whose retention is over are removed. -/
theorem prune (h : Sound settings s) : Sound settings { s with dedup := s.dedup.prune s.now } := by
  have hpruned := h.matched.prune s.now
  constructor
  case matched => exact hpruned.matched
  case size => exact hpruned.size.trans h.size
  case owned =>
    intro key fingerprint i hlookup
    rcases hpruned.kept key with hkept | ⟨hnone, -⟩
    · exact h.owned key fingerprint i (hkept.symm.trans hlookup)
    · exact absurd (hnone.symm.trans hlookup) (by simp)
  case owns =>
    intro i call hcall howns
    have hlookup := h.owns i call hcall howns
    rcases hpruned.kept call.key with hkept | ⟨-, accepted, haccepted, -⟩
    · exact hkept.trans hlookup
    · exact absurd (haccepted.symm.trans hlookup) (by simp)
  case retained =>
    intro i call instant retainedUntil dispatch hcall hpoint
    rcases h.retained i call instant retainedUntil dispatch hcall hpoint with hle | hlookup
    · exact .inl hle
    rcases hpruned.kept call.key with hkept | ⟨-, accepted, haccepted, hle⟩
    · exact .inr (hkept.trans hlookup)
    · cases haccepted.symm.trans hlookup
      exact .inl hle
  case apart => exact h.apart
  case due => exact fun e he => h.due e (hpruned.suffix.subset he)
  case fallback => exact h.fallback
  case ordered =>
    intro hlatest
    exact (h.ordered hlatest).sublist (hpruned.suffix.sublist.map Prod.fst)

variable {i : ι} {call : Call Payload ι}

/-- While a send owns its key, every other dispatch of the key is past its retention. -/
theorem expired_of_owns (h : Sound settings s) (hcall : s.calls i = some call)
    (howns : call.point.owns = true) {j : ι} (hne : j ≠ i) (hother : s.calls j = some other)
    (hkey : call.key = other.key) (hinstant : other.point.dispatchedAt = some instant) :
    other.point.expiredBy s.now = true := by
  have hlookup := h.owns i call hcall howns
  rw [hkey] at hlookup
  cases hpoint : other.point with
  | dispatched t result =>
    -- two sends cannot own one key
    have hlookup' := h.owns j other hother (by rw [hpoint]; rfl)
    have heq := hlookup.symm.trans hlookup'
    simp only [Option.some.injEq, CommandEntry.inFlight.injEq] at heq
    exact absurd heq.2.symm hne
  | recorded t retainedUntil dispatch =>
    rcases h.retained j other t retainedUntil dispatch hother hpoint with hle | hlookup'
    · exact decide_eq_true hle
    · cases hlookup.symm.trans hlookup'
  | _ =>
    rw [hpoint] at hinstant
    cases hinstant

/-- What is written for a key goes with the point of the send that writes it. -/
structure Fits (i : ι) (call : Call Payload ι) (entry : Option (CommandEntry ι))
    (point : Point ι) : Prop where
  owns : point.owns = true → entry = some (.inFlight call.fingerprint i)
  owned : ∀ fingerprint j, entry = some (.inFlight fingerprint j) → j = i ∧ point.owns = true
  recorded : ∀ instant retainedUntil dispatch, point = .recorded instant retainedUntil dispatch →
    entry = some (.accepted ⟨call.fingerprint, dispatch, retainedUntil⟩)

theorem fits_inFlight (h : point.owns = true) :
    Fits i call (some (.inFlight call.fingerprint i)) point where
  owns _ := rfl
  owned fingerprint j hentry := by
    cases hentry
    exact ⟨rfl, h⟩
  recorded instant retainedUntil dispatch hpoint := by
    rw [hpoint] at h
    cases h

theorem fits_returned (e : Error) : Fits i call none (.returned (.error e)) := by
  constructor <;> simp [Point.owns]

theorem fits_recorded (instant retainedUntil : ℕ) (dispatch : CommandDispatch) :
    Fits i call (some (.accepted ⟨call.fingerprint, dispatch, retainedUntil⟩))
      (.recorded instant retainedUntil dispatch) := by
  constructor <;> simp [Point.owns]

/-- A look at the table reserves a free key or leaves the table alone. -/
theorem lookUp_cases (settings : Settings Payload) (i : ι) (key : Key) (fingerprint : Fingerprint)
    (expiresAt : Option Int64) (nowMs : Int64) (progress : DeliveryState)
    (entries : Table Key (CommandEntry ι)) :
    (∃ point : Point ι, point.passive = true ∧
      Commands.lookUp settings i key fingerprint expiresAt nowMs progress entries =
        (point, entries)) ∨
    entries.lookup key = none ∧ entries.size < settings.limits.commandDedupMaxEntries ∧
      ∃ expiresAt', Commands.lookUp settings i key fingerprint expiresAt nowMs progress entries =
        (.reserved expiresAt', entries.insert key (.inFlight fingerprint i)) := by
  fun_cases Commands.lookUp settings i key fingerprint expiresAt nowMs progress entries with
  | case7 hlookup hroom => exact .inr ⟨hlookup, not_le.mp hroom, _, rfl⟩
  | _ => exact .inl ⟨_, rfl, rfl⟩

variable [DecidableEq ι]

/-- A call found after one entry of the map of calls was written. -/
theorem calls_update {calls : ι → Option (Call Payload ι)} {new found : Call Payload ι} {j : ι}
    (h : Function.update calls i (some new) j = some found) :
    j = i ∧ found = new ∨ j ≠ i ∧ calls j = some found := by
  rw [Function.update_apply] at h
  split at h
  · next hj =>
    cases h
    exact .inl ⟨hj, rfl⟩
  · next hj => exact .inr ⟨hj, h⟩

section

variable (h : Sound settings s)

include h

/-- Two calls found after one entry of the map of calls was written are apart if the new one is
apart from all others. -/
theorem apart_update {new : Call Payload ι}
    (hnew : ∀ j other, j ≠ i → s.calls j = some other → new.Apart other) :
    ∀ j k call other, j ≠ k → Function.update s.calls i (some new) j = some call →
      Function.update s.calls i (some new) k = some other → call.Apart other := by
  intro j k call other hjk hcall hother
  rcases calls_update hcall with ⟨hj, rfl⟩ | ⟨hj, hcall'⟩ <;>
    rcases calls_update hother with ⟨hk, rfl⟩ | ⟨hk, hother'⟩
  · exact absurd (hj.trans hk.symm) hjk
  · exact hnew k other hk hother'
  · exact (hnew j call hj hcall').symm
  · exact h.apart j k call other hjk hcall' hother'

/-- A send that owns nothing goes on without touching the table. -/
theorem turn (hold : ∀ call, s.calls i = some call → call.point.passive = true)
    (hpassive : call.point.passive = true)
    (hfallback : call.fallbackDeadline ≤ s.now + settings.retention) :
    Sound settings { s with calls := Function.update s.calls i (some call) } := by
  constructor
  case matched => exact h.matched
  case size => exact h.size
  case owned =>
    intro key fingerprint j hlookup
    obtain ⟨other, hother, hkey, howns⟩ := h.owned key fingerprint j hlookup
    refine ⟨other, ?_, hkey, howns⟩
    have hne : j ≠ i := by
      rintro rfl
      rw [Point.owns_of_passive (hold other hother)] at howns
      cases howns
    exact (Function.update_of_ne hne _ _).trans hother
  case owns =>
    intro j other hother howns
    rcases calls_update hother with ⟨-, rfl⟩ | ⟨-, hother⟩
    · rw [Point.owns_of_passive hpassive] at howns
      cases howns
    · exact h.owns j other hother howns
  case retained =>
    intro j other instant retainedUntil dispatch hother hpoint
    rcases calls_update hother with ⟨-, rfl⟩ | ⟨-, hother⟩
    · rw [hpoint] at hpassive
      cases hpassive
    · exact h.retained j other instant retainedUntil dispatch hother hpoint
  case apart => exact h.apart_update fun _ _ _ _ => Call.apart_of_passive hpassive
  case due => exact h.due
  case fallback =>
    intro j other hother
    rcases calls_update hother with ⟨-, rfl⟩ | ⟨-, hother⟩
    · exact hfallback
    · exact h.fallback j other hother
  case ordered => exact h.ordered

section

variable (hcall : s.calls i = some call)

include hcall

/-- A send writes the entry of its key, which has no receipt and no other owner. -/
theorem write (hfree : ∀ accepted, s.dedup.entries.lookup call.key ≠ some (.accepted accepted))
    (halone : ∀ fingerprint j, s.dedup.entries.lookup call.key = some (.inFlight fingerprint j) →
      j = i)
    {entry : Option (CommandEntry ι)}
    (hlookup : ∀ key, d.entries.lookup key =
      if key = call.key then entry else s.dedup.entries.lookup key)
    (hfits : Fits i call entry point) (hmatched : d.Matched)
    (hsize : d.entries.size ≤ settings.limits.commandDedupMaxEntries)
    (hdue : ∀ e ∈ d.expirations, e.1 ≤ s.now + settings.retention)
    (hordered : s.now + settings.retention ≤ settings.latest →
      (d.expirations.map Prod.fst).Pairwise (· ≤ ·))
    (hapart : ∀ j other, j ≠ i → s.calls j = some other →
      Call.Apart { call with point := point } other) :
    Sound settings ({ s with dedup := d }.move i call point) := by
  constructor
  case matched => exact hmatched
  case size => exact hsize
  case owned =>
    intro key fingerprint j hj
    rw [show (Service.move _ i call point).dedup = d from rfl, hlookup] at hj
    split at hj
    · next hkey =>
      obtain ⟨rfl, howns⟩ := hfits.owned fingerprint j hj
      exact ⟨_, Function.update_self .., hkey.symm, howns⟩
    · next hkey =>
      -- the owner of another key is another send
      obtain ⟨other, hother, hotherKey, howns⟩ := h.owned key fingerprint j hj
      have hne : j ≠ i := by
        rintro rfl
        cases hcall.symm.trans hother
        exact hkey hotherKey.symm
      exact ⟨other, (Function.update_of_ne hne _ _).trans hother, hotherKey, howns⟩
  case owns =>
    intro j other hother howns
    show d.entries.lookup other.key = _
    rw [hlookup]
    rcases calls_update hother with ⟨rfl, rfl⟩ | ⟨hj, hother⟩
    · exact (if_pos rfl).trans (hfits.owns howns)
    · have hother' := h.owns j other hother howns
      rw [if_neg, hother']
      intro hkey
      exact hj (halone other.fingerprint j (hkey ▸ hother'))
  case retained =>
    intro j other instant retainedUntil dispatch hother hpoint
    show _ ∨ d.entries.lookup other.key = _
    rw [hlookup]
    rcases calls_update hother with ⟨rfl, rfl⟩ | ⟨hj, hother⟩
    · exact .inr ((if_pos rfl).trans (hfits.recorded instant retainedUntil dispatch hpoint))
    · refine (h.retained j other instant retainedUntil dispatch hother hpoint).imp_right
        fun hother' => ?_
      rw [if_neg, hother']
      intro hkey
      exact hfree _ (hkey ▸ hother')
  case apart => exact h.apart_update hapart
  case due => exact hdue
  case fallback =>
    intro j other hother
    rcases calls_update hother with ⟨-, rfl⟩ | ⟨-, hother⟩
    · exact h.fallback i call hcall
    · exact h.fallback j other hother
  case ordered => exact hordered

/-- A send reserves a free key. -/
theorem reserve (hlookup : s.dedup.entries.lookup call.key = none)
    (hroom : s.dedup.entries.size < settings.limits.commandDedupMaxEntries) (expiresAt : Int64) :
    Sound settings ({ s with dedup := { s.dedup with
      entries := s.dedup.entries.insert call.key (.inFlight call.fingerprint i) } }.move i call
        (.reserved expiresAt)) := by
  refine h.write hcall (by simp [hlookup]) (by simp [hlookup])
    (fun key => lookup_insert_eq call.key key _ _) (fits_inFlight rfl)
    (h.matched.put (by simp [hlookup]) (some (.inFlight call.fingerprint i)) (by simp))
    ?_ h.due h.ordered fun _ _ _ _ => ?_
  · have hsize : (s.dedup.entries.insert call.key (.inFlight call.fingerprint i)).size =
        s.dedup.entries.size + 1 := by
      rw [size_insert, erase_of_lookup_none hlookup]
    exact hsize.trans_le hroom
  · intro _ instant _ hinstant _
    cases hinstant

/-- The router answers a send that has reserved its key. -/
theorem dispatch {expiresAt : Int64}
    (hpoint : call.point = .reserved expiresAt) (result : Except Error CommandDispatch) :
    Sound settings (s.move i call (.dispatched s.now result)) := by
  have howns : call.point.owns = true := by
    rw [hpoint]
    rfl
  have hlookup := h.owns i call hcall howns
  refine h.write hcall (by simp [hlookup]) ?_ (fun key => ?_) (fits_inFlight rfl) h.matched
    h.size h.due h.ordered fun j other hj hother hkey instant instant' hinstant hinstant' => ?_
  · intro fingerprint j hj
    cases hlookup.symm.trans hj
    rfl
  · split
    · next hkey => rw [hkey, hlookup]
    · rfl
  · cases result with
    | error e => cases hinstant
    | ok dispatch =>
      cases hinstant
      exact .inr (h.expired_of_owns hcall howns hj hother hkey hinstant')

/-- The answer of the router is recorded: a receipt, or the key is free again. -/
theorem record
    {result : Except Error CommandDispatch} (hpoint : call.point = .dispatched instant result) :
    Sound settings (s.record settings i call instant result) := by
  have howns : call.point.owns = true := by
    rw [hpoint]
    rfl
  have hlookup := h.owns i call hcall howns
  have halone : ∀ fingerprint j,
      s.dedup.entries.lookup call.key = some (.inFlight fingerprint j) → j = i := by
    intro fingerprint j hj
    cases hlookup.symm.trans hj
    rfl
  have hfree : ∀ accepted, s.dedup.entries.lookup call.key ≠ some (.accepted accepted) := by
    simp [hlookup]
  have hsize := size_erase hlookup
  cases result with
  | error e =>
    refine h.write hcall hfree halone (fun key => lookup_erase_eq call.key key _)
      (fits_returned e) (h.matched.put hfree none (by simp)) ?_ h.due h.ordered
      fun _ _ _ _ => Call.apart_of_passive rfl
    have hle := h.size
    show (s.dedup.entries.erase call.key).size ≤ _
    omega
  | ok dispatch =>
    have hdeadline : (settings.deadline s.now).getD call.fallbackDeadline ≤
        s.now + settings.retention := by
      unfold Settings.deadline
      split
      · rw [Option.getD_some]
      · rw [Option.getD_none]
        exact h.fallback i call hcall
    refine h.write hcall hfree halone (fun key => lookup_insert_eq call.key key _ _)
      (fits_recorded _ _ dispatch) (h.matched.accept hfree _) ?_ ?_ ?_ ?_
    · have hle := h.size
      rw [size_insert]
      omega
    · intro e he
      rcases List.mem_append.mp he with he | he
      · exact h.due e he
      · cases List.mem_singleton.mp he
        exact hdeadline
    · -- the new element is the latest one as long as its deadline can be represented
      intro hlatest
      rw [List.map_append, List.pairwise_append]
      refine ⟨h.ordered hlatest, List.pairwise_singleton _ _, fun t ht last hlast => ?_⟩
      obtain ⟨e, he, rfl⟩ := List.mem_map.mp ht
      rw [List.map_singleton, List.mem_singleton, Settings.deadline, if_pos hlatest,
        Option.getD_some] at hlast
      rw [hlast]
      exact h.due e he
    · intro j other hj hother hkey instant₁ instant₂ hinstant₁ hinstant₂
      have hapart := h.apart i j call other hj.symm hcall hother hkey instant instant₂
        (by rw [hpoint]; rfl) hinstant₂
      cases hinstant₁
      rw [hpoint] at hapart
      exact .inr (hapart.resolve_left (by simp [Point.expiredBy]))

/-- A send looks its key up. -/
theorem lookUp (hpoint : call.point = .ready) (nowMs : Int64) (progress : DeliveryState) :
    Sound settings (s.lookUp settings i call nowMs progress) := by
  have hpruned := h.prune
  unfold Service.lookUp
  rcases lookUp_cases settings i call.key call.fingerprint call.command.expiresAt nowMs progress
    (s.dedup.prune s.now).entries with ⟨point, hpassive, heq⟩ | ⟨hlookup, hroom, expiresAt, heq⟩
  · simp only [heq]
    refine hpruned.turn (fun other hother => ?_) hpassive (h.fallback i call hcall)
    cases hcall.symm.trans hother
    rw [hpoint]
    rfl
  · simp only [heq]
    exact hpruned.reserve hcall hlookup hroom expiresAt

end

end

/-- The deadline a send starts with. -/
theorem fallback_of_begin {admitted : Bool} {now : ℕ} {command : DeviceCommand Payload}
    {fingerprint : Fingerprint} {fallbackDeadline : ℕ}
    (h : begin settings admitted now command = .ok (fingerprint, fallbackDeadline)) :
    fallbackDeadline ≤ now + settings.retention := by
  simp only [begin, check_bind_eq_ok] at h
  obtain ⟨-, -, -, h⟩ := h
  cases hdeadline : settings.deadline now with
  | none => simp [hdeadline] at h
  | some deadline =>
    rw [hdeadline] at h
    obtain rfl : deadline = fallbackDeadline := (Prod.mk.inj (Except.ok.inj h)).2
    unfold Settings.deadline at hdeadline
    exact (Option.some.inj (Option.ite_none_right_eq_some.mp hdeadline).2).ge

/-- Every step keeps the service consistent. -/
theorem perform (h : Sound settings s) {action : Action Payload ι} {s' : Service Payload ι}
    (hstep : s.perform settings action = some s') : Sound settings s' := by
  -- a send at a passive point may go on to another one
  have hturn : ∀ i call point, s.calls i = some call → call.point.passive = true →
      Point.passive point = true → Sound settings (s.move i call point) := by
    intro i call point hcall hold hnew
    refine h.turn (fun other hother => ?_) hnew (h.fallback i call hcall)
    cases hcall.symm.trans hother
    exact hold
  revert hstep
  fun_cases Service.perform settings s action with
  | case1 elapsed =>
    rintro ⟨⟩
    exact h.tick elapsed
  | case3 i command admitted fingerprint fallbackDeadline hbegin hnone =>
    rintro ⟨⟩
    refine h.turn (fun call hcall => ?_) rfl (fallback_of_begin hbegin)
    cases hnone.symm.trans hcall
  | case4 =>
    rintro ⟨⟩
    exact h
  | case6 i nowMs progress call hcall hpoint =>
    rintro ⟨⟩
    exact h.lookUp hcall hpoint nowMs progress
  | case9 i call hcall owner hpoint =>
    rintro ⟨⟩
    exact hturn i call .ready hcall (by rw [hpoint]; rfl) rfl
  | case13 i call hcall owner hpoint =>
    rintro ⟨⟩
    exact hturn i call .abandoned hcall (by rw [hpoint]; rfl) rfl
  | case16 i around call hcall expiresAt hpoint =>
    rintro ⟨⟩
    exact h.dispatch hcall hpoint _
  | case19 i call hcall instant result hpoint =>
    rintro ⟨⟩
    exact h.record hcall hpoint
  | _ => rintro ⟨⟩

end Service.Sound

/-- Every reachable service is consistent. -/
theorem sound_of_reachable [DecidableEq ι] {settings : Settings Payload} {s : Service Payload ι}
    (h : (system settings ι).Reachable s) : s.Sound settings :=
  h.invariant (fun _ hstart => hstart ▸ Service.Sound.new) fun _ _ _ hsound hstep =>
    hsound.perform hstep

/-! ## The contract -/

variable [DecidableEq ι] {settings : Settings Payload} {s : Service Payload ι}

/-- Where a send stands. -/
def Service.pointOf (s : Service Payload ι) (i : ι) : Option (Point ι) :=
  (s.calls i).map Call.point

/-- The outcome of a look at a table. -/
def LooksUp (settings : Settings Payload) (s : Service Payload ι) (i : ι) (nowMs : Int64)
    (progress : DeliveryState) (point : Point ι) : Prop :=
  ∃ s', s.perform settings (.lookUp i nowMs progress) = some s' ∧ s'.pointOf i = some point

/-- A send that is ready goes on to what the pruned table says. -/
theorem looksUp_ready (settings : Settings Payload) {i : ι} (hcall : s.calls i = some call)
    (hpoint : call.point = .ready) (nowMs : Int64) (progress : DeliveryState) :
    LooksUp settings s i nowMs progress
      (Commands.lookUp settings i call.key call.fingerprint call.command.expiresAt nowMs progress
        (s.dedup.prune s.now).entries).1 := by
  refine ⟨s.lookUp settings i call nowMs progress, ?_, ?_⟩
  · simp only [Service.perform, hcall, hpoint]
  · simp [Service.pointOf, Service.lookUp, Service.move]

namespace Service.Sound

variable {i j : ι} {call other : Call Payload ι}

/-- A send that meets a key in flight waits for its owner, or is refused if it is for something
else. -/
theorem looksUp_owned (h : Sound settings s) (hcall : s.calls i = some call)
    (howns : call.point.owns = true) (hother : s.calls j = some other)
    (hpoint : other.point = .ready) (hkey : other.key = call.key) (nowMs : Int64)
    (progress : DeliveryState) :
    LooksUp settings s j nowMs progress
      (if call.fingerprint = other.fingerprint then .waiting i
        else .returned (.error .conflict)) := by
  have hlookup := h.prune.owns i call hcall howns
  have hlooks := looksUp_ready settings hother hpoint nowMs progress
  rw [Commands.lookUp, hkey] at hlooks
  simp only [hlookup] at hlooks
  by_cases hfingerprint : call.fingerprint = other.fingerprint
  · simpa [hfingerprint] using hlooks
  · simpa [hfingerprint] using hlooks

/-- Within its retention a receipt answers every send for its key. -/
theorem looksUp_retained (h : Sound settings s) (hcall : s.calls i = some call) {retainedUntil : ℕ}
    {dispatch : CommandDispatch} (hrecorded : call.point = .recorded instant retainedUntil dispatch)
    (hretained : s.now < retainedUntil) (hother : s.calls j = some other)
    (hpoint : other.point = .ready) (hkey : other.key = call.key) (nowMs : Int64)
    (progress : DeliveryState) :
    LooksUp settings s j nowMs progress
      (if call.fingerprint = other.fingerprint then
        .returned (.ok { dispatch with state := progress })
        else .returned (.error .conflict)) := by
  have hlookup := (h.prune.retained i call instant retainedUntil dispatch hcall
    hrecorded).resolve_left (not_le.mpr hretained)
  have hlooks := looksUp_ready settings hother hpoint nowMs progress
  rw [Commands.lookUp, hkey] at hlooks
  simp only [hlookup] at hlooks
  by_cases hfingerprint : call.fingerprint = other.fingerprint
  · simpa [hfingerprint] using hlooks
  · simpa [hfingerprint] using hlooks

/-- A send that waits looks again once the owner of the key has its receipt. -/
theorem wakes_recorded (hcall : s.calls i = some call) {retainedUntil : ℕ}
    {dispatch : CommandDispatch} (hrecorded : call.point = .recorded instant retainedUntil dispatch)
    (hother : s.calls j = some other) (hpoint : other.point = .waiting i) :
    ∃ s', s.perform settings (.wake j) = some s' ∧ s'.pointOf j = some .ready := by
  refine ⟨s.move j other .ready, ?_, by simp [Service.pointOf, Service.move]⟩
  simp [Service.perform, hother, hpoint, hcall, hrecorded, Point.finished]

/-- A failed dispatch frees its key, with room for another reservation. -/
theorem record_error (h : Sound settings s) (hcall : s.calls i = some call) {e : Error}
    (hpoint : call.point = .dispatched instant (.error e)) {s' : Service Payload ι}
    (hstep : s.perform settings (.record i) = some s') :
    s'.dedup.entries.lookup call.key = none ∧
      s'.dedup.entries.size < settings.limits.commandDedupMaxEntries := by
  have hlookup := h.owns i call hcall (by rw [hpoint]; rfl)
  have hsize := size_erase hlookup
  have hle := h.size
  simp only [Service.perform, hcall, hpoint] at hstep
  cases hstep
  refine ⟨?_, ?_⟩
  · show (s.dedup.entries.erase call.key).lookup call.key = none
    simp
  · show (s.dedup.entries.erase call.key).size < _
    omega

/-- A free key in a table with room is reserved by the next send that may still run. -/
theorem looksUp_free (h : Sound settings s) (hother : s.calls j = some other)
    (hpoint : other.point = .ready) (hfree : s.dedup.entries.lookup other.key = none)
    (hroom : s.dedup.entries.size < settings.limits.commandDedupMaxEntries) {nowMs : Int64}
    {expiresAt : Int64}
    (hexpiry : expiry settings.limits nowMs other.command.expiresAt = .ok expiresAt)
    (progress : DeliveryState) : LooksUp settings s j nowMs progress (.reserved expiresAt) := by
  have hpruned := h.matched.prune s.now
  have hnone : (s.dedup.prune s.now).entries.lookup other.key = none := by
    rcases hpruned.kept other.key with hkept | ⟨hnone, -⟩
    · exact hkept.trans hfree
    · exact hnone
  have hsize := hpruned.size.trans_lt hroom
  have hlooks := looksUp_ready settings hother hpoint nowMs progress
  rw [Commands.lookUp] at hlooks
  simpa [hnone, hexpiry, not_le.mpr hsize] using hlooks

end Service.Sound

/-- In every interleaving, a command is dispatched once per retention: of two dispatches of one
key, one came when the retention of the other was over.  A send that looks up a key in flight
waits for its owner, and one that looks up a receipt within its retention returns it, with the
delivery state reached by then; either is refused as a conflict if its fingerprint differs.  A
failed dispatch frees its key for the next send.  The table stays within its limit, its
receipts are queued once each, and the queue is in order of time until the clock comes within
one retention of its latest instant. -/
theorem one_dispatch_per_retention (h : (system settings ι).Reachable s) :
    (∀ i j call other, i ≠ j → s.calls i = some call → s.calls j = some other →
      call.Apart other) ∧
    (∀ i j call other nowMs progress, s.calls i = some call → s.calls j = some other →
      other.point = .ready → other.key = call.key →
      (call.point.owns = true → LooksUp settings s j nowMs progress
        (if call.fingerprint = other.fingerprint then .waiting i
          else .returned (.error .conflict))) ∧
      ∀ instant retainedUntil dispatch, call.point = .recorded instant retainedUntil dispatch →
        s.now < retainedUntil → LooksUp settings s j nowMs progress
          (if call.fingerprint = other.fingerprint then
            .returned (.ok { dispatch with state := progress })
            else .returned (.error .conflict))) ∧
    (∀ i j call other instant retainedUntil dispatch, s.calls i = some call →
      call.point = .recorded instant retainedUntil dispatch → s.calls j = some other →
      other.point = .waiting i →
      ∃ s', s.perform settings (.wake j) = some s' ∧ s'.pointOf j = some .ready) ∧
    (∀ i call instant e s', s.calls i = some call →
      call.point = .dispatched instant (.error e) → s.perform settings (.record i) = some s' →
      s'.dedup.entries.lookup call.key = none ∧
      ∀ j other nowMs expiresAt progress, s'.calls j = some other → other.point = .ready →
        other.key = call.key →
        expiry settings.limits nowMs other.command.expiresAt = .ok expiresAt →
        LooksUp settings s' j nowMs progress (.reserved expiresAt)) ∧
    s.dedup.entries.size ≤ settings.limits.commandDedupMaxEntries ∧
    s.dedup.Matched ∧
    (s.now + settings.retention ≤ settings.latest →
      (s.dedup.expirations.map Prod.fst).Pairwise (· ≤ ·)) := by
  have hsound := sound_of_reachable h
  refine ⟨hsound.apart, ?_, ?_, ?_, hsound.size, hsound.matched, hsound.ordered⟩
  · intro i j call other nowMs progress hcall hother hready hkey
    refine ⟨fun howns => ?_, fun instant retainedUntil dispatch hrecorded hretained => ?_⟩
    · exact hsound.looksUp_owned hcall howns hother hready hkey nowMs progress
    · exact hsound.looksUp_retained hcall hrecorded hretained hother hready hkey nowMs progress
  · intro i j call other instant retainedUntil dispatch hcall hrecorded hother hwaiting
    exact Service.Sound.wakes_recorded hcall hrecorded hother hwaiting
  · intro i call instant e s' hcall hfailed hstep
    obtain ⟨hfree, hroom⟩ := hsound.record_error hcall hfailed hstep
    refine ⟨hfree, fun j other nowMs expiresAt progress hother hready hkey hexpiry => ?_⟩
    have hsound' := hsound.perform hstep
    exact hsound'.looksUp_free hother hready (hkey ▸ hfree) hroom hexpiry progress

/-! ## The end of the clock -/

/-- A command without arguments for one device. -/
def ping (uuid : BitVec 128) : DeviceCommand Unit where
  commandId := ⟨uuid⟩
  device := ⟨.t, .p, .d⟩
  expiresAt := none
  payload := ()

/-- The canonical text of such a command, for small identities and times. -/
def pingJson (digit : ℕ) (expiresAt : Option Int64) : String :=
  let time := expiresAt.elim "null" fun t => String.ofList [t.toInt.toNat.digitChar]
  "\x7b\"command_id\":\"00000000-0000-0000-0000-00000000000" ++ String.ofList [digit.digitChar] ++
    "\",\"device\":\x7b\"tenant_id\":\"t\",\"product_id\":\"p\",\"device_id\":\"d\"\x7d," ++
    "\"expires_at\":" ++ time ++ ",\"payload\":\x7b\"name\":\"ping\",\"arguments\":\x7b\x7d\x7d\x7d"

/-- The default limits, and the clock of a platform that counts seconds in 64 signed bits. -/
def defaultSettings : Settings Unit where
  limits := .default
  latest := 2 ^ 63 * 1000000000 - 1
  canonical command :=
    (pingJson command.commandId.uuid.toNat command.expiresAt).toList.map Char.toUInt8
  sha256 := .standard

/-- A session that takes every command. -/
def openSession : Surroundings Unit where
  sameLifecycle := true
  nowMs := 0
  session := .ok (some ⟨true, ⟨true, true⟩⟩)
  codec := .ok fun _ => some [0]
  enqueueTracked _ _ := .ok ()

/-- The steps of a send that meets no other one. -/
def sendSteps (i : ℕ) : List (Action Unit ℕ) :=
  [.lookUp i 0 .queued, .dispatch i openSession, .record i]

/-- The first send begins just before the deadline of a receipt reaches the end of the clock and
is overtaken by the second; it records when the deadline can no longer be represented. -/
def lateSends : List (Action Unit ℕ) :=
  [.tick (2 ^ 63 * 1000000000 - 300000000002), .start 1 (ping 1) true, .tick 1,
    .start 2 (ping 2) true] ++ sendSteps 2 ++ [.tick 1] ++ sendSteps 1

/-- The receipt recorded last expires before the one recorded first. -/
theorem expirations_out_of_order : ∃ s : Service Unit ℕ,
    (system defaultSettings ℕ).Reachable s ∧
    ¬ (s.dedup.expirations.map Prod.fst).Pairwise (· ≤ ·) := by
  have hqueue : (lateSends.foldlM (Service.perform defaultSettings) .new).map
      (fun s => s.dedup.expirations.map Prod.fst) =
        some [2 ^ 63 * 1000000000 - 1, 2 ^ 63 * 1000000000 - 2] := by decide +kernel
  obtain ⟨s, hrun, htimes⟩ := Option.map_eq_some_iff.mp hqueue
  have hreach : (system defaultSettings ℕ).Reachable s :=
    System.Reachable.foldlM (fun _ _ _ hstep => hstep) lateSends (.start rfl) hrun
  refine ⟨s, hreach, ?_⟩
  rw [htimes]
  decide

/-- Three sends of one command, the last with another text: the second waits for the first to
be recorded and is woken, and the third is about to look up. -/
def repeatedSends : List (Action Unit ℕ) :=
  [.start 1 (ping 1) true, .start 2 (ping 1) true,
    .start 3 { ping 1 with expiresAt := some 5 } true, .lookUp 1 0 .queued, .lookUp 2 0 .queued,
    .dispatch 1 openSession, .record 1, .wake 2]

/-- The receipt of the one dispatch answers the second send and refuses the third. -/
theorem one_dispatch_per_retention_ping : ∃ s : Service Unit ℕ,
    (system defaultSettings ℕ).Reachable s ∧ s.dedup.expirations.length = 1 ∧
    LooksUp defaultSettings s 2 0 .sent (.returned (.ok ⟨⟨1⟩, .sent⟩)) ∧
    LooksUp defaultSettings s 3 0 .sent (.returned (.error .conflict)) := by
  have hrun : ∃ s ∈ repeatedSends.foldlM (Service.perform defaultSettings) .new,
      s.dedup.expirations.length = 1 ∧ s.now = 0 ∧ ∃ call ∈ s.calls 1, ∃ same ∈ s.calls 2,
        ∃ other ∈ s.calls 3, call.point = .recorded 0 300000000000 ⟨⟨1⟩, .queued⟩ ∧
          same.point = .ready ∧ same.key = call.key ∧ call.fingerprint = same.fingerprint ∧
          other.point = .ready ∧ other.key = call.key ∧
          call.fingerprint ≠ other.fingerprint := by decide +kernel
  obtain ⟨s, hrun, hlength, hnow, call, hcall, same, hsame, other, hother, hrecorded, hready,
    hkey, hequal, hready', hkey', hdiffers⟩ := hrun
  have hreach : (system defaultSettings ℕ).Reachable s :=
    System.Reachable.foldlM (fun _ _ _ hstep => hstep) repeatedSends (.start rfl) hrun
  have hretained : s.now < 300000000000 := by
    rw [hnow]
    decide
  obtain ⟨-, hlooks, -⟩ := one_dispatch_per_retention hreach
  refine ⟨s, hreach, hlength, ?_, ?_⟩
  · have := (hlooks 1 2 call same 0 .sent hcall hsame hready hkey).2 _ _ _ hrecorded hretained
    rwa [if_pos hequal] at this
  · have := (hlooks 1 3 call other 0 .sent hcall hother hready' hkey').2 _ _ _ hrecorded hretained
    rwa [if_neg hdiffers] at this

end Netbaiot.Commands
