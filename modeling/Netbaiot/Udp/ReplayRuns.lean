import Netbaiot.Lib.Run
import Netbaiot.Udp.ReplayExact

/-!
# Replay safety in every run

A run receives any datagrams, at times that never go back.  Beside the window it records
what was committed, and for each live entry the sequence numbers committed in it.  Read
`replay_safety` first.  The argument in time: validated limits keep an entry longer than
twice the clock skew, so as long as a timestamp can still be accepted, the entry in which
it was committed is alive and recognises it.
-/

namespace Netbaiot.Udp

open Lib AList ReplayWindow

variable {limits : Limits}

/-- A committed datagram: what was sent, when it was committed, and the sequence numbers
that had been committed before in the same live entry. -/
structure Commit where
  datagram : Datagram
  time : Int64
  earlier : List ℕ

/-- What makes a datagram the same one again. -/
def Datagram.identity (d : Datagram) : ReplayKey × ℕ × Int64 := (d.key, d.seq, d.timestamp)

/-- The receiver: its window, the latest clock value, and what was committed. -/
structure Receiver where
  window : ReplayWindow
  clock : Int64
  log : List Commit
  live : ReplayKey → List ℕ

namespace Receiver

/-- The sequence numbers of the entries that are still alive in a window. -/
def liveIn (live : ReplayKey → List ℕ) (w : ReplayWindow) (key : ReplayKey) : List ℕ :=
  if (w.entries.lookup key).isSome then live key else []

/-- Receive a datagram now; `ingested` is when its event was accepted, if it was. -/
def receive (limits : Limits) (s : Receiver) (d : Datagram) (now : Int64)
    (ingested : Option Int64) : Receiver :=
  let checked := s.window.checkWithPolicy limits d.key d.seq d.timestamp now d.policy
  let live := liveIn s.live checked.2
  match checked.1, ingested with
  | .ok .new, some committed =>
      { window := (acceptVerified limits s.window d now ingested).2
        clock := committed
        log := ⟨d, committed, live d.key⟩ :: s.log
        live := Function.update live d.key (d.seq :: live d.key) }
  | _, _ =>
      { window := (acceptVerified limits s.window d now ingested).2
        clock := now
        log := s.log
        live }

/-- A clock value far from the ends of its range. -/
def Far (t : Int64) : Prop := -(2 ^ 62) ≤ t.toInt ∧ t.toInt ≤ 2 ^ 62

end Receiver

/-- What arrives: a datagram, the time of its check, and the time of its commit if its event
is accepted. -/
structure Arrival where
  datagram : Datagram
  now : Int64
  ingested : Option Int64

/-- The receiver under any arrivals whose clock values do not go back. -/
def receiving (limits : Limits) : System Receiver Arrival where
  start s := s.window = .new ∧ s.log = [] ∧ (∀ key, s.live key = []) ∧ Receiver.Far s.clock
  step s a s' := s.clock ≤ a.now ∧ Receiver.Far a.now ∧
    (∀ t ∈ a.ingested, a.now ≤ t ∧ Receiver.Far t) ∧
    s' = s.receive limits a.datagram a.now a.ingested

/-! ## Time -/

/-- Validated limits keep an entry longer than twice the clock skew. -/
theorem ttl_bounds (h : limits.validate = .ok ()) :
    2 * limits.udpClockSkewMs < limits.replayTtlMs ∧ limits.replayTtlMs < 2 ^ 32 := by
  have httl := @Limits.scalar_range _ h .ordinary limits.replayTtlMs (by simp [Limits.scalars])
  have horder := (Limits.validate_eq_ok.mp h).2.2
  simp only [Limits.hierarchyViolation, Bool.or_eq_false_iff, decide_eq_false_iff_not] at horder
  have hlast := horder.2
  simp only [ScalarRange.minimum, ScalarRange.maximum, saturatingMul] at *
  omega

/-- Far from the ends of the range, an entry expires exactly after its lifetime. -/
theorem toInt_expiryAt (h : limits.validate = .ok ()) {t : Int64} (ht : Receiver.Far t) :
    (ReplayWindow.expiryAt limits t).toInt = t.toInt + limits.replayTtlMs := by
  have httl := (ttl_bounds h).2
  obtain ⟨hlow, hhigh⟩ := ht
  have hsum : (Int64.ofInt (limits.replayTtlMs : ℤ)).toInt = limits.replayTtlMs := by
    apply Int64.toInt_ofInt_of_le <;> omega
  rw [expiryAt, toInt_saturatingAdd64, hsum, clampSigned]
  omega

/-! ## Decisions -/

namespace ReplayWindow

variable {w : ReplayWindow} {limits : Limits} {key : ReplayKey} {seq : ℕ} {policy : ReplayPolicy}

/-- A sequence number counts as a duplicate only if it was marked in the live entry. -/
theorem mem_of_duplicate {S : Set ℕ} {r : Replay} (hentry : w.entries.lookup key = some r)
    (hshows : r.toWindow.Shows S)
    (h : w.decision limits key seq policy = .ok .acceptedDuplicate) : seq ∈ S := by
  revert h
  fun_cases decision limits w key seq policy with
  | case2 entry hlookup hle delta hclose hmarked =>
    cases hentry.symm.trans hlookup
    exact fun _ => (hshows.marked_iff hle (Nat.not_le.mp hclose)).mp hmarked
  | _ => rintro ⟨⟩

/-- A sequence number that is new for a live entry was not marked in it, and under the
monotonic policy it is above everything that was. -/
theorem not_mem_of_new {S : Set ℕ} {r : Replay} (hentry : w.entries.lookup key = some r)
    (hshows : r.toWindow.Shows S) (h : w.decision limits key seq policy = .ok .new) :
    seq ∉ S ∧ (policy = .monotonic → ∀ n ∈ S, n < seq) := by
  revert h
  fun_cases decision limits w key seq policy with
  | case4 entry hlookup hle delta hclose hmarked hpolicy =>
    cases hentry.symm.trans hlookup
    exact fun _ => ⟨(hshows.marked_iff hle (Nat.not_le.mp hclose)).not.mp hmarked,
      fun hmonotonic => absurd hmonotonic hpolicy⟩
  | case5 entry hlookup hgt =>
    cases hentry.symm.trans hlookup
    have habove : ∀ n ∈ S, n < seq := fun n hn =>
      Nat.lt_of_le_of_lt (hshows.greatest.2 hn) (Nat.not_le.mp hgt)
    exact fun _ => ⟨fun hmem => Nat.lt_irrefl _ (habove seq hmem), fun _ => habove⟩
  | case7 hnone => cases hentry.symm.trans hnone
  | _ => rintro ⟨⟩

/-- A new entry has room under every limit. -/
theorem room_of_new (hentry : w.entries.lookup key = none)
    (h : w.decision limits key seq policy = .ok .new) :
    w.entries.size < limits.maxReplayEntries ∧
      (w.devices.lookup key.device).getD 0 < limits.maxReplayEntriesPerDevice ∧
      (w.tenants.lookup key.device.tenantId).getD 0 < limits.maxReplayEntriesPerTenant := by
  simp only [decision, hentry] at h
  split at h
  · cases h
  · next hroom =>
    simp only [not_or, Nat.not_le] at hroom
    exact hroom

/-- The entries stay within the limits. -/
structure Within (limits : Limits) (w : ReplayWindow) : Prop where
  all : w.entries.size ≤ limits.maxReplayEntries
  devices : ∀ device, countOf ReplayKey.device device w.entries ≤ limits.maxReplayEntriesPerDevice
  tenants : ∀ tenant, countOf (fun key : ReplayKey => key.device.tenantId) tenant w.entries ≤
    limits.maxReplayEntriesPerTenant

/-- Fewer entries stay within the limits. -/
theorem Within.of_le {w' : ReplayWindow} (h : w.Within limits)
    (hle : ∀ key r, w'.entries.lookup key = some r → ∃ r', w.entries.lookup key = some r') :
    w'.Within limits := by
  have hcount : ∀ f : ReplayKey → ℕ,
      w'.entries.total (fun key _ => f key) ≤ w.entries.total fun key _ => f key :=
    fun f => total_le_of_keys hle
  refine ⟨?_, fun device => ?_, fun tenant => ?_⟩
  · have hsize := hcount fun _ => 1
    rw [← size_eq_total, ← size_eq_total] at hsize
    exact Nat.le_trans hsize h.all
  · exact Nat.le_trans (hcount _) (h.devices device)
  · exact Nat.le_trans (hcount _) (h.tenants tenant)

/-- A commit that follows a new decision stays within the limits. -/
theorem Within.commit {now : Int64} (h : w.Within limits) (hexact : w.Exact)
    (hnew : w.decision limits key seq policy = .ok .new) :
    (w.commit limits key seq now).Within limits := by
  cases hentry : w.entries.lookup key with
  | none =>
    obtain ⟨hall, hdevice, htenant⟩ := room_of_new hentry hnew
    rw [hexact.devices] at hdevice
    rw [hexact.tenants] at htenant
    refine ⟨?_, fun device => ?_, fun tenant => ?_⟩
    · rw [entries_commit, size_eq_total, total_insert_new _ hentry, ← size_eq_total]
      omega
    · rw [entries_commit, countOf_insert_new _ hentry]
      split
      · next heq => exact heq ▸ hdevice
      · exact h.devices device
    · rw [entries_commit, countOf_insert_new _ hentry]
      split
      · next heq => exact heq ▸ htenant
      · exact h.tenants tenant
  | some r =>
    apply h.of_le
    intro key' r' hr'
    rw [entries_commit, lookup_insert_eq] at hr'
    split at hr'
    · next heq => exact ⟨r, heq ▸ hentry⟩
    · exact ⟨r', hr'⟩

end ReplayWindow

/-! ## Runs -/

namespace Receiver

/-- What holds of the receiver throughout a run: live entries show the sequence numbers
committed in them, and a committed datagram is remembered until it is too old. -/
structure Recognises (limits : Limits) (s : Receiver) : Prop where
  exact : s.window.Exact
  within : s.window.Within limits
  shows : ∀ key r, s.window.entries.lookup key = some r → r.toWindow.Shows { n | n ∈ s.live key }
  dead : ∀ key, s.window.entries.lookup key = none → s.live key = []
  logged : ∀ key n, n ∈ s.live key → ∃ c ∈ s.log, c.datagram.key = key ∧ c.datagram.seq = n
  kept : ∀ c ∈ s.log, c.time.toInt + limits.replayTtlMs ≤ s.clock.toInt ∨
    c.datagram.seq ∈ s.live c.datagram.key ∧ ∃ r, s.window.entries.lookup c.datagram.key = some r ∧
      c.time.toInt + limits.replayTtlMs ≤ r.expires.toInt
  committed_le : ∀ c ∈ s.log, c.time.toInt ≤ s.clock.toInt
  stamped : ∀ c ∈ s.log, c.datagram.timestamp.toInt ≤ c.time.toInt + limits.udpClockSkewMs
  once : (s.log.map fun c => c.datagram.identity).Nodup
  monotonic : ∀ c ∈ s.log, c.datagram.policy = .monotonic → ∀ n ∈ c.earlier, n < c.datagram.seq

variable {limits : Limits} {s : Receiver} {d : Datagram} {now : Int64}

/-- The receiver after the check of a datagram. -/
def check (limits : Limits) (s : Receiver) (d : Datagram) (now : Int64) : Receiver :=
  let checked := s.window.checkWithPolicy limits d.key d.seq d.timestamp now d.policy
  { s with window := checked.2, clock := now, live := liveIn s.live checked.2 }

/-- The receiver after the commit that follows a new decision. -/
def commit (limits : Limits) (s : Receiver) (d : Datagram) (time : Int64) : Receiver where
  window := s.window.commit limits d.key d.seq time
  clock := time
  log := ⟨d, time, s.live d.key⟩ :: s.log
  live := Function.update s.live d.key (d.seq :: s.live d.key)

/-- Receiving is a check, followed by a commit exactly if the datagram is new and its event
is accepted. -/
theorem receive_cases (ingested : Option Int64) :
    s.receive limits d now ingested = s.check limits d now ∨
      ∃ time, ingested = some time ∧
        (s.window.checkWithPolicy limits d.key d.seq d.timestamp now d.policy).1 = .ok .new ∧
        s.receive limits d now ingested = (s.check limits d now).commit limits d time := by
  rcases hchecked : s.window.checkWithPolicy limits d.key d.seq d.timestamp now d.policy
    with ⟨outcome, w⟩
  have hcheck : s.check limits d now =
      { s with window := w, clock := now, live := liveIn s.live w } := by
    simp only [check, hchecked]
  rw [hcheck]
  match outcome, ingested with
  | .ok .new, some time =>
    refine .inr ⟨time, rfl, rfl, ?_⟩
    simp only [receive, acceptVerified, hchecked, commit]
  | .ok .new, none | .ok .acceptedDuplicate, _ | .error e, _ =>
    simp only [receive, acceptVerified, hchecked, true_or]

/-- A check forgets only entries that have expired. -/
theorem lookup_check (h : s.Recognises limits) (key : ReplayKey) :
    (s.check limits d now).window.entries.lookup key = s.window.entries.lookup key ∨
      ((s.check limits d now).window.entries.lookup key = none ∧
        ∃ r, s.window.entries.lookup key = some r ∧ r.expires ≤ now) := by
  simp only [check, checkWithPolicy]
  split
  · exact .inl rfl
  · rw [h.exact.lookup_prune]
    cases hentry : s.window.entries.lookup key with
    | none => exact .inl rfl
    | some r =>
      by_cases hlive : now < r.expires
      · exact .inl (by simp [Option.filter, hlive])
      · exact .inr ⟨by simp [Option.filter, hlive], r, rfl, not_lt.mp hlive⟩

/-- The decision is made in the pruned window, within the clock skew. -/
theorem decision_check {outcome : ReplayDecision}
    (h : (s.window.checkWithPolicy limits d.key d.seq d.timestamp now d.policy).1 = .ok outcome) :
    ¬ limits.udpClockSkewMs < (now.toInt - d.timestamp.toInt).natAbs ∧
      (s.check limits d now).window.decision limits d.key d.seq d.policy = .ok outcome := by
  unfold check
  revert h
  fun_cases checkWithPolicy with
  | case1 => rintro ⟨⟩
  | case2 hskew => exact fun h => ⟨hskew, h⟩

theorem live_check (key : ReplayKey) : (s.check limits d now).live key =
    if ((s.check limits d now).window.entries.lookup key).isSome then s.live key else [] := rfl

theorem Recognises.check (h : s.Recognises limits) (hnow : s.clock ≤ now) :
    (s.check limits d now).Recognises limits := by
  have hclock : s.clock.toInt ≤ now.toInt := Int64.le_iff_toInt_le.mp hnow
  have hkeep := @lookup_check _ _ d now h
  refine
    { exact := ?_
      within := h.within.of_le fun key r hr => by grind
      shows := fun key r hr => ?_
      dead := fun key hnone => by rw [live_check, hnone]; rfl
      logged := fun key n hn => ?_
      kept := fun c hc => ?_
      committed_le := fun c hc => (h.committed_le c hc).trans hclock
      stamped := h.stamped
      once := h.once
      monotonic := h.monotonic }
  · show (checkWithPolicy ..).2.Exact
    unfold checkWithPolicy
    split
    · exact h.exact
    · exact h.exact.prune now
  · rw [live_check, hr]
    exact h.shows key r (by grind)
  · rw [live_check] at hn
    exact h.logged key n (by grind)
  · rw [live_check]
    rcases h.kept c hc with hold | ⟨hmem, r, hr, hexpires⟩
    · exact .inl (hold.trans hclock)
    · rcases hkeep c.datagram.key with hsame | ⟨_, r', hr', hexpired⟩
      · rw [hsame, hr]
        exact .inr ⟨hmem, r, rfl, hexpires⟩
      · -- The entry expired, so the datagram is out of date.
        cases hr.symm.trans hr'
        exact .inl (hexpires.trans (Int64.le_iff_toInt_le.mp hexpired))

/-- A datagram that was committed before is not new while its timestamp is acceptable. -/
theorem Recognises.not_again (h : s.Recognises limits) (hlimits : limits.validate = .ok ())
    (hskew : ¬ limits.udpClockSkewMs < (s.clock.toInt - d.timestamp.toInt).natAbs)
    (hnew : s.window.decision limits d.key d.seq d.policy = .ok .new) {c : Commit}
    (hc : c ∈ s.log) : c.datagram.identity ≠ d.identity := by
  intro heq
  simp only [Datagram.identity, Prod.mk.injEq] at heq
  obtain ⟨hkey, hseq, htimestamp⟩ := heq
  have hstamp := h.stamped c hc
  have httl := (ttl_bounds hlimits).1
  rcases h.kept c hc with hold | ⟨hmem, r, hr, _⟩
  · rw [htimestamp] at hstamp
    omega
  · rw [hkey, hseq] at hmem
    rw [hkey] at hr
    exact (not_mem_of_new hr (h.shows _ _ hr) hnew).1 hmem

theorem lookup_commit {time : Int64} (key : ReplayKey) :
    (s.commit limits d time).window.entries.lookup key =
      if key = d.key then some (committed limits s.window d.key d.seq time)
      else s.window.entries.lookup key := by
  rw [← lookup_insert_eq, ← entries_commit]
  rfl

theorem live_commit {time : Int64} (key : ReplayKey) : (s.commit limits d time).live key =
    if key = d.key then d.seq :: s.live d.key else s.live key :=
  Function.update_apply ..

/-- The entry that a commit stores shows the sequence numbers committed in it. -/
theorem Recognises.shows_committed (h : s.Recognises limits) (time : Int64) :
    (committed limits s.window d.key d.seq time).Shows { n | n ∈ d.seq :: s.live d.key } := by
  have hset : { n | n ∈ d.seq :: s.live d.key } = insert d.seq { n | n ∈ s.live d.key } := by
    ext n
    simp
  rw [hset]
  show Window.Shows (Window.mark _ _) _
  cases hentry : s.window.entries.lookup d.key with
  | none =>
    rw [h.dead _ hentry]
    have hfirst := @Window.Shows.first 64 d.seq (by decide)
    simpa using hfirst
  | some r => exact (h.shows _ _ hentry).mark d.seq

/-- A commit after a new decision keeps what holds of the receiver. -/
theorem Recognises.commit (h : s.Recognises limits) (hlimits : limits.validate = .ok ())
    (hskew : ¬ limits.udpClockSkewMs < (s.clock.toInt - d.timestamp.toInt).natAbs)
    (hnew : s.window.decision limits d.key d.seq d.policy = .ok .new) {time : Int64}
    (htime : s.clock ≤ time) (hfar : Far time) : (s.commit limits d time).Recognises limits := by
  have hclock : s.clock.toInt ≤ time.toInt := Int64.le_iff_toInt_le.mp htime
  have hexpires : (committed limits s.window d.key d.seq time).expires.toInt = _ :=
    toInt_expiryAt hlimits hfar
  refine
    { exact := h.exact.commit
      within := h.within.commit h.exact hnew
      shows := ?_
      dead := ?_
      logged := ?_
      kept := ?_
      committed_le := ?_
      stamped := ?_
      once := ?_
      monotonic := ?_ }
  · intro key r hr
    have hown := h.shows_committed (d := d) time
    have hother := h.shows key
    grind [lookup_commit, live_commit]
  · intro key
    grind [lookup_commit, live_commit, h.dead key]
  · intro key n hn
    have hlogged := h.logged key n
    rw [live_commit] at hn
    rw [Receiver.commit, List.exists_mem_cons_iff]
    grind
  · intro c hc
    rw [live_commit, lookup_commit]
    rcases List.mem_cons.mp hc with rfl | hc
    · grind
    · -- An entry is renewed, if it was not out of date already.
      have hkept := h.kept c hc
      have hcommitted := h.committed_le c hc
      show _ ≤ time.toInt ∨ _
      grind
  · intro c hc
    rcases List.mem_cons.mp hc with rfl | hc
    · exact Int.le_refl _
    · exact (h.committed_le c hc).trans hclock
  · intro c hc
    rcases List.mem_cons.mp hc with rfl | hc
    · show d.timestamp.toInt ≤ time.toInt + limits.udpClockSkewMs
      omega
    · exact h.stamped c hc
  · show (d.identity :: s.log.map fun c => c.datagram.identity).Nodup
    refine List.nodup_cons.mpr ⟨fun hmem => ?_, h.once⟩
    obtain ⟨c, hc, heq⟩ := List.mem_map.mp hmem
    exact h.not_again hlimits hskew hnew hc heq
  · intro c hc
    rcases List.mem_cons.mp hc with rfl | hc
    · intro hpolicy n hn
      cases hentry : s.window.entries.lookup d.key with
      | none =>
        rw [h.dead _ hentry] at hn
        cases hn
      | some r => exact (not_mem_of_new hentry (h.shows _ _ hentry) hnew).2 hpolicy n hn
    · exact h.monotonic c hc

/-- Receiving a datagram keeps what holds of the receiver. -/
theorem Recognises.receive (h : s.Recognises limits) (hlimits : limits.validate = .ok ())
    (hnow : s.clock ≤ now) {ingested : Option Int64} (hlater : ∀ t ∈ ingested, now ≤ t ∧ Far t) :
    (s.receive limits d now ingested).Recognises limits := by
  have hchecked := h.check (d := d) hnow
  rcases @receive_cases limits s d now ingested with
    heq | ⟨time, rfl, hnew, heq⟩
  · rw [heq]
    exact hchecked
  · rw [heq]
    obtain ⟨htime, hfar⟩ := hlater time rfl
    obtain ⟨hskew, hdecision⟩ := decision_check hnew
    exact hchecked.commit hlimits hskew hdecision htime hfar

end Receiver

theorem recognises_of_reachable (hlimits : limits.validate = .ok ()) {s : Receiver}
    (h : (receiving limits).Reachable s) : s.Recognises limits := by
  refine h.invariant ?_ ?_
  · rintro s ⟨hwindow, hlog, hlive, _⟩
    have hnone : ∀ key, s.window.entries.lookup key = none := by
      intro key
      rw [hwindow]
      exact lookup_empty key
    refine ⟨hwindow ▸ .new, ?_, ?_, fun key _ => hlive key, ?_, ?_, ?_, ?_, ?_, ?_⟩
    · rw [hwindow]
      exact ⟨Nat.zero_le _, fun _ => Nat.zero_le _, fun _ => Nat.zero_le _⟩
    · intro key r hr
      rw [hnone] at hr
      cases hr
    · intro key n hn
      rw [hlive] at hn
      cases hn
    all_goals simp [hlog]
  · rintro s a s' hs ⟨hnow, _, hlater, rfl⟩
    exact hs.receive hlimits hnow hlater

/-- In every run under validated limits: no datagram is committed twice; only committed
sequence numbers are taken for duplicates; what is committed under the monotonic policy is
above everything committed before in its live entry; each entry has exactly one expiry and
each expiry an entry; and the counters are right and within their limits. -/
theorem replay_safety (hlimits : limits.validate = .ok ()) {s : Receiver}
    (h : (receiving limits).Reachable s) :
    (s.log.map fun c => c.datagram.identity).Nodup ∧
      (∀ (d : Datagram) now, s.clock ≤ now →
        (s.window.checkWithPolicy limits d.key d.seq d.timestamp now d.policy).1 =
          .ok .acceptedDuplicate →
        ∃ c ∈ s.log, c.datagram.key = d.key ∧ c.datagram.seq = d.seq) ∧
      (∀ c ∈ s.log, c.datagram.policy = .monotonic → ∀ n ∈ c.earlier, n < c.datagram.seq) ∧
      (∀ key, (s.window.entries.lookup key).isSome = true →
        ∃! e, (s.window.expirations.lookup e).isSome = true ∧ e.key = key) ∧
      (∀ e, (s.window.expirations.lookup e).isSome = true →
        (s.window.entries.lookup e.key).isSome = true) ∧
      (∀ device, (s.window.devices.lookup device).getD 0 =
          countOf ReplayKey.device device s.window.entries ∧
        (s.window.devices.lookup device).getD 0 ≤ limits.maxReplayEntriesPerDevice) ∧
      (∀ tenant, (s.window.tenants.lookup tenant).getD 0 =
          countOf (fun key : ReplayKey => key.device.tenantId) tenant s.window.entries ∧
        (s.window.tenants.lookup tenant).getD 0 ≤ limits.maxReplayEntriesPerTenant) ∧
      s.window.entries.size ≤ limits.maxReplayEntries := by
  have hs := recognises_of_reachable hlimits h
  refine ⟨hs.once, ?_, hs.monotonic, ?_, ?_, ?_, ?_, hs.within.all⟩
  · intro d now hnow hdecision
    have hchecked := hs.check (d := d) hnow
    have hduplicate := (Receiver.decision_check hdecision).2
    cases hentry : (s.check limits d now).window.entries.lookup d.key with
    | none =>
      simp only [decision, hentry] at hduplicate
      split at hduplicate <;> cases hduplicate
    | some r =>
      have hmem := mem_of_duplicate hentry (hchecked.shows _ _ hentry) hduplicate
      exact hchecked.logged _ _ hmem
  · intro key hsome
    obtain ⟨r, hr⟩ := Option.isSome_iff_exists.mp hsome
    refine ⟨⟨r.expires, key⟩, ⟨(hs.exact.expirations _).mpr ⟨r, hr, rfl⟩, rfl⟩, ?_⟩
    rintro e ⟨he, rfl⟩
    obtain ⟨r', hr', hexpires⟩ := (hs.exact.expirations e).mp he
    rw [hr] at hr'
    cases hr'
    rw [hexpires]
  · intro e he
    obtain ⟨r, hr, _⟩ := (hs.exact.expirations e).mp he
    rw [hr]
    rfl
  · intro device
    rw [hs.exact.devices device]
    exact ⟨rfl, hs.within.devices device⟩
  · intro tenant
    rw [hs.exact.tenants tenant]
    exact ⟨rfl, hs.within.tenants tenant⟩

/-- A receiver that has seen nothing yet. -/
def sampleStart : Receiver := ⟨.new, 0, [], fun _ => []⟩

/-- The first datagram of a device. -/
def sampleDatagram : Datagram where
  key := ⟨⟨.a, .b, .c⟩, 7, 1⟩
  seq := 5
  timestamp := 1000
  policy := .monotonic

/-- The first datagram is committed, and the same one again is only a duplicate. -/
theorem replay_safety_sample :
    (((sampleStart.receive .default sampleDatagram 1000 (some 1001)).receive .default
        sampleDatagram 1002 (some 1003)).log.map fun c => c.datagram.identity).Nodup ∧
      ((sampleStart.receive .default sampleDatagram 1000 (some 1001)).receive .default
        sampleDatagram 1002 (some 1003)).log.length = 1 := by
  have hfar : Receiver.Far 0 ∧ Receiver.Far 1000 ∧ Receiver.Far 1001 ∧ Receiver.Far 1002 ∧
      Receiver.Far 1003 := by
    unfold Receiver.Far
    decide
  have hfirst : (receiving .default).Reachable
      (sampleStart.receive .default sampleDatagram 1000 (some 1001)) := by
    refine .step (a := ⟨sampleDatagram, 1000, some 1001⟩)
      (.start ⟨rfl, rfl, fun _ => rfl, hfar.1⟩) ⟨by decide, hfar.2.1, ?_, rfl⟩
    rintro t ⟨⟩
    exact ⟨by decide, hfar.2.2.1⟩
  have hsecond : (receiving .default).Reachable
      ((sampleStart.receive .default sampleDatagram 1000 (some 1001)).receive .default
        sampleDatagram 1002 (some 1003)) := by
    refine .step (a := ⟨sampleDatagram, 1002, some 1003⟩) hfirst ⟨by decide, hfar.2.2.2.1, ?_, rfl⟩
    rintro t ⟨⟩
    exact ⟨by decide, hfar.2.2.2.2⟩
  exact ⟨(replay_safety (by decide +kernel) hsecond).1, by decide⟩

end Netbaiot.Udp
