import Netbaiot.Rpc.CallBalance

/-!
# A stale provider never answers

Read `stale_provider_never_answers` first.  A call that was issued to a provider and has
not been answered when the provider synchronizes again, advances or is released has lost
its entry; since only calls that were not issued get entries, it is never answered.
-/

namespace Netbaiot.Rpc

open Lib AList Op Registry

variable {epoch : UInt64}

variable {Body : Type} {decode : Method → Body → Option AuthenticatedDeviceWire}

namespace Exchange

variable {x : Exchange Body} {c : CallId} {call : Call Body} {maxPending maxBytes : ℕ}

/-- A call can no longer be answered: it was issued, its entry is gone, and no response was
delivered to it. -/
structure Fenced (c : CallId) (x : Exchange Body) : Prop where
  issued : c < x.nextCall
  passed : ∀ call, x.calls.lookup c = some call → call.stage.guard ≠ none
  absent : ∀ key p, x.registry.pending.lookup key = some p → p.result ≠ c
  unanswered : ∀ m ∈ x.completions, m.call ≠ c

/-- A fenced call stays fenced. -/
theorem Fenced.effect {y : Exchange Body} (h : x.Fenced c) (heffect : Effect x y) : y.Fenced c := by
  refine ⟨Nat.lt_of_lt_of_le h.issued heffect.next, ?_, ?_, ?_⟩
  · intro call hcall hguard
    rcases heffect.calls c call hcall hguard with hnew | ⟨old, hold, hnone⟩
    · exact Nat.not_lt.mpr hnew h.issued
    · exact h.passed old hold hnone
  · rintro key p hp rfl
    rcases heffect.pending key p hp with hold | ⟨old, hold, hnone⟩
    · exact h.absent key p hold rfl
    · exact h.passed old hold hnone
  · rintro m hm rfl
    rcases heffect.completions m hm with hold | ⟨key, p, hp, heq⟩
    · exact h.unanswered m hold rfl
    · exact h.absent key p hp heq.symm

/-- Actions after which the provider of an epoch no longer answers what it was asked before:
it synchronizes again, its lease is released, or its revision has advanced. -/
def Fences (x : Exchange Body) (epoch : UInt64) : Action Body → Prop
  | .markSyncing e _ | .release e _ => e = epoch
  | .advanceRevision e revision =>
      e = epoch ∧ (exec (Rpc.advanceRevision e revision) x.registry).1 = .ok ()
  | _ => False

section

variable (h : x.Coherent decode maxPending maxBytes)

include h

/-- A provider that is not registered has nothing pending. -/
theorem Coherent.absent
    (hother : x.registry.provider.filter (fun p => p.epoch = epoch) = none) {key : PendingKey}
    {p : Pending} (hp : x.registry.pending.lookup key = some p) : key.1 ≠ epoch := by
  rintro rfl
  obtain ⟨q, hq, howned⟩ := (Option.any_eq_true _ _).mp (h.owned key p hp)
  exact Option.filter_eq_none_iff.mp hother q hq howned

/-- After such an action nothing of the epoch is pending. -/
theorem Coherent.fences {a : Action Body} (ha : x.Fences epoch a) {key : PendingKey} {p : Pending}
    (hp : (x.step decode a).registry.pending.lookup key = some p) : key.1 ≠ epoch := by
  intro hkey
  have hdropped : ∀ r : Registry, (r.dropEpoch epoch).pending.lookup key ≠ some p := by
    intro r
    rw [lookup_dropEpoch _ _ hkey]
    nofun
  cases a with
  | markSyncing e instant | release e instant =>
    obtain rfl : e = epoch := ha
    simp only [Exchange.step, Exchange.onRegistry, Rpc.markSyncing, exec_currentProvider_bind,
      Rpc.release, exec_modify] at hp
    cases hfilter : x.registry.provider.filter fun p => p.epoch = e with
    | none =>
      rw [hfilter] at hp
      exact h.absent hfilter hp hkey
    | some q =>
      rw [hfilter] at hp
      exact hdropped _ hp
  | advanceRevision e revision =>
    obtain ⟨rfl, hok⟩ := ha
    simp only [Exchange.step, Exchange.onRegistry, Rpc.advanceRevision,
      exec_currentProvider_bind] at hp hok
    cases hfilter : x.registry.provider.filter fun p => p.epoch = e with
    | none =>
      rw [hfilter] at hok
      cases hok
    | some q =>
      rw [hfilter] at hp hok
      simp only [exec_ensure_bind] at hp hok
      split at hok
      · next hnewer =>
        rw [if_pos hnewer] at hp
        exact hdropped (x.registry.setProvider _) hp
      · cases hok
  | _ => exact ha

/-- A call that was issued to the provider before is fenced. -/
theorem Coherent.fenced {a : Action Body} {i : Issue} (ha : x.Fences epoch a)
    (hcall : x.calls.lookup c = some call) (hissue : call.issue = some i) (hepoch : i.epoch = epoch)
    (hopen : ∀ m ∈ x.completions, m.call ≠ c) : (x.step decode a).Fenced c := by
  have heffect := (h.step a).2
  have hguard : call.stage.guard ≠ none := by
    intro hnone
    rw [(h.calls c call hcall).unissued hnone] at hissue
    cases hissue
  have hc := h.lt_nextCall hcall
  refine ⟨Nat.lt_of_lt_of_le hc heffect.next, ?_, ?_, ?_⟩
  · intro call' hcall' hnone
    have hcalls := heffect.calls c call' hcall' hnone
    grind
  · rintro key p hp rfl
    have hkey := h.fences ha hp
    rcases heffect.pending key p hp with hold | ⟨old, hold, hold'⟩
    · obtain ⟨found, hfound, _, hi⟩ := h.linked key p hold
      grind
    · cases hcall.symm.trans hold
      exact hguard hold'
  · have hsame : (x.step decode a).completions = x.completions := by
      cases a with
      | markSyncing e instant | release e instant | advanceRevision e revision => rfl
      | _ => exact ha.elim
    rw [hsame]
    exact hopen

/-- Without calls and messages all permits are available. -/
theorem Coherent.idle (hcalls : x.calls = ∅) (houtbound : x.registry.outbound = []) :
    x.registry.pendingSlots = maxPending ∧ x.registry.pendingBytes = maxBytes := by
  have hpending : x.registry.pending = ∅ := by
    apply eq_empty_of_lookup
    intro key
    cases hp : x.registry.pending.lookup key with
    | none => rfl
    | some p =>
      obtain ⟨call, hcall, _⟩ := h.linked key p hp
      rw [hcalls] at hcall
      cases hcall
  have hslots := h.slots
  have hbytes := h.bytes
  rw [Registry.slots, hpending, hcalls] at hslots
  rw [Registry.bytes, hpending, hcalls, houtbound] at hbytes
  exact ⟨hslots, hbytes⟩

end

end Exchange

open Exchange in
/-- In every interleaving: a call that returns a body was answered while the provider it was
issued to had the revision of the issue, was serving and was authorized, with its method and
for an identity in scope and not older; once that provider synchronizes again, advances or is
released, no call that it has not answered yet is ever answered; and when no call runs and no
message is queued or being written, all permits are available. -/
theorem stale_provider_never_answers {x : Exchange Body} {maxPending maxBytes : ℕ}
    (h : (exchanging decode maxPending maxBytes).Reachable x) :
    (∀ m ∈ x.returned, ∀ body, m.result = .ok body →
        Answered decode x.completions m.call m.issue body) ∧
      (∀ epoch a c call i, x.Fences epoch a → x.calls.lookup c = some call → call.issue = some i →
        i.epoch = epoch → (∀ m ∈ x.completions, m.call ≠ c) →
        ∀ y, (exchanging decode maxPending maxBytes).Path (fun _ _ => True) (x.step decode a) y →
          (∀ m ∈ y.completions, m.call ≠ c) ∧
            ∀ m ∈ y.returned, m.call = c → ∀ body, m.result ≠ .ok body) ∧
      (x.calls = ∅ → x.registry.outbound = [] →
        x.registry.pendingSlots = maxPending ∧ x.registry.pendingBytes = maxBytes) := by
  have hx := coherent_of_reachable h
  refine ⟨hx.returned, ?_, hx.idle⟩
  intro epoch a c call i ha hcall hissue hepoch hopen y hpath
  have hstart : (exchanging decode maxPending maxBytes).Reachable (x.step decode a) := h.step rfl
  have hfenced : y.Fenced c := by
    refine hpath.invariant hstart ?_ (hx.fenced ha hcall hissue hepoch hopen)
    rintro s b _ hs hfenced _ rfl
    exact hfenced.effect ((coherent_of_reachable hs).step b).2
  refine ⟨hfenced.unanswered, ?_⟩
  rintro m hm rfl body hbody
  obtain ⟨_, _, answer, hanswer, heq, _⟩ :=
    (coherent_of_reachable (hpath.reachable hstart)).returned m hm body hbody
  exact hfenced.unanswered answer hanswer heq

/-- A provider of one tenant answers one call. -/
def sampleActions : List (Action Unit) :=
  [.registerWithExpiry ⟨false, [.a]⟩ none 0, .markServing 1 5 100 0,
    .takeSlot .deviceAuthenticate 40, .takeBytes 0, .issue 0 7 50 100, .charge 0, .trySend 0 true,
    .complete 1 7 .deviceAuthenticate (.ok ()) 20 100, .receive 0, .close 0 false, .written 0]

/-- Every body names a device of that tenant at revision six. -/
def sampleDecode (_ : Method) (_ : Unit) : Option AuthenticatedDeviceWire :=
  some ⟨⟨.a, .b, .c⟩, 6⟩

def sampleExchange : Exchange Unit := sampleActions.foldl (·.step sampleDecode) (.new 4 1000 0)

/-- The call returned a body that was answered to it, and all permits are back. -/
theorem stale_provider_never_answers_sample :
    (∃ m ∈ sampleExchange.returned, m.result = .ok () ∧
        Answered sampleDecode sampleExchange.completions m.call m.issue ()) ∧
      sampleExchange.registry.pendingSlots = 4 ∧ sampleExchange.registry.pendingBytes = 1000 := by
  have hx : (exchanging sampleDecode 4 1000).Reachable sampleExchange :=
    System.Reachable.foldl (fun _ _ => rfl) sampleActions (.start ⟨0, rfl⟩)
  have hreturned : sampleExchange.returned = [⟨0, some ⟨1, 5, .deviceAuthenticate⟩, .ok ()⟩] := rfl
  obtain ⟨hanswered, _, hidle⟩ := stale_provider_never_answers hx
  refine ⟨⟨⟨0, some ⟨1, 5, .deviceAuthenticate⟩, .ok ()⟩, ?_, rfl, ?_⟩, hidle rfl rfl⟩
  · exact List.mem_cons_self ..
  · exact hanswered ⟨0, some ⟨1, 5, .deviceAuthenticate⟩, .ok ()⟩ (by
      exact List.mem_cons_self ..) () rfl

end Netbaiot.Rpc
