import Netbaiot.EventBus.Operations

/-!
# What compiled routes contain

A list of route definitions names a set of sinks for every tenant and one for all tenants
together.  `compileRoutes` accepts the list if each definition is well formed and these sets
are small enough, and its result lists them in order.  Neither depends on the order in which
the definitions stand.
-/

namespace Netbaiot.EventBus

open Lib AList

variable {routes : List RouteDefinition} {sinks : Table SinkId SinkState} {limits : Limits}

/-- The sinks that the routes of a tenant name, or the global routes. -/
def namedBy (routes : List RouteDefinition) (tenant : Option TenantId) : Finset SinkId :=
  ((routes.filter (·.tenant = tenant)).flatMap (·.sinks)).toFinset

theorem mem_namedBy {tenant : Option TenantId} {id : SinkId} :
    id ∈ namedBy routes tenant ↔ ∃ route ∈ routes, route.tenant = tenant ∧ id ∈ route.sinks := by
  simp [namedBy, and_assoc]

@[simp] theorem namedBy_nil (tenant : Option TenantId) : namedBy [] tenant = ∅ := rfl

theorem namedBy_cons (route : RouteDefinition) (routes : List RouteDefinition)
    (tenant : Option TenantId) :
    namedBy (route :: routes) tenant =
      (if route.tenant = tenant then route.sinks.toFinset else ∅) ∪ namedBy routes tenant := by
  ext id
  split <;> simp_all [mem_namedBy]

theorem not_fanoutExceeded {size : ℕ} : ¬ fanoutExceeded limits size = true ↔
    size ≤ limits.maxFanoutPerEvent ∧ size ≤ limits.maxSinksPerTenant := by
  simp [fanoutExceeded]

/-- A set of sinks is not too large for one event. -/
def SmallFanout (limits : Limits) (own : Finset SinkId) : Prop :=
  ¬ fanoutExceeded limits own.card = true

theorem SmallFanout.mono {own own' : Finset SinkId} (h : SmallFanout limits own)
    (hsub : own' ⊆ own) : SmallFanout limits own' := by
  unfold SmallFanout at *
  rw [not_fanoutExceeded] at *
  have hcard := Finset.card_le_card hsub
  omega

/-- A definition names at least one sink, none twice, and only registered ones. -/
def RouteDefinition.WellFormed (route : RouteDefinition) (sinks : Table SinkId SinkState) : Prop :=
  route.sinks ≠ [] ∧ route.sinks.Nodup ∧ ∀ id ∈ route.sinks, id ∈ sinks

/-- What was collected for a tenant, or for all tenants. -/
def RouteSets.collected (sets : RouteSets) : Option TenantId → Finset SinkId
  | none => sets.global
  | some tenant => (sets.tenants.lookup tenant).getD ∅

/-- A definition that is well formed and not too large adds its sinks to the set of its tenant;
any other is refused. -/
theorem addRoute_spec (sets : RouteSets) (route : RouteDefinition) :
    ((∃ sets', addRoute sinks limits sets route = .ok sets' ∧
        ∀ tenant, sets'.collected tenant = sets.collected tenant ∪ namedBy [route] tenant) ∧
      route.WellFormed sinks ∧
        SmallFanout limits (sets.collected route.tenant ∪ route.sinks.toFinset)) ∨
    addRoute sinks limits sets route = .error .configuration ∧ ¬ (route.WellFormed sinks ∧
      SmallFanout limits (sets.collected route.tenant ∪ route.sinks.toFinset)) := by
  have hcard : route.sinks.Nodup → route.sinks.toFinset.card = route.sinks.length :=
    List.toFinset_card_of_nodup
  have hsub : route.sinks.toFinset ⊆ sets.collected route.tenant ∪ route.sinks.toFinset :=
    Finset.subset_union_right
  have hadded : ∀ sets' : RouteSets,
      (∀ tenant, sets'.collected tenant = if route.tenant = tenant then
        sets.collected route.tenant ∪ route.sinks.toFinset else sets.collected tenant) →
      ∀ tenant, sets'.collected tenant = sets.collected tenant ∪ namedBy [route] tenant := by
    intro sets' h tenant
    rw [h, namedBy_cons]
    split
    · next heq => rw [heq, namedBy_nil, Finset.union_empty]
    · simp
  have hformed : ¬ (route.sinks.toFinset = ∅ ∨
      route.sinks.toFinset.card ≠ route.sinks.length ∨
      fanoutExceeded limits route.sinks.toFinset.card = true ∨
      ∃ id ∈ route.sinks.toFinset, id ∉ sinks) → route.WellFormed sinks := by
    intro h
    simp only [not_or, not_not, not_exists, not_and, List.toFinset_eq_empty_iff,
      List.mem_toFinset] at h
    exact ⟨h.1, Multiset.toFinset_card_eq_card_iff_nodup.mp h.2.1, h.2.2.2⟩
  fun_cases addRoute sinks limits sets route with
  | case1 hlength =>
    refine .inr ⟨rfl, fun ⟨hwell, hsmall⟩ => hsmall.mono hsub ?_⟩
    rwa [hcard hwell.2.1]
  | case2 _ hlength hbad =>
    refine .inr ⟨rfl, fun ⟨⟨hsome, hnodup, hknown⟩, hsmall⟩ => ?_⟩
    rcases hbad with hempty | hdup | hlarge | ⟨id, hid, hmissing⟩
    · exact hsome ((List.toFinset_eq_empty_iff _).mp hempty)
    · exact hdup (hcard hnodup)
    · exact hsmall.mono hsub hlarge
    · exact hmissing (hknown id (List.mem_toFinset.mp hid))
  | case3 _ _ _ tenant htenant _ hlarge =>
    refine .inr ⟨rfl, fun ⟨_, hsmall⟩ => hsmall ?_⟩
    rw [htenant]
    exact hlarge
  | case4 _ _ hgood tenant htenant _ hsmall =>
    refine .inl ⟨⟨_, rfl, hadded _ fun key => ?_⟩, hformed hgood, ?_⟩
    · rw [htenant]
      split
      · next heq =>
        subst heq
        exact congrArg (Option.getD · ∅) (lookup_insert sets.tenants)
      · next hne =>
        cases key with
        | none => rfl
        | some key =>
          exact congrArg (Option.getD · ∅) (lookup_insert_ne fun heq => hne (heq ▸ rfl))
    · rw [htenant]
      exact hsmall
  | case5 _ _ _ htenant _ hlarge =>
    refine .inr ⟨rfl, fun ⟨_, hsmall⟩ => hsmall ?_⟩
    rw [htenant]
    exact hlarge
  | case6 _ _ hgood htenant _ hsmall =>
    refine .inl ⟨⟨_, rfl, hadded _ fun key => ?_⟩, hformed hgood, ?_⟩
    · rw [htenant]
      cases key <;> rfl
    · rw [htenant]
      exact hsmall

/-- What makes a list of definitions acceptable. -/
def Compilable (routes : List RouteDefinition) (sinks : Table SinkId SinkState)
    (limits : Limits) : Prop :=
  routes ≠ [] ∧ routes.length ≤ limits.maxRoutingFilters ∧
    (∀ route ∈ routes, route.WellFormed sinks) ∧ SmallFanout limits (namedBy routes none) ∧
    ∀ tenant, SmallFanout limits (namedBy routes (some tenant) ∪ namedBy routes none)

/-- The definitions are collected one after the other as far as every set stays small. -/
theorem foldlM_addRoute (routes : List RouteDefinition) {sets : RouteSets}
    (hsets : ∀ tenant, SmallFanout limits (sets.collected tenant)) :
    ((∃ sets', routes.foldlM (addRoute sinks limits) sets = .ok sets' ∧
        ∀ tenant, sets'.collected tenant = sets.collected tenant ∪ namedBy routes tenant) ∧
      (∀ route ∈ routes, route.WellFormed sinks) ∧
        ∀ tenant, SmallFanout limits (sets.collected tenant ∪ namedBy routes tenant)) ∨
    routes.foldlM (addRoute sinks limits) sets = .error .configuration ∧
      ¬ ((∀ route ∈ routes, route.WellFormed sinks) ∧
        ∀ tenant, SmallFanout limits (sets.collected tenant ∪ namedBy routes tenant)) := by
  induction routes generalizing sets with
  | nil => exact .inl ⟨⟨sets, rfl, by simp⟩, by simp, by simpa using hsets⟩
  | cons route routes ih =>
    have hunion : ∀ tenant, sets.collected tenant ∪ namedBy (route :: routes) tenant =
        sets.collected tenant ∪ namedBy [route] tenant ∪ namedBy routes tenant := by
      intro tenant
      rw [namedBy_cons, namedBy_cons route [], namedBy_nil, Finset.union_empty, Finset.union_assoc]
    simp only [List.foldlM_cons, List.forall_mem_cons, hunion]
    rcases addRoute_spec sets route with ⟨⟨sets₁, hadd, hsame⟩, hwell, hsmall⟩ | ⟨hadd, hbad⟩
    · rw [hadd]
      have hsets₁ : ∀ tenant, SmallFanout limits (sets₁.collected tenant) := by
        intro tenant
        rw [hsame, namedBy_cons]
        split
        · next heq =>
          subst heq
          simpa using hsmall
        · simpa using hsets tenant
      simp only [← hsame]
      rcases ih hsets₁ with ⟨hcollect, hrest, hall⟩ | ⟨hfail, hbad⟩
      · exact .inl ⟨hcollect, ⟨hwell, hrest⟩, hall⟩
      · exact .inr ⟨hfail, fun ⟨⟨_, hrest⟩, hall⟩ => hbad ⟨hrest, hall⟩⟩
    · rw [hadd]
      refine .inr ⟨rfl, fun ⟨⟨hwell, _⟩, hall⟩ => hbad ⟨hwell, (hall route.tenant).mono ?_⟩⟩
      rw [namedBy_cons, if_pos rfl, namedBy_nil, Finset.union_empty]
      exact Finset.subset_union_left

/-- A list that is acceptable compiles to the sinks named for each tenant, in order; any other
list is refused. -/
theorem compileRoutes_spec (routes : List RouteDefinition) (sinks : Table SinkId SinkState)
    (limits : Limits) :
    ((∃ compiled, compileRoutes routes sinks limits = .ok compiled ∧ ∀ tenant,
        compiled.forTenant tenant = (namedBy routes (some tenant) ∪ namedBy routes none).sort) ∧
      Compilable routes sinks limits) ∨
    compileRoutes routes sinks limits = .error .configuration ∧
      ¬ Compilable routes sinks limits := by
  have hempty : ∀ tenant, SmallFanout limits (RouteSets.collected ⟨∅, ∅⟩ tenant) := by
    intro tenant
    cases tenant <;> simp [RouteSets.collected, SmallFanout, fanoutExceeded]
  have hnone : ∀ tenant, RouteSets.collected ⟨∅, ∅⟩ tenant = ∅ := by
    intro tenant
    cases tenant <;> rfl
  unfold compileRoutes check
  split
  · next hcount =>
    simp only [not_or, not_lt] at hcount
    rcases foldlM_addRoute routes hempty with ⟨⟨sets, hcollect, hsets⟩, hwell, hsmall⟩ |
      ⟨hfail, hbad⟩
    · simp only [hnone, Finset.empty_union] at hsets hsmall
      have hglobal : sets.global = namedBy routes none := hsets none
      have hown : ∀ tenant, (sets.tenants.lookup tenant).getD ∅ = namedBy routes (some tenant) :=
        fun tenant => hsets (some tenant)
      have heffective : (∀ own ∈ (sets.tenants.mapValues fun _ own => own ∪ sets.global).values,
          ¬ fanoutExceeded limits own.card = true) ↔
          ∀ tenant, SmallFanout limits (namedBy routes (some tenant) ∪ namedBy routes none) := by
        simp only [mem_values_iff, lookup_mapValues, Option.map_eq_some_iff, ← hown, ← hglobal]
        constructor
        · intro h tenant
          cases htenant : sets.tenants.lookup tenant with
          | none => simpa [hglobal] using hsmall none
          | some own => exact h _ ⟨tenant, own, htenant, rfl⟩
        · rintro h _ ⟨tenant, own, htenant, rfl⟩
          have hsmall := h tenant
          rwa [htenant] at hsmall
      rw [hcollect]
      simp only [bind, Except.bind]
      by_cases hfits : ∀ own ∈ (sets.tenants.mapValues fun _ own => own ∪ sets.global).values,
          ¬ fanoutExceeded limits own.card = true
      · rw [if_pos hfits]
        refine .inl ⟨⟨_, rfl, fun tenant => ?_⟩, hcount.1, hcount.2, hwell, hsmall none,
          heffective.mp hfits⟩
        rw [← hown, ← hglobal]
        simp only [CompiledRoutes.forTenant, lookup_mapValues]
        cases sets.tenants.lookup tenant with
        | none => simp
        | some own => rfl
      · rw [if_neg hfits]
        exact .inr ⟨rfl, fun ⟨_, _, _, _, hall⟩ => hfits (heffective.mpr hall)⟩
    · simp only [hnone, Finset.empty_union] at hbad
      rw [hfail]
      refine .inr ⟨rfl, fun ⟨_, _, hwell, hglobal, hall⟩ => hbad ⟨hwell, fun tenant => ?_⟩⟩
      cases tenant with
      | none => exact hglobal
      | some tenant => exact (hall tenant).mono Finset.subset_union_left
  · next hcount =>
    refine .inr ⟨rfl, fun ⟨hsome, hfew, _⟩ => hcount ?_⟩
    rintro (h | h)
    · exact hsome h
    · exact Nat.not_lt.mpr hfew h

theorem compileRoutes_ok {compiled : CompiledRoutes}
    (h : compileRoutes routes sinks limits = .ok compiled) :
    (∀ tenant, compiled.forTenant tenant =
      (namedBy routes (some tenant) ∪ namedBy routes none).sort) ∧
      Compilable routes sinks limits := by
  rcases compileRoutes_spec routes sinks limits with ⟨⟨_, hcompile, hsorted⟩, hroutes⟩ | ⟨hfail, _⟩
  · cases h.symm.trans hcompile
    exact ⟨hsorted, hroutes⟩
  · cases h.symm.trans hfail

variable {routes' : List RouteDefinition} (hperm : routes.Perm routes')

include hperm

theorem namedBy_perm (tenant : Option TenantId) :
    namedBy routes' tenant = namedBy routes tenant := by
  ext id
  simp only [mem_namedBy, hperm.mem_iff]

theorem Compilable.perm (h : Compilable routes sinks limits) : Compilable routes' sinks limits := by
  obtain ⟨hsome, hfew, hwell, hsmall⟩ := h
  refine ⟨fun hnil => hsome ?_, hperm.length_eq ▸ hfew, ?_, ?_⟩
  · subst hnil
    exact hperm.eq_nil
  · exact fun route hroute => hwell route (hperm.mem_iff.mpr hroute)
  · simpa only [namedBy_perm hperm] using hsmall

omit hperm

/-- Compiled routes list for every tenant the sinks of the global routes and of its own, in
order, each once and not too many.  Whether routes compile and to what does not depend on
their order, and a route of one tenant changes nothing for another. -/
theorem compiled_routes (routes : List RouteDefinition) (sinks : Table SinkId SinkState)
    (limits : Limits) :
    (∀ compiled, compileRoutes routes sinks limits = .ok compiled → ∀ tenant,
      (∀ id, id ∈ compiled.forTenant tenant ↔ ∃ route ∈ routes,
        (route.tenant = none ∨ route.tenant = some tenant) ∧ id ∈ route.sinks) ∧
      (compiled.forTenant tenant).Pairwise (· < ·) ∧
      (compiled.forTenant tenant).length ≤ limits.maxFanoutPerEvent ∧
      (compiled.forTenant tenant).length ≤ limits.maxSinksPerTenant) ∧
    (∀ routes', routes.Perm routes' →
      (compileRoutes routes' sinks limits).map CompiledRoutes.forTenant =
        (compileRoutes routes sinks limits).map CompiledRoutes.forTenant) ∧
    ∀ before route after compiled compiled', routes = before ++ route :: after →
      compileRoutes routes sinks limits = .ok compiled →
      compileRoutes (before ++ after) sinks limits = .ok compiled' →
      ∀ tenant, route.tenant ≠ none → route.tenant ≠ some tenant →
        compiled.forTenant tenant = compiled'.forTenant tenant := by
  refine ⟨fun compiled h tenant => ?_, fun routes' hperm => ?_, ?_⟩
  · obtain ⟨hsorted, _, _, _, _, hsmall⟩ := compileRoutes_ok h
    have hbounds := not_fanoutExceeded.mp (hsmall tenant)
    rw [hsorted, Finset.length_sort]
    refine ⟨fun id => ?_, (Finset.sortedLT_sort _).pairwise, hbounds⟩
    simp only [Finset.mem_sort, Finset.mem_union, mem_namedBy]
    grind
  · rcases compileRoutes_spec routes sinks limits with ⟨⟨_, hcompile, hsorted⟩, hroutes⟩ |
      ⟨hfail, hrefused⟩
    · rcases compileRoutes_spec routes' sinks limits with ⟨⟨_, hcompile', hsorted'⟩, _⟩ |
        ⟨_, hrefused⟩
      · rw [hcompile, hcompile']
        refine congrArg Except.ok (funext fun tenant => ?_)
        rw [hsorted, hsorted', namedBy_perm hperm, namedBy_perm hperm]
      · exact absurd (hroutes.perm hperm) hrefused
    · rcases compileRoutes_spec routes' sinks limits with ⟨_, hroutes⟩ | ⟨hfail', _⟩
      · exact absurd (hroutes.perm hperm.symm) hrefused
      · rw [hfail, hfail']
  · rintro before route after compiled compiled' rfl h h' tenant hglobal hother
    have hsame : ∀ key, route.tenant ≠ key →
        namedBy (before ++ route :: after) key = namedBy (before ++ after) key := by
      intro key hkey
      ext id
      simp only [mem_namedBy, List.mem_append, List.mem_cons]
      grind
    rw [(compileRoutes_ok h).1, (compileRoutes_ok h').1, hsame _ hglobal, hsame _ hother]

end Netbaiot.EventBus
