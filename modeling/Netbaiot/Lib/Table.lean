import Mathlib.Data.List.AList
import Mathlib.Data.Finset.Card
import Mathlib.Data.Finset.Image
import Mathlib.Data.Finset.Range
import Mathlib.Algebra.BigOperators.Group.List.Basic
import Mathlib.Algebra.BigOperators.Ring.List
import Mathlib.Algebra.Order.Group.Nat
import Mathlib.Algebra.Order.BigOperators.Group.List
import Mathlib.Tactic.Abel

/-!
# Finite tables and their totals

A table is an association list with distinct keys.  Cached counters of a program
are specified as totals of a weight over the table they summarise, so the lemmas
here say how such a total moves when one entry is inserted, replaced or erased.
-/

namespace Netbaiot.Lib

universe u v

/-- A finite map from keys to values of one type. -/
abbrev Table (κ : Type u) (ν : Type v) := AList fun _ : κ => ν

end Netbaiot.Lib

namespace AList

open Netbaiot.Lib

universe u v w

variable {κ : Type u} {ν : Type v} {M : Type w}

variable {t t' : Table κ ν} {k : κ} {v : ν}

/-- The values of a table, in the order in which its entries are stored. -/
def values (t : Table κ ν) : List ν := t.entries.map fun e => e.2

/-- The number of entries of a table. -/
def size (t : Table κ ν) : ℕ := t.entries.length

/-- The sum of a weight over all entries of a table. -/
def total [AddCommMonoid M] (weight : κ → ν → M) (t : Table κ ν) : M :=
  (t.entries.map fun e => weight e.1 e.2).sum

/-- Apply a function to every value of a table. -/
def mapValues {μ : Type w} (f : κ → ν → μ) (t : Table κ ν) : Table κ μ :=
  ⟨t.entries.map fun e => ⟨e.1, f e.1 e.2⟩, by
    simpa [List.NodupKeys, List.keys, Function.comp_def] using t.nodupKeys⟩

/-- The entries of a table that pass a test. -/
def retain (keep : κ → ν → Bool) (t : Table κ ν) : Table κ ν :=
  ⟨t.entries.filter fun e => keep e.1 e.2, List.NodupKeys.sublist List.filter_sublist t.nodupKeys⟩

/-- The smallest key of a table whose keys are ordered. -/
def firstKey? [LinearOrder κ] (t : Table κ ν) : Option κ := t.keys.min?

/-- The entry with the smallest key, and the table without it. -/
def popFirst [LinearOrder κ] (t : Table κ ν) : Option (κ × ν × Table κ ν) :=
  t.firstKey?.bind fun k => (t.lookup k).map fun v => (k, v, t.erase k)

/-- Store a value at a key, or remove the key. -/
def put [DecidableEq κ] (k : κ) (v : Option ν) (t : Table κ ν) : Table κ ν :=
  v.elim (t.erase k) fun v => t.insert k v

/-- Filtering a table leaves at most its entries. -/
theorem size_retain_le (keep : κ → ν → Bool) (t : Table κ ν) : (t.retain keep).size ≤ t.size :=
  List.length_filter_le _ _

section Lookup

variable [DecidableEq κ]

/-- Lookups in a table with one entry replaced. -/
theorem lookup_insert_eq (k k' : κ) (v : ν) (t : Table κ ν) :
    (t.insert k v).lookup k' = if k' = k then some v else t.lookup k' := by
  by_cases h : k' = k
  · subst h
    simp
  · simp [lookup_insert_ne h, h]

/-- Lookups in a table with one key removed. -/
theorem lookup_erase_eq (k k' : κ) (t : Table κ ν) :
    (t.erase k).lookup k' = if k' = k then none else t.lookup k' := by
  by_cases h : k' = k
  · subst h
    simp
  · simp [lookup_erase_ne h, h]

/-- Lookups in a table with one key stored or removed. -/
theorem lookup_put (k k' : κ) (v : Option ν) (t : Table κ ν) :
    (t.put k v).lookup k' = if k' = k then v else t.lookup k' := by
  cases v with
  | none => exact lookup_erase_eq k k' t
  | some v => exact lookup_insert_eq k k' v t

/-- An entry found after one was stored is the new one or was there before. -/
theorem of_lookup_insert {k' : κ} {v' : ν} (h : (t.insert k v).lookup k' = some v') :
    k' = k ∧ v' = v ∨ k' ≠ k ∧ t.lookup k' = some v' := by
  rw [lookup_insert_eq] at h
  split at h
  · next hk => exact .inl ⟨hk, (Option.some.inj h).symm⟩
  · next hk => exact .inr ⟨hk, h⟩

theorem of_lookup_erase {k' : κ} (h : (t.erase k).lookup k' = some v) :
    k' ≠ k ∧ t.lookup k' = some v := by
  rw [lookup_erase_eq] at h
  split at h
  · cases h
  · next hk => exact ⟨hk, h⟩

/-- What holds of all entries and of a new one holds of all entries after it was stored. -/
theorem forall_lookup_insert {P : κ → ν → Prop} (hold : ∀ k v, t.lookup k = some v → P k v)
    (hnew : P k v) : ∀ k' v', (t.insert k v).lookup k' = some v' → P k' v' := by
  intro k' v' h
  rcases of_lookup_insert h with ⟨rfl, rfl⟩ | ⟨-, h⟩
  · exact hnew
  · exact hold k' v' h

@[simp] theorem put_some (k : κ) (v : ν) (t : Table κ ν) : t.put k (some v) = t.insert k v := rfl

@[simp] theorem put_none (k : κ) (t : Table κ ν) : t.put k none = t.erase k := rfl

/-- Lookups in a table whose values were mapped. -/
theorem lookup_mapValues {μ : Type w} (f : κ → ν → μ) (t : Table κ ν) (k : κ) :
    (t.mapValues f).lookup k = (t.lookup k).map (f k) := by
  rcases t with ⟨entries, hnodup⟩
  simp only [mapValues, AList.lookup]
  clear hnodup
  induction entries with
  | nil => rfl
  | cons e rest ih =>
    rcases e with ⟨k', v⟩
    by_cases hk : k = k'
    · subst hk
      simp
    · have hold := List.dlookup_cons_ne rest (⟨k', v⟩ : Sigma fun _ : κ => ν) hk
      have hnew := List.dlookup_cons_ne (rest.map fun e => ⟨e.1, f e.1 e.2⟩)
        (⟨k', f k' v⟩ : Sigma fun _ : κ => μ) hk
      rw [List.map_cons, hold, hnew, ih]

/-- Lookups in a union prefer the left table. -/
theorem lookup_union_eq (k : κ) (t t' : Table κ ν) :
    (t ∪ t').lookup k = (t.lookup k).or (t'.lookup k) := by
  cases hk : t.lookup k with
  | none => simp [lookup_union_right (lookup_eq_none.mp hk)]
  | some v =>
    have hmem : k ∈ t := lookup_isSome.mp (by simp [hk])
    simp [lookup_union_left hmem, hk]

/-- An entry is stored exactly when looking up its key finds its value. -/
theorem mem_entries_iff : (⟨k, v⟩ : Sigma fun _ : κ => ν) ∈ t.entries ↔ t.lookup k = some v :=
  (mem_lookup_iff (s := t)).symm

/-- A key is present exactly when it has a value. -/
theorem mem_iff_lookup : k ∈ t ↔ ∃ v, t.lookup k = some v := by
  rw [← lookup_isSome, Option.isSome_iff_exists]

/-- Looking up in a filtered table finds what passes the test. -/
theorem lookup_retain (keep : κ → ν → Bool) (t : Table κ ν) (k : κ) :
    (t.retain keep).lookup k = (t.lookup k).filter (keep k) := by
  refine Option.ext fun v => ?_
  rw [Option.filter_eq_some_iff, ← mem_entries_iff, ← mem_entries_iff]
  exact List.mem_filter

/-- A value is stored exactly when some key finds it. -/
theorem mem_values_iff : v ∈ t.values ↔ ∃ k, t.lookup k = some v := by
  simp only [values, List.mem_map, Sigma.exists]
  constructor
  · rintro ⟨k, v', hmem, rfl⟩
    exact ⟨k, mem_entries_iff.mp hmem⟩
  · rintro ⟨k, hk⟩
    exact ⟨k, v, mem_entries_iff.mpr hk, rfl⟩

/-- Erasing an absent key changes nothing. -/
theorem erase_of_lookup_none (h : t.lookup k = none) : t.erase k = t := by
  apply AList.ext
  exact List.kerase_of_notMem_keys fun hk => lookup_eq_none.mp h (mem_keys.mpr hk)

/-- The values after an insertion: the new one, then those of the other keys. -/
theorem values_insert (k : κ) (v : ν) (t : Table κ ν) :
    (t.insert k v).values = v :: (t.erase k).values := rfl

/-- Erasing a key undoes an insertion at it. -/
theorem erase_insert (k : κ) (v : ν) (t : Table κ ν) : (t.insert k v).erase k = t.erase k := by
  apply AList.ext
  show List.kerase k (t.insert k v).entries = List.kerase k t.entries
  simp [AList.entries_insert]

/-- Two tables with the same lookups store the same entries up to order. -/
theorem perm_of_lookup (h : ∀ k, t.lookup k = t'.lookup k) : t.entries.Perm t'.entries :=
  List.lookup_ext t.nodupKeys t'.nodupKeys fun k v => by
    change v ∈ t.lookup k ↔ v ∈ t'.lookup k
    rw [h k]

/-- A table that contains nothing is the empty one. -/
theorem eq_empty_of_lookup (h : ∀ k, t.lookup k = none) : t = ∅ := by
  have hperm : t.entries.Perm (∅ : Table κ ν).entries := perm_of_lookup h
  exact AList.ext (List.perm_nil.mp hperm)

/-- A stored value followed by the values of the other keys. -/
theorem values_perm_of_lookup (h : t.lookup k = some v) :
    t.values.Perm (v :: (t.erase k).values) := by
  rw [← values_insert]
  apply List.Perm.map
  apply perm_of_lookup
  intro k'
  rw [lookup_insert_eq]
  split
  · next hk => rw [hk, h]
  · rfl

/-- Erasing a stored key leaves one entry less. -/
theorem size_erase (h : t.lookup k = some v) : (t.erase k).size + 1 = t.size := by
  have hperm := (values_perm_of_lookup h).length_eq
  simp only [values, List.length_map, List.length_cons, size] at hperm ⊢
  exact hperm.symm

/-- An insertion adds one entry to those of the other keys. -/
theorem size_insert (k : κ) (v : ν) (t : Table κ ν) :
    (t.insert k v).size = (t.erase k).size + 1 := rfl

/-- Erasing a key leaves at most the other entries. -/
theorem size_erase_le (k : κ) (t : Table κ ν) : (t.erase k).size ≤ t.size := by
  cases h : t.lookup k with
  | none => rw [erase_of_lookup_none h]
  | some v => exact (Nat.le_succ _).trans_eq (size_erase h)

/-- An entry fits in a bounded table if its key is there already or the table is not full. -/
theorem size_insert_le {bound : ℕ} (hroom : k ∈ t ∨ t.size < bound) (hsize : t.size ≤ bound)
    (v : ν) : (t.insert k v).size ≤ bound := by
  rcases hroom with hmem | hlt
  · obtain ⟨old, hold⟩ := mem_iff_lookup.mp hmem
    exact (size_erase hold).trans_le hsize
  · exact Nat.succ_le_of_lt ((size_erase_le k t).trans_lt hlt)

/-- Keys are distinct, so a table has as many keys as entries. -/
theorem card_keys (t : Table κ ν) : t.keys.toFinset.card = t.size := by
  rw [List.toFinset_card_of_nodup t.keys_nodup, size, keys, List.keys, List.length_map]

theorem mem_keys_insert {k' : κ} : k' ∈ (t.insert k v).keys ↔ k' = k ∨ k' ∈ t.keys := by
  simp only [← mem_keys, mem_insert]

end Lookup

section First

variable [LinearOrder κ]

/-- The smallest key of a table is one of its keys. -/
theorem firstKey?_mem (h : t.firstKey? = some k) : k ∈ t :=
  mem_keys.mpr (List.min?_mem h)

/-- The smallest key of a table has a value. -/
theorem firstKey?_lookup (h : t.firstKey? = some k) : ∃ v, t.lookup k = some v :=
  mem_iff_lookup.mp (firstKey?_mem h)

/-- No key of a table is smaller than the smallest. -/
theorem firstKey?_le {k' : κ} (h : t.firstKey? = some k) (hmem : k' ∈ t) : k ≤ k' :=
  (List.min?_eq_some_iff.mp h).2 k' (mem_keys.mp hmem)

/-- Popping takes out an entry of the table. -/
theorem popFirst_eq_some (h : t.popFirst = some (k, v, t')) :
    t.lookup k = some v ∧ t' = t.erase k := by
  simp only [popFirst, Option.bind_eq_some_iff, Option.map_eq_some_iff, Prod.mk.injEq] at h
  obtain ⟨_, _, _, hlookup, rfl, rfl, rfl⟩ := h
  exact ⟨hlookup, rfl⟩

/-- Popping takes out the smallest key. -/
theorem popFirst_le {k' : κ} (h : t.popFirst = some (k, v, t')) (hmem : k' ∈ t) : k ≤ k' := by
  simp only [popFirst, Option.bind_eq_some_iff, Option.map_eq_some_iff, Prod.mk.injEq] at h
  obtain ⟨_, hfirst, _, _, rfl, _, _⟩ := h
  exact firstKey?_le hfirst hmem

/-- There is nothing to pop only from the empty table. -/
theorem popFirst_eq_none (h : t.popFirst = none) : t = ∅ := by
  cases hfirst : t.firstKey? with
  | none =>
    have hkeys : t.keys = [] := List.min?_eq_none_iff.mp hfirst
    exact AList.ext (List.map_eq_nil_iff.mp hkeys)
  | some k =>
    obtain ⟨v, hv⟩ := firstKey?_lookup hfirst
    simp [popFirst, hfirst, hv] at h

end First

section Total

variable [AddCommMonoid M] (f g : κ → ν → M)

@[simp] theorem total_empty : total f (∅ : Table κ ν) = 0 := rfl

/-- Totals do not depend on the order of the entries. -/
theorem total_of_perm (h : t.entries.Perm t'.entries) : total f t = total f t' :=
  (h.map _).sum_eq

/-- Totals of weights that agree on every entry are equal. -/
theorem total_congr [DecidableEq κ] {f g : κ → ν → M}
    (h : ∀ k v, t.lookup k = some v → f k v = g k v) : total f t = total g t := by
  unfold total
  congr 1
  apply List.map_congr_left
  intro e he
  exact h e.1 e.2 (mem_entries_iff.mp he)

/-- The total of a sum of two weights is the sum of their totals. -/
theorem total_add (t : Table κ ν) : total (fun k v => f k v + g k v) t = total f t + total g t := by
  simp [total, List.sum_map_add]

/-- The total of a weight that vanishes on every entry is zero. -/
theorem total_eq_zero [DecidableEq κ] {f : κ → ν → M} (h : ∀ k v, t.lookup k = some v → f k v = 0) :
    total f t = 0 := by
  rw [total_congr (g := fun _ _ => 0) h]
  simp [total]

/-- The weight of an optional entry: nothing when it is absent. -/
def weigh (weight : κ → ν → M) (k : κ) (v : Option ν) : M := v.elim 0 (weight k)

@[simp] theorem weigh_none (k : κ) : weigh f k none = 0 := rfl

@[simp] theorem weigh_some (k : κ) (v : ν) : weigh f k (some v) = f k v := rfl

/-- The number of entries is the total of the constant weight one. -/
theorem size_eq_total (t : Table κ ν) : t.size = total (fun _ _ => 1) t := by
  simp [size, total]

/-- A constant factor of a weight is one of its total. -/
theorem total_mul_left (c : ℕ) (f : κ → ν → ℕ) (t : Table κ ν) :
    total (fun k v => c * f k v) t = c * total f t := by
  exact List.sum_map_mul_left t.entries (fun e => f e.1 e.2) c

variable [DecidableEq κ]

/-- Inserting an entry replaces the weight of its key. -/
theorem total_insert (k : κ) (v : ν) (t : Table κ ν) :
    total f (t.insert k v) = f k v + total f (t.erase k) := by
  have hentries : (t.erase k).entries = List.kerase k t.entries := rfl
  simp [total, AList.entries_insert, hentries]

/-- Inserting at an absent key adds the weight of the new entry. -/
theorem total_insert_new (h : t.lookup k = none) : total f (t.insert k v) = f k v + total f t := by
  rw [total_insert, erase_of_lookup_none h]

/-- A stored entry contributes its weight to the total. -/
theorem total_of_lookup (h : t.lookup k = some v) : total f t = f k v + total f (t.erase k) := by
  rw [← total_insert]
  apply total_of_perm
  apply perm_of_lookup
  intro k'
  rw [lookup_insert_eq]
  split
  · next hk => rw [hk, h]
  · rfl

/-- Storing or removing one key moves a total by the weights of that key. -/
theorem total_put (k : κ) (v : Option ν) (t : Table κ ν) :
    total f (t.put k v) + weigh f k (t.lookup k) = total f t + weigh f k v := by
  have hold : total f t = weigh f k (t.lookup k) + total f (t.erase k) := by
    cases hk : t.lookup k with
    | none => simp [erase_of_lookup_none hk]
    | some v => exact total_of_lookup f hk
  have hnew : total f (t.put k v) = weigh f k v + total f (t.erase k) := by
    cases v with
    | none => simp [put]
    | some v => exact total_insert f k v t
  rw [hold, hnew]
  abel

/-- A stored entry weighs at most the whole table. -/
theorem le_total {f : κ → ν → ℕ} (h : t.lookup k = some v) : f k v ≤ total f t := by
  rw [total_of_lookup f h]
  exact Nat.le_add_right _ _

/-- Inserting an entry adds at most its weight. -/
theorem total_insert_le {f : κ → ν → ℕ} (k : κ) (v : ν) (t : Table κ ν) :
    total f (t.insert k v) ≤ total f t + f k v := by
  have := total_put f k (some v) t
  rw [put_some, weigh_some] at this
  omega

/-- Erasing a key takes nothing else away. -/
theorem total_erase_le {f : κ → ν → ℕ} (k : κ) (t : Table κ ν) :
    total f (t.erase k) ≤ total f t := by
  have := total_put f k none t
  rw [put_none, weigh_none] at this
  omega

/-- Totals of weights ordered on every entry are ordered. -/
theorem total_le_total {f g : κ → ν → ℕ} (h : ∀ k v, t.lookup k = some v → f k v ≤ g k v) :
    total f t ≤ total g t := by
  apply List.sum_le_sum
  intro e he
  exact h e.1 e.2 (mem_entries_iff.mp he)

/-- A table with fewer keys has a smaller total of a weight of the keys. -/
theorem total_le_of_keys {f : κ → ℕ}
    (h : ∀ k v, t'.lookup k = some v → ∃ v', t.lookup k = some v') :
    total (fun k _ => f k) t' ≤ total (fun k _ => f k) t := by
  have hkeys : ∀ t : Table κ ν, total (fun k _ => f k) t = (t.keys.map f).sum := by
    intro t
    simp [total, keys, List.keys, Function.comp_def]
  have hsubset : t'.keys ⊆ t.keys := by
    intro k hk
    obtain ⟨v, hv⟩ := mem_iff_lookup.mp (mem_keys.mpr hk)
    exact mem_keys.mp (mem_iff_lookup.mpr (h k v hv))
  obtain ⟨l, hperm, hsub⟩ := t'.keys_nodup.subperm hsubset
  rw [hkeys, hkeys, ← (hperm.map f).sum_eq]
  exact (hsub.map f).sum_le_sum fun _ _ => Nat.zero_le _

/-- A total of natural weights is zero exactly when every entry weighs nothing. -/
theorem total_eq_zero_iff {f : κ → ν → ℕ} :
    total f t = 0 ↔ ∀ k v, t.lookup k = some v → f k v = 0 := by
  refine ⟨fun h k v hk => ?_, total_eq_zero⟩
  have := le_total (f := f) hk
  omega

/-- The total of a weight that only one key has. -/
theorem total_single (k : κ) (f : ν → M) (t : Table κ ν) :
    total (fun k' v => if k = k' then f v else 0) t = weigh (fun _ v => f v) k (t.lookup k) := by
  cases hk : t.lookup k with
  | none =>
    refine total_eq_zero fun k' v hk' => if_neg ?_
    rintro rfl
    cases hk.symm.trans hk'
  | some v =>
    have hrest : total (fun k' v => if k = k' then f v else 0) (t.erase k) = 0 := by
      refine total_eq_zero fun k' v hk' => if_neg ?_
      rintro rfl
      rw [lookup_erase_eq, if_pos rfl] at hk'
      cases hk'
    rw [total_of_lookup _ hk, hrest, if_pos rfl, add_zero, weigh_some]

/-- Summing over the entries of one table that belong to each entry of another sums over all that
belong to one. -/
theorem total_total {ι μ : Type u} (key : μ → κ) (f : ν → μ → M) (t : Table κ ν) (t' : Table ι μ) :
    total (fun k v => total (fun _ w => if key w = k then f v w else 0) t') t =
      total (fun _ w => weigh (fun _ v => f v w) (key w) (t.lookup (key w))) t' := by
  unfold total
  induction t'.entries with
  | nil => simp
  | cons e rest ih =>
    have hsingle := total_single (key e.2) (fun v => f v e.2) t
    unfold total at hsingle
    simp only [List.map_cons, List.sum_cons, List.sum_map_add]
    rw [ih, hsingle]

/-- Counting the members of a list by their keys counts all of them. -/
theorem total_countP {α : Type u} (key : α → κ) {l : List α}
    (h : ∀ x ∈ l, (t.lookup (key x)).isSome) :
    total (fun k _ => l.countP fun x => key x = k) t = l.length := by
  induction l with
  | nil => exact total_eq_zero fun _ _ _ => rfl
  | cons x rest ih =>
    obtain ⟨v, hv⟩ := Option.isSome_iff_exists.mp (h x List.mem_cons_self)
    have hsingle := total_single (key x) (fun _ => 1) t
    rw [hv, weigh_some] at hsingle
    have hrest := ih fun y hy => h y (List.mem_cons_of_mem _ hy)
    simp only [List.countP_cons, decide_eq_true_eq]
    rw [total_add, hrest, hsingle, List.length_cons]

/-- At most as many entries have a property as a list that names all their keys is long. -/
theorem total_le_length {p : κ → ν → Prop} [∀ k v, Decidable (p k v)] {l : List κ}
    (h : ∀ k v, t.lookup k = some v → p k v → k ∈ l) :
    total (fun k v => if p k v then 1 else 0) t ≤ l.length := by
  have hsum : total (fun k v => if p k v then 1 else 0) t =
      (t.entries.filter fun e => p e.1 e.2).length := by
    rw [total]
    induction t.entries with
    | nil => rfl
    | cons e l ih =>
      by_cases he : p e.1 e.2 <;> simp [he, ih, Nat.add_comm]
  have hnodup : ((t.entries.filter fun e => p e.1 e.2).map Sigma.fst).Nodup :=
    t.nodupKeys.sublist List.filter_sublist
  rw [hsum, ← List.length_map (f := Sigma.fst)]
  refine (List.subperm_of_subset hnodup fun k hk => ?_).length_le
  simp only [List.mem_map, List.mem_filter, decide_eq_true_eq] at hk
  obtain ⟨e, ⟨he, hp⟩, rfl⟩ := hk
  exact h e.1 e.2 (mem_entries_iff.mp he) hp

end Total

/-! ## Fresh numeric keys -/

section Fresh

variable {κ : Type} {ν : Type v} [DecidableEq κ] [Add κ] [OfNat κ 1]

/-- The first number after `next` that is not a key; `fuel` bounds the keys in the way. -/
def freshToken (table : Table κ ν) : ℕ → κ → κ
  | 0, next => next + 1
  | fuel + 1, next =>
      if (table.lookup (next + 1)).isSome then freshToken table fuel (next + 1) else next + 1

end Fresh

end AList
