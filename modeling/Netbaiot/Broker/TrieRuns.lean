import Netbaiot.Broker.Index

/-!
# Every sequence of trie updates

After any inserts and removals the trie holds exactly the filters that were inserted and
not removed since, and it holds them without waste: below the root there is no node that
has neither children nor subscribers.  Read `trie_implements_matching` first: matching a
topic finds for each session the merge of its filters that match, and once every filter
is removed the trie is the empty one again.
-/

namespace Netbaiot.Broker

open Lib Mqtt TrieNode

/-! ## Nodes without waste -/

namespace TrieNode

/-- The node at the end of a path. -/
def node? : List Text → TrieNode → Option TrieNode
  | [], n => some n
  | level :: rest, n => (n.child? level).bind (node? rest)

/-- No node below this one lacks both children and subscribers. -/
def Pruned (n : TrieNode) : Prop :=
  ∀ path m, path ≠ [] → n.node? path = some m → m.isEmpty = false

/-- A node is pruned if its children are neither empty nor wasteful. -/
theorem pruned_iff {n : TrieNode} :
    n.Pruned ↔
      ∀ level child, n.child? level = some child → child.isEmpty = false ∧ child.Pruned := by
  constructor
  · intro h level child hchild
    have hnode : ∀ path, n.node? (level :: path) = child.node? path := by
      intro path
      rw [node?, hchild, Option.bind_some]
    refine ⟨h [level] child (List.cons_ne_nil _ _) (hnode []), ?_⟩
    intro path m _ hm
    exact h (level :: path) m (List.cons_ne_nil _ _) ((hnode path).trans hm)
  · intro h path m hpath hm
    cases path with
    | nil => exact absurd rfl hpath
    | cons level rest =>
      obtain ⟨child, hchild, hm⟩ := Option.bind_eq_some_iff.mp hm
      cases rest with
      | nil =>
        obtain rfl := Option.some.inj hm
        exact (h level child hchild).1
      | cons next rest => exact (h level child hchild).2 _ m (List.cons_ne_nil _ _) hm

theorem pruned_empty : empty.Pruned :=
  pruned_iff.mpr fun _ _ hchild => nomatch hchild

theorem isEmpty_putChild_some (n : TrieNode) (level : Text) (child : TrieNode) :
    (n.putChild level (some child)).isEmpty = false := by
  simp [isEmpty, putChild, children]

/-- Inserting makes a node that has a subscriber at the end of the path. -/
theorem Pruned.insertAt {n : TrieNode} (h : n.Pruned) (path : List Text) (key : SessionKey)
    (subscription : Subscription) :
    (insertAt path key subscription n).1.Pruned ∧
      (insertAt path key subscription n).1.isEmpty = false := by
  induction path generalizing n with
  | nil =>
    refine ⟨pruned_iff.mpr fun level child hchild => pruned_iff.mp h level child hchild, ?_⟩
    simp [TrieNode.insertAt, isEmpty, subscribers, AList.entries_insert]
  | cons level rest ih =>
    have hbelow : ((n.child? level).getD empty).Pruned := by
      cases hchild : n.child? level with
      | none => exact pruned_empty
      | some child => exact (pruned_iff.mp h level child hchild).2
    refine ⟨pruned_iff.mpr fun level' child hchild => ?_, isEmpty_putChild_some _ _ _⟩
    rw [TrieNode.insertAt, child?_putChild] at hchild
    split at hchild
    · cases hchild
      exact (ih hbelow).symm
    · exact pruned_iff.mp h level' child hchild

/-- Removing cuts off the nodes it leaves empty. -/
theorem Pruned.removeAt {n : TrieNode} (h : n.Pruned) (path : List Text) (key : SessionKey) :
    (removeAt path key n).1.Pruned := by
  induction path generalizing n with
  | nil => exact pruned_iff.mpr fun level child hchild => pruned_iff.mp h level child hchild
  | cons level rest ih =>
    rw [TrieNode.removeAt]
    cases hchild : n.child? level with
    | none => exact h
    | some child =>
      refine pruned_iff.mpr fun level' child' hchild' => ?_
      simp only [child?_putChild] at hchild'
      split at hchild'
      · split at hchild'
        · cases hchild'
        · next hkept =>
          cases hchild'
          exact ⟨Bool.eq_false_iff.mpr hkept, ih (pruned_iff.mp h level child hchild).2⟩
      · exact pruned_iff.mp h level' child' hchild'

theorem sizeOf_lt_of_child? {n child : TrieNode} {level : Text} (h : n.child? level = some child) :
    sizeOf child < sizeOf n := by
  obtain ⟨children, subscribers⟩ := n
  have hmem : (level, child) ∈ children := by
    simp only [child?, TrieNode.children] at h
    induction children with
    | nil => cases h
    | cons entry rest ih =>
      rw [List.lookup_cons] at h
      split at h
      · next heq =>
        cases h
        rw [eq_of_beq heq]
        exact List.mem_cons_self ..
      · exact List.mem_cons_of_mem _ (ih h)
  have hle := List.sizeOf_lt_of_mem hmem
  simp only [Prod.mk.sizeOf_spec, node.sizeOf_spec] at hle ⊢
  omega

/-- A pruned node below which nobody subscribes is empty. -/
theorem Pruned.isEmpty_of_vacant {n : TrieNode} (h : n.Pruned)
    (hvacant : ∀ path, n.get path = ∅) : n.isEmpty = true := by
  have hchildren : ∀ level, n.child? level = none := by
    intro level
    cases hchild : n.child? level with
    | none => rfl
    | some child =>
      -- Such a child would be empty as well, which pruning excludes.
      obtain ⟨hkept, hpruned⟩ := pruned_iff.mp h level child hchild
      have hbelow : child.isEmpty = true := hpruned.isEmpty_of_vacant fun path => by
        have hpath := hvacant (level :: path)
        rwa [get_cons, hchild] at hpath
      rw [hbelow] at hkept
      cases hkept
  have hsubscribers : n.subscribers = ∅ := hvacant []
  have hlist : n.children = [] := by
    cases hlist : n.children with
    | nil => rfl
    | cons entry rest =>
      have hnone := hchildren entry.1
      rw [child?, hlist, List.lookup_cons, beq_self_eq_true] at hnone
      cases hnone
  simp only [isEmpty, hsubscribers, hlist]
  rfl
termination_by n
decreasing_by exact sizeOf_lt_of_child? hchild

theorem eq_empty_of_isEmpty {n : TrieNode} (h : n.isEmpty = true) : n = empty := by
  obtain ⟨children, subscribers⟩ := n
  simp only [isEmpty, TrieNode.children, TrieNode.subscribers, Bool.and_eq_true,
    List.isEmpty_iff] at h
  rw [h.2, show subscribers = ∅ from AList.ext h.1]
  rfl

/-- Inserting reports whether the session had no subscription there. -/
theorem insertAt_snd (path : List Text) (key : SessionKey) (subscription : Subscription)
    (n : TrieNode) : (insertAt path key subscription n).2 =
      ((n.get path).lookup key).isNone := by
  induction path generalizing n with
  | nil => rfl
  | cons level rest ih =>
    rw [insertAt, get_cons]
    cases n.child? level with
    | none => simp [ih, get_empty]
    | some child => simp [ih]

/-- Removing reports whether the session had a subscription there. -/
theorem removeAt_snd (path : List Text) (key : SessionKey) (n : TrieNode) :
    (removeAt path key n).2 = ((n.get path).lookup key).isSome := by
  induction path generalizing n with
  | nil => rfl
  | cons level rest ih =>
    rw [removeAt, get_cons]
    cases n.child? level with
    | none => simp
    | some child => simp [ih]

end TrieNode

/-! ## Runs -/

/-- An update of the trie. -/
inductive TrieOp where
  | insert (filter : Text) (key : SessionKey) (subscription : Subscription)
  | remove (filter : Text) (key : SessionKey)

/-- The trie after an update. -/
def SubscriptionTrie.apply (trie : SubscriptionTrie) : TrieOp → SubscriptionTrie
  | .insert filter key subscription => trie.insert filter key subscription
  | .remove filter key => trie.remove filter key

/-- The trie after a sequence of updates of the empty one. -/
def SubscriptionTrie.run (ops : List TrieOp) : SubscriptionTrie :=
  ops.foldl SubscriptionTrie.apply .empty

/-- The inserted filters of each session, as a plain table. -/
def TrieOp.record (table : Text → SessionKey → Option Subscription) (op : TrieOp) :
    Text → SessionKey → Option Subscription :=
  fun filter' key' =>
    match op with
    | .insert filter key subscription =>
        if filter' = filter ∧ key' = key then some subscription else table filter' key'
    | .remove filter key => if filter' = filter ∧ key' = key then none else table filter' key'

/-- What is currently inserted after a sequence of updates. -/
def TrieOp.inserted (ops : List TrieOp) : Text → SessionKey → Option Subscription :=
  ops.foldl TrieOp.record fun _ _ => none

namespace SubscriptionTrie

/-- The shape of a trie: it is pruned, holds entries only at the levels of a filter, and
counts its entries that may match an uplink topic. -/
structure Kept (trie : SubscriptionTrie) : Prop where
  pruned : trie.root.Pruned
  named : ∀ path key, ((trie.root.get path).lookup key).isSome = true →
    ∃ filter, levels filter = path
  counted : ∃ held : Finset (Text × SessionKey),
    (∀ filter key, (filter, key) ∈ held ↔ (trie.subscription? filter key).isSome = true) ∧
      trie.uplinkSubscriptions = (held.filter fun e => filterMayMatchUplink e.1 = true).card

variable {trie : SubscriptionTrie}

theorem kept_empty : empty.Kept := by
  refine ⟨pruned_empty, ?_, ∅, ?_, rfl⟩
  · intro path key h
    rw [show empty.root = .empty from rfl, get_empty] at h
    cases h
  · intro filter key
    simp

theorem Kept.insert (h : trie.Kept) (filter : Text) (key : SessionKey)
    (subscription : Subscription) : (trie.insert filter key subscription).Kept := by
  refine ⟨(h.pruned.insertAt _ _ _).1, ?_, ?_⟩
  · intro path key' hsome
    simp only [SubscriptionTrie.insert, lookup_get_insertAt] at hsome
    split at hsome
    · next heq => exact ⟨filter, heq.1.symm⟩
    · exact h.named path key' hsome
  · obtain ⟨held, hmem, hcount⟩ := h.counted
    refine ⟨Insert.insert (filter, key) held, ?_, ?_⟩
    · intro filter' key'
      rw [Finset.mem_insert, Prod.mk.injEq, hmem, subscription?_insert]
      split
      · next heq => simp [heq]
      · next hne => simp [hne]
    · -- Only a filter that was not there before adds to the count.
      simp only [SubscriptionTrie.insert, insertAt_snd, hcount]
      change (if (trie.subscription? filter key).isNone && filterMayMatchUplink filter then _
        else _)
        = _
      have hheld := hmem filter key
      cases hold : trie.subscription? filter key with
      | none =>
        rw [hold] at hheld
        have hnew : (filter, key) ∉ held := fun hin => by simpa using hheld.mp hin
        rw [Finset.filter_insert]
        cases filterMayMatchUplink filter with
        | false => simp
        | true => simp [hnew]
      | some old =>
        rw [hold] at hheld
        rw [Finset.insert_eq_of_mem (hheld.mpr rfl)]
        rfl

theorem Kept.remove (h : trie.Kept) (filter : Text) (key : SessionKey) :
    (trie.remove filter key).Kept := by
  refine ⟨h.pruned.removeAt _ _, ?_, ?_⟩
  · intro path key' hsome
    simp only [SubscriptionTrie.remove, lookup_get_removeAt] at hsome
    split at hsome
    · cases hsome
    · exact h.named path key' hsome
  · obtain ⟨held, hmem, hcount⟩ := h.counted
    refine ⟨held.erase (filter, key), ?_, ?_⟩
    · intro filter' key'
      rw [Finset.mem_erase, ne_eq, Prod.mk.injEq, hmem, subscription?_remove]
      split
      · next heq => simp [heq]
      · next hne => simp [hne]
    · simp only [SubscriptionTrie.remove, removeAt_snd, hcount]
      change (if (trie.subscription? filter key).isSome && filterMayMatchUplink filter then _
        else _)
        = _
      have hheld := hmem filter key
      cases hold : trie.subscription? filter key with
      | none =>
        rw [hold] at hheld
        rw [Finset.erase_eq_of_notMem fun hin => by simpa using hheld.mp hin]
        rfl
      | some old =>
        rw [hold] at hheld
        rw [Finset.filter_erase]
        cases hlast : filterMayMatchUplink filter with
        | false =>
          rw [Finset.erase_eq_of_notMem fun hin => by simp [hlast] at hin]
          rfl
        | true =>
          rw [Finset.card_erase_of_mem (Finset.mem_filter.mpr ⟨hheld.mpr rfl, hlast⟩)]
          rfl

theorem kept_run (ops : List TrieOp) : (run ops).Kept := by
  have hrun : ∀ trie : SubscriptionTrie, trie.Kept → (ops.foldl apply trie).Kept := by
    induction ops with
    | nil => exact fun _ h => h
    | cons op rest ih =>
      intro trie h
      cases op with
      | insert filter key subscription => exact ih _ (h.insert filter key subscription)
      | remove filter key => exact ih _ (h.remove filter key)
  exact hrun _ kept_empty

/-- The trie refines the table of inserted filters. -/
theorem subscription?_run (ops : List TrieOp) : (run ops).subscription? = TrieOp.inserted ops := by
  have hrun : ∀ (trie : SubscriptionTrie) (table : Text → SessionKey → Option Subscription),
      trie.subscription? = table →
      (ops.foldl apply trie).subscription? = ops.foldl TrieOp.record table := by
    induction ops with
    | nil => exact fun _ _ h => h
    | cons op rest ih =>
      intro trie table h
      apply ih
      subst h
      funext filter' key'
      cases op with
      | insert filter key subscription => exact subscription?_insert ..
      | remove filter key => exact subscription?_remove ..
  exact hrun _ _ (by funext filter key; exact subscription?_empty ..)

/-- A trie in which no filter is left is the empty trie. -/
theorem Kept.eq_empty (h : trie.Kept) (hnone : ∀ filter key, trie.subscription? filter key = none) :
    trie = .empty := by
  have hroot : trie.root = .empty := by
    apply eq_empty_of_isEmpty
    apply h.pruned.isEmpty_of_vacant
    intro path
    apply AList.eq_empty_of_lookup
    intro key
    by_contra hsome
    obtain ⟨filter, rfl⟩ := h.named path key (Option.isSome_iff_ne_none.mpr hsome)
    exact hsome (hnone filter key)
  obtain ⟨held, hmem, hcount⟩ := h.counted
  have hheld : held = ∅ := by
    apply Finset.eq_empty_of_forall_notMem
    rintro ⟨filter, key⟩ hin
    have hsome := (hmem filter key).mp hin
    rw [hnone] at hsome
    cases hsome
  rw [hheld] at hcount
  obtain ⟨root, uplinks⟩ := trie
  cases hroot
  cases hcount
  rfl

/-- Every sequence of updates leaves a trie that finds, for a valid topic, exactly the
sessions with a matching filter and the merge of their matching subscriptions; that has no
empty node below its root; and that is the empty trie once no filter is left. -/
theorem trie_implements_matching (ops : List TrieOp) (limits : Limits) :
    (∀ topic, validTopic topic limits false = true → ∀ key,
      IsMerge { s | ∃ filter, topicMatches filter topic = true ∧
          TrieOp.inserted ops filter key = some s } (((run ops).matching topic).lookup key)) ∧
      (run ops).root.Pruned ∧
      ((∀ filter key, TrieOp.inserted ops filter key = none) → run ops = .empty) := by
  have hkept := kept_run ops
  refine ⟨?_, hkept.pruned, ?_⟩
  · intro topic htopic key
    have hmatch := (run ops).lookup_matching (plain_of_validTopic htopic) key
    rw [matchingOf, subscription?_run] at hmatch
    exact hmatch
  · intro hnone
    apply hkept.eq_empty
    rw [subscription?_run]
    exact hnone

/-- The last level of a matching filter is a wildcard or the last level of the topic. -/
theorem getLast?_of_matchLevels {filters topics : List Text}
    (h : matchLevels filters topics = true) : filters.getLast? = some hashLevel ∨
      filters.getLast? = some plusLevel ∨ filters.getLast? = topics.getLast? := by
  fun_induction matchLevels filters topics with
  | case4 _ filters _ _ topics _ _ => cases filters <;> cases topics <;> grind [matchLevels]
  | _ => simp_all

/-- While the trie counts no filter that may match an uplink, matching an uplink finds nobody. -/
theorem uplink_hint_sound (ops : List TrieOp) {limits : Limits} {topic : Text}
    (htopic : validTopic topic limits false = true)
    (hup : (ascii "/up").isSuffixOf topic = true) (hnone : (run ops).uplinkSubscriptions = 0)
    (key : SessionKey) : ((run ops).matching topic).lookup key = none := by
  cases hfound : ((run ops).matching topic).lookup key with
  | none => rfl
  | some merged =>
    have hmerge := (run ops).lookup_matching (plain_of_validTopic htopic) key
    rw [hfound] at hmerge
    obtain ⟨⟨⟨s, ⟨filter, hmatch, hs⟩, -⟩, -⟩, -⟩ := hmerge
    have hlast : (levels topic).getLast? = some (ascii "up") := by
      obtain ⟨before, rfl⟩ := List.isSuffixOf_iff_suffix.mp hup
      rw [show ascii "/up" = slash :: ascii "up" from rfl, levels_append]
      simp [levels_eq_singleton (show slash ∉ ascii "up" by decide)]
    have hmay : filterMayMatchUplink filter = true := by
      rcases hlast ▸ getLast?_of_matchLevels (topicMatches_iff.mp hmatch).2 with h | h | h <;>
        simp [filterMayMatchUplink, h]
    obtain ⟨held, hheld, hcount⟩ := (kept_run ops).counted
    have hnot := Finset.filter_eq_empty_iff.mp (Finset.card_eq_zero.mp (hcount.symm.trans hnone))
    exact absurd hmay (hnot ((hheld filter key).mpr (hs ▸ rfl)))

/-- A session that waits for commands sees no uplink. -/
theorem uplink_hint_sound_commands :
    ((run [.insert (ascii "a/down") ⟨⟨.t, .p, .a⟩, []⟩ (.v311 1)]).matching
      (ascii "a/up")).lookup ⟨⟨.t, .p, .a⟩, []⟩ = none :=
  @uplink_hint_sound _ Limits.default _ (by decide +kernel) (by decide) (by decide +kernel) _

end SubscriptionTrie

end Netbaiot.Broker
