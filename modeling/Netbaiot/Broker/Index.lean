import Mathlib.Order.Bounds.Basic
import Netbaiot.Broker.Trie
import Netbaiot.Mqtt.Levels

/-!
# What the trie stores and matches

The trie behaves as a table from filters and sessions to subscriptions: inserting and
removing change exactly one entry.  Matching a topic collects, for every session, the
merge of those of its subscriptions whose filter matches.
-/

namespace Netbaiot.Broker

open Lib Mqtt

variable {key : SessionKey} {topic : Text}

/-! ## One entry at a time -/

namespace TrieNode

/-- The children after one of them was replaced or removed. -/
theorem child?_putChild (n : TrieNode) (level level' : Text) (child : Option TrieNode) :
    (n.putChild level child).child? level' = if level' = level then child else n.child? level' := by
  have hfilter : (n.children.filter (·.1 ≠ level)).lookup level' =
      if level' = level then none else n.children.lookup level' := by
    induction n.children with
    | nil => simp
    | cons entry rest ih =>
      obtain ⟨level₀, child₀⟩ := entry
      by_cases hlevel : level₀ = level
      · subst hlevel
        simp only [ne_eq, not_true_eq_false, decide_false, Bool.false_eq_true, not_false_eq_true,
          List.filter_cons_of_neg, List.lookup_cons] at ih ⊢
        rw [ih]
        by_cases heq : level' = level₀
        · simp [heq]
        · simp [heq, beq_eq_false_iff_ne.mpr heq]
      · by_cases heq : level' = level₀
        · subst heq
          simp [hlevel]
        · simp [hlevel, List.lookup_cons, beq_eq_false_iff_ne.mpr heq] at ih ⊢
          exact ih
  simp only [child?, putChild, children] at hfilter ⊢
  cases child with
  | none => simpa using hfilter
  | some c =>
    by_cases heq : level' = level
    · simp [heq]
    · simp only [Option.map_some, Option.toList_some, List.cons_append, List.nil_append,
        List.lookup_cons, beq_eq_false_iff_ne.mpr heq, if_neg heq] at hfilter ⊢
      exact hfilter

@[simp] theorem subscribers_putChild (n : TrieNode) (level : Text) (child : Option TrieNode) :
    (n.putChild level child).subscribers = n.subscribers := rfl

/-- Below an absent child there is nothing. -/
theorem get_cons (level : Text) (rest : List Text) (n : TrieNode) :
    n.get (level :: rest) = ((n.child? level).map fun child => child.get rest).getD ∅ := by
  rw [get]
  cases n.child? level <;> rfl

theorem get_of_isEmpty {n : TrieNode} (h : n.isEmpty = true) (path : List Text) :
    n.get path = ∅ := by
  simp only [isEmpty, Bool.and_eq_true, List.isEmpty_iff] at h
  cases path with
  | nil =>
    rw [get]
    exact AList.ext h.1
  | cons level rest =>
    rw [get_cons, child?, h.2]
    rfl

theorem get_empty (path : List Text) : empty.get path = ∅ := get_of_isEmpty rfl path

/-- Inserting a subscription changes exactly that one. -/
theorem lookup_get_insertAt (path : List Text) (key : SessionKey) (subscription : Subscription)
    (n : TrieNode) (path' : List Text) (key' : SessionKey) :
    ((insertAt path key subscription n).1.get path').lookup key' =
      if path' = path ∧ key' = key then some subscription else (n.get path').lookup key' := by
  induction path generalizing n path' with
  | nil =>
    rw [insertAt]
    cases path' with
    | nil => simp [get, subscribers, AList.lookup_insert_eq]
    | cons level rest =>
      rw [get_cons, get_cons]
      simp [child?, children]
  | cons level rest ih =>
    rw [insertAt]
    cases path' with
    | nil => simp [get]
    | cons level' rest' =>
      rw [get_cons, get_cons, child?_putChild]
      by_cases hlevel : level' = level
      · subst hlevel
        simp only [if_true, Option.map_some, Option.getD_some, ih, List.cons.injEq, true_and]
        congr 2
        cases n.child? level' with
        | none => simp [get_empty]
        | some child => rfl
      · simp [hlevel]

/-- Removing a subscription removes exactly that one. -/
theorem lookup_get_removeAt (path : List Text) (key : SessionKey) (n : TrieNode)
    (path' : List Text) (key' : SessionKey) :
    ((removeAt path key n).1.get path').lookup key' =
      if path' = path ∧ key' = key then none else (n.get path').lookup key' := by
  induction path generalizing n path' with
  | nil =>
    rw [removeAt]
    cases path' with
    | nil => simp [get, subscribers, AList.lookup_erase_eq]
    | cons level rest =>
      rw [get_cons, get_cons]
      simp [child?, children]
  | cons level rest ih =>
    rw [removeAt]
    cases hchild : n.child? level with
    | none =>
      -- There is nothing to remove, and nothing is found at that path.
      simp only
      split
      · next heq =>
        rw [heq.1, get_cons, hchild]
        rfl
      · rfl
    | some child =>
      cases path' with
      | nil => simp [get]
      | cons level' rest' =>
        simp only [get_cons, child?_putChild]
        by_cases hlevel : level' = level
        · subst hlevel
          have hdrop : (((if (removeAt rest key child).1.isEmpty = true then none
              else some (removeAt rest key child).1).map fun c => c.get rest').getD ∅) =
                (removeAt rest key child).1.get rest' := by
            split
            · next hempty => rw [get_of_isEmpty hempty]; rfl
            · rfl
          simp only [if_true, hdrop, ih, hchild, Option.map_some, Option.getD_some,
            List.cons.injEq, true_and]
        · simp [hlevel]

end TrieNode

namespace SubscriptionTrie

variable (trie : SubscriptionTrie) (filter filter' : Text) (key key' : SessionKey)

/-- Inserting changes exactly one subscription. -/
theorem subscription?_insert (subscription : Subscription) :
    (trie.insert filter key subscription).subscription? filter' key' =
      if filter' = filter ∧ key' = key then some subscription
      else trie.subscription? filter' key' := by
  simp only [subscription?, insert, TrieNode.lookup_get_insertAt, levels_inj]

/-- Removing removes exactly one subscription. -/
theorem subscription?_remove :
    (trie.remove filter key).subscription? filter' key' =
      if filter' = filter ∧ key' = key then none else trie.subscription? filter' key' := by
  simp only [subscription?, remove, TrieNode.lookup_get_removeAt, levels_inj]

@[simp] theorem subscription?_empty : empty.subscription? filter key = none := by
  simp [subscription?, empty, TrieNode.get_empty]

end SubscriptionTrie

/-! ## Merging -/

/-- The merge of a set of subscriptions: nothing for none of them, else the best QoS, no-local
if all of them are, and retain-as-published if one of them is. -/
def IsMerge (found : Set Subscription) : Option Subscription → Prop
  | none => found = ∅
  | some merged => IsGreatest (Subscription.qos '' found) merged.qos ∧
      (merged.noLocal = true ↔ ∀ s ∈ found, s.noLocal = true) ∧
      (merged.retainAsPublished = true ↔ ∃ s ∈ found, s.retainAsPublished = true)

/-- One more subscription is merged in. -/
theorem IsMerge.insert {found : Set Subscription} {merged : Option Subscription}
    (h : IsMerge found merged) (s : Subscription) :
    IsMerge (Insert.insert s found)
      (some ((merged.map fun existing => existing.merge s).getD s)) := by
  cases merged with
  | none =>
    rw [IsMerge] at h
    subst h
    simp [IsMerge]
  | some existing =>
    obtain ⟨⟨hmem, hupper⟩, hlocal, hretain⟩ := h
    refine ⟨⟨?_, ?_⟩, ?_, ?_⟩
    · obtain ⟨best, hbest, heq⟩ := hmem
      simp only [Option.map_some, Option.getD_some, Subscription.merge]
      rcases Nat.le_total existing.qos s.qos with hle | hle
      · rw [Nat.max_eq_right hle]
        exact ⟨s, Set.mem_insert _ _, rfl⟩
      · rw [Nat.max_eq_left hle]
        exact ⟨best, Set.mem_insert_of_mem _ hbest, heq⟩
    · rintro qos ⟨t, ht, rfl⟩
      rcases ht with rfl | ht
      · exact Nat.le_max_right _ _
      · exact Nat.le_trans (hupper ⟨t, ht, rfl⟩) (Nat.le_max_left _ _)
    · simp only [Option.map_some, Option.getD_some, Subscription.merge, Bool.and_eq_true, hlocal,
        Set.forall_mem_insert]
      exact And.comm
    · simp only [Option.map_some, Option.getD_some, Subscription.merge, Bool.or_eq_true, hretain,
        Set.exists_mem_insert]
      exact Or.comm

/-- The subscription of a session among those of a node. -/
def ownIn (subscribers : Table SessionKey Subscription) (key : SessionKey) : Set Subscription :=
  { s | subscribers.lookup key = some s }

/-- Merging a node's subscriptions merges, for each session, its own one. -/
theorem lookup_mergeSubscribers (output subscribers : Table SessionKey Subscription)
    (key : SessionKey) :
    (mergeSubscribers output subscribers).lookup key =
      (subscribers.lookup key).elim (output.lookup key) fun s =>
        some (((output.lookup key).map fun existing => existing.merge s).getD s) := by
  rcases subscribers with ⟨entries, hnodup⟩
  show (entries.foldl (fun output e => mergeSubscriber output e.1 e.2) output).lookup key =
    (entries.dlookup key).elim (output.lookup key) fun s =>
      some (((output.lookup key).map fun existing => existing.merge s).getD s)
  induction entries generalizing output with
  | nil => rfl
  | cons entry rest ih =>
    obtain ⟨key₀, s⟩ := entry
    have hrest := (List.nodupKeys_cons.mp hnodup)
    rw [List.foldl_cons, ih _ hrest.2]
    by_cases heq : key = key₀
    · subst heq
      have hnone : rest.dlookup key = none := List.dlookup_eq_none.mpr hrest.1
      rw [hnone, List.dlookup_cons_eq]
      simp [mergeSubscriber]
    · rw [List.dlookup_cons_ne _ _ heq]
      have hsame : (mergeSubscriber output key₀ s).lookup key = output.lookup key := by
        simp [mergeSubscriber, heq]
      rw [hsame]

theorem IsMerge.mergeSubscribers {found : Set Subscription}
    {output subscribers : Table SessionKey Subscription} (h : IsMerge found (output.lookup key)) :
    IsMerge (found ∪ ownIn subscribers key)
      ((Broker.mergeSubscribers output subscribers).lookup key) := by
  rw [lookup_mergeSubscribers]
  cases hown : subscribers.lookup key with
  | none => simpa [ownIn, hown] using h
  | some s =>
    have hset : found ∪ ownIn subscribers key = Insert.insert s found := by
      ext t
      simp [ownIn, hown, eq_comm]
    rw [hset]
    exact h.insert s

/-! ## Matching -/

/-- A path of the trie that matches the levels of a topic; at the root, a topic that begins
with a dollar sign is hidden from wildcards. -/
def pathMatches (dollarRoot : Bool) (path topic : List Text) : Prop :=
  (dollarRoot = true → path.head? ≠ some plusLevel ∧ path.head? ≠ some hashLevel) ∧
    matchLevels path topic = true

/-- The subscriptions of a session below a node whose path matches. -/
def matchesBelow (dollarRoot : Bool) (node : TrieNode) (topic : List Text) (key : SessionKey) :
    Set Subscription :=
  { s | ∃ path, pathMatches dollarRoot path topic ∧ (node.get path).lookup key = some s }

/-- The subscriptions of a session below a child, if there is one. -/
def ownBelow (child : Option TrieNode) (found : TrieNode → Set Subscription) : Set Subscription :=
  { s | ∃ node ∈ child, s ∈ found node }

theorem mem_get_cons {level : Text} {rest : List Text} {n : TrieNode} {s : Subscription} :
    (n.get (level :: rest)).lookup key = some s ↔
      ∃ child ∈ n.child? level, (child.get rest).lookup key = some s := by
  rw [TrieNode.get_cons]
  cases n.child? level <;> simp

/-- The end of the topic: subscriptions of the node itself and to everything below it. -/
theorem matchesBelow_nil (dollarRoot : Bool) (node : TrieNode) (key : SessionKey) :
    matchesBelow dollarRoot node [] key =
      ownBelow (if dollarRoot then none else node.child? hashLevel)
        (fun hash => ownIn hash.subscribers key) ∪ ownIn node.subscribers key := by
  ext s
  simp only [matchesBelow, Set.mem_ofPred_eq, Set.mem_union, ownBelow, ownIn]
  constructor
  · rintro ⟨path, ⟨hdollar, hmatch⟩, hs⟩
    cases path with
    | nil => exact .inr hs
    | cons level rest =>
      left
      rw [matchLevels] at hmatch
      split at hmatch
      · next hhash =>
        subst hhash
        rw [List.isEmpty_iff] at hmatch
        subst hmatch
        obtain ⟨child, hchild, hs⟩ := mem_get_cons.mp hs
        cases dollarRoot with
        | true => exact absurd rfl (hdollar rfl).2
        | false => exact ⟨child, hchild, hs⟩
      · cases hmatch
  · rintro (⟨child, hchild, hs⟩ | hs)
    · cases dollarRoot with
      | true => cases hchild
      | false =>
        refine ⟨[hashLevel], ⟨by simp, by simp [matchLevels]⟩, ?_⟩
        exact mem_get_cons.mpr ⟨child, hchild, hs⟩
    · exact ⟨[], ⟨by simp, by simp [matchLevels]⟩, hs⟩

/-- The first level of the topic: it is matched by everything below the node, by a child of
that level, and by a child for any level. -/
theorem matchesBelow_cons {dollarRoot : Bool} {level : Text} (hhash : level ≠ hashLevel)
    (hplus : level ≠ plusLevel) (node : TrieNode) (rest : List Text) (key : SessionKey) :
    matchesBelow dollarRoot node (level :: rest) key =
      ownBelow (if dollarRoot then none else node.child? hashLevel)
        (fun hash => ownIn hash.subscribers key) ∪
      ownBelow (node.child? level) (fun exact => matchesBelow false exact rest key) ∪
      ownBelow (if dollarRoot then none else node.child? plusLevel)
        (fun plus => matchesBelow false plus rest key) := by
  ext s
  simp only [matchesBelow, Set.mem_ofPred_eq, Set.mem_union, ownBelow, ownIn]
  constructor
  · rintro ⟨path, ⟨hdollar, hmatch⟩, hs⟩
    cases path with
    | nil => simp [matchLevels] at hmatch
    | cons filter filters =>
      obtain ⟨child, hchild, hfound⟩ := mem_get_cons.mp hs
      rw [matchLevels] at hmatch
      split at hmatch
      · next heq =>
        subst heq
        rw [List.isEmpty_iff] at hmatch
        subst hmatch
        cases dollarRoot with
        | true => exact absurd rfl (hdollar rfl).2
        | false => exact .inl (.inl ⟨child, hchild, hfound⟩)
      · split at hmatch
        · next heq =>
          rcases heq with heq | heq
          · subst heq
            cases dollarRoot with
            | true => exact absurd rfl (hdollar rfl).1
            | false => exact .inr ⟨child, hchild, filters, ⟨by simp, hmatch⟩, hfound⟩
          · subst heq
            exact .inl (.inr ⟨child, hchild, filters, ⟨by simp, hmatch⟩, hfound⟩)
        · cases hmatch
  · have hne : plusLevel ≠ hashLevel := by decide
    rintro ((⟨child, hchild, hs⟩ | ⟨child, hchild, path, ⟨_, hmatch⟩, hs⟩) |
      ⟨child, hchild, path, ⟨_, hmatch⟩, hs⟩)
    · cases dollarRoot with
      | true => cases hchild
      | false =>
        refine ⟨[hashLevel], ⟨by simp, by simp [matchLevels]⟩, ?_⟩
        exact mem_get_cons.mpr ⟨child, hchild, hs⟩
    · refine ⟨level :: path, ⟨fun _ => ⟨by simpa using hplus, by simpa using hhash⟩, ?_⟩,
        mem_get_cons.mpr ⟨child, hchild, hs⟩⟩
      simp [matchLevels, hhash, hmatch]
    · cases dollarRoot with
      | true => cases hchild
      | false =>
        refine ⟨plusLevel :: path, ⟨by simp, ?_⟩, mem_get_cons.mpr ⟨child, hchild, hs⟩⟩
        simp [matchLevels, hne, hmatch]

/-- Visiting an optional child merges what is found below it. -/
theorem IsMerge.elim {found : Set Subscription} {output : Table SessionKey Subscription}
    (h : IsMerge found (output.lookup key)) (child : Option TrieNode)
    (below : TrieNode → Set Subscription) (visit : TrieNode → Table SessionKey Subscription)
    (hvisit : ∀ node ∈ child, IsMerge (found ∪ below node) ((visit node).lookup key)) :
    IsMerge (found ∪ ownBelow child below) ((child.elim output visit).lookup key) := by
  cases child with
  | none => simpa [ownBelow] using h
  | some node =>
    have hset : ownBelow (some node) below = below node := by
      ext s
      simp [ownBelow]
    rw [hset]
    exact hvisit node rfl

/-- Collecting below a node merges exactly the matching subscriptions of each session. -/
theorem IsMerge.matchAt {topic : List Text}
    (hplain : ∀ level ∈ topic, level ≠ hashLevel ∧ level ≠ plusLevel) (dollarRoot : Bool)
    (node : TrieNode) {found : Set Subscription} {output : Table SessionKey Subscription}
    (h : IsMerge found (output.lookup key)) :
    IsMerge (found ∪ matchesBelow dollarRoot node topic key)
      ((Broker.matchAt topic dollarRoot node output).lookup key) := by
  induction topic generalizing dollarRoot node found output with
  | nil =>
    rw [Broker.matchAt, matchesBelow_nil, ← Set.union_assoc]
    exact (h.elim _ _ _ fun hash _ => h.mergeSubscribers).mergeSubscribers
  | cons level rest ih =>
    have hlevel := hplain level (List.mem_cons_self ..)
    have ih := ih fun level hmem => hplain level (List.mem_cons_of_mem _ hmem)
    rw [Broker.matchAt, matchesBelow_cons hlevel.1 hlevel.2, ← Set.union_assoc, ← Set.union_assoc]
    have hhash := h.elim (if dollarRoot then none else node.child? hashLevel)
      (fun hash => ownIn hash.subscribers key)
      (fun hash => Broker.mergeSubscribers output hash.subscribers)
      fun hash _ => h.mergeSubscribers
    have hexact := hhash.elim (node.child? level) _ _ fun exact _ => ih false exact hhash
    exact hexact.elim _ _ _ fun plus _ => ih false plus hexact

namespace SubscriptionTrie

/-- The subscriptions of a session that match a topic. -/
def matchingOf (trie : SubscriptionTrie) (topic : Text) (key : SessionKey) : Set Subscription :=
  { s | ∃ filter, topicMatches filter topic = true ∧ trie.subscription? filter key = some s }

/-- A path that matches the levels of a topic consists of the levels of a filter. -/
theorem exists_filter_of_pathMatches {dollarRoot : Bool} {path : List Text}
    (h : pathMatches dollarRoot path (levels topic)) : ∃ filter, levels filter = path := by
  apply exists_levels_eq
  · rintro rfl
    have hempty := h.2
    rw [matchLevels, List.isEmpty_iff] at hempty
    exact levels_ne_nil topic hempty
  · intro level hlevel
    rcases mem_of_matchLevels h.2 hlevel with rfl | rfl | hmem
    · decide
    · decide
    · exact slash_not_mem_of_mem_levels hmem

theorem matchesBelow_root (trie : SubscriptionTrie) (topic : Text) (key : SessionKey) :
    matchesBelow (topic.head? == some 36) trie.root (levels topic) key =
      trie.matchingOf topic key := by
  ext s
  simp only [matchesBelow, matchingOf, Set.mem_ofPred_eq, subscription?]
  constructor
  · rintro ⟨path, hmatch, hs⟩
    obtain ⟨filter, rfl⟩ := exists_filter_of_pathMatches hmatch
    exact ⟨filter, topicMatches_iff.mpr hmatch, hs⟩
  · rintro ⟨filter, hmatch, hs⟩
    exact ⟨levels filter, topicMatches_iff.mp hmatch, hs⟩

/-- What matching a plain topic finds for a session is the merge of its matching
subscriptions. -/
theorem lookup_matching (trie : SubscriptionTrie) (htopic : Plain topic) (key : SessionKey) :
    IsMerge (trie.matchingOf topic key) ((trie.matching topic).lookup key) := by
  have h : IsMerge ∅ ((∅ : Table SessionKey Subscription).lookup key) := rfl
  have hmatch := h.matchAt (fun level hlevel => htopic.levels hlevel)
    (topic.head? == some 36) trie.root
  rw [Set.empty_union, matchesBelow_root] at hmatch
  exact hmatch

end SubscriptionTrie

end Netbaiot.Broker
