import Netbaiot.Mqtt.Topic

/-!
# Levels of topics and filters

The levels of a text determine it, and a separator cuts them in two.  Matching compares
levels only; a topic without wildcard characters is matched by itself.
-/

namespace Netbaiot.Mqtt

open Lib

variable {level text : Text}

/-- Texts with the same levels are equal. -/
theorem levels_inj {text' : Text} : levels text = levels text' ↔ text = text' := by
  constructor
  · intro h
    have hjoin := congrArg [slash].intercalate h
    simpa only [levels, List.intercalate_splitOn] using hjoin
  · rintro rfl
    rfl

/-- A separator cuts the levels. -/
theorem levels_append (text text' : Text) :
    levels (text ++ slash :: text') = levels text ++ levels text' := by
  simp only [levels, List.splitOn_eq_splitOnP]
  exact List.splitOnP_append_cons text text' (beq_self_eq_true slash)

/-- A text without separator is its only level. -/
theorem levels_eq_singleton (h : slash ∉ text) : levels text = [text] :=
  List.splitOn_eq_singleton h

theorem levels_ne_nil (text : Text) : levels text ≠ [] := List.splitOn_ne_nil _ _

/-- No level contains a separator. -/
theorem slash_not_mem_of_mem_levels (h : level ∈ levels text) : slash ∉ level := by
  induction hn : text.length using Nat.strong_induction_on generalizing text with
  | _ n ih =>
    by_cases hslash : slash ∈ text
    · obtain ⟨before, after, rfl⟩ := List.append_of_mem hslash
      rw [levels_append, List.mem_append] at h
      simp only [List.length_append, List.length_cons] at hn
      rcases h with h | h
      · exact ih before.length (by omega) h rfl
      · exact ih after.length (by omega) h rfl
    · rw [levels_eq_singleton hslash, List.mem_singleton] at h
      rw [h]
      exact hslash

/-- Levels without separators are those of the text they make up. -/
theorem exists_levels_eq {path : List Text} (hne : path ≠ []) (h : ∀ level ∈ path, slash ∉ level) :
    ∃ text, levels text = path :=
  ⟨[slash].intercalate path, List.splitOn_intercalate slash h hne⟩

/-- The levels of a matching filter are wildcards or levels of the topic. -/
theorem mem_of_matchLevels {filters topics : List Text} (h : matchLevels filters topics = true)
    (hlevel : level ∈ filters) : level = plusLevel ∨ level = hashLevel ∨ level ∈ topics := by
  induction filters generalizing topics with
  | nil => cases hlevel
  | cons filter filters ih =>
    rw [matchLevels.eq_def] at h
    simp only at h
    split at h
    · next heq =>
      rw [List.isEmpty_iff] at h
      subst h
      rw [List.mem_singleton] at hlevel
      exact .inr (.inl (hlevel.trans heq))
    · cases topics with
      | nil => cases h
      | cons topic topics =>
        simp only at h
        split at h
        · next heq =>
          rcases List.mem_cons.mp hlevel with rfl | hmem
          · rcases heq with heq | heq
            · exact .inl heq
            · exact .inr (.inr (by rw [heq]; exact List.mem_cons_self ..))
          · rcases ih h hmem with hplus | hhash | htopic
            · exact .inl hplus
            · exact .inr (.inl hhash)
            · exact .inr (.inr (List.mem_cons_of_mem _ htopic))
        · cases h

/-- The characters of a level are characters of the text. -/
theorem mem_of_mem_levels {b : UInt8} (hlevel : level ∈ levels text) (hb : b ∈ level) :
    b ∈ text := by
  have hjoin : [slash].intercalate (levels text) = text := List.intercalate_splitOn _
  rw [← hjoin]
  clear hjoin
  generalize levels text = l at hlevel
  induction l with
  | nil => cases hlevel
  | cons first rest ih =>
    cases rest with
    | nil =>
      rw [List.mem_singleton] at hlevel
      subst hlevel
      simpa using hb
    | cons second rest =>
      rw [List.intercalate_cons_cons]
      simp only [List.mem_append]
      rcases List.mem_cons.mp hlevel with heq | hmem
      · subst heq
        exact .inl (.inl hb)
      · exact .inr (ih hmem)

/-- A text without the wildcard characters. -/
def Plain (text : Text) : Prop := 43 ∉ text ∧ 35 ∉ text

/-- A plain text has no wildcard levels. -/
theorem Plain.levels (h : Plain text) (hlevel : level ∈ levels text) :
    level ≠ hashLevel ∧ level ≠ plusLevel := by
  constructor
  · rintro rfl
    exact h.2 (mem_of_mem_levels hlevel (by decide))
  · rintro rfl
    exact h.1 (mem_of_mem_levels hlevel (by decide))

theorem plain_of_validTopic {limits : Limits} (h : validTopic text limits false = true) :
    Plain text := by
  simp only [validTopic, Bool.and_eq_true, Bool.false_eq_true, if_false, Bool.not_eq_true',
    Bool.or_eq_false_iff, List.contains_eq_mem, decide_eq_false_iff_not] at h
  exact h.2

/-- The first level of a filter is a given text without separator exactly when the filter is
that text or continues it with a separator. -/
theorem head?_levels {filter : Text} (hlevel : slash ∉ level) :
    (levels filter).head? = some level ↔
      filter = level ∨ (level ++ [slash]).isPrefixOf filter = true := by
  rw [List.isPrefixOf_iff_prefix]
  constructor
  · intro h
    have hjoin : [slash].intercalate (levels filter) = filter := List.intercalate_splitOn _
    cases hlevels : levels filter with
    | nil => exact absurd hlevels (levels_ne_nil filter)
    | cons first rest =>
      rw [hlevels] at h hjoin
      cases h
      cases rest with
      | nil =>
        left
        rw [← hjoin]
        simp
      | cons second rest =>
        right
        rw [List.intercalate_cons_cons] at hjoin
        exact ⟨_, hjoin⟩
  · rintro (rfl | ⟨rest, rfl⟩)
    · rw [levels_eq_singleton hlevel]
      rfl
    · rw [List.append_assoc, List.singleton_append, levels_append, levels_eq_singleton hlevel]
      rfl

/-- Matching in terms of levels: wildcards in the first level do not see a topic that begins
with a dollar sign. -/
theorem topicMatches_iff {filter topic : Text} :
    topicMatches filter topic = true ↔
      ((topic.head? == some 36) = true →
        (levels filter).head? ≠ some plusLevel ∧ (levels filter).head? ≠ some hashLevel) ∧
      matchLevels (levels filter) (levels topic) = true := by
  have hplus : slash ∉ plusLevel := by decide
  have hhash : slash ∉ hashLevel := by decide
  simp only [topicMatches, dollarHidden]
  by_cases hdollar : (topic.head? == some 36) = true
  · simp only [hdollar, Bool.true_and, Bool.or_eq_true, beq_iff_eq, forall_const, ne_eq,
      head?_levels hplus, head?_levels hhash]
    constructor
    · intro h
      split at h
      · cases h
      · next hhidden =>
        refine ⟨⟨?_, ?_⟩, h⟩
        · tauto
        · rintro (heq | hprefix)
          · tauto
          · -- A level after the wildcard for all of them never matches.
            obtain ⟨rest, rfl⟩ := List.isPrefixOf_iff_prefix.mp hprefix
            rw [List.append_assoc, List.singleton_append, levels_append,
              levels_eq_singleton hhash, List.singleton_append, matchLevels.eq_def] at h
            simp only [if_true, List.isEmpty_iff] at h
            exact levels_ne_nil rest h
    · rintro ⟨⟨hnotPlus, hnotHash⟩, hmatch⟩
      rw [if_neg (by tauto)]
      exact hmatch
  · simp [hdollar]

end Netbaiot.Mqtt
