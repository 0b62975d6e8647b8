import Netbaiot.Lib.Table

/-!
# Counters per class

A program that limits how many entries of each class a table may hold keeps a counter for
each class that occurs.  `Tally` says that these counters are right; `bump` and `release`
keep them right when an entry is added or removed.
-/

namespace Netbaiot.Lib

open AList

variable {κ ν γ : Type} [DecidableEq γ]

/-- One entry more of a class. -/
def bump (counts : Table γ ℕ) (c : γ) : Table γ ℕ :=
  counts.insert c ((counts.lookup c).getD 0 + 1)

/-- One entry less of a class; the counter of a class that no longer occurs is removed. -/
def release (counts : Table γ ℕ) (c : γ) : Table γ ℕ :=
  match counts.lookup c with
  | none => counts
  | some n => if n - 1 = 0 then counts.erase c else counts.insert c (n - 1)

/-- The number of entries of a class. -/
def countOf (classOf : κ → γ) (c : γ) (t : Table κ ν) : ℕ :=
  t.total fun k _ => if classOf k = c then 1 else 0

/-- Every counter is the number of entries of its class. -/
def Tally (counts : Table γ ℕ) (classOf : κ → γ) (t : Table κ ν) : Prop :=
  ∀ c, (counts.lookup c).getD 0 = countOf classOf c t

variable {counts : Table γ ℕ} {classOf : κ → γ} {t : Table κ ν}

theorem lookup_bump (c c' : γ) : ((bump counts c).lookup c').getD 0 =
    (counts.lookup c').getD 0 + if c = c' then 1 else 0 := by
  rw [bump, lookup_insert_eq]
  by_cases h : c' = c
  · subst h
    simp
  · simp [h, Ne.symm h]

theorem lookup_release (c c' : γ) : ((release counts c).lookup c').getD 0 =
    (counts.lookup c').getD 0 - if c = c' then 1 else 0 := by
  unfold release
  split
  · next hnone =>
    by_cases h : c = c'
    · subst h
      simp [hnone]
    · simp [h]
  · next n hsome =>
    by_cases h : c = c'
    · subst h
      split
      · next hlast =>
        rw [lookup_erase_eq, if_pos rfl, hsome]
        simp [hlast]
      · rw [lookup_insert_eq, if_pos rfl, hsome]
        simp
    · split
      · simp [lookup_erase_ne (Ne.symm h)]
      · simp [lookup_insert_ne (Ne.symm h)]

theorem Tally.empty : Tally (∅ : Table γ ℕ) classOf (∅ : Table κ ν) := fun _ => rfl

variable [DecidableEq κ]

theorem countOf_insert_new {k : κ} (v : ν) (h : t.lookup k = none) (c : γ) :
    countOf classOf c (t.insert k v) = countOf classOf c t + if classOf k = c then 1 else 0 := by
  rw [countOf, total_insert_new _ h, Nat.add_comm]
  rfl

theorem Tally.insert_new {k : κ} (htally : Tally counts classOf t) (v : ν)
    (h : t.lookup k = none) : Tally (bump counts (classOf k)) classOf (t.insert k v) := by
  intro c
  rw [lookup_bump, countOf_insert_new v h, htally c]

theorem countOf_replace {k : κ} {old : ν} (v : ν) (h : t.lookup k = some old) (c : γ) :
    countOf classOf c (t.insert k v) = countOf classOf c t := by
  rw [countOf, countOf, total_insert, total_of_lookup _ h]

theorem Tally.replace {k : κ} {old : ν} (htally : Tally counts classOf t) (v : ν)
    (h : t.lookup k = some old) : Tally counts classOf (t.insert k v) := by
  intro c
  rw [countOf_replace v h, htally c]

theorem countOf_erase {k : κ} {old : ν} (h : t.lookup k = some old) (c : γ) :
    countOf classOf c (t.erase k) + (if classOf k = c then 1 else 0) = countOf classOf c t := by
  rw [countOf, countOf, total_of_lookup _ h, Nat.add_comm]

theorem Tally.erase {k : κ} {old : ν} (htally : Tally counts classOf t)
    (h : t.lookup k = some old) : Tally (release counts (classOf k)) classOf (t.erase k) := by
  intro c
  have hcount := @countOf_erase _ _ _ _ classOf _ _ _ _ h c
  rw [lookup_release, htally c]
  omega

end Netbaiot.Lib
