import Schemata.Schema.Basic

/-!
# The difference of two sets of names

The names of two ordered sets fall into those added, those removed and those common to both.
Reserved names are left out on both sides.

## Main definitions

* `NameDiff`: the three classes
* `NameDiff.between`: the classes of two sequences of names

## Main results

* `mem_relevant_iff`, `nodup_relevant`: what the classes are taken from
* `mem_added_iff`, `mem_removed_iff`, `mem_common_iff`: the names of each class
* `nodup_added`, `nodup_removed`, `nodup_common`: no class lists a name twice
-/

namespace Schemata

/-- The classes of the names of two ordered sets. -/
structure NameDiff where
  /-- The names of the second set only, in its order. -/
  added : List String
  /-- The names of the first set only, in its order. -/
  removed : List String
  /-- The names of both sets, in the order of the second. -/
  common : List String
  deriving DecidableEq

namespace NameDiff

/-- The names that are not reserved, each at its first occurrence. -/
def relevant (names : List String) : List String :=
  (names.filter fun name => !isReserved name).eraseDups

/-- Classifies the names of two sequences. -/
def between (prev next : List String) : NameDiff where
  added := (relevant next).filter fun name => !(relevant prev).contains name
  removed := (relevant prev).filter fun name => !(relevant next).contains name
  common := (relevant next).filter fun name => (relevant prev).contains name

/-- Whether nothing is added and nothing removed. -/
def isEmpty (diff : NameDiff) : Bool := diff.added.isEmpty && diff.removed.isEmpty

theorem mem_relevant_iff {names : List String} {name : String} :
    name ∈ relevant names ↔ name ∈ names ∧ isReserved name = false := by
  simp [relevant]

/-- A name that occurs several times is listed once. -/
theorem nodup_relevant (names : List String) : (relevant names).Nodup := by
  unfold relevant
  generalize names.filter (fun name => !isReserved name) = kept
  induction h : kept.length using Nat.strongRecOn generalizing kept with
  | ind n ih =>
    cases kept with
    | nil => simp
    | cons first rest =>
      rw [List.eraseDups_cons, List.nodup_cons]
      refine ⟨by simp, ih _ ?_ _ rfl⟩
      have := List.length_filter_le (fun other => !other == first) rest
      simp only [List.length_cons] at h
      omega

variable {prev next : List String} {name : String}

theorem mem_added_iff :
    name ∈ (between prev next).added ↔ isReserved name = false ∧ name ∈ next ∧ name ∉ prev := by
  simp only [between, List.mem_filter, mem_relevant_iff, Bool.not_eq_true', List.contains_eq_mem,
    decide_eq_false_iff_not]
  grind

theorem mem_removed_iff :
    name ∈ (between prev next).removed ↔ isReserved name = false ∧ name ∈ prev ∧ name ∉ next := by
  simp only [between, List.mem_filter, mem_relevant_iff, Bool.not_eq_true', List.contains_eq_mem,
    decide_eq_false_iff_not]
  grind

theorem mem_common_iff :
    name ∈ (between prev next).common ↔ isReserved name = false ∧ name ∈ prev ∧ name ∈ next := by
  simp only [between, List.mem_filter, mem_relevant_iff, List.contains_eq_mem, decide_eq_true_iff]
  grind

theorem nodup_added : (between prev next).added.Nodup := (nodup_relevant next).filter _

theorem nodup_removed : (between prev next).removed.Nodup := (nodup_relevant prev).filter _

theorem nodup_common : (between prev next).common.Nodup := (nodup_relevant next).filter _

end NameDiff

end Schemata
