import Mathlib.Data.List.Nodup
import Mathlib.Data.List.Perm.Basic
import Schemata.Migration.NameDiff

/-!
# The difference of two sets of names is a partition

The names on either side may come in any order and more than once. Each of them that is not reserved
is listed in one class, and there it is listed once. What counts for the order of a class is where
its names stand for the first time in the sequence that the class is taken from.

The classes do not depend on which of the two sequences is called the next one, but for the names of
the classes and the order of what is common.

## Main definitions

* `InOrderOf`: some names stand in the order in which a sequence first mentions them
* `Partitions`: classes of names that partition two sequences

## Main results

* `inOrderOf_relevant`: what the classes are taken from is in the order of its sequence
* `added_append_common_perm`, `removed_append_common_perm`: the classes of each side make it up
* `isEmpty_iff`: nothing is added or removed exactly if both sides have the same names
* `between_partitions`: a difference is an ordered partition
-/

namespace Schemata.NameDiff

/-- The names are listed in the order in which they first occur in the sequence. -/
def InOrderOf (names listed : List String) : Prop :=
  listed.Pairwise fun a b => names.idxOf a < names.idxOf b

variable {prev next names listed : List String} {a b : String}

/-! ### The order of first occurrences -/

/-- Names that are kept come in the same order among all names. -/
theorem idxOf_lt_of_filter {p : String → Bool} (ha : p a) (hb : p b)
    (h : (names.filter p).idxOf a < (names.filter p).idxOf b) : names.idxOf a < names.idxOf b := by
  induction names with
  | nil => exact h
  | cons first rest ih =>
    by_cases hfirst : p first
    · rw [List.filter_cons_of_pos hfirst] at h
      simp only [List.idxOf_cons] at h ⊢
      grind
    · -- A name that is left out is neither of the two.
      have hne {name : String} (hname : p name) : (first == name) = false :=
        beq_eq_false_iff_ne.2 fun heq => hfirst (heq ▸ hname)
      rw [List.filter_cons_of_neg hfirst] at h
      simp only [List.idxOf_cons, hne ha, hne hb, cond_false]
      exact Nat.succ_lt_succ (ih h)

theorem InOrderOf.of_filter {p : String → Bool} (h : InOrderOf (names.filter p) listed)
    (hlisted : ∀ name ∈ listed, p name) : InOrderOf names listed :=
  List.Pairwise.imp_of_mem (fun ha hb => idxOf_lt_of_filter (hlisted _ ha) (hlisted _ hb)) h

theorem InOrderOf.filter (h : InOrderOf names listed) (p : String → Bool) :
    InOrderOf names (listed.filter p) :=
  List.Pairwise.filter p h

/-- Names without their repetitions are in the order of their first occurrences. -/
theorem inOrderOf_eraseDups (names : List String) : InOrderOf names names.eraseDups := by
  -- The rest of the names is cleared of the first one, so the induction is on their number.
  induction h : names.length using Nat.strongRecOn generalizing names with
  | ind n ih =>
    cases names with
    | nil => exact List.Pairwise.nil
    | cons first rest =>
      have hlength := List.length_filter_le (fun name => !name == first) rest
      have hothers := ih (rest.filter fun name => !name == first).length
        (by simp only [List.length_cons] at h; omega) _ rfl
      have hne : ∀ name ∈ (rest.filter fun name => !name == first).eraseDups, name ≠ first := by
        intro name hname
        simpa using (List.mem_filter.1 (List.mem_eraseDups.1 hname)).2
      have hrest := hothers.of_filter fun name hname => by simpa using hne name hname
      rw [List.eraseDups_cons, InOrderOf, List.pairwise_cons]
      constructor
      · intro name hname
        simp [(hne name hname).symm]
      · refine List.Pairwise.imp_of_mem (fun {a b} ha hb hlt => ?_) hrest
        simpa [List.idxOf_cons, (hne a ha).symm, (hne b hb).symm] using hlt

/-- The names that the classes are taken from stand in the order of their sequence. -/
theorem inOrderOf_relevant (names : List String) : InOrderOf names (relevant names) := by
  refine (inOrderOf_eraseDups _).of_filter fun name hname => ?_
  exact (List.mem_filter.1 (List.mem_eraseDups.1 hname)).2

/-! ### The classes of a side -/

/-- What is added and what is common make up the next names. -/
theorem added_append_common_perm :
    ((between prev next).added ++ (between prev next).common).Perm (relevant next) :=
  List.perm_append_comm.trans (List.filter_append_perm _ _)

/-- What is removed and what is common make up the previous names. -/
theorem removed_append_common_perm :
    ((between prev next).removed ++ (between prev next).common).Perm (relevant prev) := by
  have hcommon : (between prev next).common.Perm
      ((relevant prev).filter fun name => (relevant next).contains name) := by
    refine (List.perm_ext_iff_of_nodup nodup_common ((nodup_relevant prev).filter _)).2 ?_
    intro name
    rw [mem_common_iff, List.mem_filter, List.contains_iff_mem, mem_relevant_iff, mem_relevant_iff]
    tauto
  exact (hcommon.append_left _).trans
    (List.perm_append_comm.trans (List.filter_append_perm _ _))

/-- A name is among the relevant ones once if it is there and not reserved. -/
theorem count_relevant (names : List String) (name : String) :
    (relevant names).count name = if isReserved name = false ∧ name ∈ names then 1 else 0 := by
  rw [(nodup_relevant names).count]
  simp only [mem_relevant_iff, and_comm]

/-- Nothing is added or removed exactly if the two sides have the same names. -/
theorem isEmpty_iff : (between prev next).isEmpty ↔
    ∀ name, isReserved name = false → (name ∈ prev ↔ name ∈ next) := by
  simp only [isEmpty, Bool.and_eq_true, List.isEmpty_iff, List.eq_nil_iff_forall_not_mem,
    mem_added_iff, mem_removed_iff]
  grind

/-- Sequences are partitioned by classes of their names: each name that is not reserved is in one of
the classes of its side, in the order in which that side mentions the names. -/
structure Partitions (diff : NameDiff) (prev next : List String) : Prop where
  /-- The next names are those that are added and those that are common. -/
  next_once : ∀ name, (diff.added ++ diff.common).count name =
    if isReserved name = false ∧ name ∈ next then 1 else 0
  /-- The previous names are those that are removed and those that are common. -/
  prev_once : ∀ name, (diff.removed ++ diff.common).count name =
    if isReserved name = false ∧ name ∈ prev then 1 else 0
  added_removed : diff.added.Disjoint diff.removed
  added_common : diff.added.Disjoint diff.common
  removed_common : diff.removed.Disjoint diff.common
  /-- No class has a reserved name. -/
  not_reserved : ∀ name ∈ diff.added ++ diff.removed ++ diff.common, isReserved name = false
  added_inOrder : InOrderOf next diff.added
  common_inOrder : InOrderOf next diff.common
  removed_inOrder : InOrderOf prev diff.removed

theorem Partitions.of_between (prev next : List String) :
    (between prev next).Partitions prev next where
  next_once name := by rw [added_append_common_perm.count_eq, count_relevant]
  prev_once name := by rw [removed_append_common_perm.count_eq, count_relevant]
  added_removed name hadded hremoved :=
    (mem_removed_iff.1 hremoved).2.2 (mem_added_iff.1 hadded).2.1
  added_common name hadded hcommon := (mem_added_iff.1 hadded).2.2 (mem_common_iff.1 hcommon).2.1
  removed_common name hremoved hcommon :=
    (mem_removed_iff.1 hremoved).2.2 (mem_common_iff.1 hcommon).2.2
  not_reserved name hname := by
    rcases List.mem_append.1 hname with hname | hname
    · rcases List.mem_append.1 hname with hname | hname
      · exact (mem_added_iff.1 hname).1
      · exact (mem_removed_iff.1 hname).1
    · exact (mem_common_iff.1 hname).1
  added_inOrder := (inOrderOf_relevant next).filter _
  common_inOrder := (inOrderOf_relevant next).filter _
  removed_inOrder := (inOrderOf_relevant prev).filter _

/-- A difference is an ordered partition of the names that are not reserved. It is empty exactly if
both sides have the same names of this kind. With the sides exchanged, what was added is removed,
what was removed is added, and the same names are common. -/
theorem between_partitions (prev next : List String) :
    (between prev next).Partitions prev next ∧
    ((between prev next).isEmpty ↔
      ∀ name, isReserved name = false → (name ∈ prev ↔ name ∈ next)) ∧
    (between next prev).added = (between prev next).removed ∧
    (between next prev).removed = (between prev next).added ∧
    (between next prev).common.Perm (between prev next).common := by
  refine ⟨.of_between prev next, isEmpty_iff, rfl, rfl, ?_⟩
  refine (List.perm_ext_iff_of_nodup nodup_common nodup_common).2 fun name => ?_
  rw [mem_common_iff, mem_common_iff, and_comm (a := name ∈ next)]

/-- Of the names that are repeated the first occurrence counts, and reserved names do not. -/
example : between ["b", "a", "__meta", "b", "c"] ["d", "c", "a", "__where", "c", "e"] =
    ⟨["d", "e"], ["b"], ["c", "a"]⟩ := by
  decide

end Schemata.NameDiff
