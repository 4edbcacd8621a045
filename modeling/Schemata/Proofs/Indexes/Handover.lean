import Mathlib.Data.List.Perm.Subperm
import Schemata.Proofs.Indexes.Live

/-!
# Handing over names

Several owners have names and change them in turn, each once. A turn gives up the names that it
*holds* and does not *want*, and takes those that it wants and does not hold. What it holds is what
it takes its names to be; what it *owns* is what they really are. The two differ where an owner has
got a name of its own that its names have not followed.

The turns can be taken, and every owner has the names it wants at the end, exactly if three things
are right: all in all the names that are held are those that are owned, nobody keeps a name that is
another's, and nobody wants a name that is held by one whose turn comes later. That the first is
needed is a matter of counting: a name that is owned and not held is given up by nobody and wanted
by nobody, so each one is held, and there are no more of the others.

## Main definitions

* `Handover`, `Handover.Leads`: a turn, and what it does
* `Handover.Consistent`: no name is owned, or wanted, in two turns, and no owner has two turns
* `Handover.Orderly`: the three conditions

## Main results

* `Handover.exists_runs_iff`: the turns are taken and lead to what is wanted exactly if they are
  orderly
-/

namespace Schemata

/-- What a turn means for the names of one owner. -/
structure Handover where
  /-- The owner before the turn, if there is one. -/
  former : Option String
  /-- The owner after the turn, if there is one. -/
  latter : Option String
  /-- The names that the owner has. -/
  owned : List String
  /-- The names that it takes itself to have. -/
  held : List String
  /-- The names that it is to have. -/
  wanted : List String

namespace Handover

/-- The owner of a name of another one after the turn. -/
def passed (h : Handover) (owner : String) : Option String :=
  if h.former = some owner then h.latter else some owner

/-- What is given up is there, and what is taken is free. An owner that goes gives up what it has,
whatever that is. -/
structure Ready (h : Handover) (live : LiveIndexes) : Prop where
  present : h.latter.isSome → ∀ n ∈ h.held, n ∉ h.wanted → (live n).isSome
  free : ∀ n ∈ h.wanted, n ∉ h.held → live n = none

/-- The names after the turn. -/
def effect (h : Handover) (live : LiveIndexes) : LiveIndexes := fun n =>
  if n ∈ h.wanted ∧ n ∉ h.held then h.latter
  else if h.latter.isSome ∧ n ∈ h.held ∧ n ∉ h.wanted then none
  else (live n).bind h.passed

/-- The turn leads from the one state of the names to the other. -/
def Leads (live : LiveIndexes) (h : Handover) (live' : LiveIndexes) : Prop :=
  h.Ready live ∧ h.effect live = live'

/-- The owner, before and after. -/
def names (h : Handover) : List String := h.former.toList ++ h.latter.toList

/-- No name is owned or wanted in two turns, no owner has two, and an owner that is not there before
owns nothing, and one that is not there afterwards knows what it owns and wants nothing. -/
structure Consistent (hs : List Handover) : Prop where
  owned_nodup : (hs.flatMap owned).Nodup
  wanted_nodup : (hs.flatMap wanted).Nodup
  independent : Independent names hs
  named {h : Handover} : h ∈ hs → h.names ≠ []
  length_eq {h : Handover} : h ∈ hs → h.owned.length = h.held.length
  former_isSome {h : Handover} {n : String} : h ∈ hs → n ∈ h.owned → h.former.isSome
  owned_eq {h : Handover} : h ∈ hs → h.latter = none → h.owned = h.held
  wanted_eq {h : Handover} : h ∈ hs → h.latter = none → h.wanted = []

/-- The turns are in order: what is held is what is owned, by whomever; what is kept is one's own;
and what is wanted is not held by one whose turn comes later. -/
structure Orderly (hs : List Handover) : Prop where
  same (n : String) : (∃ h ∈ hs, n ∈ h.owned) ↔ ∃ h ∈ hs, n ∈ h.held
  own {h : Handover} {n : String} : h ∈ hs → n ∈ h.held → n ∈ h.wanted → n ∈ h.owned
  released : hs.Pairwise fun h h' => h.wanted.Disjoint h'.held

/-- The names and their owners before all turns; others have no turn. -/
def Before (hs : List Handover) (others : String → String → Prop) (n owner : String) : Prop :=
  (∃ h ∈ hs, h.former = some owner ∧ n ∈ h.owned) ∨ others n owner

/-- The names and their owners after all turns. -/
def After (hs : List Handover) (others : String → String → Prop) (n owner : String) : Prop :=
  (∃ h ∈ hs, h.latter = some owner ∧ n ∈ h.wanted) ∨ others n owner

/-- Those who have no turn have names of their own. -/
structure Apart (hs : List Handover) (others : String → String → Prop) : Prop where
  owner {n owner : String} {h : Handover} : others n owner → h ∈ hs → owner ∉ h.names
  owned {n owner : String} {h : Handover} : others n owner → h ∈ hs → n ∉ h.owned
  wanted {n owner : String} {h : Handover} : others n owner → h ∈ hs → n ∉ h.wanted

variable {hs todo done rest : List Handover} {h h' : Handover} {n owner : String}
variable {live live' : LiveIndexes} {others : String → String → Prop}

theorem mem_names_of_former (hformer : h.former = some owner) : owner ∈ h.names := by
  simp [names, hformer]

theorem mem_names_of_latter (hlatter : h.latter = some owner) : owner ∈ h.names := by
  simp [names, hlatter]

namespace Consistent

/-- An owner has one turn only. -/
theorem eq_of_mem_names (hc : Consistent hs) (hh : h ∈ hs) (hh' : h' ∈ hs) (hn : owner ∈ h.names)
    (hn' : owner ∈ h'.names) : h = h' :=
  hc.independent.eq_of_mem hh hh' hn hn'

theorem nodup (hc : Consistent hs) : hs.Nodup := by
  refine List.Pairwise.imp_of_mem (fun hh _ hdisjoint heq => ?_) hc.independent
  obtain ⟨n, hn⟩ := List.exists_mem_of_ne_nil _ (hc.named hh)
  exact hdisjoint hn (heq ▸ hn)

theorem ne_of_mem_done (hc : Consistent (done ++ h :: rest)) (hh' : h' ∈ done) : h ≠ h' := by
  have hdisjoint := (List.nodup_append.1 hc.nodup).2.2
  exact (hdisjoint h' hh' h List.mem_cons_self).symm

theorem ne_of_mem_rest (hc : Consistent (done ++ h :: rest)) (hh' : h' ∈ rest) : h ≠ h' := by
  have hnodup := (List.nodup_append.1 hc.nodup).2.1
  rintro rfl
  exact (List.nodup_cons.1 hnodup).1 hh'

theorem latter_isSome (hc : Consistent hs) (hh : h ∈ hs) (hn : n ∈ h.wanted) : h.latter.isSome := by
  rw [Option.isSome_iff_ne_none]
  intro hnone
  rw [hc.wanted_eq hh hnone] at hn
  exact absurd hn (by simp)

/-- An owner that has a name without holding it is there afterwards. -/
theorem latter_isSome_of_owned (hc : Consistent hs) (hh : h ∈ hs) (hn : n ∈ h.owned)
    (hheld : n ∉ h.held) : h.latter.isSome := by
  rw [Option.isSome_iff_ne_none]
  intro hnone
  rw [hc.owned_eq hh hnone] at hn
  exact hheld hn

/-- If all that is owned is held, then nothing else is, and nothing is held in two turns. -/
theorem perm_held (hc : Consistent hs) (hsub : hs.flatMap owned ⊆ hs.flatMap held) :
    (hs.flatMap owned).Perm (hs.flatMap held) := by
  have hlength : (hs.flatMap held).length = (hs.flatMap owned).length := by
    rw [List.length_flatMap, List.length_flatMap]
    exact congrArg List.sum (List.map_congr_left fun h hh => (hc.length_eq hh).symm)
  exact (hc.owned_nodup.subperm hsub).perm_of_length_le (Nat.le_of_eq hlength)

end Consistent

/-! ### Names that are not given up -/

theorem passed_of_former (h : Handover) (hformer : h.former = some owner) :
    h.passed owner = h.latter := if_pos hformer

theorem passed_of_ne (h : Handover) (hformer : h.former ≠ some owner) :
    h.passed owner = some owner := if_neg hformer

theorem Consistent.former_ne (hc : Consistent hs) (hh : h ∈ hs) (hh' : h' ∈ hs) (hne : h ≠ h')
    (hn : owner ∈ h'.names) : h.former ≠ some owner :=
  fun hformer => hne (hc.eq_of_mem_names hh hh' (mem_names_of_former hformer) hn)

theorem Consistent.former_ne_of_done (hc : Consistent (done ++ h :: rest)) (hh' : h' ∈ done)
    (hlatter : h'.latter = some owner) : h.former ≠ some owner :=
  hc.former_ne (by simp) (by simp [hh']) (hc.ne_of_mem_done hh') (mem_names_of_latter hlatter)

theorem Consistent.former_ne_of_rest (hc : Consistent (done ++ h :: rest)) (hh' : h' ∈ rest)
    (hformer : h'.former = some owner) : h.former ≠ some owner :=
  hc.former_ne (by simp) (by simp [hh']) (hc.ne_of_mem_rest hh') (mem_names_of_former hformer)

theorem Apart.former_ne (hapart : Apart hs others) (hother : others n owner) (hh : h ∈ hs) :
    h.former ≠ some owner :=
  fun hformer => hapart.owner hother hh (mem_names_of_former hformer)

/-- A name that is given up by nobody stays with its owner, before and after that one's turn. -/
theorem exists_owner_of_runs (hc : Consistent hs) (hh : h ∈ hs) (hsub : todo ⊆ hs)
    (hkept : ∀ h' ∈ todo, n ∈ h'.held → n ∈ h'.wanted) (hlatter : h ∈ todo → h.latter.isSome)
    (hrun : Runs Leads live todo live') (hlive : ∃ owner ∈ h.names, live n = some owner) :
    ∃ owner ∈ h.names, live' n = some owner := by
  -- The invariant does not say which of the two names the owner has by now.
  refine hrun.invariant (P := fun a => ∃ owner ∈ h.names, a n = some owner) ?_ hlive
  rintro a b h' hh' ⟨hready, rfl⟩ ⟨owner, howner, ha⟩
  have hnew : ¬(n ∈ h'.wanted ∧ n ∉ h'.held) := by
    rintro ⟨hwanted, hheld⟩
    rw [hready.free n hwanted hheld] at ha
    exact absurd ha (by simp)
  have hgone : ¬(h'.latter.isSome ∧ n ∈ h'.held ∧ n ∉ h'.wanted) :=
    fun ⟨_, hheld, hwanted⟩ => hwanted (hkept h' hh' hheld)
  rw [effect, if_neg hnew, if_neg hgone, ha, Option.bind_some]
  by_cases hformer : h'.former = some owner
  · obtain rfl := hc.eq_of_mem_names (hsub hh') hh (mem_names_of_former hformer) howner
    obtain ⟨after, hafter⟩ := Option.isSome_iff_exists.1 (hlatter hh')
    exact ⟨after, mem_names_of_latter hafter, by rw [passed_of_former _ hformer, hafter]⟩
  · exact ⟨owner, howner, passed_of_ne _ hformer⟩

/-- Until its turn comes, nothing that is already there is wanted. -/
theorem eq_none_of_wanted {first : List Handover}
    (hrun : Runs Leads live (first ++ h :: rest) live') (hwanted : n ∈ h.wanted)
    (hheld : n ∉ h.held) :
    ∃ middle, Runs Leads live first middle ∧ middle n = none := by
  obtain ⟨middle, hfirst, hrest⟩ := runs_append_iff.1 hrun
  obtain ⟨_, hstep, -⟩ := runs_cons_iff.1 hrest
  exact ⟨middle, hfirst, hstep.1.free n hwanted hheld⟩

section Run

variable (hc : Consistent hs) (hapart : Apart hs others)
variable (hstart : ∀ n owner, live n = some owner ↔ Before hs others n owner)

include hstart in
theorem exists_owner_of_owned (hc : Consistent hs) (hh : h ∈ hs) (hn : n ∈ h.owned) :
    ∃ owner ∈ h.names, live n = some owner := by
  obtain ⟨owner, howner⟩ := Option.isSome_iff_exists.1 (hc.former_isSome hh hn)
  exact ⟨owner, mem_names_of_former howner, (hstart n owner).2 (.inl ⟨h, hh, howner, hn⟩)⟩

include hc hapart hstart in
/-- If the turns lead to what is wanted, each name that is owned is held. -/
theorem owned_subset_held (hrun : Runs Leads live hs live')
    (hend : ∀ n owner, live' n = some owner ↔ After hs others n owner) :
    hs.flatMap owned ⊆ hs.flatMap held := by
  intro n hn
  obtain ⟨h, hh, hn⟩ := List.mem_flatMap.1 hn
  rw [List.mem_flatMap]
  -- A name that nobody holds is given up by nobody, and so it is there at the end.
  by_contra hheld
  push Not at hheld
  have hlatter := hc.latter_isSome_of_owned hh hn (hheld h hh)
  have hkept {l : List Handover} (hl : l ⊆ hs) : ∀ h' ∈ l, n ∈ h'.held → n ∈ h'.wanted :=
    fun h' hh' hn' => absurd hn' (hheld h' (hl hh'))
  have hlive := exists_owner_of_owned hstart hc hh hn
  obtain ⟨owner, howner, hfinal⟩ := exists_owner_of_runs hc hh (List.Subset.refl hs)
    (hkept (List.Subset.refl hs)) (fun _ => hlatter) hrun hlive
  rcases (hend n owner).1 hfinal with ⟨h', hh', hlatter', hwanted⟩ | hother
  · -- The owner wants it without holding it, and so would have taken what is not free.
    obtain rfl := hc.eq_of_mem_names hh' hh (mem_names_of_latter hlatter') howner
    obtain ⟨first, rest, rfl⟩ := List.append_of_mem hh'
    obtain ⟨middle, hfirst, hnone⟩ := eq_none_of_wanted hrun hwanted (hheld h' hh')
    have hsub : first ⊆ first ++ h' :: rest := List.subset_append_left ..
    obtain ⟨_, -, hmiddle⟩ := exists_owner_of_runs hc hh hsub (hkept hsub) (fun _ => hlatter)
      hfirst hlive
    rw [hnone] at hmiddle
    exact absurd hmiddle (by simp)
  · exact hapart.owned hother hh hn

theorem pairwise_of_split {R : Handover → Handover → Prop}
    (hsplit : ∀ first h rest, hs = first ++ h :: rest → ∀ h' ∈ rest, R h h') : hs.Pairwise R := by
  induction hs with
  | nil => exact .nil
  | cons h hs ih =>
    refine List.pairwise_cons.2 ⟨hsplit [] h hs rfl, ih fun first h' rest heq => ?_⟩
    exact hsplit (h :: first) h' rest (by rw [heq, List.cons_append])

section End

variable (hrun : Runs Leads live hs live')
variable (hend : ∀ n owner, live' n = some owner ↔ After hs others n owner)

include hc hapart hstart hrun hend in
/-- If the turns lead to what is wanted, the names that are held are those that are owned. -/
theorem perm_held_of_runs : (hs.flatMap owned).Perm (hs.flatMap held) :=
  hc.perm_held (owned_subset_held hc hapart hstart hrun hend)

include hc hapart hstart hrun hend in
theorem exists_owned_iff_of_runs (n : String) : (∃ h ∈ hs, n ∈ h.owned) ↔ ∃ h ∈ hs, n ∈ h.held := by
  have hperm := perm_held_of_runs hc hapart hstart hrun hend
  simpa only [List.mem_flatMap] using hperm.mem_iff (a := n)

include hc hapart hstart hrun hend in
/-- If the turns lead to what is wanted, nothing is held in two of them. -/
theorem eq_of_held_of_runs (hh : h ∈ hs) (hh' : h' ∈ hs) (hn : n ∈ h.held) (hn' : n ∈ h'.held) :
    h = h' := by
  have hperm := perm_held_of_runs hc hapart hstart hrun hend
  exact eq_of_mem_flatMap (hperm.nodup_iff.1 hc.owned_nodup) hh hh' hn hn'

include hc hapart hstart hrun hend in
/-- If the turns lead to what is wanted, what is kept is one's own: it stays with its owner, and
ends with the one who wants it. -/
theorem mem_owned_of_runs (hh : h ∈ hs) (hn : n ∈ h.held) (hwanted : n ∈ h.wanted) :
    n ∈ h.owned := by
  obtain ⟨h', hh', hn'⟩ := (exists_owned_iff_of_runs hc hapart hstart hrun hend n).2 ⟨h, hh, hn⟩
  suffices h' = h from this ▸ hn'
  -- Were it another's, the name would be both that one's and the holder's at the end.
  by_contra hne
  have hholder {h'' : Handover} (hh'' : h'' ∈ hs) (hn'' : n ∈ h''.held) : h'' = h :=
    eq_of_held_of_runs hc hapart hstart hrun hend hh'' hh hn'' hn
  have hkept : ∀ h'' ∈ hs, n ∈ h''.held → n ∈ h''.wanted := by
    intro h'' hh'' hn''
    obtain rfl := hholder hh'' hn''
    exact hwanted
  have hlatter := hc.latter_isSome_of_owned hh' hn' fun hheld => hne (hholder hh' hheld)
  obtain ⟨owner, howner, hfinal⟩ := exists_owner_of_runs hc hh' (List.Subset.refl hs) hkept
    (fun _ => hlatter) hrun (exists_owner_of_owned hstart hc hh' hn')
  obtain ⟨after, hafter⟩ := Option.isSome_iff_exists.1 (hc.latter_isSome hh hwanted)
  have hfinal' := (hend n after).2 (.inl ⟨h, hh, hafter, hwanted⟩)
  obtain rfl := Option.some.inj (hfinal.symm.trans hfinal')
  exact hne (hc.eq_of_mem_names hh' hh howner (mem_names_of_latter hafter))

end End

/-- If the turns lead to what is wanted, what is wanted is not held by one whose turn comes later:
whoever owns it would still do so when it is taken. -/
theorem not_held_of_runs {later : Handover} (hc : Consistent (done ++ h :: rest))
    (hapart : Apart (done ++ h :: rest) others)
    (hstart : ∀ n owner, live n = some owner ↔ Before (done ++ h :: rest) others n owner)
    (hrun : Runs Leads live (done ++ h :: rest) live')
    (hend : ∀ n owner, live' n = some owner ↔ After (done ++ h :: rest) others n owner)
    (hlater : later ∈ rest) (hwanted : n ∈ h.wanted) : n ∉ later.held := by
  intro hn
  have hmem : later ∈ done ++ h :: rest := by simp [hlater]
  have hholder {h' : Handover} (hh' : h' ∈ done ++ h :: rest) (hn' : n ∈ h'.held) : h' = later :=
    eq_of_held_of_runs hc hapart hstart hrun hend hh' hmem hn' hn
  -- Nobody gives the name up before it is taken.
  have hdone : ∀ h' ∈ done, n ∉ h'.held := by
    intro h' hh' hn'
    obtain rfl := hholder (List.mem_append_left _ hh') hn'
    exact (List.nodup_append.1 hc.nodup).2.2 h' hh' h' (List.mem_cons_of_mem _ hlater) rfl
  have hheld : n ∉ h.held :=
    fun hn' => hc.ne_of_mem_rest hlater (hholder (by simp) hn')
  obtain ⟨middle, hfirst, hnone⟩ := eq_none_of_wanted hrun hwanted hheld
  obtain ⟨h', hh', hn'⟩ :=
    (exists_owned_iff_of_runs hc hapart hstart hrun hend n).2 ⟨later, hmem, hn⟩
  obtain ⟨_, -, hmiddle⟩ := exists_owner_of_runs hc hh' (List.subset_append_left ..)
    (fun h'' hh'' hn'' => absurd hn'' (hdone h'' hh''))
    (fun hmem' => hc.latter_isSome_of_owned hh' hn' (hdone h' hmem')) hfirst
    (exists_owner_of_owned hstart hc hh' hn')
  rw [hnone] at hmiddle
  exact absurd hmiddle (by simp)

include hc hapart hstart in
/-- If the turns lead to what is wanted, they are orderly. -/
theorem Orderly.of_runs (hrun : Runs Leads live hs live')
    (hend : ∀ n owner, live' n = some owner ↔ After hs others n owner) : Orderly hs := by
  refine ⟨exists_owned_iff_of_runs hc hapart hstart hrun hend,
    mem_owned_of_runs hc hapart hstart hrun hend, pairwise_of_split ?_⟩
  rintro done h rest rfl later hlater n hwanted hn
  exact not_held_of_runs hc hapart hstart hrun hend hlater hwanted hn

end Run

/-! ### Turns that are in order -/

/-- The names and their owners between the turns: those that have had a turn have what they want,
and of the others' names those that are still held are left, with whom they belong to by now. -/
def Between (hs done todo : List Handover) (others : String → String → Prop) (n owner : String) :
    Prop :=
  (∃ h ∈ done, h.latter = some owner ∧ n ∈ h.wanted) ∨
    (∃ h ∈ hs, n ∈ h.owned ∧ (∃ h' ∈ todo, n ∈ h'.held) ∧
      (h ∈ done ∧ h.latter = some owner ∨ h ∈ todo ∧ h.former = some owner)) ∨
    others n owner

theorem between_nil_iff (ho : Orderly hs) :
    Between hs [] hs others n owner ↔ Before hs others n owner := by
  have hheld {h : Handover} (hh : h ∈ hs) (hn : n ∈ h.owned) : ∃ h' ∈ hs, n ∈ h'.held :=
    (ho.same n).1 ⟨h, hh, hn⟩
  simp only [Between, Before, List.not_mem_nil, false_and, exists_false, false_or]
  refine or_congr_left ⟨?_, ?_⟩
  · rintro ⟨h, hh, hn, -, -, hformer⟩
    exact ⟨h, hh, hformer, hn⟩
  · rintro ⟨h, hh, hformer, hn⟩
    exact ⟨h, hh, hn, hheld hh hn, hh, hformer⟩

theorem between_all_iff : Between hs hs [] others n owner ↔ After hs others n owner := by
  simp [Between, After]

section Middle

variable (hc : Consistent (done ++ h :: rest)) (ho : Orderly (done ++ h :: rest))
variable (hapart : Apart (done ++ h :: rest) others)
variable (hlive : ∀ n owner,
  live n = some owner ↔ Between (done ++ h :: rest) done (h :: rest) others n owner)

include hc ho in
/-- In turns that are in order nothing is held twice. -/
theorem Orderly.eq_of_held {h₁ h₂ : Handover} (hh₁ : h₁ ∈ done ++ h :: rest)
    (hh₂ : h₂ ∈ done ++ h :: rest) (hn₁ : n ∈ h₁.held) (hn₂ : n ∈ h₂.held) : h₁ = h₂ := by
  have hsub : (done ++ h :: rest).flatMap owned ⊆ (done ++ h :: rest).flatMap held := by
    intro n hn
    exact List.mem_flatMap.2 ((ho.same n).1 (List.mem_flatMap.1 hn))
  exact eq_of_mem_flatMap ((hc.perm_held hsub).nodup_iff.1 hc.owned_nodup) hh₁ hh₂ hn₁ hn₂

include ho in
theorem Orderly.not_held_of_rest (hh' : h' ∈ rest) (hn : n ∈ h.wanted) : n ∉ h'.held :=
  fun hn' => (List.pairwise_cons.1 (List.pairwise_append.1 ho.released).2.1).1 h' hh' hn hn'

include ho in
theorem Orderly.not_held_of_done (hh' : h' ∈ done) (hn : n ∈ h'.wanted) : n ∉ h.held :=
  fun hn' => (List.pairwise_append.1 ho.released).2.2 h' hh' h List.mem_cons_self hn hn'

include hc ho hapart hlive in
/-- Between turns that are in order the next one can be taken. -/
theorem ready_of_between : h.Ready live := by
  have hh : h ∈ done ++ h :: rest := by simp
  constructor
  · intro _ n hn _
    obtain ⟨h', hh', hn'⟩ := (ho.same n).2 ⟨h, hh, hn⟩
    have hholds : ∃ h'' ∈ h :: rest, n ∈ h''.held := ⟨h, List.mem_cons_self, hn⟩
    rw [Option.isSome_iff_exists]
    rcases List.mem_append.1 hh' with hmem | hmem
    · cases hlatter : h'.latter with
      | none =>
        -- An owner that has gone has given up all its names.
        rw [hc.owned_eq hh' hlatter] at hn'
        exact absurd (ho.eq_of_held hc hh hh' hn hn') (hc.ne_of_mem_done hmem)
      | some owner =>
        exact ⟨owner, (hlive n owner).2 (.inr (.inl ⟨h', hh', hn', hholds, .inl ⟨hmem, hlatter⟩⟩))⟩
    · obtain ⟨owner, hformer⟩ := Option.isSome_iff_exists.1 (hc.former_isSome hh' hn')
      exact ⟨owner, (hlive n owner).2 (.inr (.inl ⟨h', hh', hn', hholds, .inr ⟨hmem, hformer⟩⟩))⟩
  · intro n hwanted hheld
    rw [Option.eq_none_iff_forall_ne_some]
    intro owner howner
    rcases (hlive n owner).1 howner with ⟨h', hh', -, hn'⟩ | ⟨_, -, -, ⟨h', hh', hn'⟩, -⟩ | hother
    · exact hc.ne_of_mem_done hh'
        (eq_of_mem_flatMap hc.wanted_nodup hh (List.mem_append_left _ hh') hwanted hn')
    · rcases List.mem_cons.1 hh' with rfl | hh'
      · exact hheld hn'
      · exact ho.not_held_of_rest hh' hwanted hn'
    · exact hapart.wanted hother hh hwanted

include hc ho hapart in
/-- A name that is taken has its new owner after the turn. -/
theorem between_iff_of_taken (hwanted : n ∈ h.wanted) :
    Between (done ++ h :: rest) (done ++ [h]) rest others n owner ↔ h.latter = some owner := by
  have hh : h ∈ done ++ h :: rest := by simp
  constructor
  · rintro (⟨h', hh', hlatter, hn'⟩ | ⟨_, -, -, ⟨h', hh', hn'⟩, -⟩ | hother)
    · have hmem : h' ∈ done ++ h :: rest := by
        rw [List.append_cons]
        exact List.mem_append_left _ hh'
      rw [eq_of_mem_flatMap hc.wanted_nodup hh hmem hwanted hn', hlatter]
    · exact absurd hn' (ho.not_held_of_rest hh' hwanted)
    · exact absurd hwanted (hapart.wanted hother hh)
  · exact fun hlatter => .inl ⟨h, by simp, hlatter, hwanted⟩

include hc ho hapart in
/-- A name that is given up has no owner after the turn. -/
theorem not_between_of_given_up (hheld : n ∈ h.held) (hwanted : n ∉ h.wanted) :
    ¬ Between (done ++ h :: rest) (done ++ [h]) rest others n owner := by
  have hh : h ∈ done ++ h :: rest := by simp
  rintro (⟨h', hh', -, hn'⟩ | ⟨_, -, -, ⟨h', hh', hn'⟩, -⟩ | hother)
  · rcases List.mem_append.1 hh' with hh' | hh'
    · exact ho.not_held_of_done hh' hn' hheld
    · obtain rfl := List.mem_singleton.1 hh'
      exact hwanted hn'
  · have hmem : h' ∈ done ++ h :: rest := by simp [hh']
    exact hc.ne_of_mem_rest hh' (ho.eq_of_held hc hh hmem hheld hn')
  · obtain ⟨h', hh', hn'⟩ := (ho.same n).2 ⟨h, hh, hheld⟩
    exact hapart.owned hother hh' hn'

include hc in
/-- The owner of a name, before the turn and after it. -/
theorem exists_passed_iff (hh' : h' ∈ done ++ h :: rest) (hn : n ∈ h'.owned) :
    (∃ before, (h' ∈ done ∧ h'.latter = some before ∨ h' ∈ h :: rest ∧ h'.former = some before) ∧
      h.passed before = some owner) ↔
    (h' ∈ done ++ [h] ∧ h'.latter = some owner ∨ h' ∈ rest ∧ h'.former = some owner) := by
  constructor
  · rintro ⟨before, ⟨hmem, hlatter⟩ | ⟨hmem, hformer⟩, hpassed⟩
    · rw [h.passed_of_ne (hc.former_ne_of_done hmem hlatter)] at hpassed
      exact .inl ⟨List.mem_append_left _ hmem, hlatter.trans hpassed⟩
    · rcases List.mem_cons.1 hmem with rfl | hmem
      · rw [passed_of_former _ hformer] at hpassed
        exact .inl ⟨by simp, hpassed⟩
      · rw [h.passed_of_ne (hc.former_ne_of_rest hmem hformer)] at hpassed
        exact .inr ⟨hmem, hformer.trans hpassed⟩
  · rintro (⟨hmem, hlatter⟩ | ⟨hmem, hformer⟩)
    · rcases List.mem_append.1 hmem with hmem | hmem
      · have hpassed := h.passed_of_ne (hc.former_ne_of_done hmem hlatter)
        exact ⟨owner, .inl ⟨hmem, hlatter⟩, hpassed⟩
      · obtain rfl := List.mem_singleton.1 hmem
        obtain ⟨before, hformer⟩ := Option.isSome_iff_exists.1 (hc.former_isSome hh' hn)
        refine ⟨before, .inr ⟨List.mem_cons_self, hformer⟩, ?_⟩
        rw [passed_of_former _ hformer, hlatter]
    · have hpassed := h.passed_of_ne (hc.former_ne_of_rest hmem hformer)
      exact ⟨owner, .inr ⟨List.mem_cons_of_mem _ hmem, hformer⟩, hpassed⟩

include hc ho in
/-- A name that is held and not given up is the owner's own. -/
theorem mem_owned_of_held (hheld : n ∈ h.held)
    (hkept : h.latter.isSome → n ∈ h.held → n ∈ h.wanted) : n ∈ h.owned := by
  have hh : h ∈ done ++ h :: rest := by simp
  cases hlatter : h.latter with
  | none =>
    rw [hc.owned_eq hh hlatter]
    exact hheld
  | some owner => exact ho.own hh hheld (hkept (by simp [hlatter]) hheld)

include hc ho hapart in
/-- A name that is neither taken nor given up goes with its owner. -/
theorem exists_between_iff (hnew : n ∈ h.wanted → n ∈ h.held)
    (hkept : h.latter.isSome → n ∈ h.held → n ∈ h.wanted) :
    (∃ before, Between (done ++ h :: rest) done (h :: rest) others n before ∧
      h.passed before = some owner) ↔
    Between (done ++ h :: rest) (done ++ [h]) rest others n owner := by
  have hh : h ∈ done ++ h :: rest := by simp
  constructor
  · rintro ⟨before, hbefore, hpassed⟩
    rcases hbefore with
      ⟨h', hmem, hlatter, hn'⟩ | ⟨h', hh', hn', ⟨h'', hh'', hheld⟩, howner⟩ | hother
    · rw [h.passed_of_ne (hc.former_ne_of_done hmem hlatter)] at hpassed
      exact .inl ⟨h', List.mem_append_left _ hmem, hlatter.trans hpassed, hn'⟩
    · have howner' := (exists_passed_iff hc hh' hn').1 ⟨before, howner, hpassed⟩
      rcases List.mem_cons.1 hh'' with rfl | hh''
      · -- Who holds it owns it and, unless they are gone after the turn, wants it.
        have howned := mem_owned_of_held hc ho hheld hkept
        obtain rfl := eq_of_mem_flatMap hc.owned_nodup hh' hh hn' howned
        obtain ⟨hmem, hlatter⟩ | ⟨hmem, -⟩ := howner'
        · exact .inl ⟨h', hmem, hlatter, hkept (by simp [hlatter]) hheld⟩
        · exact absurd rfl (hc.ne_of_mem_rest hmem)
      · exact .inr (.inl ⟨h', hh', hn', ⟨h'', hh'', hheld⟩, howner'⟩)
    · rw [h.passed_of_ne (hapart.former_ne hother hh)] at hpassed
      obtain rfl := Option.some.inj hpassed
      exact .inr (.inr hother)
  · rintro (⟨h', hmem, hlatter, hn'⟩ | ⟨h', hh', hn', ⟨h'', hh'', hheld⟩, howner⟩ | hother)
    · rcases List.mem_append.1 hmem with hmem | hmem
      · have hpassed := h.passed_of_ne (hc.former_ne_of_done hmem hlatter)
        exact ⟨owner, .inl ⟨h', hmem, hlatter, hn'⟩, hpassed⟩
      · obtain rfl := List.mem_singleton.1 hmem
        have howned := ho.own hh (hnew hn') hn'
        have hholds : ∃ h'' ∈ h' :: rest, n ∈ h''.held := ⟨h', List.mem_cons_self, hnew hn'⟩
        obtain ⟨before, hbefore, hpassed⟩ :=
          (exists_passed_iff hc hh howned).2 (.inl ⟨by simp, hlatter⟩)
        exact ⟨before, .inr (.inl ⟨h', hh, howned, hholds, hbefore⟩), hpassed⟩
    · obtain ⟨before, hbefore, hpassed⟩ := (exists_passed_iff hc hh' hn').2 howner
      have hholds : ∃ h'' ∈ h :: rest, n ∈ h''.held := ⟨h'', List.mem_cons_of_mem _ hh'', hheld⟩
      exact ⟨before, .inr (.inl ⟨h', hh', hn', hholds, hbefore⟩), hpassed⟩
    · exact ⟨owner, .inr (.inr hother), h.passed_of_ne (hapart.former_ne hother hh)⟩

include hc ho hapart hlive in
/-- The turn leads on to what is between it and the next. -/
theorem effect_of_between (n owner : String) : h.effect live n = some owner ↔
    Between (done ++ h :: rest) (done ++ [h]) rest others n owner := by
  unfold effect
  split_ifs with hnew hgone
  · exact (between_iff_of_taken hc ho hapart hnew.1).symm
  · exact iff_of_false (by simp) (not_between_of_given_up hc ho hapart hgone.2.1 hgone.2.2)
  · rw [Option.bind_eq_some_iff]
    simp only [hlive]
    refine exists_between_iff hc ho hapart ?_ ?_
    · intro hwanted
      by_contra hheld
      exact hnew ⟨hwanted, hheld⟩
    · intro hlatter hheld
      by_contra hwanted
      exact hgone ⟨hlatter, hheld, hwanted⟩

end Middle

/-- Turns that are in order are taken one after the other, from wherever they have come to. -/
theorem Orderly.exists_runs_between (hc : Consistent hs) (ho : Orderly hs)
    (hapart : Apart hs others) (hsplit : hs = done ++ todo)
    (hlive : ∀ n owner, live n = some owner ↔ Between hs done todo others n owner) :
    ∃ live', Runs Leads live todo live' ∧
      ∀ n owner, live' n = some owner ↔ After hs others n owner := by
  -- The induction is on the turns to come; what is between the turns is the invariant.
  induction todo generalizing done live with
  | nil =>
    obtain rfl : hs = done := by rw [hsplit, List.append_nil]
    exact ⟨live, .nil live, fun n owner => (hlive n owner).trans between_all_iff⟩
  | cons h rest ih =>
    subst hsplit
    have hsplit : done ++ h :: rest = (done ++ [h]) ++ rest := by simp
    obtain ⟨live', hrun, hend⟩ := ih hsplit (effect_of_between hc ho hapart hlive)
    exact ⟨live', .cons ⟨ready_of_between hc ho hapart hlive, rfl⟩ hrun, hend⟩

/-- The turns can be taken, and lead to what is wanted, exactly if they are orderly. -/
theorem exists_runs_iff (hc : Consistent hs) (hapart : Apart hs others)
    (hstart : ∀ n owner, live n = some owner ↔ Before hs others n owner) :
    (∃ live', Runs Leads live hs live' ∧
      ∀ n owner, live' n = some owner ↔ After hs others n owner) ↔ Orderly hs := by
  constructor
  · rintro ⟨live', hrun, hend⟩
    exact .of_runs hc hapart hstart hrun hend
  · intro ho
    have hsplit : hs = [] ++ hs := rfl
    exact ho.exists_runs_between hc hapart hsplit fun n owner =>
      (hstart n owner).trans (between_nil_iff ho).symm

end Handover

end Schemata
