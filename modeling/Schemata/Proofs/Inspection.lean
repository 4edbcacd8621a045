import Mathlib.Data.List.Basic

/-!
# Inspections in order

An inspection goes through items in order. It passes over those that are as they should be, and
ends at the first that is not, with what is reported of that one. Inspections are put together in
the order of their items; so an inspection made of parts is understood from its parts, and says
the same as a single walk through all items.

## Main definitions

* `Inspects`: what an inspection of the items comes to

## Main results

* `Inspects.append`, `Inspects.flatMap`, `Inspects.map`: inspections one after the other
* `Inspects.eq_some_iff`: what is reported is reported of the first item that is not
-/

namespace Schemata

universe u v w

variable {ι : Type u} {κ : Type v} {β : Type w}

/-- Going through the items in order comes to the outcome: nothing if all are met, and otherwise
what is reported of the first that is not. -/
inductive Inspects (Met : ι → Prop) (Reports : ι → β → Prop) : List ι → Option β → Prop
  /-- There is nothing to look at. -/
  | nil : Inspects Met Reports [] none
  /-- The first item is met, so the outcome is that of the others. -/
  | met {item : ι} {items : List ι} {outcome : Option β} :
      Met item → Inspects Met Reports items outcome → Inspects Met Reports (item :: items) outcome
  /-- The first item is not met, so the others are not looked at. -/
  | unmet {item : ι} {items : List ι} {report : β} :
      ¬Met item → Reports item report → Inspects Met Reports (item :: items) (some report)

namespace Inspects

variable {Met : ι → Prop} {Reports : ι → β → Prop} {items more : List ι}
variable {outcome outcome' : Option β} {report : β}

/-- A second inspection counts only if the first one finds nothing. -/
theorem append (h : Inspects Met Reports items outcome) (h' : Inspects Met Reports more outcome') :
    Inspects Met Reports (items ++ more) (outcome.or outcome') := by
  induction h with
  | nil => simpa using h'
  | met hmet _ ih => exact .met hmet ih
  | unmet hunmet hreport => exact .unmet hunmet hreport

/-- After items that are met, the outcome is that of the others. -/
theorem append_of_none (h : Inspects Met Reports items none)
    (h' : Inspects Met Reports more outcome) : Inspects Met Reports (items ++ more) outcome := by
  simpa using h.append h'

/-- Inspections one after the other. -/
theorem flatMap {parts : List κ} {itemsOf : κ → List ι} {outcomeOf : κ → Option β}
    (h : ∀ part ∈ parts, Inspects Met Reports (itemsOf part) (outcomeOf part)) :
    Inspects Met Reports (parts.flatMap itemsOf) (parts.findSome? outcomeOf) := by
  induction parts with
  | nil => exact .nil
  | cons part rest ih =>
    obtain ⟨hpart, hrest⟩ := List.forall_mem_cons.1 h
    have := hpart.append (ih hrest)
    rw [List.flatMap_cons, List.findSome?_cons]
    cases hof : outcomeOf part with
    | none => simpa [hof] using this
    | some report => simpa [hof] using this

/-- Inspections of one item each. -/
theorem map {parts : List κ} {itemOf : κ → ι} {outcomeOf : κ → Option β}
    (h : ∀ part ∈ parts, Inspects Met Reports [itemOf part] (outcomeOf part)) :
    Inspects Met Reports (parts.map itemOf) (parts.findSome? outcomeOf) := by
  rw [List.map_eq_flatMap]
  exact flatMap h

/-- What is reported is reported of the first item that is not met. -/
theorem eq_some_iff (hunique : ∀ {item report report'}, Reports item report →
      Reports item report' → report = report') (h : Inspects Met Reports items outcome) :
    outcome = some report ↔ ∃ before item after, items = before ++ item :: after ∧
      (∀ earlier ∈ before, Met earlier) ∧ ¬Met item ∧ Reports item report := by
  induction h with
  | nil => simp
  | @met first rest outcome hmet _ ih =>
    rw [ih]
    constructor
    · rintro ⟨before, item, after, rfl, hbefore, hrest⟩
      exact ⟨first :: before, item, after, rfl, List.forall_mem_cons.2 ⟨hmet, hbefore⟩, hrest⟩
    · rintro ⟨before, item, after, hitems, hbefore, hunmet, hreport⟩
      rcases List.cons_eq_append_iff.1 hitems with ⟨rfl, hfirst⟩ | ⟨before, rfl, hrest⟩
      · obtain rfl := (List.cons.inj hfirst).1
        exact absurd hmet hunmet
      · exact ⟨before, item, after, hrest, (List.forall_mem_cons.1 hbefore).2, hunmet, hreport⟩
  | @unmet first rest found hunmet hfound =>
    rw [Option.some.injEq]
    constructor
    · rintro rfl
      exact ⟨[], first, rest, rfl, by simp, hunmet, hfound⟩
    · rintro ⟨before, item, after, hitems, hbefore, -, hreport⟩
      -- An item before the one to blame would have been met, and the first one is not.
      rcases List.cons_eq_append_iff.1 hitems with ⟨rfl, hfirst⟩ | ⟨before, rfl, -⟩
      · obtain rfl := (List.cons.inj hfirst).1
        exact hunique hfound hreport
      · exact absurd (List.forall_mem_cons.1 hbefore).1 hunmet

end Inspects

end Schemata
