import Mathlib.Logic.Relation
import Schemata.Proofs.Query.Scope

/-!
# What a name leads to

A name is looked up in a table instance by following aliases. They form a chain, of which the end is
the same for every name on it; what is found at the end, and only that, decides whether the name
stands for a stored column or for a relation.

## Main definitions

* `Table.ForwardsTo`, `Table.IsAlias`: a column is an alias of another
* `Table.EndsAt`: a chain of aliases ends at a column that is none

## Main results

* `Table.EndsAt.unique`: a chain ends at one column only
* `Handle.column_eq_ok_iff`, `Handle.join_eq_ok_iff`: names of stored columns and of relations
* `Handle.column_of_endsAt`, `Handle.join_of_endsAt`: a name leads where the end of its chain leads
-/

namespace Schemata

/-! ### Chains of aliases -/

namespace Table

variable {table : Table} {name target final other : String}

/-- The column is an alias of another. -/
def ForwardsTo (table : Table) (name target : String) : Prop :=
  table.field? name = some (.aliasTo target)

/-- The column is an alias. -/
def IsAlias (table : Table) (name : String) : Prop := ∃ target, table.ForwardsTo name target

/-- The table has a column of this name that is no alias. -/
def Settles (table : Table) (name : String) : Prop :=
  ∃ field, table.field? name = some field ∧ ∀ target, field ≠ .aliasTo target

/-- The chain of aliases from the first name ends at the second, a column that is no alias. -/
def EndsAt (table : Table) (name final : String) : Prop :=
  Relation.ReflTransGen table.ForwardsTo name final ∧ table.Settles final

theorem ForwardsTo.eq (h : table.ForwardsTo name target) (h' : table.ForwardsTo name other) :
    target = other := by
  rw [ForwardsTo] at h h'
  exact Field.aliasTo.inj (Option.some.inj (h.symm.trans h'))

theorem Settles.not_isAlias (h : table.Settles name) : ¬table.IsAlias name := by
  obtain ⟨field, hfield, hnone⟩ := h
  rintro ⟨target, hforwards⟩
  exact hnone target (Option.some.inj (hfield.symm.trans hforwards))

/-- A chain of aliases has one end only. -/
theorem eq_of_chains (h : Relation.ReflTransGen table.ForwardsTo name final)
    (hfinal : ¬table.IsAlias final) (h' : Relation.ReflTransGen table.ForwardsTo name other)
    (hother : ¬table.IsAlias other) : final = other := by
  induction h using Relation.ReflTransGen.head_induction_on with
  | refl =>
    rcases h'.cases_head with rfl | ⟨target, hforwards, -⟩
    · rfl
    · exact absurd ⟨target, hforwards⟩ hfinal
  | head hforwards _ ih =>
    rcases h'.cases_head with rfl | ⟨target, hforwards', hrest⟩
    · exact absurd ⟨_, hforwards⟩ hother
    · obtain rfl := hforwards.eq hforwards'
      exact ih hrest

/-- A chain of aliases ends at one column only. -/
theorem EndsAt.unique (h : table.EndsAt name final) (h' : table.EndsAt name other) :
    final = other :=
  eq_of_chains h.1 h.2.not_isAlias h'.1 h'.2.not_isAlias

end Table

namespace Handle

variable {schema : Schema} {handle : Handle} {start current name final declared : String}
variable {field : Field} {leaf : Leaf} {link : Relation}

/-- Following aliases goes along their chain. -/
theorem endsAt_of_follow {fuel : Nat} (h : handle.follow start current fuel = .ok (declared, field)) :
    handle.table.EndsAt current declared := by
  induction fuel generalizing current with
  | zero => cases h
  | succ fuel ih =>
    rw [follow] at h
    split at h
    · cases h
    · obtain ⟨hchain, hsettles⟩ := ih h
      exact ⟨.head ‹_› hchain, hsettles⟩
    · cases h
      exact ⟨.refl, field, ‹_›, ‹_›⟩

theorem endsAt_of_resolve (h : handle.resolve name = .ok (declared, field)) :
    handle.table.EndsAt name declared :=
  endsAt_of_follow h

/-- A column that is no alias leads to itself. -/
theorem resolve_of_field? (hfield : handle.table.field? name = some field)
    (hnone : ∀ target, field ≠ .aliasTo target) : handle.resolve name = .ok (name, field) := by
  rw [resolve, follow, hfield]
  cases field with
  | aliasTo target => exact absurd rfl (hnone target)
  | atom _ | relation _ | index _ | constraint _ => rfl

/-- A name leads where the end of its chain leads, and that is the end itself. -/
theorem resolve_of_endsAt (hends : handle.table.EndsAt name final)
    (h : handle.resolve name = .ok (declared, field)) :
    declared = final ∧ handle.resolve final = .ok (final, field) := by
  obtain rfl := (endsAt_of_resolve h).unique hends
  obtain ⟨hfield, hnone⟩ := field?_of_follow h
  exact ⟨rfl, resolve_of_field? hfield hnone⟩

theorem column_eq_ok_iff : handle.column name = .ok leaf ↔
    ∃ declared a, handle.resolve name = .ok (declared, .atom a) ∧
      ⟨handle.instanceAlias, declared⟩ = leaf := by
  rw [column, bind_eq_ok_iff]
  constructor
  · rintro ⟨⟨declared, field⟩, hresolve, h⟩
    cases field with
    | atom a => exact ⟨declared, a, hresolve, Except.ok.inj h⟩
    | relation _ | aliasTo _ | index _ | constraint _ => cases h
  · rintro ⟨declared, a, hresolve, rfl⟩
    exact ⟨_, hresolve, rfl⟩

theorem join_eq_ok_iff {source : Leaf} : handle.join schema name = .ok (link, source) ↔
    ∃ declared, handle.resolve name = .ok (declared, .relation link) ∧
      handle.column link.source.column = .ok source ∧
        (schema.field? link.destination).isNone = false := by
  rw [join, bind_eq_ok_iff]
  constructor
  · rintro ⟨⟨declared, field⟩, hresolve, h⟩
    cases field with
    | relation r =>
      obtain ⟨leaf, hleaf, h⟩ := bind_eq_ok_iff.1 h
      cases hnone : (schema.field? r.destination).isNone with
      | true =>
        rw [hnone] at h
        cases h
      | false =>
        rw [hnone] at h
        cases h
        exact ⟨declared, hresolve, hleaf, hnone⟩
    | atom _ | aliasTo _ | index _ | constraint _ => cases h
  · rintro ⟨declared, hresolve, hsource, hsome⟩
    refine ⟨_, hresolve, bind_eq_ok_iff.2 ⟨source, hsource, ?_⟩⟩
    rw [hsome]
    rfl

/-- A stored column is found under the name that its chain ends at. -/
theorem column_of_endsAt (hends : handle.table.EndsAt name final)
    (h : handle.column name = .ok leaf) : handle.column final = .ok leaf := by
  obtain ⟨declared, a, hresolve, rfl⟩ := column_eq_ok_iff.1 h
  obtain ⟨rfl, hself⟩ := resolve_of_endsAt hends hresolve
  exact column_eq_ok_iff.2 ⟨_, a, hself, rfl⟩

/-- So is a relation; the column that it starts from is looked up in any case. -/
theorem join_of_endsAt {source : Leaf} (hends : handle.table.EndsAt name final)
    (h : handle.join schema name = .ok (link, source)) :
    handle.table.field? final = some (.relation link) ∧
      handle.join schema final = .ok (link, source) := by
  obtain ⟨declared, hresolve, hsource, hsome⟩ := join_eq_ok_iff.1 h
  obtain ⟨rfl, hself⟩ := resolve_of_endsAt hends hresolve
  exact ⟨(field?_of_follow hself).1, join_eq_ok_iff.2 ⟨_, hself, hsource, hsome⟩⟩

end Handle

end Schemata
