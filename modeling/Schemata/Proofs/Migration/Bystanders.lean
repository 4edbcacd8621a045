import Schemata.Proofs.Migration.Parts
import Schemata.Proofs.Migration.Reordering
import Schemata.Proofs.Migration.Repetition

/-!
# Tables that take no part

All tables of a schema are planned in one account: there is one mirror, one list of statements, one
list of notes, and one comparison at the end. A table that is the same before and after goes through
all of this and leaves no trace, wherever it is declared: what is done with the other tables is what
would be done without it, and what fails fails for the same reason.

The planning with such a table is followed next to the planning without it. Each step that is about
other tables is taken in both, and keeps the two accounts apart by that one table; the only step
that is about the table itself does nothing.

## Main definitions

* `OrderedMap.insertAt`, `Schema.insertTableAt`: a further entry, at any place
* `Change.spares`, `Schema.Spares`: steps and changes that are about other entities
* `Matches`: two outcomes fail alike, or their results are related
* `Plan.Beside`: an account that differs from another one by a table in its mirror

## Main results

* `Changes.between_erase`: the steps between two maps without an entity that both have
* `Plan.tableSteps_beside`: planning beside a table that stays the same
* `migrate_insertTableAt`: unrelated tables do not disturb a migration
-/

namespace Schemata

open Changes (Turn turns select additions between sources renameSource)

universe u v w

/-! ### A further entry in a map -/

/-- Elements that come to nothing may be left out. -/
theorem flatMap_filter_eq {α : Type u} {β : Type v} {l : List α} {p : α → Bool}
    {f g : α → List β} (hkept : ∀ a ∈ l, p a = true → f a = g a)
    (hleft : ∀ a ∈ l, p a = false → g a = []) : (l.filter p).flatMap f = l.flatMap g := by
  induction l with
  | nil => rfl
  | cons a l ih =>
    have hrest := ih (fun b hb => hkept b (List.mem_cons_of_mem _ hb))
      fun b hb => hleft b (List.mem_cons_of_mem _ hb)
    cases hp : p a with
    | true =>
      rw [List.filter_cons_of_pos hp, List.flatMap_cons, List.flatMap_cons, hrest,
        hkept a (by simp) hp]
    | false =>
      rw [List.filter_cons_of_neg (by simp [hp]), List.flatMap_cons, hrest,
        hleft a (by simp) hp, List.nil_append]

namespace Entries

variable {α : Type u} {es : List (String × α)} {name other : String}

theorem erase_eq_filter (h : (names es).Nodup) :
    erase es name = es.filter fun e => e.1 != name := by
  induction es with
  | nil => rfl
  | cons e rest ih =>
    obtain ⟨hfresh, hrest⟩ := List.nodup_cons.1 h
    by_cases he : e.1 = name
    · subst he
      have hkept : rest.filter (fun e' => e'.1 != e.1) = rest :=
        List.filter_eq_self.2 fun e' he' =>
          bne_iff_ne.2 (ne_of_mem_of_not_mem (List.mem_map_of_mem he') hfresh)
      simp [erase, hkept]
    · simp [erase, he, ih hrest]

theorem filter_set_of_ne (hne : other ≠ name) (a : α) :
    (set es other a).filter (fun e => e.1 != name) =
      set (es.filter fun e => e.1 != name) other a := by
  induction es with
  | nil => simp [set, hne]
  | cons e rest ih =>
    obtain ⟨n, b⟩ := e
    by_cases ho : n = other
    · simp [set, ho, hne]
    · by_cases hn : n = name
      · subst hn
        simp [set, ho, ih]
      · simp [set, ho, hn, ih]

end Entries

namespace OrderedMap

variable {α : Type u} {β : Type v} {m : OrderedMap α} {name other : String}

theorem entries_erase (m : OrderedMap α) (name : String) :
    (m.erase name).entries = m.entries.filter fun e => e.1 != name :=
  Entries.erase_eq_filter m.nodup

theorem names_erase (m : OrderedMap α) (name : String) :
    (m.erase name).names = m.names.filter fun n => n != name := by
  rw [names, Entries.names, entries_erase, names, Entries.names, List.filter_map]
  rfl

theorem erase_of_not_mem (h : name ∉ m.names) : m.erase name = m := by
  ext1
  rw [entries_erase, List.filter_eq_self]
  exact fun e he => bne_iff_ne.2 (ne_of_mem_of_not_mem (List.mem_map_of_mem he) h)

theorem erase_comm (m : OrderedMap α) (name other : String) :
    (m.erase name).erase other = (m.erase other).erase name := by
  ext1
  simp only [entries_erase, List.filter_filter, Bool.and_comm]

theorem erase_insert (hne : other ≠ name) (a : α) :
    (m.insert other a).erase name = (m.erase name).insert other a := by
  ext1
  rw [entries_erase]
  change (Entries.set m.entries other a).filter _ = Entries.set (m.erase name).entries other a
  rw [entries_erase]
  exact Entries.filter_set_of_ne hne a

theorem erase_map (f : α → β) (m : OrderedMap α) (name : String) :
    (m.map f).erase name = (m.erase name).map f := by
  ext1
  simp only [entries_erase, map, Entries.mapValues, List.filter_map]
  rfl

/-- The map with a further entry behind as many others as the number says, or at the end if there
are not as many. What it has under the name is removed. -/
def insertAt (m : OrderedMap α) (place : Nat) (name : String) (a : α) : OrderedMap α where
  entries := (m.erase name).entries.take place ++ (name, a) :: (m.erase name).entries.drop place
  nodup := by
    rw [Entries.names, (List.perm_middle.map Prod.fst).nodup_iff, List.map_cons,
      List.take_append_drop, List.nodup_cons]
    refine ⟨find?_eq_none_iff.1 ?_, (m.erase name).nodup⟩
    rw [find?_erase, if_pos rfl]

variable {place : Nat} {a : α}

theorem entries_insertAt : (m.insertAt place name a).entries =
    (m.erase name).entries.take place ++ (name, a) :: (m.erase name).entries.drop place :=
  rfl

/-- The place does not matter when a name is looked up. -/
theorem find?_insertAt : (m.insertAt place name a).find? other =
    if name = other then some a else m.find? other := by
  have hfresh : name ∉ (m.erase name).names :=
    find?_eq_none_iff.1 (by rw [find?_erase, if_pos rfl])
  have hperm : (m.insertAt place name a).entries.Perm ((m.erase name).insert name a).entries := by
    rw [entries_insert_of_not_mem a hfresh, entries_insertAt]
    refine List.perm_middle.trans ?_
    rw [List.take_append_drop]
    exact (List.perm_append_singleton _ _).symm
  rw [find?_eq_of_perm hperm, find?_insert, find?_erase]
  split <;> rfl

/-- Without the further entry the map is what it was. -/
theorem erase_insertAt (h : name ∉ m.names) : (m.insertAt place name a).erase name = m := by
  ext1
  have hrest : (m.erase name).entries.filter (fun e => e.1 != name) = m.entries := by
    rw [← entries_erase, erase_of_not_mem h, erase_of_not_mem h]
  rw [entries_erase, entries_insertAt, List.filter_append, List.filter_cons_of_neg (by simp),
    ← List.filter_append, List.take_append_drop, hrest]

theorem map_insertAt (f : α → β) :
    (m.insertAt place name a).map f = (m.map f).insertAt place name (f a) := by
  ext1
  have hentries (m : OrderedMap α) : (m.map f).entries = m.entries.map fun e => (e.1, f e.2) := rfl
  rw [entries_insertAt, hentries, entries_insertAt, erase_map, hentries, List.map_append,
    List.map_cons, List.map_take, List.map_drop]

end OrderedMap

/-! ### A further table in a schema -/

namespace Schema

variable {schema found expected : Schema} {place : Nat} {name : String} {table : Table}

/-- The schema with a further table, at a place among the others. -/
def insertTableAt (schema : Schema) (place : Nat) (name : String) (table : Table) : Schema :=
  ⟨schema.tables.insertAt place name table⟩

/-- The schema with no other table. -/
def single (name : String) (table : Table) : Schema := empty.insertTable name table

theorem table?_insertTableAt (other : String) :
    (schema.insertTableAt place name table).table? other =
      if name = other then some table else schema.table? other :=
  OrderedMap.find?_insertAt

theorem table?_single (other : String) :
    (single name table).table? other = if name = other then some table else none :=
  table?_insertTable ..

theorem canonical_insertTableAt : (schema.insertTableAt place name table).canonical =
    schema.canonical.insertTableAt place name table.canonical :=
  congrArg mk (OrderedMap.map_insertAt Table.canonical)

theorem eraseTable_insertTableAt (h : name ∉ schema.tables.names) :
    (schema.insertTableAt place name table).eraseTable name = schema :=
  congrArg mk (OrderedMap.erase_insertAt h)

theorem eraseTable_canonical_insertTableAt (h : name ∉ schema.tables.names) :
    (schema.insertTableAt place name table).canonical.eraseTable name = schema.canonical := by
  rw [canonical_insertTableAt, eraseTable_insertTableAt]
  rwa [canonical, OrderedMap.names_map]

/-- A schema is valid if its tables come from two valid schemas, whose fields are all there. -/
theorem IsValid.of_parts {left right whole : Schema} (hleft : left.IsValid)
    (hright : right.IsValid)
    (htables : ∀ name table, whole.table? name = some table →
      left.table? name = some table ∨ right.table? name = some table)
    (hfields : ∀ ref field, left.field? ref = some field ∨ right.field? ref = some field →
      whole.field? ref = some field) : whole.IsValid := by
  have hpart {ref : ColumnRef} {field : Field} (h : whole.field? ref = some field) :
      left.field? ref = some field ∨ right.field? ref = some field := by
    obtain ⟨table, htable, hcolumn⟩ := field?_eq_some_iff.1 h
    exact (htables _ _ htable).imp (fun hl => field?_eq_some_iff.2 ⟨table, hl, hcolumn⟩)
      fun hr => field?_eq_some_iff.2 ⟨table, hr, hcolumn⟩
  -- What a field refers to is in the part that the field is in, so it is there.
  have hjoins {part : Schema} (hpart : ∀ ref field, part.field? ref = some field →
      whole.field? ref = some field) {ref : ColumnRef} {relation : Relation}
      (h : part.Joins ref relation) : whole.Joins ref relation := by
    obtain ⟨hsource, source, destination, hs, hd, htype⟩ := h
    exact ⟨hsource, source, destination, hpart _ _ hs, hpart _ _ hd, htype⟩
  have htarget {part : Schema} (hpart : ∀ ref field, part.field? ref = some field →
      whole.field? ref = some field) {ref : ColumnRef} (h : (part.field? ref).isSome) :
      (whole.field? ref).isSome := by
    obtain ⟨field, hfield⟩ := Option.isSome_iff_exists.1 h
    exact Option.isSome_iff_exists.2 ⟨field, hpart _ _ hfield⟩
  have hl (ref : ColumnRef) (field : Field) (h : left.field? ref = some field) :=
    hfields ref field (.inl h)
  have hr (ref : ColumnRef) (field : Field) (h : right.field? ref = some field) :=
    hfields ref field (.inr h)
  refine ⟨fun h => ?_, fun h => ?_, fun h => ?_, fun h => ?_⟩
  · exact (htables _ _ h).elim hleft.table_name hright.table_name
  · exact (hpart h).elim hleft.column_name hright.column_name
  · exact (hpart h).elim (fun h => hjoins hl (hleft.joins h)) fun h => hjoins hr (hright.joins h)
  · exact (hpart h).elim (fun h => htarget hl (hleft.target h)) fun h =>
      htarget hr (hright.target h)

/-- A valid schema stays valid beside a table that is valid on its own. -/
theorem IsValid.insertTableAt (h : schema.IsValid) (htable : (single name table).IsValid)
    (hfresh : name ∉ schema.tables.names) : (schema.insertTableAt place name table).IsValid := by
  refine h.of_parts htable (fun other found hfound => ?_) fun ref field hfield => ?_
  · rw [table?_insertTableAt] at hfound
    rw [table?_single]
    by_cases heq : name = other
    · rw [if_pos heq] at hfound ⊢
      exact .inr hfound
    · rw [if_neg heq] at hfound
      exact .inl hfound
  · rw [field?_eq_some_iff, table?_insertTableAt]
    rcases hfield with hfield | hfield
    · obtain ⟨other, hother, hcolumn⟩ := field?_eq_some_iff.1 hfield
      have hne : name ≠ ref.table := fun heq =>
        hfresh (heq ▸ OrderedMap.mem_names_of_find? hother)
      exact ⟨other, by rwa [if_neg hne], hcolumn⟩
    · obtain ⟨other, hother, hcolumn⟩ := field?_eq_some_iff.1 hfield
      rw [table?_single] at hother
      split at hother
      · exact ⟨other, by rwa [if_pos ‹_›], hcolumn⟩
      · cases hother

/-- A table that both schemas have with the same fields does not count in the comparison. -/
theorem divergence?_eraseTable (h : found.fieldsOf? name = expected.fieldsOf? name) :
    (found.eraseTable name).divergence? (expected.eraseTable name) =
      found.divergence? expected := by
  have hnames := mem_names_iff_of_fieldsOf?_eq h
  have htables (schema : Schema) :
      (schema.eraseTable name).tables = schema.tables.erase name := rfl
  rw [divergence?, divergence?, divergences, divergences, htables, htables,
    OrderedMap.entries_erase, OrderedMap.names_erase]
  congr 2
  · refine flatMap_filter_eq (fun e _ hname => ?_) fun e he hname => ?_
    · have hne : name ≠ e.1 := (bne_iff_ne.1 hname).symm
      simp only [table?_eraseTable, if_neg hne]
    · -- The entry of the table has no difference to report.
      obtain rfl : e.1 = name := by simpa using hname
      obtain ⟨other, hother, hfields⟩ := Option.map_eq_some_iff.1
        (h.trans (fieldsOf?_of_find? (OrderedMap.mem_entries_iff.1 he)))
      simp only [hother, Table.divergences_eq_nil_iff.2 hfields]
  · congr 1
    rw [List.filter_filter]
    refine List.filter_congr fun n hn => ?_
    rw [Bool.eq_iff_iff]
    simp only [Bool.and_eq_true, bne_iff_ne, Bool.not_eq_true', ← Bool.not_eq_true,
      OrderedMap.contains_iff, OrderedMap.names_erase, List.mem_filter]
    grind

end Schema

/-! ### The steps that are about other entities -/

/-- The step is about other entities than the one of the name. -/
def Change.spares {α : Type u} (name : String) : Change α → Bool
  | .create other _ | .remove other _ | .change other _ _ => other != name
  | .rename source target _ => source != name && target != name

namespace Changes

variable {α : Type u} {marker : α → Option String} {prev next : OrderedMap α} {name : String}
variable {taken : List String} {es : List (String × α)}

/-- What can be renamed does not depend on an entity that nothing is renamed from. -/
theorem renameSource_erase {source : String} (hne : name ≠ source) :
    renameSource (prev.erase name) (next.erase name) taken source =
      renameSource prev next taken source := by
  unfold renameSource OrderedMap.contains
  rw [OrderedMap.find?_erase, OrderedMap.find?_erase, if_neg hne, if_neg hne]

theorem additions_erase (hmarker : ∀ e ∈ es, marker e.2 ≠ some name) :
    additions marker (prev.erase name) (next.erase name) taken es =
      additions marker prev next taken es := by
  induction es generalizing taken with
  | nil => rfl
  | cons e rest ih =>
    obtain ⟨hfirst, hrest⟩ := List.forall_mem_cons.1 hmarker
    obtain ⟨n, entity⟩ := e
    simp only [additions, ih hrest]
    cases hsource : marker entity with
    | none => rfl
    | some source =>
      have hne : name ≠ source := fun heq => hfirst (heq ▸ hsource)
      simp only [renameSource_erase hne]

/-- Entities of other names are added by steps that are about others. -/
theorem spares_additions (prev next : OrderedMap α) (taken : List String)
    (hes : ∀ e ∈ es, e.1 ≠ name ∧ marker e.2 ≠ some name) :
    ∀ step ∈ (additions marker prev next taken es).steps, step.spares name = true := by
  induction es generalizing taken with
  | nil => exact fun step hstep => by cases hstep
  | cons e rest ih =>
    obtain ⟨⟨hname, hmarker⟩, hrest⟩ := List.forall_mem_cons.1 hes
    obtain ⟨n, entity⟩ := e
    have hspares : (n != name) = true := bne_iff_ne.2 hname
    unfold additions
    cases hsource : marker entity with
    | none => exact List.forall_mem_cons.2 ⟨hspares, ih _ hrest⟩
    | some source =>
      have hne : (source != name) = true := bne_iff_ne.2 fun heq => hmarker (heq ▸ hsource)
      simp only
      split
      -- At a fault there are no more steps.
      · exact fun step hstep => by cases hstep
      · refine List.forall_mem_cons.2 ⟨?_, List.forall_mem_cons.2 ⟨hspares, ih _ hrest⟩⟩
        simp only [Change.spares, hspares, hne, Bool.and_self]

/-- Choosing entries by whether the other map has their names, without an entity. -/
theorem chosen_erase (map other : OrderedMap α) (q : Bool → Bool) :
    ((map.erase name).entries.filter fun e =>
        !isReserved e.1 && q ((other.erase name).contains e.1)) =
      (map.entries.filter fun e => !isReserved e.1 && q (other.contains e.1)).filter
        fun e => e.1 != name := by
  rw [OrderedMap.entries_erase, List.filter_filter, List.filter_filter]
  refine List.filter_congr fun e _ => ?_
  by_cases hname : e.1 = name
  · simp [hname]
  · rw [OrderedMap.contains, OrderedMap.find?_erase, if_neg (Ne.symm hname),
      bne_iff_ne.2 hname, Bool.and_true, Bool.true_and]
    rfl

/-- An entity that the other map has too is not among those that only one of them has. -/
theorem select_erase_of_mem {map other : OrderedMap α} (h : name ∈ other.names) :
    select (map.erase name) ((NameDiff.relevant (map.erase name).names).filter fun n =>
        !(NameDiff.relevant (other.erase name).names).contains n) =
      select map ((NameDiff.relevant map.names).filter fun n =>
        !(NameDiff.relevant other.names).contains n) := by
  rw [select_relevant _ _ not, select_relevant _ _ not, chosen_erase, List.filter_eq_self]
  intro e he
  refine bne_iff_ne.2 fun hname => ?_
  have hnew := (Bool.and_eq_true _ _ ▸ (List.mem_filter.1 he).2).2
  rw [Bool.not_eq_true', hname, ← Bool.not_eq_true, OrderedMap.contains_iff] at hnew
  exact hnew h

/-- What is added has another name than an entity that was there, and another old name than one
that nothing is renamed from. -/
theorem ne_of_mem_added (hprev : name ∈ prev.names)
    (hmarker : ∀ e ∈ next.entries, e.1 ≠ name → marker e.2 ≠ some name) :
    ∀ e ∈ select next (NameDiff.between prev.names next.names).added,
      e.1 ≠ name ∧ marker e.2 ≠ some name := by
  intro e he
  obtain ⟨hname, hentity⟩ := mem_select_iff.1 he
  have hne : e.1 ≠ name := fun heq => (arrives_iff_mem_added.1 hname).2.2 (heq ▸ hprev)
  exact ⟨hne, hmarker e (OrderedMap.mem_entries_iff.2 hentity) hne⟩

/-- What is removed has another name than an entity that stays. -/
theorem ne_of_mem_removed (hnext : name ∈ next.names) :
    ∀ e ∈ select prev (NameDiff.between prev.names next.names).removed, e.1 ≠ name := by
  intro e he heq
  exact (departs_iff_mem_removed.1 (mem_select_iff.1 he).1).2.2 (heq ▸ hnext)

section Erase

variable (hprev : name ∈ prev.names) (hnext : name ∈ next.names)
variable (hmarker : ∀ e ∈ next.entries, e.1 ≠ name → marker e.2 ≠ some name)

include hprev hnext hmarker

/-- Without an entity that both maps have, and that nothing is renamed from, there are the same
steps but those about the entity, and the same fault. -/
theorem between_erase : between marker (prev.erase name) (next.erase name) =
    ⟨(between marker prev next).steps.filter (Change.spares name),
      (between marker prev next).fault⟩ := by
  have hadded : select (next.erase name)
      (NameDiff.between (prev.erase name).names (next.erase name).names).added =
        select next (NameDiff.between prev.names next.names).added :=
    select_erase_of_mem hprev
  have hremoved : select (prev.erase name)
      (NameDiff.between (prev.erase name).names (next.erase name).names).removed =
        select prev (NameDiff.between prev.names next.names).removed :=
    select_erase_of_mem hnext
  have hcommon : select (next.erase name)
      (NameDiff.between (prev.erase name).names (next.erase name).names).common =
        (select next (NameDiff.between prev.names next.names).common).filter
          fun e => e.1 != name := by
    simp only [NameDiff.between]
    rw [select_relevant _ _ fun known => known, select_relevant _ _ fun known => known]
    exact chosen_erase next prev fun known => known
  have hnew := ne_of_mem_added hprev hmarker
  have hspares := spares_additions prev next [] hnew
  unfold between
  simp only [hadded, hremoved, hcommon, additions_erase fun e he => (hnew e he).2]
  generalize additions marker prev next [] _ = added at hspares ⊢
  have hself : added.steps.filter (Change.spares name) = added.steps :=
    List.filter_eq_self.2 hspares
  obtain ⟨steps, _ | fault⟩ := added
  · -- Behind the additions come the removals and the comparisons. Only of these one is left out.
    simp only [List.filter_append] at hself ⊢
    rw [hself]
    congr 2
    · congr 1
      refine (List.filter_eq_self.2 fun step hstep => ?_).symm
      obtain ⟨e, he, rfl⟩ := List.mem_map.1 hstep
      exact bne_iff_ne.2 (ne_of_mem_removed hnext e (List.mem_of_mem_filter he))
    · rw [List.filterMap_filter, List.filter_filterMap]
      refine List.filterMap_congr fun e _ => ?_
      by_cases hname : e.1 = name
      · subst hname
        cases prev.find? e.1 <;> simp [Change.spares, Option.filter]
      · rw [if_pos (bne_iff_ne.2 hname), OrderedMap.find?_erase, if_neg (Ne.symm hname)]
        cases prev.find? e.1 <;> simp [Change.spares, Option.filter, hname]
  · exact congrArg (Changes.mk · _) hself.symm

/-- The only step about such an entity changes it into what it is afterwards. -/
theorem exists_change_of_spares_eq_false {step : Change α}
    (hstep : step ∈ (between marker prev next).steps) (hspares : step.spares name = false) :
    ∃ before after, prev.find? name = some before ∧ next.find? name = some after ∧
      step = .change name before after := by
  have hadded := spares_additions prev next [] (ne_of_mem_added hprev hmarker)
  unfold between at hstep
  dsimp only at hstep
  generalize additions marker prev next [] _ = added at hadded hstep
  obtain ⟨steps, _ | fault⟩ := added
  · simp only [List.mem_append, List.mem_map, List.mem_filterMap, Option.map_eq_some_iff] at hstep
    obtain (hstep | ⟨e, he, rfl⟩) | ⟨e, he, before, hbefore, rfl⟩ := hstep
    · exact absurd (hadded step hstep) (by simp [hspares])
    · exact absurd hspares
        (by simp [Change.spares, ne_of_mem_removed hnext e (List.mem_of_mem_filter he)])
    · obtain rfl : e.1 = name := by simpa [Change.spares] using hspares
      exact ⟨before, e.2, hbefore, (mem_select_iff.1 he).2, rfl⟩
  · exact absurd (hadded step hstep) (by simp [hspares])

end Erase

end Changes

/-! ### Outcomes that correspond -/

/-- Both fail in the same way, or both succeed with results that are related. -/
inductive Matches {ε : Type u} {α : Type v} {β : Type w} (R : α → β → Prop) :
    Except ε α → Except ε β → Prop
  | error (e : ε) : Matches R (.error e) (.error e)
  | ok {a : α} {b : β} (h : R a b) : Matches R (.ok a) (.ok b)

namespace Matches

variable {ε : Type u} {α β : Type v} {R : α → α → Prop} {S : β → β → Prop}
variable {x y : Except ε α}

theorem refl (x : Except ε α) : Matches Eq x x := by
  cases x with
  | error e => exact .error e
  | ok a => exact .ok rfl

theorem bind {f g : α → Except ε β} (h : Matches R x y)
    (hrest : ∀ a b, R a b → Matches S (f a) (g b)) : Matches S (x >>= f) (y >>= g) := by
  cases h with
  | error e => exact .error e
  | ok h => exact hrest _ _ h

/-- Two computations end alike if their first parts do, and each second part makes of its result
what the other makes of the related one. -/
theorem bind_eq_map {f g : α → Except ε β} {k : β → β} (h : Matches R x y)
    (hrest : ∀ a b, R a b → g b = (f a).map k) : y >>= g = (x >>= f).map k := by
  cases h with
  | error e => rfl
  | ok h => exact hrest _ _ h

/-- Two runs go along with each other if the one takes some of the steps of the other, and the
other does nothing in those that are left out. -/
theorem foldlM_filter {τ : Type w} {step : α → τ → Except ε α} {keep : τ → Bool} {ts : List τ}
    (hkept : ∀ t ∈ ts, keep t = true → ∀ a b, R a b → Matches R (step a t) (step b t))
    (hleft : ∀ t ∈ ts, keep t = false → ∀ b, step b t = .ok b) {a b : α} (h : R a b) :
    Matches R ((ts.filter keep).foldlM step a) (ts.foldlM step b) := by
  induction ts generalizing a b with
  | nil => exact .ok h
  | cons t ts ih =>
    obtain ⟨hfirst, hkept⟩ := List.forall_mem_cons.1 hkept
    obtain ⟨hidle, hleft⟩ := List.forall_mem_cons.1 hleft
    cases hkeep : keep t with
    | true =>
      rw [List.filter_cons_of_pos hkeep, List.foldlM_cons, List.foldlM_cons]
      exact (hfirst hkeep a b h).bind fun _ _ => ih hkept hleft
    | false =>
      rw [List.filter_cons_of_neg (by simp [hkeep]), List.foldlM_cons, hidle hkeep b]
      exact ih hkept hleft h

end Matches

/-- Steps that do nothing are a run that goes nowhere. -/
theorem Runs.of_idle {σ : Type u} {τ : Type v} {step : σ → τ → σ → Prop} {s : σ} {ts : List τ}
    (h : ∀ t ∈ ts, step s t s) : Runs step s ts s := by
  induction ts with
  | nil => exact .nil s
  | cons t ts ih =>
    exact .cons (h t List.mem_cons_self) (ih fun t' ht' => h t' (List.mem_cons_of_mem _ ht'))

/-! ### Accounts beside a table -/

namespace Schema

variable {name other source target : String}

/-- The change of a schema leaves a table alone and does not depend on it. -/
structure Spares (name : String) (f : Schema → Schema) : Prop where
  /-- It does the same without the table. -/
  others (schema : Schema) : (f schema).eraseTable name = f (schema.eraseTable name)
  /-- The table stays what it is. -/
  table (schema : Schema) : (f schema).table? name = schema.table? name

theorem spares_insertTable (hne : other ≠ name) (table : Table) :
    Spares name (·.insertTable other table) where
  others schema := congrArg mk (OrderedMap.erase_insert hne table)
  table schema := by rw [table?_insertTable, if_neg hne]

theorem spares_eraseTable (hne : other ≠ name) : Spares name (·.eraseTable other) where
  others schema := congrArg mk (OrderedMap.erase_comm schema.tables other name)
  table schema := by rw [table?_eraseTable, if_neg hne]

theorem spares_moveTable (hsource : source ≠ name) (htarget : target ≠ name) :
    Spares name (Plan.moveTable source target) where
  others schema := by
    have hfind : (schema.eraseTable name).table? source = schema.table? source := by
      rw [table?_eraseTable, if_neg hsource.symm]
    unfold Plan.moveTable
    rw [hfind]
    cases schema.table? source with
    | none => rfl
    | some table =>
      exact ((spares_insertTable htarget table).others _).trans
        (congrArg (·.insertTable target table) ((spares_eraseTable hsource).others schema))
  table schema := Plan.table?_moveTable_of_ne schema hsource htarget

end Schema

namespace Plan

variable {config : MigrationConfig} {name other : String} {table : Table} {plan plan' : Plan}

/-- The second account is the first one with a table more in its mirror. -/
structure Beside (name : String) (table : Table) (plan plan' : Plan) : Prop where
  /-- The mirrors have the same other tables. -/
  others : plan'.reached.eraseTable name = plan.reached
  /-- The second one has the table. -/
  table : plan'.reached.table? name = some table
  /-- The statements are the same. -/
  statements : plan'.statements = plan.statements
  /-- So are the notes. -/
  notes : plan'.notes = plan.notes

namespace Beside

variable (h : plan.Beside name table plan')

include h

theorem emit (statements : List Statement) :
    (plan.emit statements).Beside name table (plan'.emit statements) :=
  ⟨h.others, h.table, congrArg (· ++ statements) h.statements, h.notes⟩

theorem remark (note : Note) : (plan.remark note).Beside name table (plan'.remark note) :=
  ⟨h.others, h.table, h.statements, congrArg (· ++ [note]) h.notes⟩

/-- A change of the mirror that is about other tables is made in both accounts. -/
theorem reach {f : Schema → Schema} (hf : Schema.Spares name f) :
    Beside name table { plan with reached := f plan.reached }
      { plan' with reached := f plan'.reached } :=
  ⟨(hf.others _).trans (congrArg f h.others), (hf.table _).trans h.table, h.statements, h.notes⟩

theorem updateTable (hne : other ≠ name) (update : Table → Table) :
    Matches (Beside name table) (plan.updateTable other update)
      (plan'.updateTable other update) := by
  have hfind : plan.reached.table? other = plan'.reached.table? other := by
    rw [← h.others, Schema.table?_eraseTable, if_neg hne.symm]
  unfold Plan.updateTable Schema.updateTable?
  rw [hfind]
  cases plan'.reached.table? other with
  -- If the mirror lacks the table, the error carries the notes, which are the same.
  | none =>
    rw [h.notes]
    exact .error _
  | some found => exact .ok (h.reach (Schema.spares_insertTable hne (update found)))

/-- A change of a column is made in both accounts, or noted in both. -/
theorem emit_or_remark (hne : other ≠ name) (outcome : Option (List Statement)) (note : Note)
    (update : Table → Table) : Matches (Beside name table)
      (match outcome with
      | none => Except.ok (plan.remark note)
      | some statements => (plan.emit statements).updateTable other update)
      (match outcome with
      | none => Except.ok (plan'.remark note)
      | some statements => (plan'.emit statements).updateTable other update) := by
  cases outcome with
  | none => exact .ok (h.remark note)
  | some statements => exact (h.emit statements).updateTable hne update

theorem columnStep (hne : other ≠ name) (change : Change Column) :
    Matches (Beside name table) (Plan.columnStep config other plan change)
      (Plan.columnStep config other plan' change) := by
  cases change with
  | create column next => exact h.emit_or_remark hne _ _ _
  | rename source target prev => exact h.emit_or_remark hne _ _ _
  | remove column prev =>
    simp only [Plan.columnStep]
    split
    · exact (Matches.refl _).bind fun _ _ _ => h.emit_or_remark hne _ _ _
    · exact h.emit_or_remark hne _ _ _
  | change column prev next =>
    simp only [Plan.columnStep]
    split_ifs
    · exact .ok h
    · exact h.updateTable hne _
    · exact .ok (h.remark _)
    · exact .ok (h.remark _)

end Beside

/-- Following steps beside a table, of which those about the table do nothing. -/
theorem follow_beside {α : Type} {step : Plan → Change α → Except MigrationError Plan}
    {qualify : String → String} {changes changes' : Changes α} (keep : Change α → Bool)
    (hsteps : changes.steps = changes'.steps.filter keep) (hfault : changes.fault = changes'.fault)
    (hkept : ∀ change ∈ changes'.steps, keep change = true → ∀ a b, a.Beside name table b →
      Matches (Beside name table) (step a change) (step b change))
    (hleft : ∀ change ∈ changes'.steps, keep change = false → ∀ b, step b change = .ok b)
    (h : plan.Beside name table plan') :
    Matches (Beside name table) (follow step qualify plan changes)
      (follow step qualify plan' changes') := by
  unfold follow
  rw [hsteps, hfault]
  refine (Matches.foldlM_filter hkept hleft h).bind fun a b hab => ?_
  cases changes'.fault with
  | none => exact .ok hab
  | some fault => exact .error _

/-- The columns of another table are planned in the same way. -/
theorem columnSteps_beside (hne : other ≠ name) (prev next : OrderedMap Column)
    (h : plan.Beside name table plan') :
    Matches (Beside name table) (columnSteps config other plan prev next)
      (columnSteps config other plan' prev next) :=
  follow_beside (fun _ => true) (List.filter_eq_self.2 fun _ _ => rfl).symm rfl
    (fun change _ _ _ _ hab => hab.columnStep hne change) (fun _ _ hkeep => by cases hkeep) h

/-- A step about another table is taken in both accounts. -/
theorem tableStep_beside {change : Change Table} (hspares : change.spares name = true)
    (h : plan.Beside name table plan') :
    Matches (Beside name table) (tableStep config plan change) (tableStep config plan' change) := by
  cases change with
  | create other next =>
    exact .ok ((h.emit _).reach (Schema.spares_insertTable (bne_iff_ne.1 hspares) _))
  | rename source target prev =>
    obtain ⟨hsource, htarget⟩ := Bool.and_eq_true_iff.1 hspares
    exact .ok ((h.emit _).reach
      (Schema.spares_moveTable (bne_iff_ne.1 hsource) (bne_iff_ne.1 htarget)))
  | remove other prev =>
    exact (Matches.refl _).bind fun _ _ _ =>
      .ok ((h.emit _).reach (Schema.spares_eraseTable (bne_iff_ne.1 hspares)))
  | change other prev next => exact columnSteps_beside (bne_iff_ne.1 hspares) _ _ h

/-- There is nothing to do for the columns of a table that has the same fields before and after. -/
theorem columnSteps_of_field?_eq {before after : Table}
    (hfields : ∀ c, before.field? c = after.field? c) (name : String) (plan : Plan) :
    columnSteps config name plan before.columns after.columns = .ok plan := by
  have hnames (c : String) := Table.mem_names_iff_of_field?_eq (hfields c)
  rw [columnSteps, follow_eq_ok_iff]
  refine ⟨.of_mem_iff hnames, .of_idle fun t ht => ?_⟩
  obtain ⟨column, declared, declared', hbefore, hafter, rfl⟩ :=
    Changes.exists_keep_of_mem_turns hnames ht
  have hfield : declared.field = declared'.field := by
    simpa [Table.field?, hbefore, hafter] using hfields column
  simp only [Turn.steps, List.foldlM_cons, List.foldlM_nil, bind_pure, columnStep, if_pos hfield]

/-- The tables are planned in the same way, one of which stays the same and is nothing's old
name. -/
theorem tableSteps_beside (config : MigrationConfig) {prev next : OrderedMap Table}
    {before after : Table}
    (hbefore : prev.find? name = some before) (hafter : next.find? name = some after)
    (hfields : ∀ c, before.field? c = after.field? c)
    (hmarker : ∀ e ∈ next.entries, e.1 ≠ name → e.2.renamedFrom ≠ some name)
    (h : plan.Beside name table plan') :
    Matches (Beside name table)
      (tableSteps config plan (prev.erase name) (next.erase name))
      (tableSteps config plan' prev next) := by
  have hprev := OrderedMap.mem_names_of_find? hbefore
  have hnext := OrderedMap.mem_names_of_find? hafter
  have hbetween := Changes.between_erase hprev hnext hmarker
  refine follow_beside (Change.spares name) (by rw [hbetween]) (by rw [hbetween])
    (fun _ _ hspares _ _ hab => tableStep_beside hspares hab) (fun change hchange hspares b => ?_) h
  -- The one step that is left out compares the table with itself.
  obtain ⟨found, found', hfound, hfound', rfl⟩ :=
    Changes.exists_change_of_spares_eq_false hprev hnext hmarker hchange hspares
  obtain rfl : before = found := Option.some.inj (hbefore.symm.trans hfound)
  obtain rfl : after = found' := Option.some.inj (hafter.symm.trans hfound')
  exact columnSteps_of_field?_eq hfields name b

end Plan

/-! ### Migrations beside a table -/

section Migrations

variable {schema prev next : Schema} {name : String} {table table' : Table} {place place' : Nat}

theorem Schema.validate_insertTableAt (h : schema.validate = .ok ())
    (htable : (single name table).validate = .ok ()) (hfresh : name ∉ schema.tables.names) :
    (schema.insertTableAt place name table).validate = .ok () := by
  rw [validate_eq_ok_iff_isValid] at *
  exact h.insertTableAt htable hfresh

/-- Tables of the same structure are valid or not for the same reasons. -/
theorem Schema.validate_of_sameStructure {schema' : Schema}
    (hsame : schema.sameStructure schema' = true) (h : schema.validate = .ok ()) :
    schema'.validate = .ok () := by
  rw [validate_eq_ok_iff_isValid] at *
  exact h.of_fieldsOf?_eq (sameStructure_iff.1 hsame)

theorem Schema.find?_single (name : String) (table : Table) :
    (single name table).tables.find? name = some table :=
  (table?_single name).trans (if_pos rfl)

theorem Schema.find?_insertTableAt :
    (schema.insertTableAt place name table).tables.find? name = some table :=
  (table?_insertTableAt name).trans (if_pos rfl)

namespace Plan

variable {config : MigrationConfig} {plan plan' : Plan}

/-- Planning starts beside the table. -/
theorem beside_canonical (hfresh : name ∉ prev.tables.names) (place : Nat) (table : Table) :
    Beside name table.canonical ⟨prev.canonical, [], []⟩
      ⟨(prev.insertTableAt place name table).canonical, [], []⟩ := by
  refine ⟨Schema.eraseTable_canonical_insertTableAt hfresh, ?_, rfl, rfl⟩
  rw [Schema.canonical_insertTableAt]
  exact Schema.find?_insertTableAt

/-- The table does not count in the comparison at the end. -/
theorem Beside.divergence?_eq (h : plan.Beside name table.canonical plan')
    (hfields : ∀ c, table.field? c = table'.field? c) (hfresh : name ∉ next.tables.names) :
    plan'.reached.divergence? (next.insertTableAt place name table').canonical =
      plan.reached.divergence? next.canonical := by
  rw [← h.others, ← Schema.eraseTable_canonical_insertTableAt hfresh, Schema.divergence?_eraseTable]
  rw [Schema.fieldsOf?_canonical, Schema.fieldsOf?_of_find? h.table,
    Schema.fieldsOf?_of_find? Schema.find?_insertTableAt, Option.some.injEq]
  funext column
  rw [Table.field?_canonical, hfields]

/-- Planning beside the table, from the beginning on. -/
theorem tableSteps_insertTableAt (config : MigrationConfig) (place place' : Nat)
    (hfresh : name ∉ prev.tables.names) (hfresh' : name ∉ next.tables.names)
    (hfields : ∀ c, table.field? c = table'.field? c)
    (hmarker : ∀ other after, next.table? other = some after → after.renamedFrom ≠ some name) :
    Matches (Beside name table.canonical)
      (tableSteps config ⟨prev.canonical, [], []⟩ prev.tables next.tables)
      (tableSteps config ⟨(prev.insertTableAt place name table).canonical, [], []⟩
        (prev.insertTableAt place name table).tables
        (next.insertTableAt place' name table').tables) := by
  have hothers : ∀ e ∈ (next.insertTableAt place' name table').tables.entries,
      e.1 ≠ name → e.2.renamedFrom ≠ some name := by
    intro e he hne
    have hentry : (next.insertTableAt place' name table').table? e.1 = some e.2 :=
      OrderedMap.mem_entries_iff.1 he
    rw [Schema.table?_insertTableAt, if_neg hne.symm] at hentry
    exact hmarker e.1 e.2 hentry
  have hbefore : (prev.insertTableAt place name table).tables.find? name = some table :=
    Schema.find?_insertTableAt
  have hsteps := tableSteps_beside config hbefore Schema.find?_insertTableAt hfields
    hothers (beside_canonical hfresh place table)
  have herase : (prev.insertTableAt place name table).tables.erase name = prev.tables :=
    OrderedMap.erase_insertAt hfresh
  have herase' : (next.insertTableAt place' name table').tables.erase name = next.tables :=
    OrderedMap.erase_insertAt hfresh'
  rwa [herase, herase'] at hsteps

end Plan

/-- A table that is declared before and after, with the same structure and at any places, does not
disturb a migration, if it is valid on its own and nothing else is renamed from it: the statements
are the same, with the table added to the schema that is reached, and what fails fails for the same
reason with the same notes. -/
theorem migrate_insertTableAt (hprev : prev.validate = .ok ()) (hnext : next.validate = .ok ())
    (hfresh : name ∉ prev.tables.names) (hfresh' : name ∉ next.tables.names)
    (hmarker : ∀ other after, next.table? other = some after → after.renamedFrom ≠ some name)
    (hsame : (Schema.single name table).sameStructure (.single name table') = true)
    (hvalid : (Schema.single name table).validate = .ok ()) (config : MigrationConfig)
    (place place' : Nat) :
    migrate config (prev.insertTableAt place name table) (next.insertTableAt place' name table') =
      (migrate config prev next).map fun migration =>
        ⟨migration.statements, migration.schema.insertTableAt place' name table'.canonical⟩ := by
  have hvalid' := Schema.validate_of_sameStructure hsame hvalid
  have hfields := field?_eq_of_sameStructure hsame (Schema.find?_single name table)
    (Schema.find?_single name table')
  have hsteps := Plan.tableSteps_insertTableAt config place place' hfresh hfresh' hfields hmarker
  have hrequire {schema : Schema} (h : schema.validate = .ok ()) : requireValid schema = .ok () :=
    requireValid_eq_ok_iff.2 h
  unfold migrate
  rw [hrequire hprev, hrequire hnext, hrequire (Schema.validate_insertTableAt hprev hvalid hfresh),
    hrequire (Schema.validate_insertTableAt hnext hvalid' hfresh')]
  -- Both plannings end alike, and so do the comparisons behind them.
  refine hsteps.bind_eq_map fun plan plan' hplan => ?_
  rw [hplan.divergence?_eq hfields hfresh', hplan.statements, hplan.notes,
    Schema.canonical_insertTableAt]
  cases plan.reached.divergence? next.canonical <;> rfl

/-- A table of events before a migration. -/
def Table.events : Table :=
  ⟨.ofList [("at", ⟨.integer "", none⟩), ("seen", ⟨.aliasTo "at", none⟩)], none⟩

/-- The same table in another order, with markers that are idle. -/
def Table.eventsAgain : Table :=
  ⟨.ofList [("seen", ⟨.aliasTo "at", some "at"⟩), ("at", ⟨.integer "", none⟩)], some "a"⟩

/-- Beside the events, of which the name is reserved, a table is renamed; and a column of a table
is not dropped without leave. -/
theorem migrate_insertTableAt_events :
    let prev : Schema := .ofIntegers [("a", ["x"]), ("c", ["y", "z"])]
    let next : Schema := ⟨.ofList [("c", .ofIntegers ["y", "z"]),
      ("b", { Table.ofIntegers ["x"] with renamedFrom := some "a" })]⟩
    let cut : Schema := .ofIntegers [("a", ["x"]), ("c", ["y"])]
    migrate {} (prev.insertTableAt 1 "__events" .events)
        (next.insertTableAt 0 "__events" .eventsAgain) =
      .ok ⟨[.renameTable "a" "b"],
        next.canonical.insertTableAt 0 "__events" Table.eventsAgain.canonical⟩ ∧
    migrate {} (prev.insertTableAt 0 "__events" .events)
        (cut.insertTableAt 7 "__events" .eventsAgain) = .error (.unsafeDrop "c.z") := by
  intro prev next cut
  have hevents : (Schema.single "__events" .events).validate = .ok () := by decide
  have hsame : (Schema.single "__events" .events).sameStructure
      (.single "__events" .eventsAgain) = true := by decide
  have hprev : prev.validate = .ok () ∧ "__events" ∉ prev.tables.names := by decide
  have hnext : next.validate = .ok () ∧ "__events" ∉ next.tables.names := by decide
  have hcut : cut.validate = .ok () ∧ "__events" ∉ cut.tables.names := by decide
  have hmarker {schema : Schema} (h : ∀ table ∈ schema.tables.values,
      table.renamedFrom ≠ some "__events") (other : String) (after : Table)
      (hafter : schema.table? other = some after) : after.renamedFrom ≠ some "__events" :=
    h after (OrderedMap.mem_values_iff.2 ⟨other, hafter⟩)
  have hmigrate := migrate_insertTableAt hprev.1 hnext.1 hprev.2 hnext.2 (hmarker (by decide)) hsame
    hevents {} 1 0
  have hcutting := migrate_insertTableAt hprev.1 hcut.1 hprev.2 hcut.2 (hmarker (by decide)) hsame
    hevents {} 0 7
  have hok : migrate {} prev next = .ok ⟨[.renameTable "a" "b"], next.canonical⟩ := by decide
  have herror : migrate {} prev cut = .error (.unsafeDrop "c.z") := by decide
  rw [hok] at hmigrate
  rw [herror] at hcutting
  exact ⟨hmigrate, hcutting⟩

end Migrations

end Schemata
