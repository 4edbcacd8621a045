import Mathlib.Data.List.Nodup
import Schemata.Schema.Basic

/-!
# Edits of a schema

What a person does to a declaration in order to rename or to remove something: the name is
replaced wherever it stands, the entity gets its old name as its marker, or else it goes, and with
it what refers to it.

## Main definitions

* `OrderedMap.rename`, `OrderedMap.modify`: an entry under another name, and with another value
* `ColumnRef.retable`, `ColumnRef.redirect`: other references
* `Field.mapRefs`, `Field.mapTarget`: a field with other references
* `Schema.renameTable`, `Schema.renameColumn`: a table or a column gets another name
* `Schema.dropTable`, `Schema.dropColumn`: a table or a column goes, with what refers to it
* `Schema.Sheds`: a column has gone, and perhaps virtual columns with it

## Main results

* `Schema.table?_renameTable`, `Schema.table?_renameColumn` and their like: what a look-up sees
  after an edit
* `Schema.sheds_dropColumn`: nothing but the column and virtual columns goes with it
-/

namespace Schemata

universe u

/-! ### Entries under other names -/

namespace OrderedMap

variable {α : Type u}

/-- The map with an entry under another name, in its place, and with another value. -/
def rename (source target : String) (f : α → α) (m : OrderedMap α) : OrderedMap α :=
  .ofList (m.entries.map fun e => if e.1 = source then (target, f e.2) else e)

/-- The map with another value under a name, if it has one there. -/
def modify (name : String) (f : α → α) (m : OrderedMap α) : OrderedMap α :=
  match m.find? name with
  | none => m
  | some a => m.insert name (f a)

theorem entries_rename {m : OrderedMap α} {source target : String} (f : α → α)
    (htarget : target ∉ m.names) : (m.rename source target f).entries =
      m.entries.map fun e => if e.1 = source then (target, f e.2) else e := by
  have hnames : Entries.names (m.entries.map fun e => if e.1 = source then (target, f e.2) else e) =
      m.names.map fun n => if n = source then target else n := by
    simp only [Entries.names, names, List.map_map]
    apply List.map_congr_left
    intro e _
    simp only [Function.comp_apply]
    split <;> rfl
  have hnodup : (m.names.map fun n => if n = source then target else n).Nodup := by
    apply m.nodup_names.map_on
    intro n hn n' hn' heq
    -- The new name is none of the others, so no two names come to be the same.
    grind
  rw [rename, ofList, entries_foldl_insert]
  · rfl
  · rwa [names_empty, List.nil_append, hnames]

theorem find?_rename {m : OrderedMap α} {source target : String} (f : α → α)
    (htarget : target ∉ m.names) (name : String) : (m.rename source target f).find? name =
      if name = target then (m.find? source).map f
      else if name = source then none else m.find? name := by
  have hnew {a : α} : (target, a) ∉ m.entries := fun ha =>
    htarget (mem_names_of_find? (mem_entries_iff.1 ha))
  ext a
  rw [← mem_entries_iff, entries_rename f htarget, List.mem_map]
  constructor
  · rintro ⟨⟨n, b⟩, hb, heq⟩
    have hfind := mem_entries_iff.1 hb
    grind
  · intro hfound
    split_ifs at hfound with htarget' hsource
    · obtain ⟨b, hb, rfl⟩ := Option.map_eq_some_iff.1 hfound
      exact ⟨(source, b), mem_entries_iff.2 hb, by simp [htarget']⟩
    · exact ⟨(name, a), mem_entries_iff.2 hfound, by simp [hsource]⟩

theorem find?_modify (m : OrderedMap α) (name other : String) (f : α → α) :
    (m.modify name f).find? other =
      if name = other then (m.find? name).map f else m.find? other := by
  unfold modify
  cases hfind : m.find? name with
  | none =>
    split_ifs with hname
    · rw [← hname, hfind, Option.map_none]
    · rfl
  | some a => simp only [find?_insert, Option.map_some]

end OrderedMap

/-! ### Other references -/

/-- The name, or the second name if it is the first. -/
def replaced (source target name : String) : String := if name = source then target else name

namespace ColumnRef

/-- The reference to a column of the same name in the other table, if it is to one in the first. -/
def retable (source target : String) (ref : ColumnRef) : ColumnRef :=
  { ref with table := replaced source target ref.table }

/-- The second reference, if it is the first. -/
def redirect (source target ref : ColumnRef) : ColumnRef := if ref = source then target else ref

end ColumnRef

namespace Field

/-- The field with other columns on both sides, if it is a relation. -/
def mapRefs (f : ColumnRef → ColumnRef) : Field → Field
  | relation r => .relation { r with source := f r.source, destination := f r.destination }
  | atom a => .atom a
  | aliasTo target => .aliasTo target
  | index definition => .index definition
  | constraint definition => .constraint definition

/-- The field with another target, if it is an alias. -/
def mapTarget (f : String → String) : Field → Field
  | aliasTo target => .aliasTo (f target)
  | relation r => .relation r
  | atom a => .atom a
  | index definition => .index definition
  | constraint definition => .constraint definition

/-- Whether the field is a relation that ends in the table. -/
def endsIn (table : String) : Field → Bool
  | relation r => r.destination.table == table
  | atom _ | aliasTo _ | index _ | constraint _ => false

/-- Whether the field is a relation with the column on one of its sides. -/
def joins (ref : ColumnRef) : Field → Bool
  | relation r => r.source == ref || r.destination == ref
  | atom _ | aliasTo _ | index _ | constraint _ => false

/-- Whether the field is an alias of the column. -/
def standsFor (column : String) : Field → Bool
  | aliasTo target => target == column
  | atom _ | relation _ | index _ | constraint _ => false

theorem isVirtual_of_endsIn {field : Field} {table : String} (h : field.endsIn table = true) :
    field.isVirtual = true := by
  cases field <;> first | rfl | exact Bool.noConfusion h

theorem isVirtual_of_joins {field : Field} {ref : ColumnRef} (h : field.joins ref = true) :
    field.isVirtual = true := by
  cases field <;> first | rfl | exact Bool.noConfusion h

theorem isVirtual_of_standsFor {field : Field} {column : String}
    (h : field.standsFor column = true) : field.isVirtual = true := by
  cases field <;> first | rfl | exact Bool.noConfusion h

end Field

/-! ### Edits of a table -/

namespace Table

/-- The table with other fields under its names. -/
def mapFields (f : Field → Field) (table : Table) : Table :=
  { table with columns := table.columns.map fun column => { column with field := f column.field } }

/-- The table with those of its columns whose fields satisfy the predicate. -/
def filterFields (p : Field → Bool) (table : Table) : Table :=
  { table with columns := table.columns.filter fun column => p column.field }

/-- The table with a column under another name, which has the old one as its marker, and with the
aliases of the column. -/
def renameColumn (source target : String) (table : Table) : Table :=
  let redirected := table.mapFields (Field.mapTarget (replaced source target))
  { redirected with
    columns := redirected.columns.rename source target fun column =>
      { column with renamedFrom := some source } }

/-- The table without a column and the aliases of it. -/
def dropColumn (name : String) (table : Table) : Table :=
  (table.filterFields fun field => !field.standsFor name).eraseColumn name

theorem field?_mapFields (f : Field → Field) (table : Table) (name : String) :
    (table.mapFields f).field? name = (table.field? name).map f := by
  simp only [field?, mapFields, OrderedMap.find?_map, Option.map_map]
  rfl

theorem field?_filterFields (p : Field → Bool) (table : Table) (name : String) :
    (table.filterFields p).field? name = (table.field? name).filter p := by
  rw [field?, filterFields, OrderedMap.find?_filter, field?]
  cases table.columns.find? name with
  | none => rfl
  | some column => cases hp : p column.field <;> simp [Option.filter, hp]

theorem names_mapFields (f : Field → Field) (table : Table) :
    (table.mapFields f).columns.names = table.columns.names :=
  OrderedMap.names_map ..

theorem find?_renameColumn (table : Table) (source : String) {target : String}
    (htarget : target ∉ table.columns.names) (name : String) :
    (table.renameColumn source target).columns.find? name =
      if name = target then (table.columns.find? source).map fun column =>
        ⟨column.field.mapTarget (replaced source target), some source⟩
      else if name = source then none
      else (table.columns.find? name).map fun column =>
        { column with field := column.field.mapTarget (replaced source target) } := by
  have htarget' :
      target ∉ (table.mapFields (Field.mapTarget (replaced source target))).columns.names := by
    rwa [names_mapFields]
  simp only [renameColumn, OrderedMap.find?_rename _ htarget']
  simp only [mapFields, OrderedMap.find?_map, Option.map_map]
  rfl

theorem field?_renameColumn (table : Table) (source : String) {target : String}
    (htarget : target ∉ table.columns.names) (name : String) :
    (table.renameColumn source target).field? name =
      if name = target then (table.field? source).map (Field.mapTarget (replaced source target))
      else if name = source then none
      else (table.field? name).map (Field.mapTarget (replaced source target)) := by
  simp only [field?, table.find?_renameColumn source htarget]
  split_ifs
  · simp only [Option.map_map]
    rfl
  · rfl
  · simp only [Option.map_map]
    rfl

theorem field?_dropColumn (table : Table) (name other : String) :
    (table.dropColumn name).field? other =
      if name = other then none else (table.field? other).filter fun field =>
        !field.standsFor name := by
  rw [dropColumn, field?_eraseColumn, field?_filterFields]

end Table

/-! ### Edits of a schema -/

namespace Schema

/-- The schema with a table under another name, which has the old one as its marker, and with the
relations to and from the table. -/
def renameTable (source target : String) (schema : Schema) : Schema :=
  ⟨(schema.tables.map (Table.mapFields (Field.mapRefs (.retable source target)))).rename
    source target fun table => { table with renamedFrom := some source }⟩

/-- The schema without a table and the relations of other tables that end in it. -/
def dropTable (name : String) (schema : Schema) : Schema :=
  ⟨(schema.tables.erase name).map (Table.filterFields fun field => !field.endsIn name)⟩

/-- The schema with a column of a table under another name, which has the old one as its marker,
and with the relations to and from the column and the aliases of it. -/
def renameColumn (table source target : String) (schema : Schema) : Schema :=
  let redirect : ColumnRef → ColumnRef := .redirect ⟨table, source⟩ ⟨table, target⟩
  ⟨(schema.tables.map (Table.mapFields (Field.mapRefs redirect))).modify table
    (Table.renameColumn source target)⟩

/-- The schema without a column of a table, and without the relations to and from the column and
the aliases of it. -/
def dropColumn (table name : String) (schema : Schema) : Schema :=
  ⟨(schema.tables.map (Table.filterFields fun field => !field.joins ⟨table, name⟩)).modify table
    (Table.dropColumn name)⟩

variable {schema : Schema}

theorem table?_renameTable (source : String) {target : String}
    (htarget : target ∉ schema.tables.names) (name : String) :
    (schema.renameTable source target).table? name =
      if name = target then (schema.table? source).map fun table =>
        { table.mapFields (Field.mapRefs (.retable source target)) with renamedFrom := some source }
      else if name = source then none
      else (schema.table? name).map (Table.mapFields (Field.mapRefs (.retable source target))) := by
  have htarget' : target ∉
      (schema.tables.map (Table.mapFields (Field.mapRefs (.retable source target)))).names := by
    rwa [OrderedMap.names_map]
  simp only [renameTable, table?, OrderedMap.find?_rename _ htarget', OrderedMap.find?_map,
    Option.map_map]
  rfl

theorem table?_dropTable (name other : String) : (schema.dropTable name).table? other =
    if name = other then none
    else (schema.table? other).map (Table.filterFields fun field => !field.endsIn name) := by
  simp only [dropTable, table?, OrderedMap.find?_map, OrderedMap.find?_erase]
  split <;> rfl

theorem table?_renameColumn (table source target name : String) :
    (schema.renameColumn table source target).table? name =
      if table = name then (schema.table? table).map fun declared =>
        (declared.mapFields
          (Field.mapRefs (.redirect ⟨table, source⟩ ⟨table, target⟩))).renameColumn source target
      else (schema.table? name).map
        (Table.mapFields (Field.mapRefs (.redirect ⟨table, source⟩ ⟨table, target⟩))) := by
  simp only [renameColumn, table?, OrderedMap.find?_modify, OrderedMap.find?_map, Option.map_map]
  rfl

theorem table?_dropColumn (table name other : String) :
    (schema.dropColumn table name).table? other =
      if table = other then (schema.table? table).map fun declared =>
        (declared.filterFields fun field => !field.joins ⟨table, name⟩).dropColumn name
      else (schema.table? other).map
        (Table.filterFields fun field => !field.joins ⟨table, name⟩) := by
  simp only [dropColumn, table?, OrderedMap.find?_modify, OrderedMap.find?_map, Option.map_map]
  rfl

theorem field?_dropColumn (table name : String) (ref : ColumnRef) :
    (schema.dropColumn table name).field? ref =
      if ref = ⟨table, name⟩ then none else (schema.field? ref).filter fun field =>
        !field.joins ⟨table, name⟩ && !(ref.table == table && field.standsFor name) := by
  obtain ⟨other, column⟩ := ref
  simp only [field?, table?_dropColumn, ColumnRef.mk.injEq]
  -- Aliases of the column are in its own table only.
  by_cases hother : other = table
  · subst hother
    cases schema.table? other with
    | none => simp
    | some declared =>
      simp only [if_true, Option.map_some, Option.bind_some, Table.field?_dropColumn,
        Table.field?_filterFields, Option.filter_filter, beq_self_eq_true, true_and, Bool.true_and,
        eq_comm (a := name)]
  · cases schema.table? other with
    | none => simp [Ne.symm hother]
    | some declared =>
      have hfalse : (other == table) = false := beq_eq_false_iff_ne.2 hother
      simp [hother, Ne.symm hother, hfalse, Table.field?_filterFields]

/-- The schema after has lost the column, and of all others it has lost virtual ones only. Which of
them is left open: what refers to the column has to go, then the aliases of that, and so on. -/
structure Sheds (before : Schema) (ref : ColumnRef) (after : Schema) : Prop where
  mem_names_iff {name : String} : name ∈ after.tables.names ↔ name ∈ before.tables.names
  gone : after.field? ref = none
  kept {other : ColumnRef} {field : Field} : after.field? other = some field →
    before.field? other = some field
  lost {other : ColumnRef} {field : Field} : before.field? other = some field →
    after.field? other = none → other = ref ∨ field.isVirtual = true

/-- What goes with a column is virtual. -/
theorem sheds_dropColumn (schema : Schema) (table name : String) :
    schema.Sheds ⟨table, name⟩ (schema.dropColumn table name) where
  mem_names_iff {other} := by
    simp only [mem_names_iff_table?, table?_dropColumn]
    by_cases h : table = other
    · simp [h]
    · simp [h]
  gone := by rw [field?_dropColumn, if_pos rfl]
  kept {ref field} hafter := by
    rw [field?_dropColumn] at hafter
    split_ifs at hafter
    exact (Option.filter_eq_some_iff.1 hafter).1
  lost {ref field} hbefore hafter := by
    rw [field?_dropColumn, hbefore] at hafter
    split_ifs at hafter with href
    · exact .inl href
    · have hlost : field.joins ⟨table, name⟩ = true ∨ field.standsFor name = true := by
        grind
      exact .inr (hlost.elim Field.isVirtual_of_joins Field.isVirtual_of_standsFor)

/-- Markers do not matter to what is lost. -/
theorem Sheds.canonical {before after : Schema} {ref : ColumnRef} (h : before.Sheds ref after) :
    before.canonical.Sheds ref after where
  mem_names_iff := by
    rw [Schema.canonical, OrderedMap.names_map]
    exact h.mem_names_iff
  gone := h.gone
  kept hafter := by
    rw [field?_canonical]
    exact h.kept hafter
  lost hbefore hafter := by
    rw [field?_canonical] at hbefore
    exact h.lost hbefore hafter

end Schema

end Schemata
