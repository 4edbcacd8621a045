import Schemata.Proofs.Json.RoundTrip
import Schemata.Proofs.Schema.Validity
import Schemata.Schema.Persisted

/-!
# Persisted schemas are read back

What is kept between two migrations is a text, so the next migration starts from what is read back
from it. Every part of a schema survives that: names in their order, fields of every kind with any
characters in them, and markers. The one exception are references to columns, of which the written
form tells the table from the column by its first point only. A table name with a point in it is
therefore cut off there; no valid schema has one, and none comes out of reading.

## Main definitions

* `Schema.reread`: a schema with its references read back from their written form
* `Schema.HasPlainReferences`: no relation refers to a table with a point in its name

## Main results

* `Schema.ofText?_toText`: what is read back from the text of any schema
* `Schema.reread_eq_self_iff`: the schemas that are left alone by it
* `Schema.reread_of_ofText?`: what is read from any text is left alone by it
* `Schema.persists`: a schema survives exactly if its references are plain, which they are in a
  valid schema and in one that was read
-/

namespace Schemata

open Json (ofMembers ofText named? only? required?)

/-! ### Members by name -/

namespace Json

theorem named?_map_some (members : List (String × Json)) :
    named? (members.map fun m => (some m.1, m.2)) = some members := by
  induction members with
  | nil => rfl
  | cons m rest ih =>
    rw [named?, List.map_cons, List.mapM_cons, ← named?, ih]
    rfl

/-- An object is readable if what stands under its names is. -/
theorem isReadable_ofMembers {members : List (String × Json)}
    (h : ∀ m ∈ members, m.2.IsReadable) : (ofMembers members).IsReadable := by
  unfold ofMembers IsReadable
  induction members with
  | nil => trivial
  | cons m rest ih =>
    exact ⟨h m (by simp), ih fun m' hm' => h m' (List.mem_cons_of_mem _ hm')⟩

theorem isReadable_ofText (text : String) : (ofText text).IsReadable := trivial

end Json

/-- A map whose values are read back one by one, as their images, is read back as its image. -/
theorem mapOfJson?_ofMembers {α β : Type} {write : α → Json} {read? : Json → Option β} {f : α → β}
    (m : OrderedMap α) (h : ∀ a, read? (write a) = some (f a)) :
    mapOfJson? read? (ofMembers (Entries.mapValues write m.entries)) = some (m.map f) := by
  have hall : ∀ es : List (String × α),
      (Entries.mapValues write es).mapM (fun e => (read? e.2).map fun b => (e.1, b)) =
        some (Entries.mapValues f es) := by
    intro es
    induction es with
    | nil => rfl
    | cons e rest ih =>
      simp only [Entries.mapValues, List.map_cons, List.mapM_cons, h, Option.map_some] at ih ⊢
      rw [ih]
      rfl
  simp only [mapOfJson?, ofMembers, Json.named?_map_some, Option.bind_eq_bind, Option.bind_some,
    hall]
  exact congrArg some (OrderedMap.ofList_entries (m.map f))

/-! ### Reading what was written -/

/-- The reference that is read from the written form of a reference. -/
def ColumnRef.reread (ref : ColumnRef) : ColumnRef := .ofText ref.text

/-- The field with its references read back. -/
def Field.reread : Field → Field
  | .relation r => .relation ⟨r.cardinality, r.source.reread, r.destination.reread⟩
  | field => field

/-- The column with its references read back. -/
def Column.reread (column : Column) : Column := { column with field := column.field.reread }

/-- The table with its references read back. -/
def Table.reread (table : Table) : Table :=
  { table with columns := table.columns.map Column.reread }

/-- The schema with its references read back. -/
def Schema.reread (schema : Schema) : Schema := ⟨schema.tables.map Table.reread⟩

theorem Cardinality.ofText?_text (cardinality : Cardinality) :
    ofText? cardinality.text = some cardinality := by
  cases cardinality <;> rfl

theorem FieldKind.ofJson?_text (kind : FieldKind) : ofJson? (ofText kind.text) = some kind := by
  cases kind <;> rfl

theorem ValueType.ofText?_text (type : ValueType) : ofText? type.text = some type :=
  ofText?_eq_some_iff.2 rfl

/-- The parts of a field are read from its members, its kind being known. -/
theorem Field.ofMembers?_members (field : Field) :
    Field.ofMembers? field.members field.kind = some field.reread := by
  cases field with
  | atom a =>
    simp [ofMembers?, members, kind, textMember?, required?, only?, choice?, ofText, Json.text?,
      ValueType.ofText?_text, reread]
  | relation r =>
    simp [ofMembers?, members, kind, textMember?, required?, only?, choice?, ofText, Json.text?,
      Cardinality.ofText?_text, reread, ColumnRef.reread]
  | _ => simp [ofMembers?, members, kind, textMember?, required?, only?, ofText, Json.text?, reread]

/-- Every member of a field has a text under a name of its own, which is not that of the marker. -/
theorem Field.mem_members (field : Field) :
    ∀ m ∈ field.members, m.1 ≠ "renamedFrom" ∧ ∃ text, m.2 = ofText text := by
  cases field <;> simp [members, ofText]

theorem required?_kind (field : Field) :
    required? field.members "kind" = some (ofText field.kind.text) := by
  cases field <;> simp [required?, only?, Field.members, Field.kind]

/-- A column is read back but for its references. -/
theorem Column.ofJson?_toJson (column : Column) :
    Column.ofJson? column.toJson = some column.reread := by
  obtain ⟨field, marker⟩ := column
  -- Field and marker are written into one object and told apart by the name of the marker.
  have hparts : (field.members ++ markerMembers marker).filter (fun m => m.1 ≠ "renamedFrom") =
      field.members := by
    have hfield : field.members.filter (fun m => m.1 ≠ "renamedFrom") = field.members :=
      List.filter_eq_self.2 fun m hm => by simpa using (field.mem_members m hm).1
    rw [List.filter_append, hfield]
    cases marker <;> simp [markerMembers]
  have hmarker : markerOfMembers? (field.members ++ markerMembers marker) = some marker := by
    have hfield : field.members.filter (fun m => m.1 = "renamedFrom") = [] :=
      List.filter_eq_nil_iff.2 fun m hm => by simpa using (field.mem_members m hm).1
    rw [markerOfMembers?, only?, List.filter_append, hfield]
    cases marker <;> simp [markerMembers, markerOfJson?, ofText]
  have hplain : (field.members.all fun m => m.2.isPlain && m.2.depth ≤ maxNesting) = true := by
    refine List.all_eq_true.2 fun m hm => ?_
    obtain ⟨-, text, htext⟩ := field.mem_members m hm
    simp [htext, ofText, Json.isPlain, Json.depth]
  simp only [toJson, ofMembers, ofJson?, Json.named?_map_some, hparts, hmarker,
    required?_kind, FieldKind.ofJson?_text, Field.ofMembers?_members, Option.bind_eq_bind,
    Option.bind_some]
  rw [hplain]
  rfl

/-- A table is read back but for its references. -/
theorem Table.ofJson?_toJson (table : Table) : Table.ofJson? table.toJson = some table.reread := by
  obtain ⟨columns, marker⟩ := table
  have hcolumns := mapOfJson?_ofMembers columns Column.ofJson?_toJson
  have hmarker : markerOfMembers? (("columns", ofMembers (Entries.mapValues Column.toJson
      columns.entries)) :: markerMembers marker) = some marker := by
    cases marker <;> simp [markerOfMembers?, only?, markerMembers, markerOfJson?, ofText]
  have hrequired : required? (("columns", ofMembers (Entries.mapValues Column.toJson
      columns.entries)) :: markerMembers marker) "columns" =
        some (ofMembers (Entries.mapValues Column.toJson columns.entries)) := by
    cases marker <;> simp [required?, only?, markerMembers]
  rw [toJson, ofMembers, ofJson?, Json.named?_map_some]
  simp only [Option.bind_eq_bind, Option.bind_some, hrequired, hcolumns, hmarker]
  rfl

/-- The document of a schema has no numbers in it. -/
theorem Schema.isReadable_toJson (schema : Schema) : schema.toJson.IsReadable := by
  have hmarker : ∀ (marker : Option String), ∀ m ∈ markerMembers marker, m.2.IsReadable := by
    intro marker m hm
    obtain ⟨name, -, rfl⟩ := List.mem_map.1 hm
    exact Json.isReadable_ofText name
  have hcolumn : ∀ column : Column, column.toJson.IsReadable := by
    intro column
    refine Json.isReadable_ofMembers fun m hm => ?_
    rcases List.mem_append.1 hm with hm | hm
    · obtain ⟨-, text, htext⟩ := column.field.mem_members m hm
      exact htext ▸ Json.isReadable_ofText text
    · exact hmarker _ m hm
  have htable : ∀ table : Table, table.toJson.IsReadable := by
    intro table
    refine Json.isReadable_ofMembers fun m hm => ?_
    rcases List.mem_cons.1 hm with rfl | hm
    · refine Json.isReadable_ofMembers fun m hm => ?_
      obtain ⟨entry, -, rfl⟩ := List.mem_map.1 hm
      exact hcolumn entry.2
    · exact hmarker _ m hm
  refine Json.isReadable_ofMembers fun m hm => ?_
  obtain ⟨entry, -, rfl⟩ := List.mem_map.1 hm
  exact htable entry.2

/-- What is read back from the text of a schema is the schema, but for its references. -/
theorem Schema.ofText?_toText (schema : Schema) :
    Schema.ofText? schema.toText = some schema.reread := by
  rw [ofText?, toText, Json.parse?_pretty schema.isReadable_toJson]
  simp only [Option.bind_eq_bind, Option.bind_some, ofJson?, toJson,
    mapOfJson?_ofMembers schema.tables Table.ofJson?_toJson]
  rfl

/-! ### References that survive -/

theorem ColumnRef.reread_eq_self_iff {ref : ColumnRef} :
    ref.reread = ref ↔ '.' ∉ ref.table.toList :=
  ⟨fun h => h ▸ table_ofText ref.text, ofText_text⟩

example : (ColumnRef.mk "a.b" "c").reread = ⟨"a", "b.c"⟩ := by decide

/-- A reference that was read is plain. -/
theorem ColumnRef.reread_ofText (text : String) : (ofText text).reread = ofText text :=
  reread_eq_self_iff.2 (table_ofText text)

/-- No relation refers to a table that has a point in its name. -/
def Schema.HasPlainReferences (schema : Schema) : Prop :=
  ∀ ref relation, schema.field? ref = some (.relation relation) →
    ∀ side, '.' ∉ (relation.endpoint side).table.toList

theorem Field.reread_eq_self_iff {field : Field} :
    field.reread = field ↔ ∀ relation, field = .relation relation →
      ∀ side, '.' ∉ (relation.endpoint side).table.toList := by
  cases field with
  | relation r =>
    obtain ⟨cardinality, source, destination⟩ := r
    simp only [reread, relation.injEq, Relation.mk.injEq, true_and,
      ColumnRef.reread_eq_self_iff, forall_eq']
    constructor
    · rintro ⟨hsource, hdestination⟩ (_ | _)
      · exact hsource
      · exact hdestination
    · exact fun h => ⟨h .source, h .destination⟩
  | _ => simp [reread]

/-- The schemas whose references survive are those with plain references. -/
theorem Schema.reread_eq_self_iff {schema : Schema} :
    schema.reread = schema ↔ schema.HasPlainReferences := by
  have hcolumn : ∀ column : Column,
      column.reread = column ↔ column.field.reread = column.field := by
    rintro ⟨field, marker⟩
    simp [Column.reread]
  have htable : ∀ table : Table, table.reread = table ↔
      ∀ name field, table.field? name = some field → field.reread = field := by
    rintro ⟨columns, marker⟩
    simp only [Table.reread, Table.mk.injEq, and_true, OrderedMap.map_eq_self_iff, hcolumn,
      OrderedMap.mem_values_iff, Table.field?, Option.map_eq_some_iff]
    constructor
    · rintro h name _ ⟨column, hfind, rfl⟩
      exact h column ⟨name, hfind⟩
    · rintro h column ⟨name, hfind⟩
      exact h name column.field ⟨column, hfind, rfl⟩
  obtain ⟨tables⟩ := schema
  simp only [reread, Schema.mk.injEq, OrderedMap.map_eq_self_iff, htable,
    OrderedMap.mem_values_iff]
  constructor
  · intro h ref relation hfield
    obtain ⟨table, hfind, hcolumn⟩ := field?_eq_some_iff.1 hfield
    exact Field.reread_eq_self_iff.1 (h table ⟨ref.table, hfind⟩ _ _ hcolumn) relation rfl
  · rintro h table ⟨tableName, hfind⟩ name field hfield
    refine Field.reread_eq_self_iff.2 fun relation hrelation => ?_
    exact h ⟨tableName, name⟩ relation (field?_eq_some_iff.2 ⟨table, hfind, hrelation ▸ hfield⟩)

/-- In a valid schema every relation refers to tables with names that are identifiers. -/
theorem Schema.IsValid.hasPlainReferences {schema : Schema} (h : schema.IsValid) :
    schema.HasPlainReferences := by
  intro ref relation hfield side
  obtain ⟨-, source, destination, hsource, hdestination, -⟩ := h.joins hfield
  have hname : ∃ field, schema.field? (relation.endpoint side) = some field := by
    cases side
    · exact ⟨_, hsource⟩
    · exact ⟨_, hdestination⟩
  obtain ⟨field, hfield⟩ := hname
  obtain ⟨table, htable, -⟩ := field?_eq_some_iff.1 hfield
  intro hpoint
  rcases isIdentifier_chars (h.table_name htable) _ hpoint with hc | hc
  · exact absurd hc (by decide)
  · exact absurd hc (by decide)

/-! ### What comes out of reading -/

theorem Field.reread_of_ofMembers? {members : List (String × Json)} {kind : FieldKind}
    {field : Field} (h : Field.ofMembers? members kind = some field) : field.reread = field := by
  cases kind <;> simp only [ofMembers?, Option.bind_eq_bind, Option.bind_eq_some_iff,
    Option.pure_def, Option.some.injEq] at h
  case relation =>
    obtain ⟨_, _, _, _, _, _, source, _, destination, _, rfl⟩ := h
    simp [reread, ColumnRef.reread_ofText]
  case atom =>
    obtain ⟨_, _, _, _, _, _, _, _, constraints, _, h⟩ := h
    cases constraints with
    | none =>
      cases h
      rfl
    | some v =>
      obtain ⟨_, _, h⟩ := Option.bind_eq_some_iff.1 h
      cases h
      rfl
  all_goals
    obtain ⟨_, _, rfl⟩ := h
    rfl

theorem Column.reread_of_ofJson? {document : Json} {column : Column}
    (h : Column.ofJson? document = some column) : column.reread = column := by
  unfold ofJson? at h
  split at h
  · simp only [Option.bind_eq_bind, Option.bind_eq_some_iff, Option.pure_def,
      Option.some.injEq] at h
    obtain ⟨_, _, _, _, _, _, _, _, _, _, field, hfield, rfl⟩ := h
    simp [reread, Field.reread_of_ofMembers? hfield]
  · cases h

/-- What was computed for a list was computed for one of its elements. -/
theorem exists_of_mem_mapM {α β : Type} {f : α → Option β} {xs : List α} {ys : List β}
    (h : xs.mapM f = some ys) : ∀ y ∈ ys, ∃ x, f x = some y := by
  induction xs generalizing ys with
  | nil =>
    cases h
    simp
  | cons x rest ih =>
    simp only [List.mapM_cons, Option.bind_eq_bind, Option.bind_eq_some_iff, Option.pure_def,
      Option.some.injEq] at h
    obtain ⟨first, hfirst, others, hothers, rfl⟩ := h
    intro y hy
    rcases List.mem_cons.1 hy with rfl | hy
    · exact ⟨x, hfirst⟩
    · exact ih hothers y hy

/-- Every value of a map that was read has been read by itself. -/
theorem exists_of_mapOfJson? {α : Type} {read? : Json → Option α} {document : Json}
    {m : OrderedMap α} (h : mapOfJson? read? document = some m) :
    ∀ a ∈ m.values, ∃ v, read? v = some a := by
  unfold mapOfJson? at h
  split at h
  · simp only [Option.bind_eq_bind, Option.bind_eq_some_iff, Option.pure_def,
      Option.some.injEq] at h
    obtain ⟨_, _, entries, hentries, rfl⟩ := h
    intro a ha
    obtain ⟨entry, hentry, rfl⟩ := OrderedMap.mem_values_ofList ha
    obtain ⟨member, hmember⟩ := exists_of_mem_mapM hentries entry hentry
    obtain ⟨a, hread, rfl⟩ := Option.map_eq_some_iff.1 hmember
    exact ⟨member.2, hread⟩
  · cases h

/-- A map that was read is left alone by a function that leaves alone what is read. -/
theorem map_eq_self_of_mapOfJson? {α : Type} {read? : Json → Option α} {f : α → α}
    (hf : ∀ {v a}, read? v = some a → f a = a) {document : Json} {m : OrderedMap α}
    (h : mapOfJson? read? document = some m) : m.map f = m := by
  refine OrderedMap.map_eq_self_iff.2 fun a ha => ?_
  obtain ⟨_, hread⟩ := exists_of_mapOfJson? h a ha
  exact hf hread

theorem Table.reread_of_ofJson? {document : Json} {table : Table}
    (h : Table.ofJson? document = some table) : table.reread = table := by
  have hcolumns : ∃ v, mapOfJson? Column.ofJson? v = some table.columns := by
    unfold ofJson? at h
    split at h
    · simp only [Option.bind_eq_bind, Option.bind_eq_some_iff, Option.pure_def,
        Option.some.injEq] at h
      obtain ⟨_, _, v, _, columns, hcolumns, _, _, rfl⟩ := h
      exact ⟨v, hcolumns⟩
    · obtain ⟨columns, hcolumns, ⟨⟩⟩ := Option.bind_eq_some_iff.1 h
      exact ⟨_, hcolumns⟩
    · simp only [Option.bind_eq_bind, Option.bind_eq_some_iff, Option.pure_def,
        Option.some.injEq] at h
      obtain ⟨columns, hcolumns, _, _, rfl⟩ := h
      exact ⟨_, hcolumns⟩
    · cases h
  obtain ⟨_, hcolumns⟩ := hcolumns
  rw [reread, map_eq_self_of_mapOfJson? Column.reread_of_ofJson? hcolumns]

/-- What is read from a text is left alone by writing and reading it. -/
theorem Schema.reread_of_ofText? {text : String} {schema : Schema}
    (h : Schema.ofText? text = some schema) : schema.reread = schema := by
  obtain ⟨document, -, hdocument⟩ := Option.bind_eq_some_iff.1 h
  obtain ⟨tables, htables, ⟨⟩⟩ := Option.bind_eq_some_iff.1 hdocument
  rw [reread, map_eq_self_of_mapOfJson? Table.reread_of_ofJson? htables]

/-! ### Persistence -/

/-- A schema survives being written and read exactly if its references are plain. They are in every
valid schema, and in every schema that was read from some text; such a one has the same text when
it is written, read and written again. -/
theorem Schema.persists (schema : Schema) :
    (Schema.ofText? schema.toText = some schema ↔ schema.HasPlainReferences) ∧
      (schema.validate = .ok () → schema.HasPlainReferences) ∧
      ∀ text, Schema.ofText? text = some schema → schema.HasPlainReferences ∧
        (Schema.ofText? schema.toText).map Schema.toText = some schema.toText := by
  have hsurvives : Schema.ofText? schema.toText = some schema ↔ schema.HasPlainReferences := by
    rw [ofText?_toText, Option.some.injEq, reread_eq_self_iff]
  refine ⟨hsurvives, fun h => (validate_eq_ok_iff_isValid.1 h).hasPlainReferences, ?_⟩
  intro text h
  have hself := reread_of_ofText? h
  refine ⟨reread_eq_self_iff.1 hself, ?_⟩
  rw [ofText?_toText, hself, Option.map_some]

end Schemata
