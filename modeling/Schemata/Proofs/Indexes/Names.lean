import Schemata.Proofs.Indexes.Statements

/-!
# Which names of indexes are the same

The name of an index joins the names of its table and of its column with an underscore, and both of
them may have underscores in them. So two tables of one schema can declare indexes of the same name:
the name of the one table goes on, after that of the other and an underscore, with a word, and the
column of the other table begins with that word and an underscore. Nothing else makes two names the
same, and nobody notices: a schema is valid whatever its indexes are called, and planning keeps
account of columns by table and name.

## Main definitions

* `Schema.indexRefs`: the columns of a schema that declare indexes
* `ColumnRef.Overlaps`: the two names can be divided in two ways
* `Schema.IndexesApart`: no two tables of a schema overlap in this way
* `Schema.creationStatements`: the statements that create the tables of a schema

## Main results

* `ColumnRef.indexName_eq_iff`: which columns give their indexes the same name
* `Schema.nodup_indexNames_iff`: no name is declared twice exactly if no tables overlap
* `Schema.indexes_identified_iff`: exactly then names tell indexes apart, in a database too
-/

namespace Schemata

open Changes (Turn turns)

/-! ### When two names are the same -/

namespace ColumnRef

/-- The name of the index that a column declares. -/
def indexName (ref : ColumnRef) : String := Schemata.indexName ref.table ref.column

/-- The name of the other table goes on with a word after that of this one, and the column of this
table begins with that word. -/
def Overlaps (ref other : ColumnRef) : Prop :=
  ∃ word, other.table = ref.table ++ "_" ++ word ∧ ref.column = word ++ "_" ++ other.column

variable {ref other : ColumnRef}

theorem Overlaps.indexName_eq (h : ref.Overlaps other) : ref.indexName = other.indexName := by
  obtain ⟨word, htable, hcolumn⟩ := h
  simp [indexName, Schemata.indexName, htable, hcolumn, String.append_assoc]

/-- Columns that overlap are in different tables. -/
theorem Overlaps.table_ne (h : ref.Overlaps other) : ref.table ≠ other.table := by
  obtain ⟨word, htable, -⟩ := h
  intro heq
  have hlength := congrArg String.length (heq.trans htable)
  simp only [String.length_append] at hlength
  have hunderscore : "_".length = 1 := rfl
  omega

/-- If the name of the other table is as long or longer, the column of this one makes up for it. -/
theorem eq_or_overlaps_of_append {rest : List Char}
    (htable : other.table.toList = ref.table.toList ++ rest)
    (hcolumn : '_' :: ref.column.toList = rest ++ '_' :: other.column.toList) :
    ref = other ∨ ref.Overlaps other := by
  cases rest with
  | nil =>
    have htables : ref.table = other.table := by simpa [String.ext_iff] using htable.symm
    have hcolumns : ref.column = other.column := by simpa [String.ext_iff] using hcolumn
    exact .inl (by cases ref; cases other; simp_all)
  | cons c word =>
    -- What the longer name has more begins with the underscore, so the rest of it is the word.
    rw [List.cons_append] at hcolumn
    obtain ⟨rfl, hword⟩ := List.cons_eq_cons.1 hcolumn
    refine .inr ⟨String.ofList word, ?_, ?_⟩
    · simp [String.ext_iff, htable]
    · simp [String.ext_iff, hword]

/-- Two columns give their indexes the same name exactly if they are one column or overlap. -/
theorem indexName_eq_iff :
    ref.indexName = other.indexName ↔ ref = other ∨ ref.Overlaps other ∨ other.Overlaps ref := by
  constructor
  · intro heq
    have hchars : ref.table.toList ++ '_' :: ref.column.toList =
        other.table.toList ++ '_' :: other.column.toList := by
      simpa [indexName, Schemata.indexName, String.ext_iff] using heq
    -- The shorter one of the two table names is where the longer one begins.
    obtain ⟨rest, htable, hcolumn⟩ | ⟨rest, htable, hcolumn⟩ := List.append_eq_append_iff.1 hchars
    · obtain rfl | hoverlaps := eq_or_overlaps_of_append htable hcolumn
      · exact .inl rfl
      · exact .inr (.inl hoverlaps)
    · obtain rfl | hoverlaps := eq_or_overlaps_of_append htable hcolumn
      · exact .inl rfl
      · exact .inr (.inr hoverlaps)
  · rintro (rfl | hoverlaps | hoverlaps)
    · rfl
    · exact hoverlaps.indexName_eq
    · exact hoverlaps.indexName_eq.symm

end ColumnRef

/-! ### The names of a schema -/

namespace Schema

variable {schema : Schema} {ref other : ColumnRef}

/-- The columns of a schema that declare indexes. -/
def indexRefs (schema : Schema) : List ColumnRef :=
  schema.tables.entries.flatMap fun (name, table) =>
    table.indexes.map fun (column, _) => ⟨name, column⟩

/-- No two columns that declare indexes overlap. -/
def IndexesApart (schema : Schema) : Prop :=
  ∀ ref ∈ schema.indexRefs, ∀ other ∈ schema.indexRefs, ¬ref.Overlaps other

theorem mem_indexRefs_iff : ref ∈ schema.indexRefs ↔
    ∃ table, schema.table? ref.table = some table ∧ table.hasIndex ref.column = true := by
  obtain ⟨name, column⟩ := ref
  simp only [indexRefs, List.mem_flatMap, List.mem_map, Prod.exists, OrderedMap.mem_entries_iff,
    Table.mem_indexes_iff, Table.hasIndex_iff, table?, ColumnRef.mk.injEq]
  constructor
  · rintro ⟨n, table, htable, c, definition, hfield, rfl, rfl⟩
    exact ⟨table, htable, definition, hfield⟩
  · rintro ⟨table, htable, definition, hfield⟩
    exact ⟨name, table, htable, column, definition, hfield, rfl, rfl⟩

theorem indexNames_eq_map : schema.indexNames = schema.indexRefs.map ColumnRef.indexName := by
  simp only [indexNames, indexRefs, List.map_flatMap, List.map_map]
  rfl

theorem nodup_indexRefs : schema.indexRefs.Nodup := by
  refine List.nodup_flatMap.2 ⟨fun e _ => ?_, ?_⟩
  · refine List.Nodup.of_map ColumnRef.column ?_
    rw [List.map_map]
    exact e.2.nodup_names_indexes
  · refine (List.pairwise_map.1 schema.tables.nodup).imp fun hne ref href href' => hne ?_
    obtain ⟨_, -, rfl⟩ := List.mem_map.1 href
    obtain ⟨_, -, heq⟩ := List.mem_map.1 href'
    exact (congrArg ColumnRef.table heq).symm

/-- Names tell the indexes of a schema apart exactly if no two columns overlap. -/
theorem indexName_inj_iff :
    (∀ ref ∈ schema.indexRefs, ∀ other ∈ schema.indexRefs,
      ref.indexName = other.indexName → ref = other) ↔ schema.IndexesApart := by
  constructor
  · intro hinj ref href other hother hoverlaps
    obtain rfl := hinj ref href other hother hoverlaps.indexName_eq
    exact hoverlaps.table_ne rfl
  · intro hapart ref href other hother heq
    obtain rfl | hoverlaps | hoverlaps := ColumnRef.indexName_eq_iff.1 heq
    · rfl
    · exact absurd hoverlaps (hapart ref href other hother)
    · exact absurd hoverlaps (hapart other hother ref href)

/-- No name is declared twice exactly if no two columns overlap. -/
theorem nodup_indexNames_iff : schema.indexNames.Nodup ↔ schema.IndexesApart := by
  rw [indexNames_eq_map, List.nodup_map_iff_inj_on nodup_indexRefs, ← indexName_inj_iff]

end Schema

/-! ### What comes of it in a database -/

/-- The statements that create the tables of a schema, with their indexes. -/
def Schema.creationStatements (schema : Schema) : List Statement :=
  schema.tables.entries.flatMap fun (name, table) => Statement.creating name table

namespace LiveIndexes

variable {live live' : LiveIndexes} {ref other : ColumnRef}

/-- Indexes can be created one after the other exactly if their names are different and free. -/
theorem isSome_run?_creations_iff {declared : List (ColumnRef × String)} :
    (live.run? (declared.map fun (ref, definition) =>
        .createIndex ref.table ref.column definition)).isSome ↔
      (declared.map fun e => e.1.indexName).Nodup ∧
        ∀ e ∈ declared, live e.1.indexName = Option.none := by
  induction declared generalizing live with
  | nil => simp
  | cons e rest ih =>
    obtain ⟨ref, definition⟩ := e
    rw [List.map_cons, run?_cons, exec?, ← ColumnRef.indexName]
    cases hlive : live ref.indexName with
    | some owner => simp [hlive]
    | none =>
      -- From here on the name is not free any more, so that no other one may be the same.
      simp only [Option.bind_some, ih, List.map_cons, List.nodup_cons, List.forall_mem_cons, hlive,
        true_and, List.mem_map, not_exists, not_and]
      have hupdate (e : ColumnRef × String) :
          Function.update live ref.indexName (some ref.table) e.1.indexName = Option.none ↔
            ¬e.1.indexName = ref.indexName ∧ live e.1.indexName = Option.none := by
        rw [Function.update_apply]
        split <;> simp_all
      simp only [hupdate, forall_and]
      tauto

/-- Of the statements that create a schema those on tables have nothing to do with indexes. -/
theorem run?_creationStatements {schema : Schema} : live.run? schema.creationStatements =
    live.run? (schema.tables.entries.flatMap fun (name, table) =>
      table.indexes.map fun (column, definition) => .createIndex name column definition) := by
  rw [run?, run?, Schema.creationStatements, foldlM_flatMap, foldlM_flatMap]
  rfl

theorem isSome_run?_creationStatements_iff {schema : Schema} :
    (none.run? schema.creationStatements).isSome ↔ schema.indexNames.Nodup := by
  have hdeclared : (schema.tables.entries.flatMap fun (name, table) =>
      table.indexes.map fun (column, definition) => Statement.createIndex name column definition) =
      (schema.tables.entries.flatMap fun (name, table) =>
        table.indexes.map fun (column, definition) =>
          ((⟨name, column⟩, definition) : ColumnRef × String)).map fun (ref, definition) =>
            .createIndex ref.table ref.column definition := by
    simp only [List.map_flatMap, List.map_map]
    rfl
  rw [run?_creationStatements, hdeclared, isSome_run?_creations_iff, List.map_flatMap]
  simp [none, Schema.indexNames, Table.indexNames, Function.comp_def, ColumnRef.indexName]

/-- An index that is dropped leaves another one alone in every database exactly if their names
differ. -/
theorem forall_dropIndex_iff :
    (∀ live live' : LiveIndexes, live.exec? (.dropIndex ref.table ref.column) = some live' →
      live' other.indexName = live other.indexName) ↔ ref.indexName ≠ other.indexName := by
  constructor
  · intro hkeeps heq
    -- In a database in which every name is taken, the drop succeeds and frees the name.
    have hdropped := hkeeps (fun _ => some ref.table) (Function.update (fun _ => some ref.table)
      ref.indexName Option.none) rfl
    rw [heq, Function.update_self] at hdropped
    cases hdropped
  · intro hne live live' hdrop
    obtain ⟨_, -, rfl⟩ := Option.map_eq_some_iff.1 hdrop
    exact Function.update_of_ne hne.symm ..

end LiveIndexes

/-! ### The indexes that a migration speaks of -/

section Migration

variable {config : MigrationConfig} {prev next : Schema} {before after : Table}
variable {name table column definition : String}

/-- An index that is created is one that the table is to have. -/
theorem createIndex_mem_columnStatements (h : ColumnsAcceptable config before after)
    (hmem : .createIndex table column definition ∈
      columnStatements name before.columns after.columns) :
    table = name ∧ after.field? column = some (.index definition) := by
  obtain ⟨t, ht, hmem⟩ := List.mem_flatMap.1 hmem
  have hfits := (Changes.mem_turns_iff h.markers).1 ht
  cases t with
  | create c declared =>
    obtain ⟨-, hafter, -⟩ := hfits
    cases hfield : declared.field <;>
      simp [Turn.columnStatements, hfield, Plan.addition?] at hmem
    obtain ⟨rfl, rfl, rfl⟩ := hmem
    exact ⟨rfl, (Table.field?_of_find? hafter).trans (congrArg some hfield)⟩
  | move source target declared entity =>
    obtain ⟨-, hafter, -, -⟩ := hfits
    have hbecomes := (h.turn ht).2.2
    cases hfield : declared.field <;>
      simp [Turn.columnStatements, hfield, Plan.renaming?] at hmem
    obtain ⟨rfl, rfl, rfl⟩ := hmem
    -- An index that moves is the same index under its new name.
    have hsame : .index definition = entity.field := by
      simpa [Field.CanBecome, hfield, Field.isVirtual, Field.kind, FieldKind.isVirtual]
        using hbecomes
    exact ⟨rfl, (Table.field?_of_find? hafter).trans (congrArg some hsame.symm)⟩
  | remove c declared =>
    cases hfield : declared.field <;> simp [Turn.columnStatements, hfield, Plan.removal?] at hmem
  | keep c declared entity => cases hmem

/-- An index that is dropped is one that the table has had. -/
theorem dropIndex_mem_columnStatements (h : ColumnsAcceptable config before after)
    (hmem : .dropIndex table column ∈ columnStatements name before.columns after.columns) :
    table = name ∧ before.hasIndex column = true := by
  obtain ⟨t, ht, hmem⟩ := List.mem_flatMap.1 hmem
  have hfits := (Changes.mem_turns_iff h.markers).1 ht
  cases t with
  | create c declared =>
    cases hfield : declared.field <;> simp [Turn.columnStatements, hfield, Plan.addition?] at hmem
  | move source target declared entity =>
    obtain ⟨-, -, -, hbefore⟩ := hfits
    cases hfield : declared.field <;>
      simp [Turn.columnStatements, hfield, Plan.renaming?] at hmem
    obtain ⟨rfl, rfl⟩ := hmem
    exact ⟨rfl, Table.hasIndex_iff.2
      ⟨_, (Table.field?_of_find? hbefore).trans (congrArg some hfield)⟩⟩
  | remove c declared =>
    obtain ⟨-, hbefore, -⟩ := hfits
    cases hfield : declared.field <;>
      simp [Turn.columnStatements, hfield, Plan.removal?] at hmem
    obtain ⟨rfl, rfl⟩ := hmem
    exact ⟨rfl, Table.hasIndex_iff.2
      ⟨_, (Table.field?_of_find? hbefore).trans (congrArg some hfield)⟩⟩
  | keep c declared entity => cases hmem

/-- A migration creates indexes that the next schema declares. -/
theorem Acceptable.createIndex_mem (h : Acceptable config prev next)
    (hmem : .createIndex table column definition ∈ tableStatements prev.tables next.tables) :
    ⟨table, column⟩ ∈ next.indexRefs := by
  obtain ⟨t, ht, hmem⟩ := List.mem_flatMap.1 hmem
  have hfits := (Changes.mem_turns_iff h.markers).1 ht
  have hacceptable := h.turn ht
  have hdeclared {n : String} {declared : Table} (hnext : next.table? n = some declared)
      (hindex : table = n ∧ declared.field? column = some (.index definition)) :
      ⟨table, column⟩ ∈ next.indexRefs := by
    obtain ⟨rfl, hfield⟩ := hindex
    exact Schema.mem_indexRefs_iff.2 ⟨declared, hnext, Table.hasIndex_iff.2 ⟨_, hfield⟩⟩
  cases t with
  | create n declared =>
    refine hdeclared hfits.2.1 ?_
    simpa [Turn.tableStatements, Statement.creating, Table.mem_indexes_iff, eq_comm, and_comm]
      using hmem
  | move source target declared entity =>
    refine hdeclared hfits.2.1 (createIndex_mem_columnStatements hacceptable ?_)
    simpa [Turn.tableStatements] using hmem
  | remove n declared => simp [Turn.tableStatements] at hmem
  | keep n declared entity =>
    exact hdeclared hfits.2.2 (createIndex_mem_columnStatements hacceptable hmem)

/-- A migration drops indexes that the previous schema declares, of tables that go on. -/
theorem Acceptable.dropIndex_mem (h : Acceptable config prev next)
    (hmem : .dropIndex table column ∈ tableStatements prev.tables next.tables) :
    ∃ source, Continues prev next source table ∧ ⟨source, column⟩ ∈ prev.indexRefs := by
  obtain ⟨t, ht, hmem⟩ := List.mem_flatMap.1 hmem
  have hfits := (Changes.mem_turns_iff h.markers).1 ht
  have hacceptable := h.turn ht
  cases t with
  | create n declared => simp [Turn.tableStatements, Statement.creating] at hmem
  | move source target declared entity =>
    obtain ⟨harrives, hnext, hmarker, hprev⟩ := hfits
    obtain ⟨rfl, hindex⟩ := dropIndex_mem_columnStatements hacceptable
      (by simpa [Turn.tableStatements] using hmem)
    exact ⟨source, .inr (Changes.moves_iff.2 ⟨entity, harrives, hnext, hmarker⟩),
      Schema.mem_indexRefs_iff.2 ⟨declared, hprev, hindex⟩⟩
  | remove n declared => simp [Turn.tableStatements] at hmem
  | keep n declared entity =>
    obtain ⟨hplain, hprev, -⟩ := hfits
    obtain ⟨rfl, hindex⟩ := dropIndex_mem_columnStatements hacceptable hmem
    exact ⟨table, .inl ⟨hplain, rfl⟩, Schema.mem_indexRefs_iff.2 ⟨declared, hprev, hindex⟩⟩

end Migration

/-! ### Names that identify -/

/-- The names of the indexes of a schema tell them apart exactly if no two columns overlap. Exactly
then the schema can be created with all its indexes, and no index is dropped under the name of
another one. These are the indexes that migrations create on the way to the schema, and those that
they drop on the way from it. -/
theorem Schema.indexes_identified_iff (schema : Schema) :
    ((∀ ref ∈ schema.indexRefs, ∀ other ∈ schema.indexRefs, ref ≠ other →
      ref.indexName ≠ other.indexName) ↔ schema.IndexesApart) ∧
    ((LiveIndexes.none.run? schema.creationStatements).isSome ↔ schema.IndexesApart) ∧
    ((∀ ref ∈ schema.indexRefs, ∀ other ∈ schema.indexRefs, ref ≠ other →
      ∀ live live' : LiveIndexes, live.exec? (.dropIndex ref.table ref.column) = some live' →
        live' other.indexName = live other.indexName) ↔ schema.IndexesApart) ∧
    (∀ config prev migration, migrate config prev schema = .ok migration →
      ∀ table column definition, .createIndex table column definition ∈ migration.statements →
        ⟨table, column⟩ ∈ schema.indexRefs) ∧
    ∀ config next migration, migrate config schema next = .ok migration →
      ∀ table column, .dropIndex table column ∈ migration.statements →
        ∃ source, Continues schema next source table ∧ ⟨source, column⟩ ∈ schema.indexRefs := by
  have hdiffer : (∀ ref ∈ schema.indexRefs, ∀ other ∈ schema.indexRefs, ref ≠ other →
      ref.indexName ≠ other.indexName) ↔ schema.IndexesApart := by
    rw [← indexName_inj_iff]
    exact forall₄_congr fun ref _ other _ => not_imp_not
  refine ⟨hdiffer, ?_, ?_, ?_, ?_⟩
  · rw [LiveIndexes.isSome_run?_creationStatements_iff, nodup_indexNames_iff]
  · simp only [LiveIndexes.forall_dropIndex_iff, hdiffer]
  · intro config prev migration hmigrate table column definition hmem
    obtain ⟨hacceptable, rfl⟩ := migrate_eq_ok_iff.1 hmigrate
    exact hacceptable.createIndex_mem hmem
  · intro config next migration hmigrate table column hmem
    obtain ⟨hacceptable, rfl⟩ := migrate_eq_ok_iff.1 hmigrate
    exact hacceptable.dropIndex_mem hmem

/-- Two tables with a stored column and an index of it each. -/
def Schema.ofTwoIndexes (table index other otherIndex : String) : Schema :=
  let declaring (index : String) : Table :=
    ⟨.ofList [("x", ⟨.integer "", none⟩), (index, ⟨.index "x", none⟩)], none⟩
  ⟨.ofList [(table, declaring index), (other, declaring otherIndex)]⟩

/-- Underscores do no harm where the names cannot be divided in two ways. -/
theorem indexes_identified_apart :
    (Schema.ofTwoIndexes "a" "b_c" "a_c" "b").IndexesApart ∧
      (LiveIndexes.none.run? (Schema.ofTwoIndexes "a" "b_c" "a_c" "b").creationStatements).isSome ∧
      ∃ migration, migrate {} .empty (.ofTwoIndexes "a" "b_c" "a_c" "b") = .ok migration ∧
        .createIndex "a_c" "b" "x" ∈ migration.statements ∧
        ⟨"a_c", "b"⟩ ∈ (Schema.ofTwoIndexes "a" "b_c" "a_c" "b").indexRefs := by
  obtain ⟨hdiffer, hcreated, -, hdeclared, -⟩ :=
    Schema.indexes_identified_iff (.ofTwoIndexes "a" "b_c" "a_c" "b")
  have hapart := hdiffer.1 (by decide)
  have hmigrate : migrate {} .empty (.ofTwoIndexes "a" "b_c" "a_c" "b") = .ok
      ⟨(Schema.ofTwoIndexes "a" "b_c" "a_c" "b").creationStatements,
        .ofTwoIndexes "a" "b_c" "a_c" "b"⟩ := by
    decide
  have hcreate : .createIndex "a_c" "b" "x" ∈
      (Schema.ofTwoIndexes "a" "b_c" "a_c" "b").creationStatements := by
    decide
  exact ⟨hapart, hcreated.2 hapart, _, hmigrate, hcreate, hdeclared _ _ _ hmigrate _ _ _ hcreate⟩

/-- The index `b_c` of a table `a` and the index `c` of a table `a_b` are both called `a_b_c`. The
schema is valid and there is a migration to it, but it cannot be executed. -/
theorem not_identified_divided :
    (Schema.ofTwoIndexes "a" "b_c" "a_b" "c").validate = .ok () ∧
      ⟨"a", "b_c"⟩ ∈ (Schema.ofTwoIndexes "a" "b_c" "a_b" "c").indexRefs ∧
      ⟨"a_b", "c"⟩ ∈ (Schema.ofTwoIndexes "a" "b_c" "a_b" "c").indexRefs ∧
      indexName "a" "b_c" = indexName "a_b" "c" ∧
      ∃ migration, migrate {} .empty (.ofTwoIndexes "a" "b_c" "a_b" "c") = .ok migration ∧
        LiveIndexes.none.run? migration.statements = none := by
  refine ⟨by decide, by decide, by decide, by decide, _, rfl, ?_⟩
  rfl

end Schemata
