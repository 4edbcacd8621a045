import Schemata.Proofs.Migration.OneTurn
import Schemata.Proofs.Schema.Edits

/-!
# Removal in two steps

What holds data is removed in two migrations: the first gives it a name that says that it is
deprecated, the second drops it. Both always exist, with one statement that does it and no other,
whatever else the schema has. What has to change along with it is virtual, the relations to what
gets another name or goes and the aliases of it, and virtual columns change silently.

## Main definitions

* `deprecated`: the name that a table or column gets in order to be removed
* `InTwoSteps`: a migration and the one after it

## Main results

* `migrate_renameTable`, `migrate_dropTable`: a table gets another name, and is dropped
* `migrate_renameColumn`, `migrate_of_sheds`: so does a column, and is
* `migrate_inTwoSteps`: tables, stored columns and indexes can be removed in two steps
-/

namespace Schemata

open Changes (Departs)

/-! ### Edited tables -/

namespace Field

theorem canBecome_mapRefs (f : ColumnRef → ColumnRef) (field : Field) :
    field.CanBecome (field.mapRefs f) := by
  cases field with
  | relation r => exact .inr ⟨rfl, rfl⟩
  | atom _ | aliasTo _ | index _ | constraint _ => exact .inl rfl

theorem canBecome_mapTarget (f : String → String) (field : Field) :
    field.CanBecome (field.mapTarget f) := by
  cases field with
  | aliasTo target => exact .inr ⟨rfl, rfl⟩
  | atom _ | relation _ | index _ | constraint _ => exact .inl rfl

/-- An atom or an index refers to nothing. -/
theorem mapTarget_mapRefs {f : ColumnRef → ColumnRef} {g : String → String} {field : Field}
    (hkind : field.kind = .atom ∨ field.kind = .index) : (field.mapRefs f).mapTarget g = field := by
  cases field with
  | atom _ | index _ => rfl
  | relation _ | aliasTo _ | constraint _ => simp [kind] at hkind

theorem CanBecome.trans {a b c : Field} (h : a.CanBecome b) (h' : b.CanBecome c) :
    a.CanBecome c := by
  obtain rfl | ⟨ha, hb⟩ := h
  · exact h'
  · obtain rfl | ⟨-, hc⟩ := h'
    · exact .inr ⟨ha, hb⟩
    · exact .inr ⟨ha, hc⟩

end Field

section Edited

variable {before after : Table}

/-- Other references make a difference to virtual columns only. -/
theorem Table.ShrinksTo.of_mapRefs {f : ColumnRef → ColumnRef}
    (h : ∀ column, after.field? column = (before.field? column).map (Field.mapRefs f)) :
    before.ShrinksTo (fun _ field => field.isVirtual = true) after := by
  apply of_field?_eq_bind (g := fun _ field => some (field.mapRefs f))
  · intro column
    rw [h, Option.map_eq_bind]
    rfl
  · intro column field hnone
    cases hnone
  · rintro column field _ ⟨⟩
    exact field.canBecome_mapRefs f

/-- A filter that lets all stored columns pass takes virtual ones only. -/
theorem Table.ShrinksTo.of_filter {p : Field → Bool}
    (h : ∀ column, after.field? column = (before.field? column).filter p)
    (hp : ∀ {field}, p field = false → field.isVirtual = true) :
    before.ShrinksTo (fun _ field => field.isVirtual = true) after := by
  apply of_field?_eq_bind (g := fun _ field => if p field then some field else none)
  · intro column
    rw [h]
    cases before.field? column <;> rfl
  · intro column field hnone
    split_ifs at hnone with hkept
    exact hp (Bool.eq_false_iff.2 hkept)
  · intro column field field' hsome
    split_ifs at hsome
    exact .inl (Option.some.inj hsome)

/-- A table has lost the column, if that was one of its own, and else virtual ones. -/
theorem Schema.Sheds.shrinksTo {prev next : Schema} {ref : ColumnRef} (h : prev.Sheds ref next)
    {name : String} (hbefore : prev.table? name = some before)
    (hafter : next.table? name = some after) :
    before.ShrinksTo (fun column field => ⟨name, column⟩ = ref ∨ field.isVirtual = true) after where
  subset {column} hcolumn := by
    obtain ⟨kept, hkept⟩ := OrderedMap.mem_names_iff.1 hcolumn
    have hfield : next.field? ⟨name, column⟩ = some kept.field := by
      rw [field?_of_find? hafter, Table.field?_of_find? hkept]
    have hfield' := h.kept hfield
    rw [field?_of_find? hbefore] at hfield'
    exact Table.mem_names_of_field? hfield'
  gone {column field} hfield hcolumn := by
    apply h.lost
    · rwa [field?_of_find? hbefore]
    · rwa [field?_of_find? hafter, Table.field?_eq_none_iff]
  kept {column field field'} hfield hfield' := by
    rw [← field?_of_find? hbefore] at hfield
    rw [← field?_of_find? hafter] at hfield'
    exact .inl (Option.some.inj (hfield.symm.trans (h.kept hfield')))

end Edited

/-! ### A table -/

section OneTable

variable {config : MigrationConfig} {schema : Schema} {source target name : String}

theorem Schema.replaces_renameTable (hsource : source ∈ schema.tables.names)
    (htarget : target ∉ schema.tables.names) (hfree : isReserved target = false) :
    Changes.Replaces Table.renamedFrom schema.tables (schema.renameTable source target).tables
      source target := by
  obtain ⟨declared, hdeclared⟩ := mem_names_iff_table?.1 hsource
  have hfind := table?_renameTable source htarget
  have hfound : (schema.renameTable source target).table? target =
      some { declared.mapFields (Field.mapRefs (.retable source target)) with
        renamedFrom := some source } := by
    rw [hfind, if_pos rfl, hdeclared, Option.map_some]
  refine ⟨hsource, ⟨hfree, mem_names_iff_table?.2 ⟨_, hfound⟩, htarget⟩, ?_, ?_⟩
  · rw [← table?, hfound, Option.bind_some]
  · -- Of the other names only the old one has gone.
    intro name hname
    simp only [mem_names_iff_table?, hfind, if_neg hname]
    by_cases hother : name = source
    · simp [hother]
    · simp [hother]

/-- The tables that keep their names have other references only. -/
theorem Schema.shrinksTo_renameTable (htarget : target ∉ schema.tables.names) {before after : Table}
    (hbefore : schema.table? name = some before)
    (hafter : (schema.renameTable source target).table? name = some after) :
    before.ShrinksTo (fun _ field => field.isVirtual = true) after := by
  have hne : name ≠ target := by
    rintro rfl
    exact htarget (mem_names_iff_table?.2 ⟨before, hbefore⟩)
  rw [table?_renameTable _ htarget, if_neg hne] at hafter
  split_ifs at hafter
  rw [hbefore, Option.map_some] at hafter
  obtain rfl := Option.some.inj hafter
  exact .of_mapRefs (before.field?_mapFields _)

/-- So has the table that gets another name. -/
theorem Schema.shrinksTo_renameTable_target (htarget : target ∉ schema.tables.names)
    {before after : Table} (hbefore : schema.table? source = some before)
    (hafter : (schema.renameTable source target).table? target = some after) :
    before.ShrinksTo (fun _ field => field.isVirtual = true) after := by
  rw [table?_renameTable _ htarget, if_pos rfl, hbefore, Option.map_some] at hafter
  obtain rfl := Option.some.inj hafter
  exact .of_mapRefs (before.field?_mapFields _)

/-- A table can get another name, with what refers to it, and nothing else is done. -/
theorem migrate_renameTable (hvalid : schema.validate = .ok ()) (hplain : schema.HasPlainNames)
    (hsource : source ∈ schema.tables.names) (htarget : target ∉ schema.tables.names)
    (hfree : isReserved target = false)
    (hnext : (schema.renameTable source target).validate = .ok ()) :
    migrate config schema (schema.renameTable source target) =
      .ok ⟨[.renameTable source target], (schema.renameTable source target).canonical⟩ := by
  have hreplaces := Schema.replaces_renameTable hsource htarget hfree
  -- In the table itself and in all others only references are different, which is silent.
  apply migrate_eq_ok_iff.2
  constructor
  · apply hreplaces.acceptable hvalid hnext hplain
    · intro before after hbefore hafter
      exact (Schema.shrinksTo_renameTable_target htarget hbefore hafter).columnsAcceptable
        (fun _ => .inl) (hplain source before hbefore).2
    · intro name before after hbefore hafter
      exact (Schema.shrinksTo_renameTable htarget hbefore hafter).columnsAcceptable
        (fun _ => .inl) (hplain name before hbefore).2
  · rw [hreplaces.tableStatements_eq]
    · intro before after hbefore hafter
      exact (Schema.shrinksTo_renameTable_target htarget hbefore hafter).columnStatements_eq_nil
        id target
    · intro name before after hbefore hafter
      exact (Schema.shrinksTo_renameTable htarget hbefore hafter).columnStatements_eq_nil id name

/-- The tables that are left when one is dropped have lost relations only. -/
theorem Schema.shrinksTo_dropTable {other : String} {before after : Table}
    (hbefore : schema.canonical.table? other = some before)
    (hafter : (schema.dropTable name).table? other = some after) :
    before.ShrinksTo (fun _ field => field.isVirtual = true) after := by
  rw [table?_canonical, Option.map_eq_some_iff] at hbefore
  obtain ⟨declared, hdeclared, rfl⟩ := hbefore
  rw [table?_dropTable] at hafter
  split_ifs at hafter
  rw [hdeclared, Option.map_some] at hafter
  obtain rfl := Option.some.inj hafter
  apply Table.ShrinksTo.of_filter (p := fun field => !field.endsIn name)
  · intro column
    rw [Table.field?_canonical, Table.field?_filterFields]
  · intro field hends
    exact Field.isVirtual_of_endsIn (by simpa using hends)

theorem Schema.mem_names_dropTable_iff {other : String} :
    other ∈ (schema.dropTable name).tables.names ↔ other ∈ schema.tables.names ∧ other ≠ name := by
  simp only [mem_names_iff_table?, table?_dropTable]
  by_cases h : name = other
  · simp [h]
  · simp [h, Ne.symm h]

/-- A table that may go can be dropped, with the relations that end in it, and nothing else is
done. -/
theorem migrate_dropTable (hvalid : schema.validate = .ok ()) (hplain : schema.HasPlainNames)
    (hname : name ∈ schema.tables.names) (hdeprecated : config.isDeprecated name = true)
    (hlast : (schema.dropTable name).validate = .ok ()) :
    migrate config schema.canonical (schema.dropTable name) =
      .ok ⟨[.dropTable name], (schema.dropTable name).canonical⟩ := by
  have hprev : schema.canonical.tables.names = schema.tables.names := OrderedMap.names_map ..
  have hnames : ∀ other ∈ (schema.dropTable name).tables.names,
      other ∈ schema.canonical.tables.names := by
    intro other hother
    rw [hprev]
    exact (Schema.mem_names_dropTable_iff.1 hother).1
  have hdeparts {other : String} :
      Departs schema.canonical.tables (schema.dropTable name).tables other ↔ other = name := by
    simp only [Departs, hprev, Schema.mem_names_dropTable_iff]
    constructor
    · rintro ⟨-, hother, hlost⟩
      by_contra hne
      exact hlost ⟨hother, hne⟩
    · rintro rfl
      exact ⟨hplain.eq_false hname, hname, fun hkept => hkept.2 rfl⟩
  apply migrate_eq_ok_iff.2
  constructor
  · apply Acceptable.of_subset (Schema.validate_canonical hvalid) hlast hplain.canonical hnames
    · intro other hother
      rw [hdeparts.1 hother]
      exact hdeprecated
    · intro other before after hbefore hafter
      exact (Schema.shrinksTo_dropTable hbefore hafter).columnsAcceptable
        (fun _ => .inl) (hplain.canonical other before hbefore).2
  · rw [tableStatements_of_dropped hnames hdeparts]
    intro other before after hbefore hafter
    exact (Schema.shrinksTo_dropTable hbefore hafter).columnStatements_eq_nil id other

end OneTable

/-! ### A column -/

section OneColumn

variable {config : MigrationConfig} {schema : Schema} {declared : Table}
variable {table source target name : String}

theorem Table.replaces_renameColumn {f : Field → Field}
    (hsource : source ∈ declared.columns.names)
    (htarget : target ∉ declared.columns.names) (hfree : isReserved target = false) :
    Changes.Replaces Column.renamedFrom declared.columns
      ((declared.mapFields f).renameColumn source target).columns source target := by
  have hnames := names_mapFields f declared
  have hfind := (declared.mapFields f).find?_renameColumn source (hnames ▸ htarget)
  obtain ⟨column, hcolumn⟩ := OrderedMap.mem_names_iff.1 (hnames ▸ hsource)
  have hfound : ((declared.mapFields f).renameColumn source target).columns.find? target =
      some ⟨column.field.mapTarget (replaced source target), some source⟩ := by
    rw [hfind, if_pos rfl, hcolumn, Option.map_some]
  refine ⟨hsource, ⟨hfree, OrderedMap.mem_names_of_find? hfound, htarget⟩, ?_, ?_⟩
  · rw [hfound, Option.bind_some]
  · intro name hname
    rw [← hnames]
    simp only [OrderedMap.mem_names_iff, hfind, if_neg hname]
    by_cases hother : name = source
    · simp [hother]
    · simp [hother]

/-- The columns of a table of which one gets another name are acceptable, if that one is no
constraint. -/
theorem Table.columnsAcceptable_renameColumn {f : ColumnRef → ColumnRef} {field : Field}
    (hsource : declared.field? source = some field) (hkind : field.kind ≠ .constraint)
    (htarget : target ∉ declared.columns.names) (hfree : isReserved target = false)
    (hplain : ∀ column ∈ declared.columns.names, isReserved column = false) :
    ColumnsAcceptable config declared
      ((declared.mapFields (Field.mapRefs f)).renameColumn source target) := by
  have hreplaces := replaces_renameColumn (f := Field.mapRefs f) (mem_names_of_field? hsource)
    htarget hfree
  have hbecome (field : Field) :
      field.CanBecome ((field.mapRefs f).mapTarget (replaced source target)) :=
    (field.canBecome_mapRefs f).trans ((field.mapRefs f).canBecome_mapTarget _)
  have hfield := (declared.mapFields (Field.mapRefs f)).field?_renameColumn source
    (names_mapFields (Field.mapRefs f) declared ▸ htarget)
  simp only [field?_mapFields, Option.map_map] at hfield
  apply hreplaces.columnsAcceptable
  · intro other hother
    obtain rfl : field = other := Option.some.inj (hsource.symm.trans hother)
    exact hkind
  · intro before after hbefore hafter
    rw [hfield, if_pos rfl, hbefore, Option.map_some] at hafter
    obtain rfl := Option.some.inj hafter
    exact hbecome before
  · intro column before after hbefore hafter
    have hne : column ≠ target := by
      rintro rfl
      exact htarget (mem_names_of_field? hbefore)
    rw [hfield, if_neg hne] at hafter
    split_ifs at hafter
    rw [hbefore, Option.map_some] at hafter
    obtain rfl := Option.some.inj hafter
    exact hbecome before
  · exact hplain

theorem Schema.mem_names_renameColumn_iff :
    name ∈ (schema.renameColumn table source target).tables.names ↔
      name ∈ schema.tables.names := by
  simp only [mem_names_iff_table?, table?_renameColumn]
  by_cases h : table = name
  · simp [h]
  · simp [h]

/-- The other tables have other references only. -/
theorem Schema.shrinksTo_renameColumn {before after : Table} (hne : name ≠ table)
    (hbefore : schema.table? name = some before)
    (hafter : (schema.renameColumn table source target).table? name = some after) :
    before.ShrinksTo (fun _ field => field.isVirtual = true) after := by
  rw [table?_renameColumn, if_neg hne.symm, hbefore, Option.map_some] at hafter
  obtain rfl := Option.some.inj hafter
  exact .of_mapRefs (before.field?_mapFields _)

/-- A column that is no constraint can get another name, with what refers to it, and nothing else is
done. -/
theorem migrate_renameColumn {column : Column} (hvalid : schema.validate = .ok ())
    (hplain : schema.HasPlainNames) (hdeclared : schema.table? table = some declared)
    (hcolumn : declared.columns.find? source = some column)
    (hkind : column.field.kind ≠ .constraint) (htarget : target ∉ declared.columns.names)
    (hfree : isReserved target = false)
    (hnext : (schema.renameColumn table source target).validate = .ok ()) :
    migrate config schema (schema.renameColumn table source target) =
      .ok ⟨(Plan.renaming? table source target column.field).getD [],
        (schema.renameColumn table source target).canonical⟩ := by
  have hafter : (schema.renameColumn table source target).table? table = some
      ((declared.mapFields (Field.mapRefs (.redirect ⟨table, source⟩ ⟨table, target⟩))).renameColumn
        source target) := by
    rw [Schema.table?_renameColumn, if_pos rfl, hdeclared, Option.map_some]
  have hnames (n : String) : n ∈ schema.tables.names ↔
      n ∈ (schema.renameColumn table source target).tables.names :=
    Schema.mem_names_renameColumn_iff.symm
  apply migrate_eq_ok_iff.2
  constructor
  · apply Acceptable.of_subset hvalid hnext hplain fun n => (hnames n).2
    · intro n hdeparts
      exact absurd ((hnames n).1 hdeparts.2.1) hdeparts.2.2
    · intro n before after hbefore hafter'
      by_cases hn : n = table
      · subst hn
        obtain rfl := Option.some.inj (hdeclared.symm.trans hbefore)
        obtain rfl := Option.some.inj (hafter.symm.trans hafter')
        exact Table.columnsAcceptable_renameColumn (Table.field?_of_find? hcolumn) hkind htarget
          hfree (hplain n declared hdeclared).2
      · exact (Schema.shrinksTo_renameColumn hn hbefore hafter').columnsAcceptable
          (fun _ => .inl) (hplain n before hbefore).2
  · -- The references that are redirected are those of virtual columns, which have no statements.
    have hreplaces := Table.replaces_renameColumn
      (f := Field.mapRefs (.redirect ⟨table, source⟩ ⟨table, target⟩))
      (OrderedMap.mem_names_of_find? hcolumn) htarget hfree
    obtain ⟨entity, hentity⟩ := OrderedMap.mem_names_iff.1 hreplaces.arrives.2.1
    rw [tableStatements_of_kept hnames (hplain table declared hdeclared).1 hdeclared hafter,
      hreplaces.columnStatements_eq hcolumn hentity]
    intro n before after hn hbefore hafter'
    exact (Schema.shrinksTo_renameColumn hn hbefore hafter').columnStatements_eq_nil id n

/-- An atom or an index refers to nothing, so under its new name it is what it was. -/
theorem Schema.exists_renamedColumn {column : Column}
    (hdeclared : schema.table? table = some declared)
    (hcolumn : declared.columns.find? source = some column)
    (hkind : column.field.kind = .atom ∨ column.field.kind = .index)
    (htarget : target ∉ declared.columns.names) :
    ∃ moved, (schema.renameColumn table source target).canonical.table? table = some moved ∧
      moved.columns.find? target = some ⟨column.field, none⟩ := by
  refine ⟨((declared.mapFields (Field.mapRefs (.redirect ⟨table, source⟩
    ⟨table, target⟩))).renameColumn source target).canonical, ?_, ?_⟩
  · rw [table?_canonical, table?_renameColumn, if_pos rfl, hdeclared, Option.map_some,
      Option.map_some]
  · rw [Table.canonical, OrderedMap.find?_map,
      Table.find?_renameColumn _ _ (Table.names_mapFields _ declared ▸ htarget), if_pos rfl,
      Table.mapFields, OrderedMap.find?_map, hcolumn, Option.map_some, Option.map_some,
      Option.map_some, Field.mapTarget_mapRefs hkind]
    rfl

/-- An atom or an index that may go can be dropped, with virtual columns, and nothing else is
done. -/
theorem migrate_of_sheds {prev last : Schema} {column : Column} (hvalid : prev.validate = .ok ())
    (hplain : prev.HasPlainNames) (hdeclared : prev.table? table = some declared)
    (hcolumn : declared.columns.find? name = some column)
    (hkind : column.field.kind = .atom ∨ column.field.kind = .index)
    (hdeprecated : config.isDeprecated name = true) (hsheds : prev.Sheds ⟨table, name⟩ last)
    (hlast : last.validate = .ok ()) :
    migrate config prev last =
      .ok ⟨(Plan.removal? table name column.field).getD [], last.canonical⟩ := by
  obtain ⟨after, hafter⟩ := Schema.mem_names_iff_table?.1
    (hsheds.mem_names_iff.2 (OrderedMap.mem_names_of_find? hdeclared))
  apply migrate_eq_ok_iff.2
  constructor
  · apply Acceptable.of_subset hvalid hlast hplain fun n => hsheds.mem_names_iff.1
    · intro n hdeparts
      exact absurd (hsheds.mem_names_iff.2 hdeparts.2.1) hdeparts.2.2
    · intro n before kept hbefore hkept
      apply (hsheds.shrinksTo hbefore hkept).columnsAcceptable _ (hplain n before hbefore).2
      rintro c field hfield (href | hvirtual)
      · -- The column itself is no virtual one, so it needs leave.
        obtain ⟨rfl, rfl⟩ := ColumnRef.mk.inj href
        obtain rfl : declared = before := Option.some.inj (hdeclared.symm.trans hbefore)
        rw [Table.field?_of_find? hcolumn] at hfield
        obtain rfl := Option.some.inj hfield
        exact .inr ⟨hkind, hdeprecated⟩
      · exact .inl hvirtual
  · have hdeparts : Departs declared.columns after.columns name := by
      refine ⟨(hplain table declared hdeclared).2 name (OrderedMap.mem_names_of_find? hcolumn),
        OrderedMap.mem_names_of_find? hcolumn, ?_⟩
      rw [← Table.field?_eq_none_iff, ← Schema.field?_of_find? hafter]
      exact hsheds.gone
    -- No other table has lost more than virtual columns, and of this one the column counts.
    rw [tableStatements_of_kept (fun n => hsheds.mem_names_iff.symm)
        (hplain table declared hdeclared).1 hdeclared hafter,
      (hsheds.shrinksTo hdeclared hafter).columnStatements_eq _ hdeparts hcolumn]
    · intro c field hgone hne
      exact hgone.resolve_left fun href => hne (ColumnRef.mk.inj href).2
    · intro n before kept hn hbefore hkept
      apply (hsheds.shrinksTo hbefore hkept).columnStatements_eq_nil
      intro c field hgone
      exact hgone.resolve_left fun href => hn (ColumnRef.mk.inj href).1

end OneColumn

/-! ### Both steps -/

section Steps

/-- The name that a table or column gets in order to be removed. -/
def deprecated (name : String) : String := "deprecated_" ++ name

/-- By default such a name gives leave. -/
theorem isDeprecated_deprecated (name : String) :
    ({} : MigrationConfig).isDeprecated (deprecated name) = true := by
  have hstart : Text.startsWith (Text.asciiLower (deprecated name)) (Text.asciiLower "depr") := by
    rw [Text.startsWith_iff]
    refine ⟨"ecated_".toList ++ name.toList.map Char.toLower, ?_⟩
    simp [deprecated, Text.asciiLower]
  simpa [MigrationConfig.isDeprecated] using hstart

/-- No such name is reserved. -/
theorem isReserved_deprecated (name : String) : isReserved (deprecated name) = false := by
  simp [isReserved, reservedStart, deprecated, Text.startsWith, List.isPrefixOf]

variable {schema : Schema} {source target : String}

theorem Schema.HasPlainNames.renameTable (h : schema.HasPlainNames)
    (htarget : target ∉ schema.tables.names) (hfree : isReserved target = false) :
    (schema.renameTable source target).HasPlainNames := by
  intro name table htable
  rw [table?_renameTable _ htarget] at htable
  split_ifs at htable with hname
  · obtain ⟨declared, hdeclared, rfl⟩ := Option.map_eq_some_iff.1 htable
    rw [hname]
    refine ⟨hfree, ?_⟩
    intro column hcolumn
    rw [Table.names_mapFields] at hcolumn
    exact (h source declared hdeclared).2 column hcolumn
  · obtain ⟨declared, hdeclared, rfl⟩ := Option.map_eq_some_iff.1 htable
    rw [Table.names_mapFields]
    exact h name declared hdeclared

theorem Schema.HasPlainNames.renameColumn {table : String} {declared : Table}
    (h : schema.HasPlainNames) (hdeclared : schema.table? table = some declared)
    (htarget : target ∉ declared.columns.names) (hfree : isReserved target = false) :
    (schema.renameColumn table source target).HasPlainNames := by
  intro name after hafter
  rw [table?_renameColumn] at hafter
  split_ifs at hafter with hname
  · subst hname
    rw [hdeclared, Option.map_some] at hafter
    obtain rfl := Option.some.inj hafter
    refine ⟨(h table declared hdeclared).1, ?_⟩
    intro column hcolumn
    by_cases hnew : column = target
    · rw [hnew]
      exact hfree
    · -- Every other name was there before.
      refine (h table declared hdeclared).2 column ?_
      rw [← Decidable.not_not (p := column ∈ _), ← Table.field?_eq_none_iff] at hcolumn ⊢
      rw [Table.field?_renameColumn _ _ (Table.names_mapFields _ declared ▸ htarget), if_neg hnew,
        Table.field?_mapFields] at hcolumn
      intro hnone
      simp [hnone] at hcolumn
  · obtain ⟨before, hbefore, rfl⟩ := Option.map_eq_some_iff.1 hafter
    rw [Table.names_mapFields]
    exact h name before hbefore

/-- There is a migration to the next schema, and from what it reaches one to the last schema, by
default and with these statements. -/
def InTwoSteps (prev next last : Schema) (first second : List Statement) : Prop :=
  ∃ migration, migrate {} prev next = .ok migration ∧ migration.statements = first ∧
    ∃ migration', migrate {} migration.schema last = .ok migration' ∧
      migration'.statements = second

/-- What kind of column is removed in two steps only tells which statements there are. -/
theorem inTwoSteps_of_sheds {table name : String} {declared : Table} {field : Field} {last : Schema}
    (hvalid : schema.validate = .ok ()) (hplain : schema.HasPlainNames)
    (hdeclared : schema.table? table = some declared) (hfield : declared.field? name = some field)
    (hkind : field.kind = .atom ∨ field.kind = .index)
    (htarget : deprecated name ∉ declared.columns.names)
    (hnext : (schema.renameColumn table name (deprecated name)).validate = .ok ())
    (hsheds : (schema.renameColumn table name (deprecated name)).Sheds
      ⟨table, deprecated name⟩ last)
    (hlast : last.validate = .ok ()) :
    InTwoSteps schema (schema.renameColumn table name (deprecated name)) last
      ((Plan.renaming? table name (deprecated name) field).getD [])
      ((Plan.removal? table (deprecated name) field).getD []) := by
  have hfree := isReserved_deprecated name
  obtain ⟨column, hcolumn, rfl⟩ := Option.map_eq_some_iff.1 hfield
  have hstored : column.field.kind ≠ .constraint := by
    rcases hkind with hkind | hkind <;> simp [hkind]
  obtain ⟨moved, htable, hmoved⟩ := Schema.exists_renamedColumn hdeclared hcolumn hkind htarget
  exact ⟨_, migrate_renameColumn hvalid hplain hdeclared hcolumn hstored htarget hfree hnext,
    rfl, _, migrate_of_sheds (Schema.validate_canonical hnext)
      (hplain.renameColumn hdeclared htarget hfree).canonical htable hmoved hkind
      (isDeprecated_deprecated name) hsheds.canonical hlast, rfl⟩

/-- What holds data can be removed in two steps. In a valid schema without reserved names a table
can be given the name that says that it is deprecated, with all relations to and from it, and then
be dropped with those that end in it. So can an atom or an index, with the relations and aliases
that refer to it, and with the aliases of these. Each of the steps is a migration as soon as the
schema it leads to is valid, and it consists of the one renaming and of the one removal. -/
theorem migrate_inTwoSteps (hvalid : schema.validate = .ok ()) (hplain : schema.HasPlainNames) :
    (∀ name next last, name ∈ schema.tables.names → deprecated name ∉ schema.tables.names →
      next = schema.renameTable name (deprecated name) →
      last = next.dropTable (deprecated name) →
      next.validate = .ok () → last.validate = .ok () →
        InTwoSteps schema next last [.renameTable name (deprecated name)]
          [.dropTable (deprecated name)]) ∧
    ∀ table declared name next last, schema.table? table = some declared →
      deprecated name ∉ declared.columns.names →
      next = schema.renameColumn table name (deprecated name) →
      next.Sheds ⟨table, deprecated name⟩ last →
      next.validate = .ok () → last.validate = .ok () →
        (∀ a, declared.field? name = some (.atom a) →
          InTwoSteps schema next last [.renameColumn table name (deprecated name)]
            [.dropColumn table (deprecated name)]) ∧
        ∀ definition, declared.field? name = some (.index definition) →
          InTwoSteps schema next last
            [.dropIndex table name, .createIndex table (deprecated name) definition]
            [.dropIndex table (deprecated name)] := by
  constructor
  · rintro name _ _ hname htarget rfl rfl hnext hlast
    have hfree := isReserved_deprecated name
    have hreplaces := Schema.replaces_renameTable hname htarget hfree
    exact ⟨_, migrate_renameTable hvalid hplain hname htarget hfree hnext, rfl, _,
      migrate_dropTable hnext (hplain.renameTable htarget hfree) hreplaces.arrives.2.1
        (isDeprecated_deprecated name) hlast, rfl⟩
  · rintro table declared name _ last hdeclared htarget rfl hsheds hnext hlast
    constructor
    · intro a ha
      exact inTwoSteps_of_sheds hvalid hplain hdeclared ha (.inl rfl) htarget hnext hsheds hlast
    · intro definition hdefinition
      exact inTwoSteps_of_sheds hvalid hplain hdeclared hdefinition (.inr rfl) htarget hnext hsheds
        hlast

/-- Users, with an alias, an index, a constraint and a relation to their own table, and posts that
relate to them. -/
def Schema.withAuthors : Schema :=
  ⟨.ofList
    [("User", ⟨.ofList [("id", ⟨.integer "", none⟩), ("boss", ⟨.integer "", none⟩),
        ("key", ⟨.aliasTo "id", none⟩), ("chief", ⟨.between .one "User.boss" "User.id", none⟩),
        ("once", ⟨.constraint "UNIQUE (id)", none⟩), ("by_boss", ⟨.index "boss", none⟩)], none⟩),
      ("Post", ⟨.ofList [("by", ⟨.integer "", none⟩),
        ("author", ⟨.between .one "Post.by" "User.id", none⟩)], none⟩)]⟩

/-- The users can be removed, their identity alone, and the index alone. -/
theorem migrate_inTwoSteps_authors :
    let users := Schema.withAuthors.renameTable "User" "deprecated_User"
    let ids := Schema.withAuthors.renameColumn "User" "id" "deprecated_id"
    let indexes := Schema.withAuthors.renameColumn "User" "by_boss" "deprecated_by_boss"
    InTwoSteps .withAuthors users (users.dropTable "deprecated_User")
        [.renameTable "User" "deprecated_User"] [.dropTable "deprecated_User"] ∧
      InTwoSteps .withAuthors ids (ids.dropColumn "User" "deprecated_id")
        [.renameColumn "User" "id" "deprecated_id"] [.dropColumn "User" "deprecated_id"] ∧
      InTwoSteps .withAuthors indexes (indexes.dropColumn "User" "deprecated_by_boss")
        [.dropIndex "User" "by_boss", .createIndex "User" "deprecated_by_boss" "boss"]
        [.dropIndex "User" "deprecated_by_boss"] := by
  have hplain : Schema.withAuthors.HasPlainNames := by
    decide
  obtain ⟨htables, hcolumns⟩ := migrate_inTwoSteps (by decide) hplain
  refine ⟨?_, ?_, ?_⟩
  · exact htables "User" _ _ (by decide) (by decide) rfl rfl (by decide) (by decide)
  · exact (hcolumns "User" _ "id" _ _ rfl (by decide) rfl (Schema.sheds_dropColumn ..) (by decide)
      (by decide)).1 _ rfl
  · exact (hcolumns "User" _ "by_boss" _ _ rfl (by decide) rfl (Schema.sheds_dropColumn ..)
      (by decide) (by decide)).2 _ rfl

end Steps

end Schemata
