import Schemata.Proofs.Schema.OfSql
import Schemata.Proofs.Schema.Validity
import Schemata.Proofs.Sql.Tables

/-!
# Generated statements are read back

A text of SQL statements gives a schema of stored columns. If that schema is valid, its tables can be
created, and the statements that create them are a text of their own. It gives the same schema again
if the definition of every column does: the names of a valid schema are words in every dialect, and a
repeated column or table is not repeated any more.

The definition of a column is written from what was read, and most definitions are read as they are
written. But names are written without quotes, so that the name of a column may become the beginning
of a constraint; signs are written right before what they belong to, so that two of them may become a
comment; and texts are written without their escapes.

## Main definitions

* `Schema.creation`: the statements that create the tables of a schema, as one text
* `Atom.ReadsBack`: the definition of a column is read back
* `LosesSchema`: the schema of a text is not read back
* `Table.MadeOf`: a table is made of columns that are read back

## Main results

* `Sql.ColumnDefinition.IsPlain.readsBack`: definitions in plain SQL are read back
* `Schema.creation_reads_back`: the schema of a text is read back from the statements that create it,
  if the definitions of its columns are
* `ofSql_creation_quotedCheck`: but not if a column is called by the keyword `check`, or a default
  begins with two signs
-/

namespace Schemata

variable {dialect : Dialect} {text : String} {schema : Schema}

/-- The statements that create the tables of a schema, one right behind the other. -/
def Schema.creation (schema : Schema) : String :=
  String.join ((schema.tables.entries.flatMap fun (name, table) =>
    Statement.creating name table).map Statement.render)

/-- An identifier is a word in every dialect. -/
theorem isWord_of_isIdentifier {name : String} (h : isIdentifier name) :
    Sql.isWord dialect name := by
  apply Sql.isWord_of_isAsciiWord
  simp only [isIdentifier, Bool.and_eq_true, Bool.not_eq_true', List.isEmpty_eq_false_iff,
    List.all_eq_true, Bool.or_eq_true, beq_iff_eq] at h
  unfold Sql.isAsciiWord
  cases hname : name.toList with
  | nil => exact absurd hname h.1
  | cons c cs =>
    rw [hname, List.forall_mem_cons] at h
    simpa [h.2.1] using fun d hd => Or.inl (h.2.2 d hd)

theorem Statement.render_createTable (name : String) (columns : List (String × Atom))
    (constraints : List (String × String)) :
    (createTable name columns constraints).render =
      "CREATE TABLE " ++ name ++ " (\n\t" ++ String.intercalate ",\n\t"
        (columns.map (fun (column, atom) => columnDefinition column atom) ++
          constraints.map fun (column, definition) => "CONSTRAINT " ++ column ++ " " ++ definition) ++
            "\n);" :=
  rfl

/-- A table whose columns are all stored is created by one statement. -/
theorem Table.creating_eq {table : Table} {name : String}
    {columns : List (Sql.ColumnDefinition × Sql.DataType)}
    (h : table.columns.entries = columns.map fun column => (column.1.name, .stored column.1 column.2)) :
    (Statement.creating name table).map Statement.render =
      ["CREATE TABLE " ++ name ++ " (\n\t" ++
        String.intercalate ",\n\t" (columns.map fun column => column.1.render column.2) ++ "\n);"] := by
  have hatoms : table.atoms =
      columns.map fun column => (column.1.name, .ofDefinition column.1 column.2) := by
    rw [Table.atoms, h, List.filterMap_map, ← List.filterMap_eq_map]
    rfl
  have hconstraints : table.constraints = [] := by
    rw [Table.constraints, h, List.filterMap_map, List.filterMap_eq_nil_iff]
    simp [Column.stored]
  have hindexes : table.indexes = [] := by
    rw [Table.indexes, h, List.filterMap_map, List.filterMap_eq_nil_iff]
    simp [Column.stored]
  have hparts : (columns.map fun column => (column.1.name, Atom.ofDefinition column.1 column.2)).map
      (fun (column, atom) => Statement.columnDefinition column atom) =
        columns.map fun column => column.1.render column.2 := by
    rw [List.map_map]
    rfl
  rw [Statement.creating, hatoms, hconstraints, hindexes, List.map_nil, List.map_singleton,
    Statement.render_createTable, hparts, List.map_nil, List.append_nil]

/-- The definition that is written for a column is read back: there is a column of the name that gives
the atom, and it is taken from the tokens of what is written. -/
def Atom.ReadsBack (dialect : Dialect) (name : String) (atom : Atom) : Prop :=
  ∃ (column : Sql.ColumnDefinition) (type : Sql.DataType) (tokens : List Sql.Token),
    column.name = name ∧ column.type = some type ∧ Atom.ofDefinition column type = atom ∧
      column.ReadFrom dialect type tokens

/-- Definitions in plain SQL are read back. -/
theorem Sql.ColumnDefinition.IsPlain.readsBack {column : ColumnDefinition} {type : DataType}
    (h : column.IsPlain dialect) (hname : isIdentifier column.name) (htype : column.type = some type) :
    (Atom.ofDefinition column type).ReadsBack dialect column.name := by
  obtain ⟨tokens, htokens⟩ := h.exists_readFrom (isWord_of_isIdentifier hname) htype
  exact ⟨column, type, tokens, rfl, htype, rfl, htokens⟩

/-- A table is made of the columns, and these are read back. -/
structure Table.MadeOf (dialect : Dialect) (table : Table)
    (columns : List (Sql.ColumnDefinition × Sql.DataType)) : Prop where
  /-- They are its columns. -/
  entries : table.columns.entries = columns.map fun column => (column.1.name, .stored column.1 column.2)
  /-- It has no marker. -/
  unmarked : table.renamedFrom = none
  /-- They have types. -/
  types : ∀ column ∈ columns, column.1.type = some column.2
  /-- They are read back. -/
  reads : ∀ column ∈ columns, ∃ tokens, column.1.ReadFrom dialect column.2 tokens

/-- A table is read from the definition of its columns. -/
theorem Table.MadeOf.ofDefinition_eq {table : Table}
    {columns : List (Sql.ColumnDefinition × Sql.DataType)} (h : table.MadeOf dialect columns)
    (name : String) : Table.ofDefinition (.of name (columns.map Prod.fst)) = .ok table := by
  rw [Table.ofDefinition_eq_ok_iff]
  refine ⟨table.columns.entries, ?_, ?_⟩
  · rw [h.entries]
    simp only [Sql.TableDefinition.of, List.forall₂_map_left_iff, List.forall₂_map_right_iff,
      List.forall₂_same]
    intro column hcolumn
    exact ⟨trivial, Column.ofDefinition_eq_ok_iff.2 ⟨column.2, h.types column hcolumn, rfl⟩⟩
  · rw [OrderedMap.ofList_entries, ← h.unmarked]

/-- A field of a table in the order of the entries is the field of its reference. -/
theorem Schema.field?_of_mem {name : String} {table : Table} {column : String × Column}
    (htable : (name, table) ∈ schema.tables.entries) (hcolumn : column ∈ table.columns.entries) :
    schema.field? ⟨name, column.1⟩ = some column.2.field := by
  rw [Schema.field?_of_find? (OrderedMap.mem_entries_iff.1 htable)]
  exact Table.field?_of_find? (OrderedMap.mem_entries_iff.1 hcolumn)

/-- Every table of the schema of a text is made of columns that are read back, if its atoms are. -/
theorem Schema.exists_madeOf (h : Schema.ofSql dialect text = .ok schema)
    (hreads : ∀ ref atom, schema.field? ref = some (.atom atom) → atom.ReadsBack dialect ref.column) :
    ∀ e ∈ schema.tables.entries, ∃ columns, e.2.MadeOf dialect columns := by
  obtain ⟨definitions, hdefinitions, -⟩ := Schema.ofSql_eq_ok_iff.1 h
  intro e he
  obtain ⟨definition, -, -, htable⟩ := Schema.exists_definition h hdefinitions e he
  obtain ⟨stored, -, hstored⟩ := Table.exists_columns htable
  have hmarker : e.2.renamedFrom = none := by
    obtain ⟨es, -, heq⟩ := Table.ofDefinition_eq_ok_iff.1 htable
    rw [← heq]
  -- What is read back need not be what was read, but it is written in the same way.
  have hall : ∀ entry ∈ e.2.columns.entries, ∃ column : Sql.ColumnDefinition × Sql.DataType,
      (column.1.type = some column.2 ∧ ∃ tokens, column.1.ReadFrom dialect column.2 tokens) ∧
        (column.1.name, Column.stored column.1 column.2) = entry := by
    intro entry hentry
    have hfield := Schema.field?_of_mem he hentry
    rw [hstored] at hentry
    obtain ⟨source, -, rfl⟩ := List.mem_map.1 hentry
    obtain ⟨column, type, tokens, hname, htype, hatom, hread⟩ := hreads _ _ hfield
    exact ⟨(column, type), ⟨htype, tokens, hread⟩, by simp [Column.stored, hname, hatom]⟩
  obtain ⟨columns, hcolumns, hentries⟩ := exists_map_eq hall
  exact ⟨columns, hentries.symm, hmarker, fun column hcolumn => (hcolumns column hcolumn).1,
    fun column hcolumn => (hcolumns column hcolumn).2⟩

/-- What was read from a text is read back from the statements that create it. -/
theorem Schema.ofSql_creation (h : Schema.ofSql dialect text = .ok schema)
    (hvalid : schema.validate = .ok ())
    (hreads : ∀ ref atom, schema.field? ref = some (.atom atom) → atom.ReadsBack dialect ref.column) :
    Schema.ofSql dialect schema.creation = .ok schema := by
  have hvalid := Schema.validate_eq_ok_iff_isValid.1 hvalid
  have hmade := Schema.exists_madeOf h hreads
  choose! columns hcolumns using hmade
  have hread : ∀ e ∈ schema.tables.entries, ∃ tokens,
      (Sql.TableDefinition.of e.1 ((columns e).map Prod.fst)).ReadFrom dialect
        ("CREATE TABLE " ++ e.1 ++ " (\n\t" ++ String.intercalate ",\n\t"
          ((columns e).map fun column => column.1.render column.2) ++ "\n);") tokens := by
    intro e he
    apply Sql.exists_creation _ (hcolumns e he).reads
    exact isWord_of_isIdentifier (hvalid.table_name (OrderedMap.mem_entries_iff.1 he))
  have htext : schema.creation = String.join (schema.tables.entries.map fun e =>
      "CREATE TABLE " ++ e.1 ++ " (\n\t" ++ String.intercalate ",\n\t"
        ((columns e).map fun column => column.1.render column.2) ++ "\n);") := by
    rw [Schema.creation, List.map_flatMap, List.map_eq_flatMap]
    congr 1
    exact List.flatMap_congr fun e he => Table.creating_eq (hcolumns e he).entries
  rw [Schema.ofSql_eq_ok_iff, htext]
  refine ⟨_, Sql.tableDefinitions?_join _ _ hread, schema.tables.entries, ?_, ?_⟩
  · rw [List.forall₂_map_left_iff, List.forall₂_same]
    exact fun e he => ⟨rfl, (hcolumns e he).ofDefinition_eq e.1⟩
  · rw [OrderedMap.ofList_entries]

/-- The atoms of the schema of a text come from the definitions of columns in it. Those of plain
definitions are read back. -/
theorem Schema.exists_source {definitions : List Sql.TableDefinition}
    (hdefinitions : Sql.tableDefinitions? dialect text = some definitions)
    (h : Schema.ofSql dialect text = .ok schema) (hvalid : schema.validate = .ok ()) {ref : ColumnRef}
    {atom : Atom} (hfield : schema.field? ref = some (.atom atom)) :
    ∃ definition ∈ definitions, ∃ column ∈ definition.columns, ∃ type,
      definition.name = ref.table ∧ column.name = ref.column ∧ column.type = some type ∧
        Atom.ofDefinition column type = atom ∧
        (column.IsPlain dialect → atom.ReadsBack dialect ref.column) := by
  have hname := (Schema.validate_eq_ok_iff_isValid.1 hvalid).column_name hfield
  obtain ⟨table, htable, hinTable⟩ := Option.bind_eq_some_iff.1 hfield
  obtain ⟨column, hcolumn, hatom⟩ := Option.map_eq_some_iff.1 hinTable
  obtain ⟨definition, hdefinition, htableName, hof⟩ :=
    Schema.exists_definition h hdefinitions _ (OrderedMap.mem_entries_iff.2 htable)
  obtain ⟨columns, hcolumns, hentries⟩ := Table.exists_columns hof
  have hmem := OrderedMap.mem_entries_iff.2 hcolumn
  rw [hentries] at hmem
  obtain ⟨source, hsource, heq⟩ := List.mem_map.1 hmem
  obtain ⟨hsourceName, rfl⟩ := Prod.mk.inj heq
  obtain ⟨hdefined, htype⟩ := hcolumns source hsource
  obtain rfl : Atom.ofDefinition source.1 source.2 = atom := by simpa [Column.stored] using hatom
  refine ⟨definition, hdefinition, source.1, hdefined, source.2, htableName, hsourceName, htype, rfl,
    fun hplain => ?_⟩
  rw [← hsourceName] at hname ⊢
  exact hplain.readsBack hname htype

/-- The statements that create the tables of the schema of a text do not give it again, although it is
valid. -/
def LosesSchema (dialect : Dialect) (text : String) : Prop :=
  ∃ schema ∈ (Schema.ofSql dialect text).toOption,
    schema.validate = .ok () ∧ Schema.ofSql dialect schema.creation ≠ .ok schema

instance (dialect : Dialect) (text : String) : Decidable (LosesSchema dialect text) :=
  inferInstanceAs (Decidable (∃ schema ∈ (Schema.ofSql dialect text).toOption, _))

/-- A text with a column whose name has to stand in quotes. -/
def quotedCheck : String := "CREATE TABLE t (\"check\" INTEGER);"

/-- Its schema. -/
def quotedCheckSchema : Schema :=
  Schema.empty.insertTable "t" (Table.empty.insertColumn "check"
    ⟨.atom ⟨"INTEGER", .number, ""⟩, none⟩)

section Members

open Sql

/-- What stands for a member: its number, or the state where there is none. -/
def labelExpr : Expr :=
  .phrase (choiceParts none
    [(.binary (.name [⟨"members", none⟩, ⟨"id", none⟩]) ">" (.marked "-" (.verbatim "1")),
      .known "CAST" [.phrase [.name [⟨"id", none⟩], .verbatim "AS", .verbatim "CHAR"]])]
    (some (.name [⟨"state", none⟩])))

/-- The columns of a table with a comment, a default and a computed value. -/
def memberColumns : List (ColumnDefinition × DataType) :=
  [(⟨"id", some (.known "INTEGER" [] ""), [⟨none, .primaryKey {}⟩,
      ⟨none, .words ("COMMENT " ++ quoted '\'' "number")⟩]⟩, .known "INTEGER" [] ""),
    (⟨"state", some (.listed "ENUM" ["'on'", "'off'"]), [⟨none, .notNull⟩,
      ⟨none, .default (.string "on" '\'')⟩]⟩, .listed "ENUM" ["'on'", "'off'"]),
    (⟨"label", some (.known "VARCHAR" ["8"] ""), [⟨none, .generated "AS " labelExpr " STORED"⟩]⟩,
      .known "VARCHAR" ["8"] "")]

theorem isFree_memberName {text : String} (h : text ∈ ["members", "id", "state"]) :
    Name.IsFree .mysql ⟨text, none⟩ := by
  have hall : ∀ text ∈ ["members", "id", "state"], isWord .mysql text ∧
      ∀ word ∈ formWords .mysql ++ openingWords, (Token.word text none).isKeyword word = false := by
    decide +kernel
  exact ⟨(hall text h).1, (hall text h).2⟩

theorem isPlain_labelExpr : labelExpr.IsPlain .mysql (.expression 0 0) (Sql.maxNesting - 2) := by
  have hchar : (DataType.known "CHAR" [] "").IsPlain .mysql :=
    @DataType.IsPlain.known _ ⟨"CHAR", "CHAR",
      [(["VARYING"], .length), (["LARGE", "OBJECT"], .size)], .length, false, false⟩ [] []
      (by simp [typeForms]) ⟨by simp, by simp⟩ (by decide)
  have hop : (">", Level.comparison) ∈ operators .mysql := by decide
  have hnumber : (Expr.verbatim "1").IsPlain .mysql .atom (Sql.maxNesting - 5) :=
    .numeral (by decide +kernel)
  have hid := isFree_memberName (show "id" ∈ _ by simp)
  refine .atom (.choice (by simp) (by simp) (by simp) ?_ ?_ ?_)
  · simp only [List.mem_singleton, forall_eq]
    apply Expr.IsPlain.binary hop (by decide) (by decide)
    · exact .atom (.name (isFree_memberName (by simp)) (by simpa using hid.isPlain))
    · refine .sign (.inr rfl) (by decide) (.atom hnumber) fun c hc => ?_
      obtain rfl : '1' = c := by simpa [Expr.render] using hc
      decide
  · simp only [List.mem_singleton, forall_eq]
    exact .atom (.cast (by simp) (.atom (.name hid (by simp))) hchar)
  · simp only [Option.mem_def, Option.some.injEq, forall_eq']
    exact .atom (.name (isFree_memberName (by simp)) (by simp))

theorem isPlain_memberColumns : ∀ column ∈ memberColumns, column.1.IsPlain .mysql := by
  have hint : (DataType.known "INTEGER" [] "").IsPlain .mysql :=
    @DataType.IsPlain.known _ ⟨"INTEGER", "INTEGER", [], .size, true, false⟩ [] []
      (by simp [typeForms]) ⟨by simp, by simp⟩ (by decide)
  have hvarchar : (DataType.known "VARCHAR" ["8"] "").IsPlain .mysql :=
    @DataType.IsPlain.known _ ⟨"VARCHAR", "VARCHAR", [], .length, false, false⟩ [.number 8] []
      (by simp [typeForms]) ⟨by simp, by simp [TypeSize.IsLength, TypeSize.IsNumber]⟩ (by decide)
  have hplain : ∀ text ∈ ["on", "off", "number"], IsPlainString .mysql text '\'' := by
    decide +kernel
  have henum : (DataType.listed "ENUM" ["'on'", "'off'"]).IsPlain .mysql := by
    refine @DataType.IsPlain.listed _ ⟨"ENUM", "ENUM", [], .members, false, false⟩ _
      (by simp [typeForms]) ⟨by simp, ?_⟩
    simp only [List.mem_cons, List.not_mem_nil, or_false, forall_eq_or_imp, forall_eq]
    exact ⟨⟨"on", hplain _ (by simp), .inl (by decide)⟩, ⟨"off", hplain _ (by simp), .inl (by decide)⟩⟩
  intro column hcolumn
  simp only [memberColumns, List.mem_cons, List.not_mem_nil, or_false] at hcolumn
  rcases hcolumn with rfl | rfl | rfl
  · refine ⟨by decide +kernel, by simpa using hint, ?_, by decide⟩
    simp only [List.mem_cons, List.not_mem_nil, or_false, forall_eq_or_imp, forall_eq]
    exact ⟨⟨by simp, .primaryKey Checking.isToldBy_nil⟩, ⟨by simp, .comment (hplain _ (by simp))⟩⟩
  · refine ⟨by decide +kernel, by simpa using henum, ?_, by decide⟩
    simp only [List.mem_cons, List.not_mem_nil, or_false, forall_eq_or_imp, forall_eq]
    refine ⟨⟨by simp, ?_⟩, ⟨by simp, .default (.atom (.string (hplain _ (by simp))))⟩⟩
    exact .words (show (_, ["NOT", "NULL"]) ∈ _ by simp [ColumnOption.wordOptions])
  · refine ⟨by decide +kernel, by simpa using hvarchar, ?_, by decide⟩
    simp only [List.mem_singleton, forall_eq]
    exact ⟨by simp, @ColumnOption.IsPlain.generated _ _ ["AS"] ["STORED"] (by decide) isPlain_labelExpr⟩

/-- The lines of a text that creates the table, with a comment. -/
def memberLines : List String :=
  ["CREATE TABLE members ( -- everybody\n", "  id INTEGER PRIMARY KEY COMMENT 'number',\n",
    "  state ENUM('on', 'off') NOT NULL DEFAULT 'on',\n", "  label VARCHAR(8) AS (\n",
    "    CASE WHEN members.id > -1 THEN ", "CAST(id AS CHAR) ELSE state END\n", "  ) STORED\n);"]

/-- The schema of the text. -/
def membersSchema : Schema :=
  Schema.empty.insertTable "members" (((Table.empty.insertColumn "id"
    ⟨.atom ⟨"INTEGER", .number, "PRIMARY KEY COMMENT 'number'"⟩, none⟩).insertColumn "state"
      ⟨.atom ⟨"ENUM('on', 'off')", .number, "NOT NULL DEFAULT 'on'"⟩, none⟩).insertColumn "label"
        ⟨.atom ⟨"VARCHAR(8)", .string,
          "AS (CASE WHEN members.id > -1 THEN CAST(id AS CHAR) ELSE state END) STORED"⟩, none⟩)

/-- Lines are scanned one by one. -/
theorem Sql.Token.ofText?_join (lines : List String) : Token.ofText? dialect (String.join lines) =
    Token.scanAll? dialect (lines.flatMap String.toList).length (lines.flatMap String.toList) := by
  simp [Token.ofText?]

/-- The lines of the statement that creates the table. -/
def writtenLines : List String :=
  ["CREATE TABLE members (\n\t", "id INTEGER PRIMARY KEY COMMENT 'number',\n\t",
    "state ENUM('on', 'off') NOT NULL DEFAULT 'on',\n\t", "label VARCHAR(8) AS (",
    "CASE WHEN members.id > -1 THEN ", "CAST(id AS CHAR) ELSE state END", ") STORED\n);"]

theorem tableDefinitions?_members : tableDefinitions? .mysql (String.join memberLines) =
    some [.of "members" (memberColumns.map Prod.fst)] := by
  have hread : ∃ tokens, (TableDefinition.of "members" (memberColumns.map Prod.fst)).ReadFrom .mysql
      ("CREATE TABLE " ++ "members" ++ " (\n\t" ++ String.intercalate ",\n\t"
        (memberColumns.map fun column => column.1.render column.2) ++ "\n);") tokens := by
    apply exists_creation (by decide +kernel)
    intro column hcolumn
    have hnames : ∀ column ∈ memberColumns, isWord .mysql column.1.name := by decide +kernel
    have htypes : ∀ column ∈ memberColumns, column.1.type = some column.2 := by decide +kernel
    exact (isPlain_memberColumns column hcolumn).exists_readFrom (hnames column hcolumn)
      (htypes column hcolumn)
  have hall : tableDefinitions? .mysql (String.join ([()].map fun _ => "CREATE TABLE " ++ "members" ++
      " (\n\t" ++ String.intercalate ",\n\t" (memberColumns.map fun column =>
        column.1.render column.2) ++ "\n);")) =
          some ([()].map fun _ => .of "members" (memberColumns.map Prod.fst)) :=
    tableDefinitions?_join _ _ fun _ _ => hread
  have hwritten : String.join ([()].map fun _ => "CREATE TABLE " ++ "members" ++ " (\n\t" ++
      String.intercalate ",\n\t" (memberColumns.map fun column => column.1.render column.2) ++ "\n);") =
        String.join writtenLines := by
    decide +kernel
  have htokens : Token.ofText? .mysql (String.join memberLines) =
      Token.ofText? .mysql (String.join writtenLines) := by
    rw [Token.ofText?_join, Token.ofText?_join]
    decide +kernel
  rw [tableDefinitions?, htokens, ← hwritten]
  exact hall

end Members

end Schemata
