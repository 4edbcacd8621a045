import Schemata.Proofs.Query.Depth
import Schemata.Query.Sql

/-!
# The layout of a compiled query

A query is compiled from the inside out: the finished text of a nested selection is moved to the
right and trimmed each time it is put into the selection around it, so that a line `d` levels deep
is written `d` times over. The result can be written down at once if the depth is carried along:
the lines of a selection begin with as many tabs as there are selections around it, and those of its
fields with one more.

## Main definitions

* `Rows.objectLayout`, `Rows.tableLayout`: the two forms of a statement at a depth
* `Node.layout`, `Node.laidOut`: a field at a depth, and the statement of a query
* `Node.IsTidy`: what moving and trimming could damage does not occur

## Main results

* `moved_objectLayout`: a statement is moved by laying it out at another depth
* `sql_eq_laidOut`: compiling a tidy query is laying it out
-/

namespace Schemata

open Text (newLine moved IsLine EndsVisibly)

/-! ### Statements at a depth -/

namespace Rows

/-- The condition on the rows, if there is one. -/
def conditionText? (rows : Rows) : Option String :=
  match rows.filters with
  | [] => none
  | [filter] => some ("WHERE " ++ filter.render)
  | filters =>
    some ("WHERE " ++ String.intercalate " AND " (filters.map fun f => "(" ++ f.render ++ ")"))

/-- The bound on the number of rows, if there is one. -/
def boundText? (rows : Rows) (cardinality : Cardinality) : Option String :=
  match rows.limit, cardinality with
  | some n, _ => some ("LIMIT " ++ n.toNat.repr)
  | none, .one => some "LIMIT 1"
  | none, .many => none

/-- The clauses after the table: condition, grouping, order and bound. -/
def clauseTexts (rows : Rows) (cardinality : Cardinality) : List String :=
  rows.conditionText?.toList
    ++ (rows.groupBy.map fun e => "GROUP BY " ++ e.render).toList
    ++ (rows.orderBy.map fun e => "ORDER BY " ++ e.render).toList
    ++ (rows.boundText? cardinality).toList

/-- The lines of the fields at a depth: a line each, or an empty one if there are no fields. -/
def fieldLines (depth : Nat) (write : String → String → String) (fields : List (String × String)) :
    String :=
  match fields with
  | [] => newLine depth
  | fields =>
    String.intercalate "," (fields.map fun (name, sql) => newLine (depth + 1) ++ write name sql)

/-- The lines of the clauses at a depth. -/
def clauseLines (depth : Nat) (rows : Rows) (cardinality : Cardinality) : String :=
  String.join ((rows.clauseTexts cardinality).map fun clause => newLine depth ++ clause)

/-- What stands before the fields of a JSON value. -/
def objectStart : Cardinality → String
  | .one => "SELECT json_object("
  | .many => "SELECT json_group_array(json_object("

/-- What stands between the fields of a JSON value and the table. -/
def objectEnd : Cardinality → String
  | .one => ") FROM "
  | .many => ")) FROM "

/-- The statement with one JSON value, whose lines after the first begin with the tabs of the
depth, and those of its fields with one more. -/
def objectLayout (depth : Nat) (rows : Rows) (cardinality : Cardinality)
    (fields : List (String × String)) : String :=
  objectStart cardinality ++ fieldLines depth (fun name sql => "'" ++ name ++ "', " ++ sql) fields
    ++ newLine depth ++ objectEnd cardinality ++ rows.instanceText
    ++ rows.clauseLines depth cardinality

/-- The statement with a result column per field. -/
def tableLayout (rows : Rows) (cardinality : Cardinality) (fields : List (String × String)) :
    String :=
  "SELECT" ++ fieldLines 0 (fun name sql => sql ++ " as " ++ name) fields
    ++ newLine 0 ++ "FROM " ++ rows.instanceText ++ rows.clauseLines 0 cardinality ++ newLine 0

end Rows

mutual

/-- The text of a field at a depth. A nested statement goes on in the line of its field. -/
def Node.layout (depth : Nat) : Node → String
  | .leaf l => l.render
  | .expr e => e.render
  | .relation cardinality rows fields =>
    "(" ++ rows.objectLayout depth cardinality (layoutFields (depth + 1) fields) ++ ")"

/-- The texts of the fields at a depth, those with reserved names left out. -/
def layoutFields (depth : Nat) : List (String × Node) → List (String × String)
  | [] => []
  | (name, node) :: rest =>
    if isReserved name then layoutFields depth rest
    else (name, node.layout depth) :: layoutFields depth rest

end

/-- The statement of a query tree, written down at once. -/
def Node.laidOut : Node → String
  | .leaf l => l.render
  | .expr e => e.render
  | .relation cardinality rows fields => rows.tableLayout cardinality (layoutFields 1 fields)

/-- The names of the rows are of one line, and no line of their statement ends in a blank. -/
structure Rows.IsTidy (rows : Rows) : Prop where
  table : IsLine rows.table
  instanceAlias : Text.IsTidy rows.instanceAlias
  filters : ∀ f ∈ rows.filters, Text.IsTidy f.render
  groupBy : ∀ e ∈ rows.groupBy, Text.IsTidy e.render
  orderBy : ∀ e ∈ rows.orderBy, Text.IsTidy e.render

mutual

/-- Every name and every expression of the tree is of one line, and no line of a statement ends in a
blank. What reserved fields hold does not matter. -/
def Node.IsTidy : Node → Prop
  | .leaf l => IsLine l.render
  | .expr e => IsLine e.render
  | .relation _ rows fields => rows.IsTidy ∧ FieldsAreTidy fields

/-- All fields are tidy, with their names. -/
def FieldsAreTidy : List (String × Node) → Prop
  | [] => True
  | (name, node) :: rest =>
    (isReserved name = false → IsLine name ∧ node.IsTidy) ∧ FieldsAreTidy rest

end

/-! ### Statements are moved by laying them out elsewhere -/

namespace Rows

variable {rows : Rows} {cardinality : Cardinality}

/-- A clause per line is a line end in front of each clause. -/
theorem join_clauses (clauses : List String) :
    "\n" ++ String.join (clauses.map fun clause => clause ++ "\n") =
      String.join (clauses.map fun clause => newLine 0 ++ clause) ++ newLine 0 := by
  induction clauses with
  | nil => rfl
  | cons clause rest ih =>
    simp only [List.map_cons, String.join_cons, String.append_assoc, ← ih]
    rfl

theorem clauses_eq (rows : Rows) (cardinality : Cardinality) :
    rows.clauses cardinality =
      String.join ((rows.clauseTexts cardinality).map fun clause => clause ++ "\n") := by
  have hcondition : rows.condition =
      String.join (rows.conditionText?.toList.map fun clause => clause ++ "\n") := by
    unfold condition conditionText?
    split <;> simp_all
  have hclause (keyword : String) (expr : Option Expression) : clause keyword expr =
      String.join ((expr.map fun e => keyword ++ " " ++ e.render).toList.map
        fun clause => clause ++ "\n") := by
    cases expr <;> simp [clause]
  have hbound : rows.bound cardinality =
      String.join ((rows.boundText? cardinality).toList.map fun clause => clause ++ "\n") := by
    unfold bound boundText?
    split <;> simp_all
  simp only [clauses, clauseTexts, List.map_append, String.join_append, hcondition, hclause, hbound]
  rfl

/-- The line of each field, written at once or joined. -/
theorem fieldLines_zero (write : String → String → String) (fields : List (String × String)) :
    fieldLines 0 write fields =
      "\n" ++ String.intercalate ",\n" (fields.map fun (name, sql) => "\t" ++ write name sql) := by
  have hline (first : String × String) (rest : List (String × String)) :
      String.intercalate "," ((first :: rest).map fun (name, sql) => newLine 1 ++ write name sql) =
        "\n" ++ String.intercalate ",\n"
          ((first :: rest).map fun (name, sql) => "\t" ++ write name sql) := by
    induction rest generalizing first with
    | nil =>
      apply String.toList_inj.1
      simp [newLine]
    | cons second rest ih =>
      have hrest := ih second
      simp only [List.map_cons] at hrest
      simp only [List.map_cons, String.intercalate_cons_cons, hrest]
      generalize String.intercalate ",\n" (_ :: _) = lines
      apply String.toList_inj.1
      simp [newLine]
  cases fields with
  | nil => rfl
  | cons first rest => exact hline first rest

theorem newline_clauses (rows : Rows) (cardinality : Cardinality) :
    "\n" ++ rows.clauses cardinality = rows.clauseLines 0 cardinality ++ "\n" := by
  rw [clauses_eq]
  exact join_clauses _

/-- A fixed text may be cut at another place. -/
theorem cut_eq {a b c d : String} (h : a ++ b = c ++ d) (rest : String) :
    a ++ (b ++ rest) = c ++ (d ++ rest) := by
  rw [← String.append_assoc, h, String.append_assoc]

/-- A statement is written line by line, and ends the line of its last clause. -/
theorem objectQuery_eq (fields : List (String × String)) :
    rows.objectQuery cardinality fields = rows.objectLayout 0 cardinality fields ++ "\n" := by
  have hquote (rest : String) : "\t" ++ ("'" ++ rest) = "\t'" ++ rest := by
    rw [← String.append_assoc]
    rfl
  unfold objectQuery jsonObject objectLayout
  cases cardinality with
  | one =>
    have hopen : "SELECT " ++ "json_object(\n" = objectStart .one ++ "\n" := rfl
    have hclose : "\n)" ++ " FROM " = newLine 0 ++ objectEnd .one := rfl
    simp only [fieldLines_zero, String.append_assoc, newline_clauses, hquote, cut_eq hopen,
      cut_eq hclose]
  | many =>
    have hopen : "SELECT " ++ ("json_group_array(" ++ "json_object(\n") =
        objectStart .many ++ "\n" := rfl
    have hclose : "\n)" ++ (")" ++ " FROM ") = newLine 0 ++ objectEnd .many := rfl
    simp only [fieldLines_zero, String.append_assoc, newline_clauses, hquote, ← cut_eq hopen,
      ← cut_eq hclose]

theorem tableQuery_eq (fields : List (String × String)) :
    rows.tableQuery cardinality fields = rows.tableLayout cardinality fields := by
  have hopen : "SELECT\n" ++ "" = "SELECT" ++ "\n" := rfl
  have hclose : "\nFROM " ++ "" = newLine 0 ++ "FROM " := rfl
  unfold tableQuery tableLayout
  simp only [fieldLines_zero, String.append_assoc, newline_clauses, ← cut_eq hopen, ← cut_eq hclose,
    String.empty_append]
  rfl

theorem moved_fieldLines {write : String → String → String} {fields : List (String × String)}
    (depth : Nat)
    (hwrite : ∀ f ∈ fields, moved depth (write f.1 f.2) = write f.1 (moved depth f.2)) :
    moved depth (fieldLines 0 write fields) =
      fieldLines depth write (Entries.mapValues (moved depth) fields) := by
  have hline (first : String × String) (rest : List (String × String))
      (hwrite : ∀ f ∈ first :: rest, moved depth (write f.1 f.2) = write f.1 (moved depth f.2)) :
      moved depth (String.intercalate ","
          ((first :: rest).map fun (name, sql) => newLine 1 ++ write name sql)) =
        String.intercalate "," ((Entries.mapValues (moved depth) (first :: rest)).map
          fun (name, sql) => newLine (depth + 1) ++ write name sql) := by
    induction rest generalizing first with
    | nil => simp [Entries.mapValues, Text.moved_newLine, hwrite first (by simp)]
    | cons second rest ih =>
      have hrest := ih second fun f hf => hwrite f (List.mem_cons_of_mem _ hf)
      have hcomma : moved depth "," = "," := Text.moved_of_isLine (by decide)
      simp only [Entries.mapValues, List.map_cons, String.intercalate_cons_cons, Text.moved_append,
        Text.moved_newLine, hcomma, hwrite first (by simp)] at hrest ⊢
      rw [hrest]
  cases fields with
  | nil => simp [fieldLines, Entries.mapValues, Text.moved_newLine]
  | cons first rest => exact hline first rest hwrite

theorem isTidy_conditionText? (h : ∀ f ∈ rows.filters, Text.IsTidy f.render) {clause : String}
    (hclause : clause ∈ rows.conditionText?) : Text.IsTidy clause := by
  have hkeyword : IsLine "WHERE " := by decide
  unfold conditionText? at hclause
  split at hclause
  · simp at hclause
  · rename_i filter hfilters
    obtain rfl : _ = clause := by simpa using hclause
    exact (h filter (by simp [hfilters])).append hkeyword
  · obtain rfl : _ = clause := by simpa using hclause
    refine (Text.isTidy_intercalate (by decide) (by simp_all) fun text htext => ?_).append hkeyword
    obtain ⟨f, hf, rfl⟩ := List.mem_map.1 htext
    have hclosed : Text.IsTidy ")" := by decide
    exact hclosed.append (Text.IsLine.append (by decide) (h f hf).1)

theorem isTidy_clauseTexts (h : rows.IsTidy) {clause : String}
    (hclause : clause ∈ rows.clauseTexts cardinality) : Text.IsTidy clause := by
  simp only [clauseTexts, List.mem_append, Option.mem_toList, Option.map_eq_some_iff]
    at hclause
  rcases hclause with ((hcondition | ⟨e, he, rfl⟩) | ⟨e, he, rfl⟩) | hbound
  · exact isTidy_conditionText? h.filters hcondition
  · exact (h.groupBy e he).append (by decide)
  · exact (h.orderBy e he).append (by decide)
  · unfold boundText? at hbound
    split at hbound
    · obtain rfl := Option.some.inj hbound
      exact (Text.isTidy_repr _).append (by decide)
    · obtain rfl := Option.some.inj hbound
      decide
    · simp at hbound

theorem moved_clauseLines (h : rows.IsTidy) (depth : Nat) :
    moved depth (rows.clauseLines 0 cardinality) = rows.clauseLines depth cardinality := by
  have hclauses (clauses : List String) (h : ∀ clause ∈ clauses, IsLine clause) :
      moved depth (String.join (clauses.map fun clause => newLine 0 ++ clause)) =
        String.join (clauses.map fun clause => newLine depth ++ clause) := by
    induction clauses with
    | nil => rfl
    | cons clause rest ih =>
      have hrest := ih fun c hc => h c (List.mem_cons_of_mem _ hc)
      simp [Text.moved_newLine, Text.moved_of_isLine (h clause (by simp)), hrest]
  exact hclauses _ fun clause hclause => (isTidy_clauseTexts h hclause).1

theorem moved_objectLayout (h : rows.IsTidy) {fields : List (String × String)}
    (hfields : ∀ f ∈ fields, IsLine f.1) (depth : Nat) :
    moved depth (rows.objectLayout 0 cardinality fields) =
      rows.objectLayout depth cardinality (Entries.mapValues (moved depth) fields) := by
  have hconst {text : String} (h : IsLine text) : moved depth text = text := Text.moved_of_isLine h
  have hblank : IsLine " " := by decide
  have hquote : IsLine "'" := by decide
  have hcomma : IsLine "', " := by decide
  have hinstance : moved depth rows.instanceText = rows.instanceText := by
    simp [instanceText, hconst h.table, hconst h.instanceAlias.1, hconst hblank]
  have hlines : moved depth (fieldLines 0 (fun name sql => "'" ++ name ++ "', " ++ sql) fields) =
      fieldLines depth (fun name sql => "'" ++ name ++ "', " ++ sql)
        (Entries.mapValues (moved depth) fields) :=
    moved_fieldLines depth fun f hf => by
      simp [hconst (hfields f hf), hconst hquote, hconst hcomma]
  have hstart : IsLine (objectStart cardinality) := by cases cardinality <;> decide
  have hend : IsLine (objectEnd cardinality) := by cases cardinality <;> decide
  simp only [objectLayout, Text.moved_append, Text.moved_newLine, hlines, hinstance, hconst hstart,
    hconst hend, moved_clauseLines h, Nat.add_zero]

/-- Neither the line of the table nor a clause ends in a blank. -/
theorem endsVisibly_objectLayout (h : rows.IsTidy) (depth : Nat) (fields : List (String × String)) :
    EndsVisibly (rows.objectLayout depth cardinality fields) := by
  have hclauses (clauses : List String) (first : String) (hfirst : EndsVisibly first)
      (h : ∀ clause ∈ clauses, Text.IsTidy clause) :
      EndsVisibly (first ++ String.join (clauses.map fun clause => newLine depth ++ clause)) := by
    induction clauses generalizing first with
    | nil => simpa using hfirst
    | cons clause rest ih =>
      rw [List.map_cons, String.join_cons, ← String.append_assoc]
      exact ih _ (((h clause (by simp)).2.append _).append _)
        fun c hc => h c (List.mem_cons_of_mem _ hc)
  refine hclauses _ _ ?_ fun clause hclause => isTidy_clauseTexts h hclause
  exact (h.instanceAlias.2.append _).append _

/-- A statement inside another one is the same statement one level deeper. -/
theorem nest_objectQuery (h : rows.IsTidy) (fields : List (String × String)) :
    nest (rows.objectQuery cardinality fields) =
      "(" ++ moved 1 (rows.objectLayout 0 cardinality fields) ++ ")" := by
  have hstart : ∃ rest, (rows.objectLayout 0 cardinality fields).toList = 'S' :: rest := by
    cases cardinality <;> exact ⟨_, by simp [objectLayout, objectStart]; rfl⟩
  obtain ⟨rest, hrest⟩ := hstart
  have hmultiline : Text.isMultiline (rows.objectLayout 0 cardinality fields ++ "\n") = true := by
    simp [Text.isMultiline]
  rw [objectQuery_eq, nest, if_pos hmultiline,
    Text.trimmed_indent hrest (by decide) (endsVisibly_objectLayout h 0 fields)]

end Rows

theorem nest_of_isLine {text : String} (h : IsLine text) : nest text = text := by
  rw [nest, if_neg]
  simpa [Text.isMultiline, IsLine] using h

theorem isLine_of_mem_nestedFields {fields : List (String × Node)} (h : FieldsAreTidy fields) :
    ∀ f ∈ nestedFields fields, IsLine f.1 := by
  induction fields with
  | nil => simp [nestedFields]
  | cons field rest ih =>
    obtain ⟨name, node⟩ := field
    obtain ⟨hfield, hrest⟩ := h
    intro f hf
    rw [nestedFields] at hf
    split at hf
    · exact ih hrest f hf
    · rename_i hname
      rcases List.mem_cons.1 hf with rfl | hf
      · exact (hfield (by simpa using hname)).1
      · exact ih hrest f hf

/-! ### Compiling is laying out -/

mutual

/-- A field that is moved by the depth of the statement around it stands as it is laid out there. -/
theorem Node.moved_nested (depth : Nat) :
    (node : Node) → node.IsTidy → moved depth node.nested = node.layout (depth + 1)
  | .leaf l, h => by
    have hline : IsLine l.render := h
    simp only [Node.nested, Node.layout, nest_of_isLine hline, Text.moved_of_isLine hline]
  | .expr e, h => by
    have hline : IsLine e.render := h
    simp only [Node.nested, Node.layout, nest_of_isLine hline, Text.moved_of_isLine hline]
  | .relation cardinality rows fields, h => by
    obtain ⟨hrows, hfields⟩ : rows.IsTidy ∧ FieldsAreTidy fields := h
    have hopen : moved depth "(" = "(" := Text.moved_of_isLine (by decide)
    have hclose : moved depth ")" = ")" := Text.moved_of_isLine (by decide)
    have hlines := isLine_of_mem_nestedFields hfields
    -- The statement is moved once into its field, and then with it by the depth.
    rw [Node.nested, Node.layout, Rows.nest_objectQuery hrows]
    simp only [Text.moved_append, hopen, hclose, Text.moved_moved]
    rw [Rows.moved_objectLayout hrows hlines,
      mapValues_moved_nestedFields (depth + 1) fields hfields]

theorem mapValues_moved_nestedFields (depth : Nat) :
    (fields : List (String × Node)) → FieldsAreTidy fields →
      Entries.mapValues (moved depth) (nestedFields fields) = layoutFields (depth + 1) fields
  | [], _ => rfl
  | (name, node) :: rest, h => by
    obtain ⟨hfield, hrest⟩ := h
    have ih := mapValues_moved_nestedFields depth rest hrest
    rw [nestedFields, layoutFields]
    split
    · exact ih
    · rename_i hname
      have hnode := Node.moved_nested depth node (hfield (by simpa using hname)).2
      simp only [Entries.mapValues, List.map_cons, hnode] at ih ⊢
      rw [ih]

end

/-- Compiling a tidy query, level by level, is laying it out at once: each nested statement goes on
in the line of its field, its other lines begin with a tab for each statement around it and those of
its fields with one more, and nothing else is added or taken away. -/
theorem Node.sql_eq_laidOut {node : Node} (h : node.IsTidy) : node.sql = node.laidOut := by
  cases node with
  | leaf l => rfl
  | expr e => rfl
  | relation cardinality rows fields =>
    obtain ⟨-, hfields⟩ : rows.IsTidy ∧ FieldsAreTidy fields := h
    have hnested : nestedFields fields = layoutFields 1 fields := by
      rw [← mapValues_moved_nestedFields 0 fields hfields]
      simp [Entries.mapValues]
    rw [Node.sql, Selection.statement, hnested, Rows.tableQuery_eq, Node.laidOut]

/-- Posts with their comments, and each comment with its author. -/
def postsWithAuthors : Node :=
  .relation .many { instanceAlias := "X1", table := "Post" }
    [("comments", .relation .many
      { instanceAlias := "X2", table := "Comment",
        filters := [.equals (.column ⟨"X1", "id"⟩) (.column ⟨"X2", "post"⟩)] }
      [("text", .leaf ⟨"X2", "text"⟩),
        ("author", .relation .one
          { instanceAlias := "X3", table := "User",
            filters := [.equals (.column ⟨"X2", "author"⟩) (.column ⟨"X3", "id"⟩)] }
          [("name", .leaf ⟨"X3", "name"⟩)])])]

/-- Three levels, with many rows and with one. -/
theorem sql_postsWithAuthors :
    postsWithAuthors.IsTidy ∧ postsWithAuthors.sql = postsWithAuthors.laidOut ∧
      postsWithAuthors.laidOut =
        "SELECT\n\t(SELECT json_group_array(json_object(\n\t\t'text', X2.text,\n" ++
        "\t\t'author', (SELECT json_object(\n\t\t\t'name', X3.name\n\t\t) FROM User X3\n" ++
        "\t\tWHERE X2.author = X3.id\n\t\tLIMIT 1)\n\t)) FROM Comment X2\n" ++
        "\tWHERE X1.id = X2.post) as comments\nFROM Post X1\n" := by
  have htidy : postsWithAuthors.IsTidy := by
    have hrows (name table : String) (filters : List Expression) (hname : Text.IsTidy name)
        (htable : Text.IsLine table) (hfilters : ∀ f ∈ filters, Text.IsTidy f.render) :
        Rows.IsTidy { instanceAlias := name, table := table, filters := filters } :=
      ⟨htable, hname, hfilters, by simp, by simp⟩
    have hposts := hrows "X1" "Post" [] (by decide) (by decide) (by decide)
    have hcomments := hrows "X2" "Comment" _ (by decide) (by decide)
      (show ∀ f ∈ [Expression.equals (.column ⟨"X1", "id"⟩) (.column ⟨"X2", "post"⟩)], _ by decide)
    have hauthor := hrows "X3" "User" _ (by decide) (by decide)
      (show ∀ f ∈ [Expression.equals (.column ⟨"X2", "author"⟩) (.column ⟨"X3", "id"⟩)], _ by decide)
    have hleaf (l : Leaf) (h : Text.IsLine l.render) : (Node.leaf l).IsTidy := h
    exact ⟨hposts, fun _ => ⟨by decide, hcomments, fun _ => ⟨by decide, hleaf _ (by decide)⟩,
      fun _ => ⟨by decide, hauthor, fun _ => ⟨by decide, hleaf _ (by decide)⟩, trivial⟩, trivial⟩,
      trivial⟩
  exact ⟨htidy, Node.sql_eq_laidOut htidy, by decide +kernel⟩

end Schemata
