import Schemata.Query.Sql

/-!
# Reserved fields leave no trace

A query tree may have fields for internal use, with reserved names. They are not written, and
nothing that is written depends on them: a tree has the statement of the tree in which no reserved
field is left at any depth.

What is written of a field that is not reserved depends on the field alone. A selection puts the
texts of its fields into a result column each or into the members of an object, for all its rows or
for one, and in either form the text of a field is the same.

## Main definitions

* `Node.withoutReserved`: a query tree without its reserved fields
* `Node.field?`: the field at the end of a path of names
* `Presentation`, `Presentation.text`: the forms of a selection, and its text in a form

## Main results

* `Node.nested_withoutReserved`: the text of a field does without the reserved fields in it
* `Node.field?_withoutReserved`: what is removed are the fields behind reserved names
* `Presentation.exists_text_eq`: the texts of the fields in a selection, in every form
* `Node.reserved_leave_no_trace`: reserved fields leave no trace
-/

namespace Schemata

/-! ### Removal at every depth -/

mutual

/-- The query tree without its reserved fields, at every depth. -/
def Node.withoutReserved : Node → Node
  | .leaf l => .leaf l
  | .expr e => .expr e
  | .relation cardinality rows fields => .relation cardinality rows (unreservedFields fields)

/-- The fields that are not reserved, without reserved fields in them. -/
def unreservedFields : List (String × Node) → List (String × Node)
  | [] => []
  | (name, node) :: rest =>
    if isReserved name then unreservedFields rest
    else (name, node.withoutReserved) :: unreservedFields rest

end

/-- The field at the end of a path of names. -/
def Node.field? : Node → List String → Option Node
  | node, [] => some node
  | .relation _ _ fields, name :: path =>
    (Entries.find? fields name).bind fun node => node.field? path
  | _, _ :: _ => none

variable {fields : List (String × Node)} {name : String}

theorem find?_unreservedFields : Entries.find? (unreservedFields fields) name =
    if isReserved name then none else (Entries.find? fields name).map Node.withoutReserved := by
  induction fields with
  | nil => simp [unreservedFields, Entries.find?]
  | cons field rest ih =>
    obtain ⟨first, node⟩ := field
    rw [unreservedFields]
    by_cases hname : first = name
    · subst hname
      cases hreserved : isReserved first with
      | true => simp [ih, hreserved]
      | false => simp [Entries.find?]
    · split <;> simp [Entries.find?, hname, ih]

/-- A path leads to where it led before, unless it goes through a reserved name. -/
theorem Node.field?_withoutReserved (node : Node) (path : List String) :
    node.withoutReserved.field? path =
      if path.any isReserved then none else (node.field? path).map Node.withoutReserved := by
  induction path generalizing node with
  | nil => simp [field?]
  | cons name path ih =>
    cases node with
    | leaf l => simp [withoutReserved, field?]
    | expr e => simp [withoutReserved, field?]
    | relation cardinality rows fields =>
      rw [withoutReserved, field?, field?, find?_unreservedFields, List.any_cons]
      cases hreserved : isReserved name with
      | true => simp
      | false => cases hfind : Entries.find? fields name <;> simp [ih]

/-! ### What is written does without them -/

mutual

/-- The text of a field is that of the field without reserved fields in it. -/
theorem Node.nested_withoutReserved : ∀ node : Node, node.withoutReserved.nested = node.nested
  | .leaf _ => rfl
  | .expr _ => rfl
  | .relation cardinality rows fields => by
    rw [Node.withoutReserved, Node.nested, Node.nested, nestedFields_unreservedFields fields]

theorem nestedFields_unreservedFields :
    ∀ fields : List (String × Node), nestedFields (unreservedFields fields) = nestedFields fields
  | [] => rfl
  | (name, node) :: rest => by
    have hrest := nestedFields_unreservedFields rest
    rw [unreservedFields, nestedFields]
    split
    case isTrue => exact hrest
    case isFalse hshown =>
      rw [nestedFields, if_neg hshown, Node.nested_withoutReserved node, hrest]

end

theorem Node.sql_withoutReserved (node : Node) : node.withoutReserved.sql = node.sql := by
  cases node with
  | leaf l => rfl
  | expr e => rfl
  | relation cardinality rows fields =>
    rw [withoutReserved, sql, sql, Selection.statement, Selection.statement,
      nestedFields_unreservedFields]

/-- The texts of fields are those of the fields that are not reserved, one by one. -/
theorem nestedFields_eq_map (fields : List (String × Node)) :
    nestedFields fields =
      (fields.filter fun f => !isReserved f.1).map fun f => (f.1, f.2.nested) := by
  induction fields with
  | nil => rfl
  | cons field rest ih =>
    obtain ⟨name, node⟩ := field
    rw [nestedFields, ih]
    cases hreserved : isReserved name <;> simp [hreserved]

/-! ### The forms of a selection -/

/-- The form in which a selection is written, for all rows or for one: with a result column for each
field, as it is at the root of a query, or with an object, as it is inside another selection. -/
inductive Presentation
  | columns (cardinality : Cardinality)
  | objects (cardinality : Cardinality)

namespace Presentation

/-- The text of a selection before it is put into another one. -/
def text (rows : Rows) (fields : List (String × Node)) : Presentation → String
  | columns cardinality => rows.tableQuery cardinality (nestedFields fields)
  | objects cardinality => rows.objectQuery cardinality (nestedFields fields)

/-- A field with its text, as a result column or as a member of an object. -/
def write (name sql : String) : Presentation → String
  | columns _ => "\t" ++ sql ++ " as " ++ name
  | objects _ => "\t'" ++ name ++ "', " ++ sql

/-- The texts of the fields stand between two texts that depend on the rows and the form only. -/
theorem exists_text_eq (form : Presentation) (rows : Rows) : ∃ opening closing : String,
    ∀ fields, form.text rows fields = opening ++ String.intercalate ",\n"
      ((fields.filter fun f => !isReserved f.1).map fun f => form.write f.1 f.2.nested) ++
        closing := by
  have hwritten (fields : List (String × Node)) :
      ((fields.filter fun f => !isReserved f.1).map fun f => form.write f.1 f.2.nested) =
        (nestedFields fields).map fun f => form.write f.1 f.2 := by
    rw [nestedFields_eq_map, List.map_map]
    rfl
  simp only [hwritten]
  cases form with
  | columns cardinality =>
    refine ⟨"SELECT\n",
      "\nFROM " ++ rows.instanceText ++ "\n" ++ rows.clauses cardinality, fun fields => ?_⟩
    simp only [text, write, Rows.tableQuery, String.append_assoc]
  | objects cardinality =>
    cases cardinality with
    | one =>
      refine ⟨"SELECT " ++ "json_object(\n",
        "\n)" ++ " FROM " ++ rows.instanceText ++ "\n" ++ rows.clauses .one, fun fields => ?_⟩
      simp only [text, write, Rows.objectQuery, Rows.jsonObject, String.append_assoc]
    | many =>
      refine ⟨"SELECT " ++ "json_group_array(" ++ "json_object(\n",
        "\n)" ++ ")" ++ " FROM " ++ rows.instanceText ++ "\n" ++ rows.clauses .many,
        fun fields => ?_⟩
      simp only [text, write, Rows.objectQuery, Rows.jsonObject, String.append_assoc]

end Presentation

/-- Reserved fields leave no trace. A query tree has the statement of the tree without them, in
which every path still leads to its field unless it goes through a reserved name. In whatever form
a selection is written, its text is made of the texts that its other fields have by themselves; as
the root it has result columns, and inside another selection it is nested as objects. -/
theorem Node.reserved_leave_no_trace :
    (∀ node : Node, node.withoutReserved.sql = node.sql ∧ ∀ path,
      node.withoutReserved.field? path =
        if path.any isReserved then none else (node.field? path).map Node.withoutReserved) ∧
    (∀ (form : Presentation) (rows : Rows), ∃ opening closing : String,
      ∀ fields, form.text rows fields = opening ++ String.intercalate ",\n"
        ((fields.filter fun f => !isReserved f.1).map fun f => form.write f.1 f.2.nested) ++
          closing) ∧
    ∀ (cardinality : Cardinality) (rows : Rows) (fields : List (String × Node)),
      (Node.relation cardinality rows fields).sql =
          (Presentation.columns cardinality).text rows fields ∧
        (Node.relation cardinality rows fields).nested =
          nest ((Presentation.objects cardinality).text rows fields) :=
  ⟨fun node => ⟨node.sql_withoutReserved, node.field?_withoutReserved⟩,
    Presentation.exists_text_eq, fun _ _ _ => ⟨rfl, rfl⟩⟩

end Schemata
