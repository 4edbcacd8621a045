import Schemata.Decimal.Range
import Schemata.Json.Printer
import Schemata.Json.Reader
import Schemata.Schema.Basic

/-!
# The persisted form of a schema

Between two migrations a schema is kept as a JSON text: an object of tables by name, a table with
its `columns` by name and its marker, a column with its `kind`, the parts of that kind and its
marker.

Reading is generous in what does not matter: the order of the keys of a table or column is free,
keys that do not belong there are passed over, and a table may stand as the array of its parts.
It is strict in what does: a key that belongs there stands once, every part has its type, and
every occurrence of a repeated name has to be well-formed, of which the last one counts.

## Main definitions

* `Schema.toJson`, `Schema.ofJson?`: the document of a schema, and the schema of a document
* `Schema.toText`, `Schema.ofText?`: the text of a schema, and the schema of a text
-/

namespace Schemata

namespace Json

/-- The string of a text. -/
def ofText (text : String) : Json := .string (some text)

/-- The text of a string. -/
def text? : Json → Option String
  | .string text => text
  | _ => none

/-- The object with members of the given names. -/
def ofMembers (members : List (String × Json)) : Json :=
  .object (members.map fun m => (some m.1, m.2))

/-- The members by name, if every key is a text. -/
def named? (members : List (Option String × Json)) : Option (List (String × Json)) :=
  members.mapM fun m => m.1.map fun key => (key, m.2)

/-- The member of a name, absent or present, unless there are several. -/
def only? (members : List (String × Json)) (key : String) : Option (Option Json) :=
  match members.filter fun m => m.1 = key with
  | [] => some none
  | [m] => some (some m.2)
  | _ => none

/-- The one member of a name. -/
def required? (members : List (String × Json)) (key : String) : Option Json :=
  (only? members key).join

mutual

/-- Whether every string and key is a text and every number a finite double. -/
def isPlain : Json → Bool
  | .null | .bool _ => true
  | .number lexeme => (Decimal.ofLexeme lexeme.toList).isFinite
  | .string text => text.isSome
  | .array elements => arePlainElements elements
  | .object members => arePlainMembers members

/-- Whether all the elements are plain. -/
def arePlainElements : List Json → Bool
  | [] => true
  | v :: rest => isPlain v && arePlainElements rest

/-- Whether all the members are plain, with their keys. -/
def arePlainMembers : List (Option String × Json) → Bool
  | [] => true
  | (key, v) :: rest => key.isSome && isPlain v && arePlainMembers rest

end

end Json

open Json (ofText ofMembers named? only? required?)

/-! ### Writing -/

/-- The member that records a marker, if there is one. -/
def markerMembers (marker : Option String) : List (String × Json) :=
  marker.toList.map fun name => ("renamedFrom", ofText name)

/-- The members of a field: its kind and its parts. -/
def Field.members (field : Field) : List (String × Json) :=
  ("kind", ofText field.kind.text) :: match field with
    | .atom a => [("sqlType", ofText a.sqlType), ("valueType", ofText a.valueType.text),
        ("constraints", ofText a.constraints)]
    | .relation r => [("cardinality", ofText r.cardinality.text), ("source", ofText r.source.text),
        ("destination", ofText r.destination.text)]
    | .aliasTo target => [("target", ofText target)]
    | .index definition => [("definition", ofText definition)]
    | .constraint definition => [("definition", ofText definition)]

/-- The document of a column. -/
def Column.toJson (column : Column) : Json :=
  ofMembers (column.field.members ++ markerMembers column.renamedFrom)

/-- The document of a table. -/
def Table.toJson (table : Table) : Json :=
  ofMembers (("columns", ofMembers (Entries.mapValues Column.toJson table.columns.entries))
    :: markerMembers table.renamedFrom)

/-- The document of a schema. -/
def Schema.toJson (schema : Schema) : Json :=
  ofMembers (Entries.mapValues Table.toJson schema.tables.entries)

/-- The persisted text of a schema. -/
def Schema.toText (schema : Schema) : String := schema.toJson.pretty

/-! ### Reading -/

/-- The marker of a document: `null` stands for none. -/
def markerOfJson? : Json → Option (Option String)
  | .null => some none
  | .string (some name) => some (some name)
  | _ => none

/-- The marker among the members, which may be missing. -/
def markerOfMembers? (members : List (String × Json)) : Option (Option String) := do
  match ← only? members "renamedFrom" with
  | none => return none
  | some v => markerOfJson? v

/-- The text of the one member of a name. -/
def textMember? (members : List (String × Json)) (key : String) : Option String :=
  (required? members key).bind Json.text?

/-- A choice among names: the name, or an object with the name as its key and no contents. -/
def choice? : Json → Option String
  | .string name => name
  | .object [(name, .null)] => name
  | .object [(name, .object [])] => name
  | _ => none

/-- The kinds in the order in which a number selects them. -/
def FieldKind.all : List FieldKind := [.atom, .relation, .aliasTo, .index, .constraint]

/-- The kind of a document: its name, or its number. -/
def FieldKind.ofJson? : Json → Option FieldKind
  | .string name => FieldKind.all.find? fun kind => some kind.text = name
  | .number lexeme =>
    (FieldKind.all.zipIdx.find? fun entry => entry.2.repr = lexeme).map Prod.fst
  | _ => none

/-- The cardinality of a name. -/
def Cardinality.ofText? (name : String) : Option Cardinality :=
  [one, many].find? fun cardinality => cardinality.text = name

/-- The field of a kind from the members of its column. -/
def Field.ofMembers? (members : List (String × Json)) : FieldKind → Option Field
  | .atom => do
    let sqlType ← textMember? members "sqlType"
    let valueType ← (← choice? (← required? members "valueType")) |> ValueType.ofText?
    let constraints ← match ← only? members "constraints" with
      | none => pure ""
      | some v => v.text?
    return .atom ⟨sqlType, valueType, constraints⟩
  | .relation => do
    let cardinality ← (← choice? (← required? members "cardinality")) |> Cardinality.ofText?
    let source ← textMember? members "source"
    let destination ← textMember? members "destination"
    return .relation ⟨cardinality, .ofText source, .ofText destination⟩
  | .aliasTo => do return .aliasTo (← textMember? members "target")
  | .index => do return .index (← textMember? members "definition")
  | .constraint => do return .constraint (← textMember? members "definition")

/-- How deep the members of a column may be nested. -/
def maxNesting : Nat := 123

/-- The column of a document. All members but the marker have to be plain and not too deep, also
those that are passed over. -/
def Column.ofJson? : Json → Option Column
  | .object members => do
    let members ← named? members
    let marker ← markerOfMembers? members
    let parts := members.filter fun m => m.1 ≠ "renamedFrom"
    -- The kind decides which parts are read, so all of them have to be kept until it is known.
    guard (parts.all fun m => m.2.isPlain && m.2.depth ≤ maxNesting)
    let kind ← FieldKind.ofJson? (← required? parts "kind")
    return ⟨← Field.ofMembers? parts kind, marker⟩
  | _ => none

/-- The map of a document whose members are read one by one. -/
def mapOfJson? {α : Type} (read? : Json → Option α) : Json → Option (OrderedMap α)
  | .object members => do
    let members ← named? members
    -- Every member is read, also one that a later member of the same name replaces.
    let entries ← members.mapM fun m => (read? m.2).map fun a => (m.1, a)
    return OrderedMap.ofList entries
  | _ => none

/-- The table of a document: an object, or the array of its columns and its marker. -/
def Table.ofJson? : Json → Option Table
  | .object members => do
    let members ← named? members
    let columns ← mapOfJson? Column.ofJson? (← required? members "columns")
    return ⟨columns, ← markerOfMembers? members⟩
  | .array [columns] => do return ⟨← mapOfJson? Column.ofJson? columns, none⟩
  | .array [columns, marker] => do
    return ⟨← mapOfJson? Column.ofJson? columns, ← markerOfJson? marker⟩
  | _ => none

/-- The schema of a document. -/
def Schema.ofJson? (document : Json) : Option Schema := do
  return ⟨← mapOfJson? Table.ofJson? document⟩

/-- The schema of a persisted text. -/
def Schema.ofText? (text : String) : Option Schema := do
  Schema.ofJson? (← Json.parse? text)

end Schemata
