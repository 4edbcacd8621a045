import Schemata.Schema.Basic
import Schemata.Diagnostic
import Schemata.Sql.Statement

/-!
# Schemas of SQL text

The tables that a text of SQL statements creates are a schema of stored columns. Such a text knows
no relations, aliases and indexes; they are added by hand.

## Main definitions

* `ReadingError`: why a text gives no schema
* `Schema.ofSql`: the schema of a text
-/

namespace Schemata

/-- Why a text of SQL statements gives no schema. -/
inductive ReadingError
  /-- The text is not well-formed. -/
  | malformed
  /-- A column has no type. -/
  | untyped (column : ColumnRef)
  deriving DecidableEq

/-- The report of the failure; the words for a text that is not well-formed are left open. -/
def ReadingError.diagnostic : ReadingError → Diagnostic
  | malformed => { message := "parse error", code := "schemaweave::translate::parse" }
  | untyped column => {
      message := "column " ++ column.text ++ " has no data type"
      code := "schemaweave::translate::unsupported_column" }

/-- The column of a definition. -/
def Column.ofDefinition (table : String) (definition : Sql.ColumnDefinition) :
    Except ReadingError Column :=
  match definition.type with
  | none => .error (.untyped ⟨table, definition.name⟩)
  | some type =>
    let constraints := String.intercalate " " (definition.options.map Sql.NamedOption.render)
    .ok ⟨.atom ⟨type.render, .ofSqlType type.render, constraints⟩, none⟩

/-- The table of a definition; of two columns of one name the later counts. -/
def Table.ofDefinition (definition : Sql.TableDefinition) : Except ReadingError Table :=
  definition.columns.foldlM (fun table column => do
    return table.insertColumn column.name (← Column.ofDefinition definition.name column)) .empty

/-- The schema of a text; of two tables of one name the later counts. -/
def Schema.ofSql (dialect : Dialect) (text : String) : Except ReadingError Schema :=
  match Sql.tableDefinitions? dialect text with
  | none => .error .malformed
  | some definitions =>
    definitions.foldlM (fun schema definition => do
      return schema.insertTable definition.name (← Table.ofDefinition definition)) .empty

end Schemata
