import Schemata.Toml.Reader

/-!
# TOML documents

The lines of a text make up one table. A header opens a table, or a further table of an array,
and the entries after it go there. No table is opened twice, and nothing is written twice.

## Main definitions

* `updateParent`: a change inside the table that a path leads to
* `Document`: the document so far, and the section that is open
* `parse?`: the document of a text
-/

namespace Schemata.Toml

/-- The entries after a change in the table that a path leads to. Tables on the way are made if
they are not there; of an array the last table is meant. -/
def updateParent (change : TableEntries → Option TableEntries) :
    List String → TableEntries → Option TableEntries
  | [], entries => change entries
  | name :: path, entries => do
    let changed ← match Entries.find? entries name with
      | none => (updateParent change path []).map (Value.table .implied)
      -- A table between braces is complete once it is closed.
      | some (.table .inline _) => none
      | some (.table origin inner) => (updateParent change path inner).map (Value.table origin)
      | some (.tables elements) => do
        let last ← elements.getLast?
        let last ← updateParent change path last
        pure (Value.tables (elements.dropLast ++ [last]))
      | some _ => none
    return Entries.set entries name changed

/-- The entries with a table opened under a name. Only a table that exists because of tables
inside it can be there before. -/
def openTable (name : String) (entries : TableEntries) : Option TableEntries :=
  match Entries.find? entries name with
  | none => some (Entries.set entries name (.table .header []))
  | some (.table .implied inner) => some (Entries.set entries name (.table .header inner))
  | some _ => none

/-- The entries with a further table of the array under a name. -/
def openElement (name : String) (entries : TableEntries) : Option TableEntries :=
  match Entries.find? entries name with
  | none => some (Entries.set entries name (.tables [[]]))
  | some (.tables elements) => some (Entries.set entries name (.tables (elements ++ [[]])))
  | some _ => none

/-- A document under construction. -/
structure Document where
  /-- The entries so far. -/
  entries : TableEntries := []
  /-- The path of the section that is open. -/
  current : List String := []

/-- The document after a change at the last part of a path. -/
def Document.open? (document : Document) (path : List String)
    (change : String → TableEntries → Option TableEntries) : Option Document := do
  let name ← path.getLast?
  return ⟨← updateParent (change name) path.dropLast document.entries, path⟩

/-- The document after a line. -/
def Document.add? (document : Document) : Line → Option Document
  | .table path => document.open? path openTable
  | .element path => document.open? path openElement
  | .entry path value => do
    let entries ← updateParent (addDotted value path) document.current document.entries
    return { document with entries }

/-- The entries of the document of a text, if it is one. -/
def parse? (text : String) : Option TableEntries := do
  let document ← (← lines? text).foldlM Document.add? {}
  return document.entries

end Schemata.Toml
