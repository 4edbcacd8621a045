import Schemata.Sql.Grammar

/-!
# Rows in files

A table may keep its rows in files, and rows may be written into files. What is told about the
files only has to be well-formed.

## Main definitions

* `Grammar.fileFormat`: the formats of files
* `Grammar.fileSetting`: what is told about the files of a table
-/

namespace Schemata.Sql.Grammar

open Reader

variable (grammar : Grammar)

/-- Takes a format of files. -/
def fileFormat : Reader String :=
  oneOf ["AVRO", "JSONFILE", "ORC", "PARQUET", "RCFILE", "SEQUENCEFILE", "TEXTFILE"]

/-- The marks in the text of a row: the word that announces each, and the words after that. -/
def rowMarks : List (String × List String) :=
  [("FIELDS", ["TERMINATED", "BY"]), ("COLLECTION", ["ITEMS", "TERMINATED", "BY"]),
    ("MAP", ["KEYS", "TERMINATED", "BY"]), ("LINES", ["TERMINATED", "BY"]),
    ("NULL", ["DEFINED", "AS"])]

/-- Takes a mark in the text of a row, and tells whether there was one. The word that announces it
is gone even where the others do not follow. -/
def rowMark : Reader Bool := do
  match ← hasOneOf (rowMarks.map Prod.fst) with
  | none => return false
  | some word =>
    if !(← follow ((rowMarks.lookup word).getD []) name) then return false
    if word = "FIELDS" then optionally ["ESCAPED", "BY"] name
    return true

/-- Takes how the text of a row is taken apart. -/
def rowFormat : Reader Unit := do
  keyword "FORMAT"
  if ← hasKeyword "SERDE" then discard text
  else
    discard (hasKeyword "DELIMITED")
    repeatedly rowMark

/-- Takes the format of the files of a table. -/
def storedFormat : Reader Unit := do
  keyword "AS"
  if ← hasKeyword "INPUTFORMAT" then
    discard grammar.expr
    keyword "OUTPUTFORMAT"
    discard grammar.expr
  else discard fileFormat

/-- Takes how rows are kept in files, or where, if that is told, and tells whether it was. -/
def fileSetting : Reader Bool := do
  if ← follow ["ROW"] rowFormat then return true
  else if ← follow ["STORED"] grammar.storedFormat then return true
  else if ← follow ["LOCATION"] text then return true
  else follow ["WITH", "SERDEPROPERTIES"] grammar.settings

end Schemata.Sql.Grammar
