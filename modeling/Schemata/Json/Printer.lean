import Schemata.Json.Basic
import Schemata.Text.Inspect

/-!
# Writing JSON

The written form of a document: an element or member per line, two spaces deeper than its
container, and a container without contents on one line.

## Main definitions

* `Json.renderString`: a string with its escapes
* `Json.pretty`: the written form of a document
-/

namespace Schemata.Json

/-- A character inside a string: quote, backslash and control characters are escaped. -/
def renderChar (c : Char) : String :=
  if c = '"' then "\\\""
  else if c = '\\' then "\\\\"
  else if c = '\x08' then "\\b"
  else if c = '\x0c' then "\\f"
  else if c = '\n' then "\\n"
  else if c = '\r' then "\\r"
  else if c = '\t' then "\\t"
  else if c.toNat < 0x20 then
    "\\u00" ++ (if c.toNat < 0x10 then "0" else "") ++ Text.hexDigits c.toNat
  else c.toString

/-- A string between its quotes. One that stands for no text is written as the least of its
kind, a lone surrogate. -/
def renderString (text : Option String) : String :=
  match text with
  | some text => "\"" ++ String.join (text.toList.map renderChar) ++ "\""
  | none => "\"\\ud800\""

/-- The blanks at the start of a line. -/
def margin (depth : Nat) : String := String.ofList (List.replicate (2 * depth) ' ')

/-- The items of a container inside `depth` others: a line each, between the container's marks. -/
def block (opening closing : String) (depth : Nat) : List String → String
  | [] => opening ++ closing
  | item :: items =>
    opening ++ "\n"
      ++ String.intercalate ",\n" ((item :: items).map fun item => margin (depth + 1) ++ item)
      ++ "\n" ++ margin depth ++ closing

mutual

/-- A document inside `depth` containers. -/
def render (depth : Nat) : Json → String
  | null => "null"
  | bool b => if b then "true" else "false"
  | number lexeme => lexeme
  | string text => renderString text
  | array elements => block "[" "]" depth (renderElements (depth + 1) elements)
  | object members => block "\x7b" "\x7d" depth (renderMembers (depth + 1) members)

/-- The elements of an array. -/
def renderElements (depth : Nat) : List Json → List String
  | [] => []
  | v :: rest => render depth v :: renderElements depth rest

/-- The members of an object. -/
def renderMembers (depth : Nat) : List (Option String × Json) → List String
  | [] => []
  | (key, v) :: rest => (renderString key ++ ": " ++ render depth v) :: renderMembers depth rest

end

/-- The written form of a document. -/
def pretty (v : Json) : String := render 0 v

end Schemata.Json
