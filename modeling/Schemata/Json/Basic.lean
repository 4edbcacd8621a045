/-!
# JSON documents

The tree of a JSON document. Nothing that a reader of documents may have to look at is lost in
it: the members of an object stand in their order and may repeat a key, a number is kept as it
was written, and a string with a surrogate that has no partner is told apart from a text.

## Main definitions

* `Json`: the documents
* `Json.depth`: how deep arrays and objects are nested in a document
-/

namespace Schemata

/-- A JSON document. A string, or the key of a member, is `none` where its escapes leave a
surrogate without a partner, so that it stands for no text. -/
inductive Json
  /-- The literal `null`. -/
  | null
  /-- The literals `true` and `false`. -/
  | bool (b : Bool)
  /-- A number, as it was written. -/
  | number (lexeme : String)
  /-- A string. -/
  | string (text : Option String)
  /-- An array. -/
  | array (elements : List Json)
  /-- An object, with its members in order. -/
  | object (members : List (Option String × Json))

namespace Json

mutual

/-- How deep arrays and objects are nested; a scalar has depth zero. -/
def depth : Json → Nat
  | array elements => depthOfElements elements + 1
  | object members => depthOfMembers members + 1
  | _ => 0

/-- The greatest depth of the elements. -/
def depthOfElements : List Json → Nat
  | [] => 0
  | v :: rest => max v.depth (depthOfElements rest)

/-- The greatest depth of the members. -/
def depthOfMembers : List (Option String × Json) → Nat
  | [] => 0
  | (_, v) :: rest => max v.depth (depthOfMembers rest)

end

end Json

end Schemata
