import Schemata.Json.Token

/-!
# Reading JSON

A JSON text is read by putting its tokens together: a scalar is a value, brackets hold values and
braces hold members, each separated by commas.

## Main definitions

* `Json.parse?`: the document of a text
-/

namespace Schemata.Json

mutual

/-- Reads a value; `fuel` bounds the number of tokens. -/
def value? : (fuel : Nat) → List Token → Option (Json × List Token)
  | _, .scalar value :: rest => some (value, rest)
  | fuel + 1, .mark '[' :: rest =>
    match rest with
    | .mark ']' :: rest => some (array [], rest)
    | _ => (elements? fuel rest).map fun (vs, after) => (array vs, after)
  | fuel + 1, .mark '\x7b' :: rest =>
    match rest with
    | .mark '\x7d' :: rest => some (object [], rest)
    | _ => (members? fuel rest).map fun (ms, after) => (object ms, after)
  | _, _ => none

/-- Reads values up to the closing bracket, at least one. -/
def elements? : (fuel : Nat) → List Token → Option (List Json × List Token)
  | 0, _ => none
  | fuel + 1, tokens => do
    match ← value? fuel tokens with
    | (v, .mark ']' :: rest) => return ([v], rest)
    | (v, .mark ',' :: rest) =>
      let (vs, after) ← elements? fuel rest
      return (v :: vs, after)
    | _ => none

/-- Reads members up to the closing brace, at least one. -/
def members? : (fuel : Nat) → List Token → Option (List (Option String × Json) × List Token)
  | 0, _ => none
  | fuel + 1, .scalar (string key) :: .mark ':' :: tokens => do
    match ← value? fuel tokens with
    | (v, .mark '\x7d' :: rest) => return ([(key, v)], rest)
    | (v, .mark ',' :: rest) =>
      let (ms, after) ← members? fuel rest
      return ((key, v) :: ms, after)
    | _ => none
  | _, _ => none

end

/-- The document of a text, if the text is one. -/
def parse? (text : String) : Option Json := do
  let tokens ← Token.ofText? text
  match ← value? tokens.length tokens with
  | (v, []) => return v
  | _ => none

end Schemata.Json
