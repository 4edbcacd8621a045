import Schemata.Json.Basic

/-!
# The tokens of a JSON text

A JSON text is a sequence of marks (brackets, braces, colons, commas) and scalars with blanks
between them. The grammar is that of RFC 8259, without exceptions.

## Main definitions

* `Token`: a mark, or a scalar
* `scanString`: the code units of a string and what follows its closing quote
* `textOfUnits?`: the text of the code units, if every surrogate has its partner
* `isNumber`: whether characters are a number
* `Token.ofText?`: the tokens of a text
-/

namespace Schemata.Json

/-- A token of a JSON text. -/
inductive Token
  /-- A bracket, brace, colon or comma. -/
  | mark (c : Char)
  /-- A literal, number or string. -/
  | scalar (value : Json)

/-- The blanks between tokens. -/
def isSpace (c : Char) : Bool := c = ' ' || c = '\t' || c = '\n' || c = '\r'

/-- The marks. -/
def isMark (c : Char) : Bool :=
  c = '[' || c = ']' || c = '\x7b' || c = '\x7d' || c = ':' || c = ','

/-- The value of a hexadecimal digit in either case. -/
def hexDigit? (c : Char) : Option Nat :=
  if '0' ≤ c ∧ c ≤ '9' then some (c.toNat - '0'.toNat)
  else if 'a' ≤ c ∧ c ≤ 'f' then some (c.toNat - 'a'.toNat + 10)
  else if 'A' ≤ c ∧ c ≤ 'F' then some (c.toNat - 'A'.toNat + 10)
  else none

/-- The value of hexadecimal digits. -/
def hexValue? (digits : List Char) : Option Nat :=
  digits.foldlM (fun value c => (hexDigit? c).map fun digit => value * 16 + digit) 0

/-- The character that a one-letter escape stands for. -/
def escape? : Char → Option Char
  | '"' => some '"'
  | '\\' => some '\\'
  | '/' => some '/'
  | 'b' => some '\x08'
  | 'f' => some '\x0c'
  | 'n' => some '\n'
  | 'r' => some '\r'
  | 't' => some '\t'
  | _ => none

/-- Reads a string after its opening quote: its code units, and what follows the closing quote.
An escape of four digits gives a unit; every other character gives its code point. -/
def scanString : List Char → Option (List Nat × List Char)
  | [] => none
  | '"' :: rest => some ([], rest)
  | '\\' :: 'u' :: a :: b :: c :: d :: rest => do
    let unit ← hexValue? [a, b, c, d]
    let (units, after) ← scanString rest
    return (unit :: units, after)
  | '\\' :: c :: rest => do
    let escaped ← escape? c
    let (units, after) ← scanString rest
    return (escaped.toNat :: units, after)
  | c :: rest => do
    guard (0x20 ≤ c.toNat ∧ c ≠ '\\')
    let (units, after) ← scanString rest
    return (c.toNat :: units, after)

/-- The units that open a pair of surrogates. -/
def isHighSurrogate (unit : Nat) : Bool := 0xD800 ≤ unit && unit < 0xDC00

/-- The units that close a pair of surrogates. -/
def isLowSurrogate (unit : Nat) : Bool := 0xDC00 ≤ unit && unit < 0xE000

/-- The text of code units, if every surrogate in them has its partner. -/
def textOfUnits? : List Nat → Option (List Char)
  | [] => some []
  | [unit] => if isHighSurrogate unit || isLowSurrogate unit then none else some [Char.ofNat unit]
  | high :: low :: rest =>
    if isHighSurrogate high && isLowSurrogate low then
      let codePoint := 0x10000 + (high - 0xD800) * 0x400 + (low - 0xDC00)
      (textOfUnits? rest).map (Char.ofNat codePoint :: ·)
    else if isHighSurrogate high || isLowSurrogate high then none
    else (textOfUnits? (low :: rest)).map (Char.ofNat high :: ·)

/-- What is left of a number after its digits, if there is one at least. -/
def afterDigits? (cs : List Char) : Option (List Char) :=
  if (cs.head?.map Char.isDigit).getD false then some (cs.dropWhile Char.isDigit) else none

/-- What is left after the integer part: a zero, or digits that do not start with one. -/
def afterInteger? : List Char → Option (List Char)
  | '0' :: rest => some rest
  | cs => afterDigits? cs

/-- What is left after a fraction, if there is one. -/
def afterFraction? : List Char → Option (List Char)
  | '.' :: rest => afterDigits? rest
  | cs => some cs

/-- What is left after an exponent, if there is one. -/
def afterExponent? : List Char → Option (List Char)
  | e :: rest =>
    if e = 'e' ∨ e = 'E' then
      match rest with
      | '+' :: digits => afterDigits? digits
      | '-' :: digits => afterDigits? digits
      | digits => afterDigits? digits
    else some (e :: rest)
  | [] => some []

/-- Whether the characters are a number. -/
def isNumber (cs : List Char) : Bool :=
  let unsigned := match cs with
    | '-' :: rest => rest
    | _ => cs
  ((afterInteger? unsigned).bind afterFraction?).bind afterExponent? == some []

/-- The characters that numbers are made of. -/
def isNumberChar (c : Char) : Bool :=
  c.isDigit || c = '-' || c = '+' || c = '.' || c = 'e' || c = 'E'

/-- The literal of a word. -/
def literal? (word : List Char) : Option Json :=
  if word = "null".toList then some .null
  else if word = "true".toList then some (.bool true)
  else if word = "false".toList then some (.bool false)
  else none

namespace Token

/-- The token at the start of a text that begins with no blank, and what follows it. -/
def scan? : List Char → Option (Token × List Char)
  | [] => none
  | c :: rest =>
    if isMark c then some (mark c, rest)
    else if c = '"' then do
      let (units, after) ← scanString rest
      return (scalar (string ((textOfUnits? units).map String.ofList)), after)
    else if c.isDigit || c = '-' then do
      let lexeme := (c :: rest).takeWhile isNumberChar
      guard (isNumber lexeme)
      return (scalar (number (String.ofList lexeme)), (c :: rest).dropWhile isNumberChar)
    else do
      let value ← literal? ((c :: rest).takeWhile Char.isAlpha)
      return (scalar value, (c :: rest).dropWhile Char.isAlpha)

/-- The tokens of the characters, of which there are at most `fuel`. -/
def scanAll? : (fuel : Nat) → List Char → Option (List Token)
  | 0, cs => if cs.isEmpty then some [] else none
  | fuel + 1, cs =>
    match cs with
    | [] => some []
    | c :: rest =>
      if isSpace c then scanAll? fuel rest
      else do
        let (token, after) ← scan? (c :: rest)
        let tokens ← scanAll? fuel after
        return token :: tokens

/-- The tokens of a text. -/
def ofText? (text : String) : Option (List Token) :=
  scanAll? text.toList.length text.toList

end Token

end Schemata.Json
