import Schemata.Text.Printable

/-!
# Texts shown for inspection

A message that names a text has to show it without doubt: between double quotes, with the quote,
the backslash and every character without a mark of its own written as an escape.

## Main definitions

* `hexDigits`: the lower-case hexadecimal digits of a number
* `inspectChar`, `inspect`: a character and a text as they are shown
-/

namespace Schemata.Text

/-- The lower-case hexadecimal digits of a number, without leading zeros. -/
def hexDigits (n : Nat) : String := String.ofList (Nat.toDigits 16 n)

/-- A character as it is shown between double quotes. -/
def inspectChar (c : Char) : String :=
  if c.toNat = 0 then "\\0"
  else if c = '\t' then "\\t"
  else if c = '\r' then "\\r"
  else if c = '\n' then "\\n"
  else if c = '\"' then "\\\""
  else if c = '\\' then "\\\\"
  else if isPrintable c then c.toString
  else "\\u\x7b" ++ hexDigits c.toNat ++ "\x7d"

/-- A text as it is shown: between double quotes, each character in its shown form. -/
def inspect (text : String) : String :=
  "\"" ++ String.join (text.toList.map inspectChar) ++ "\""

end Schemata.Text
