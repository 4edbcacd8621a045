import Schemata.Decimal.Range

/-!
# Reading doubles

A double is written as a decimal number with an optional sign, fraction and exponent, or as one of
the words for infinity and for what is no number.

## Main definitions

* `Decimal.real?`: the double nearest to a written number
-/

namespace Schemata.Decimal

/-- The number of an exponent, with an optional sign. -/
def exponent? (cs : List Char) : Option Int :=
  let digits := match cs with
    | '-' :: rest => rest
    | '+' :: rest => rest
    | _ => cs
  if digits.isEmpty || !digits.all Char.isDigit then none
  else if cs.head? = some '-' then some (-(digitsValue digits)) else some (digitsValue digits)

/-- The double nearest to `digits * 10 ^ exponent`. An exponent beyond all doubles is decided
without computing the power. -/
def nearest (digits : List Char) (exponent : Int) : Float :=
  let digits := digits.dropWhile (· = '0')
  let significand := digitsValue digits
  -- The number lies below `10 ^ reach`, and at or above a tenth of that unless it is zero.
  let reach := exponent + digits.length
  if significand = 0 then 0
  else if reach > 400 then Float.ofBits 0x7FF0000000000000
  else if reach < -400 then 0
  else if exponent < 0 then Float.ofScientific significand true (-exponent).toNat
  else Float.ofScientific significand false exponent.toNat

/-- The double of a number without sign. -/
def unsigned? (cs : List Char) : Option Float := do
  let integer := cs.takeWhile Char.isDigit
  let rest := cs.dropWhile Char.isDigit
  let (fraction, rest) := match rest with
    | '.' :: rest => (rest.takeWhile Char.isDigit, rest.dropWhile Char.isDigit)
    | _ => ([], rest)
  guard !(integer.isEmpty && fraction.isEmpty)
  let exponent ← match rest with
    | [] => pure 0
    | e :: digits => if e = 'e' || e = 'E' then exponent? digits else none
  return nearest (integer ++ fraction) (exponent - fraction.length)

/-- The double of a text. -/
def real? (text : String) : Option Float :=
  let magnitude? (cs : List Char) : Option Float :=
    let word := cs.map Char.toLower
    if word = "inf".toList || word = "infinity".toList then some (Float.ofBits 0x7FF0000000000000)
    else if word = "nan".toList then some (Float.ofBits 0x7FF8000000000000)
    else unsigned? cs
  match text.toList with
  | '-' :: rest => (magnitude? rest).map fun x => -x
  | '+' :: rest => magnitude? rest
  | cs => magnitude? cs

end Schemata.Decimal
