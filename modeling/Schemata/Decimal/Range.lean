/-!
# Decimal numbers within reach of binary floating point

A decimal number is taken as a significand of at most 64 bits and a power of ten. It is in range
if the product of the two, each rounded to the 53 bits of a double, rounds to a finite double.

## Main definitions

* `Decimal.Parts`: a significand and an exponent
* `Decimal.ofLexeme`: the parts of a written number
* `Decimal.roundBits`: rounding to a number of significant bits, ties to even
* `Decimal.Parts.isFinite`: whether the number is in range
-/

namespace Schemata.Decimal

/-- A number `significand * 10 ^ exponent`, without its sign. -/
structure Parts where
  /-- The leading digits as a number. -/
  significand : Nat
  /-- The power of ten. -/
  exponent : Int

/-- The value of a decimal digit. -/
def digitValue (c : Char) : Nat := c.toNat - '0'.toNat

/-- Whether another digit still fits into 64 bits. -/
def hasRoom (significand : Nat) (c : Char) : Bool := significand * 10 + digitValue c < Nat.pow 2 64

/-- The digits before the point: from the first one that does not fit, each counts as a power of
ten. -/
def integerPart (significand : Nat) : List Char → Parts
  | [] => ⟨significand, 0⟩
  | c :: rest =>
    if hasRoom significand c then integerPart (significand * 10 + digitValue c) rest
    else ⟨significand, (c :: rest).length⟩

/-- The digits after the point: from the first one that does not fit, they are dropped. -/
def fractionPart (parts : Parts) : List Char → Parts
  | [] => parts
  | c :: rest =>
    if hasRoom parts.significand c then
      fractionPart ⟨parts.significand * 10 + digitValue c, parts.exponent - 1⟩ rest
    else parts

/-- The number that digits stand for. -/
def digitsValue (digits : List Char) : Nat :=
  digits.foldl (fun n c => n * 10 + digitValue c) 0

/-- The parts of a number written as digits, a fraction and an exponent, the last two optional. -/
def ofLexeme (lexeme : List Char) : Parts :=
  let unsigned := lexeme.dropWhile (· = '-')
  let afterInteger := unsigned.dropWhile Char.isDigit
  let integer := integerPart 0 (unsigned.takeWhile Char.isDigit)
  let fraction := if afterInteger.head? = some '.' then afterInteger.drop 1 else []
  let parts := fractionPart integer (fraction.takeWhile Char.isDigit)
  -- What is left after the fraction is the mark of the exponent and the exponent itself.
  let scale := (afterInteger.dropWhile fun c => c = '.' || c.isDigit).drop 1
  let shift : Int := match scale with
    | '-' :: digits => -(digitsValue digits)
    | '+' :: digits => digitsValue digits
    | digits => digitsValue digits
  ⟨parts.significand, parts.exponent + shift⟩

/-- The number rounded to its leading `bits` binary digits, a tie to the even neighbour. -/
def roundBits (bits n : Nat) : Nat :=
  let unit := Nat.pow 2 ((n.log2 + 1) - bits)
  let quotient := n / unit
  let twice := 2 * (n % unit)
  if twice > unit || (twice == unit && quotient % 2 == 1) then (quotient + 1) * unit
  else quotient * unit

/-- The least number that no finite double is nearest to. -/
def overflow : Nat := Nat.pow 2 1024 - Nat.pow 2 970

/-- Whether the number has a finite double for its product. -/
def Parts.isFinite (parts : Parts) : Bool :=
  parts.significand == 0 || parts.exponent < 0
    || (parts.exponent ≤ 308
      && roundBits 53 parts.significand * roundBits 53 (Nat.pow 10 parts.exponent.toNat) < overflow)

end Schemata.Decimal
