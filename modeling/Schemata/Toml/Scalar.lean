import Schemata.Decimal.Reading
import Schemata.Toml.Value

/-!
# Numbers, dates and booleans in TOML

A scalar that is no string is a run of letters, digits and a few marks, and is recognised as a
whole. Digits may be separated by single underscores, and a number has no leading zeros.

## Main definitions

* `integer?`, `isFloat`, `isDatetime`: the forms of scalars
* `scalar?`: the value of a run of characters
-/

namespace Schemata.Toml

/-! ### Numbers -/

/-- What follows further digits, each perhaps behind an underscore. -/
def afterMoreDigits (isDigit : Char → Bool) : List Char → List Char
  | '_' :: c :: rest => if isDigit c then afterMoreDigits isDigit rest else '_' :: c :: rest
  | c :: rest => if isDigit c then afterMoreDigits isDigit rest else c :: rest
  | [] => []

/-- What follows digits, at least one. -/
def afterDigits? (isDigit : Char → Bool) : List Char → Option (List Char)
  | c :: rest => if isDigit c then some (afterMoreDigits isDigit rest) else none
  | [] => none

/-- The characters without a sign at their start. -/
def unsigned : List Char → List Char
  | '+' :: rest => rest
  | '-' :: rest => rest
  | cs => cs

/-- What follows an integer in decimal digits: a zero, or digits that do not start with one. -/
def afterDecimal? (cs : List Char) : Option (List Char) :=
  match unsigned cs with
  | '0' :: rest => some rest
  | cs => afterDigits? Char.isDigit cs

/-- The value of a digit in any base up to sixteen. -/
def digitValue (c : Char) : Nat :=
  if c.isDigit then c.toNat - '0'.toNat else c.toLower.toNat - 'a'.toNat + 10

/-- The number that digits stand for in a base, underscores aside. -/
def digitsValue (base : Nat) (digits : List Char) : Nat :=
  (digits.filter (· ≠ '_')).foldl (fun n c => n * base + digitValue c) 0

/-- Whether the character is a digit of a base up to sixteen. -/
def isDigitOf (base : Nat) (c : Char) : Bool :=
  (c.isDigit || ('a' ≤ c && c ≤ 'f') || ('A' ≤ c && c ≤ 'F')) && digitValue c < base

/-- The non-negative integer of the digits after the mark of a base. -/
def based? (base : Nat) (digits : List Char) : Option Int :=
  if afterDigits? (isDigitOf base) digits = some [] then some (digitsValue base digits) else none

/-- The integer of a run of characters, in 64 bits with sign. -/
def integer? (cs : List Char) : Option Int := do
  let n : Int ← match cs with
    | '0' :: 'x' :: digits => based? 16 digits
    | '0' :: 'o' :: digits => based? 8 digits
    | '0' :: 'b' :: digits => based? 2 digits
    | _ =>
      if afterDecimal? cs = some [] then
        let magnitude : Int := digitsValue 10 (unsigned cs)
        some (if cs.head? = some '-' then -magnitude else magnitude)
      else none
  guard (-9223372036854775808 ≤ n ∧ n ≤ 9223372036854775807)
  return n

/-- What follows an exponent, if there is one. -/
def afterExponent? : List Char → Option (List Char)
  | 'e' :: rest => afterDigits? Char.isDigit (unsigned rest)
  | 'E' :: rest => afterDigits? Char.isDigit (unsigned rest)
  | cs => some cs

/-- Whether the characters are a number with a fraction or an exponent, and finite or negative. -/
def isDecimalFloat (cs : List Char) : Bool :=
  let wellFormed := match afterDecimal? cs with
    | some ('.' :: rest) => (afterDigits? Char.isDigit rest).bind afterExponent? = some []
    | some (c :: rest) => afterExponent? (c :: rest) = some []
    | _ => false
  wellFormed &&
    (Decimal.real? (String.ofList (cs.filter (· ≠ '_')))).any fun x =>
      x != Float.ofBits 0x7FF0000000000000

/-- Whether the characters are a float. -/
def isFloat (cs : List Char) : Bool :=
  unsigned cs = "inf".toList || unsigned cs = "nan".toList || isDecimalFloat cs

/-! ### Dates and times -/

/-- The number of two digits, and what follows them. -/
def twoDigits? : List Char → Option (Nat × List Char)
  | a :: b :: rest => if a.isDigit && b.isDigit then some (digitsValue 10 [a, b], rest) else none
  | _ => none

/-- Whether a year has a day more than others. -/
def isLeapYear (year : Nat) : Bool := year % 4 = 0 && (year % 100 ≠ 0 || year % 400 = 0)

/-- The number of days of a month. -/
def daysOf (year month : Nat) : Nat :=
  if month = 2 then if isLeapYear year then 29 else 28
  else if [4, 6, 9, 11].contains month then 30
  else 31

/-- The character that has to come next, and what follows it. -/
def expect? (expected : Char) : List Char → Option (List Char)
  | c :: rest => if c = expected then some rest else none
  | [] => none

/-- What follows a date. -/
def afterDate? (cs : List Char) : Option (List Char) := do
  let (century, rest) ← twoDigits? cs
  let (yearOfCentury, rest) ← twoDigits? rest
  let (month, rest) ← twoDigits? (← expect? '-' rest)
  let (day, rest) ← twoDigits? (← expect? '-' rest)
  guard (1 ≤ month ∧ month ≤ 12)
  guard (1 ≤ day ∧ day ≤ daysOf (century * 100 + yearOfCentury) month)
  return rest

/-- What follows hours and minutes. -/
def afterMinutes? (cs : List Char) : Option (List Char) := do
  let (hour, rest) ← twoDigits? cs
  let (minute, rest) ← twoDigits? (← expect? ':' rest)
  guard (hour ≤ 23 ∧ minute ≤ 59)
  return rest

/-- What follows a time of day. -/
def afterTime? (cs : List Char) : Option (List Char) := do
  let (second, rest) ← twoDigits? (← expect? ':' (← afterMinutes? cs))
  guard (second ≤ 60)
  match rest with
  | '.' :: c :: rest =>
    guard c.isDigit
    return rest.dropWhile Char.isDigit
  | rest => return rest

/-- What follows the distance of a time zone, if there is one. -/
def afterOffset? : List Char → Option (List Char)
  | 'Z' :: rest => some rest
  | 'z' :: rest => some rest
  | '+' :: rest => afterMinutes? rest
  | '-' :: rest => afterMinutes? rest
  | cs => some cs

/-- Whether the characters are a date, a time, or both with a letter or a blank between them. -/
def isDatetime (cs : List Char) : Bool :=
  match afterDate? cs with
  | none => afterTime? cs = some []
  | some [] => true
  | some (c :: rest) =>
    ['T', 't', ' '].contains c && (afterTime? rest).bind afterOffset? = some []

/-! ### Scalars -/

/-- The characters of a scalar that is no string. -/
def isScalarChar (c : Char) : Bool :=
  c.isAlphanum || c = '_' || c = '+' || c = '-' || c = '.' || c = ':'

/-- The value of a run of characters. -/
def scalar? (cs : List Char) : Option Value :=
  if cs = "true".toList then some (.boolean true)
  else if cs = "false".toList then some (.boolean false)
  else
    match integer? cs with
    | some n => some (.integer n)
    | none =>
      if isFloat cs then some (.float (String.ofList cs))
      else if isDatetime cs then some (.datetime (String.ofList cs))
      else none

/-- The run of characters at the start of a text, with the time of day that follows a date and a
blank, and what comes after it. -/
def splitScalar (cs : List Char) : List Char × List Char :=
  let run := cs.takeWhile isScalarChar
  let after := cs.dropWhile isScalarChar
  match after with
  | ' ' :: hour :: hour' :: ':' :: rest =>
    if hour.isDigit && hour'.isDigit && afterDate? run = some [] then
      let time := hour :: hour' :: ':' :: rest
      (run ++ ' ' :: time.takeWhile isScalarChar, time.dropWhile isScalarChar)
    else (run, after)
  | _ => (run, after)

end Schemata.Toml
