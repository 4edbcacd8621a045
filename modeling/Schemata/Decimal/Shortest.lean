/-!
# The shortest decimal of a double

A finite double other than zero is `m * 2 ^ q`. All reals of an interval around it are rounded to
it. Its shortest decimal is the point of that interval on the coarsest decimal grid that has one;
of two such points the one nearer to the double, and the upper one if they are equally near.

Everything is computed on natural numbers: a double, the ends of its interval and the points of a
grid are compared as multiples of one small unit.

## Main definitions

* `Decimal.Binary`, `Decimal.ofBits`: the parts of a double
* `Decimal.Interval`: the reals that are rounded to a double
* `Decimal.shortest`: the shortest decimal
* `Decimal.realText`: the text of a double, without exponent
-/

namespace Schemata.Decimal

/-- The positive number `significand * 2 ^ exponent`. -/
structure Binary where
  /-- The significand, of at most 53 bits. -/
  significand : Nat
  /-- The power of two. -/
  exponent : Int
  deriving DecidableEq

/-- The classes of doubles; the sign is told apart. -/
inductive Magnitude
  | zero
  | finite (value : Binary)
  | infinite
  | notANumber

/-- The magnitude that the bits of a double stand for. -/
def ofBits (bits : Nat) : Magnitude :=
  let fraction := bits % Nat.pow 2 52
  let scale := bits / Nat.pow 2 52 % Nat.pow 2 11
  if scale = 2047 then if fraction = 0 then .infinite else .notANumber
  else if scale = 0 then if fraction = 0 then .zero else .finite ⟨fraction, -1074⟩
  else .finite ⟨Nat.pow 2 52 + fraction, (scale : Int) - 1075⟩

/-- The reals that are rounded to a double, in multiples of `2 ^ unit`. -/
structure Interval where
  /-- The lower end. -/
  low : Nat
  /-- The double itself. -/
  middle : Nat
  /-- The upper end. -/
  high : Nat
  /-- The power of two that all three count. -/
  unit : Int
  /-- Whether the ends belong to the interval. -/
  closed : Bool

/-- The interval of a double. Below a power of two the doubles are twice as dense, except at the
least exponent. A tie is rounded to an even significand. -/
def Binary.interval (value : Binary) : Interval where
  low := 4 * value.significand -
    (if value.significand = Nat.pow 2 52 ∧ value.exponent ≠ -1074 then 1 else 2)
  middle := 4 * value.significand
  high := 4 * value.significand + 2
  unit := value.exponent - 2
  closed := value.significand % 2 = 0

/-- The factors by which a multiple of `2 ^ unit` and one of `10 ^ grid` are multiplied to count
the same. -/
def factors (unit grid : Int) : Nat × Nat :=
  (Nat.pow 2 unit.toNat * Nat.pow 10 (-grid).toNat,
    Nat.pow 2 (-unit).toNat * Nat.pow 10 grid.toNat)

/-- The multiple of `10 ^ grid` in the interval that is nearest to its double, the upper one of
two, if there is any. -/
def Interval.nearest? (interval : Interval) (grid : Int) : Option Nat :=
  let (scale, step) := factors interval.unit grid
  -- From here on everything counts the common unit of the interval and the grid.
  let low := interval.low * scale
  let middle := interval.middle * scale
  let high := interval.high * scale
  let below := middle / step
  let above := below + 1
  let hitBelow := low < below * step || (interval.closed && low == below * step)
  let hitAbove := above * step < high || (interval.closed && above * step == high)
  if hitBelow && hitAbove then
    if middle - below * step < above * step - middle then some below else some above
  else if hitBelow then some below
  else if hitAbove then some above
  else none

/-- The grids that can hold a shortest decimal, the coarsest first: no double reaches
`10 ^ 309`, and `10 ^ -324` is finer than all of them. -/
def grids : List Int := (List.range 640).map fun i : Nat => 309 - (i : Int)

/-- The shortest decimal of a double: its digits as a number, and their power of ten. -/
def shortest (value : Binary) : Nat × Int :=
  let interval := value.interval
  let onGrid? (grid : Int) := (interval.nearest? grid).map fun digits => (digits, grid)
  (grids.findSome? onGrid?).getD (0, 0)

/-- The text of `digits * 10 ^ grid` without exponent. -/
def positional (digits : Nat) (grid : Int) : String :=
  let text := Nat.toDigits 10 digits
  if 0 ≤ grid then String.ofList (text ++ List.replicate grid.toNat '0')
  else
    let places := (-grid).toNat
    let padded := List.replicate (places + 1 - text.length) '0' ++ text
    let point := padded.length - places
    String.ofList (padded.take point ++ '.' :: padded.drop point)

/-- The text of a magnitude. -/
def Magnitude.text : Magnitude → String
  | zero => "0"
  | finite value => positional (shortest value).1 (shortest value).2
  | infinite => "inf"
  | notANumber => "NaN"

/-- The text of a double: the sign, also of a zero, and the shortest decimal. -/
def realText (x : Float) : String :=
  let bits := x.toBits.toNat
  match ofBits bits with
  | .notANumber => Magnitude.notANumber.text
  | magnitude => (if Nat.pow 2 63 ≤ bits then "-" else "") ++ magnitude.text

end Schemata.Decimal
