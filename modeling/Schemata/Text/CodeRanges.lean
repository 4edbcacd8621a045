/-!
# Sets of characters as ranges of code points

A property of the Unicode standard is a table of ranges, and membership is a search in it.
-/

namespace Schemata.Text

/-- A set of code points as a list of ranges, both ends included. -/
abbrev CodeRanges := List (Nat × Nat)

/-- Whether the code point of `c` lies in one of the ranges. -/
def CodeRanges.contains (ranges : CodeRanges) (c : Char) : Bool :=
  ranges.any fun range => range.1 ≤ c.toNat && c.toNat ≤ range.2

end Schemata.Text
