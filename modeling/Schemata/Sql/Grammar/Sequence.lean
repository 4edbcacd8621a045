import Schemata.Sql.Grammar

/-!
# Sequences

The options of what counts up values.

## Main definitions

* `Grammar.sequenceOptions`: the options of a sequence, in their one order
-/

namespace Schemata.Sql.Grammar

open Reader

/-- Takes a number after a keyword, if the keyword is next, with a word in between that may be
missing. -/
def sequenceNumber (keyword : String) (between : String) : Reader (List String) := do
  if !(← hasKeyword keyword) then return []
  let words := if ← hasKeyword between then keyword ++ " " ++ between else keyword
  return [words ++ " " ++ (← signedNumber)]

/-- Takes a bound after its keyword, or that there is none. -/
def sequenceBound (keyword : String) : Reader (List String) := do
  if ← hasKeyword keyword then return [keyword ++ " " ++ (← signedNumber)]
  else if ← hasKeywords ["NO", keyword] then return ["NO " ++ keyword]
  else return []

/-- Takes how many values are kept ready, if that is told. -/
def sequenceCache : Reader (List String) := do
  if ← hasKeyword "CACHE" then return ["CACHE " ++ (← signedNumber)] else return []

/-- Takes whether the values start over, if that is told. -/
def sequenceCycle : Reader (List String) := do
  if ← hasKeywords ["NO", "CYCLE"] then return ["NO CYCLE"]
  else if ← hasKeyword "CYCLE" then return ["CYCLE"]
  else return []

/-- Takes the options of a sequence. -/
def sequenceOptions : Reader (List String) := do
  let increment ← sequenceNumber "INCREMENT" "BY"
  let least ← sequenceBound "MINVALUE"
  let greatest ← sequenceBound "MAXVALUE"
  let start ← sequenceNumber "START" "WITH"
  let cache ← sequenceCache
  let cycle ← sequenceCycle
  return increment ++ least ++ greatest ++ start ++ cache ++ cycle

/-- The written form of the options in parentheses: there is a blank at either end. -/
def writtenSequence (options : List String) : String :=
  if options.isEmpty then "" else " (" ++ String.join (options.map (" " ++ ·)) ++ " )"

end Schemata.Sql.Grammar
