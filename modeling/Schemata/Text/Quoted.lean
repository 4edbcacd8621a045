/-!
# Quoted text with doubled quotes

A text between two quotes, in which a quote that belongs to the text is written twice. This is
how SQL writes string literals (between `'`) and delimited names (between `"` or a backtick).

## Main definitions

* `Quoted.body`: the text with every quote doubled
* `Quoted.render`: the body between its two quotes
* `Quoted.scan`: what stands between an opening quote and its closing one, and the text after it

## Main results

* `scan_body`: scanning a rendered text gives the text back, wherever no further quote follows
-/

namespace Schemata.Text.Quoted

/-- The text with every quote written twice. -/
def body (quote : Char) : List Char → List Char
  | [] => []
  | c :: rest => if c = quote then c :: c :: body quote rest else c :: body quote rest

/-- The text between quotes, its own quotes doubled. -/
def render (quote : Char) (cs : List Char) : List Char := quote :: body quote cs ++ [quote]

/-- Reads after an opening quote: the text up to the quote that closes it, and what follows. -/
def scan (quote : Char) : List Char → Option (List Char × List Char)
  | [] => none
  | [c] => if c = quote then some ([], []) else none
  | c :: d :: rest =>
    if c = quote then
      if d = quote then (scan quote rest).map fun (text, after) => (c :: text, after)
      else some ([], d :: rest)
    else (scan quote (d :: rest)).map fun (text, after) => (c :: text, after)

theorem scan_quote {quote : Char} {after : List Char} (h : after.head? ≠ some quote) :
    scan quote (quote :: after) = some ([], after) := by
  cases after with
  | nil => simp [scan]
  | cons d rest =>
    have : d ≠ quote := fun eq => h (by simp [eq])
    simp [scan, this]

theorem scan_cons {quote c : Char} (hc : c ≠ quote) (rest : List Char) :
    scan quote (c :: rest) = (scan quote rest).map fun (text, after) => (c :: text, after) := by
  cases rest <;> simp [scan, hc]

/-- A rendered text ends where it was meant to end and gives back the text. -/
theorem scan_body (quote : Char) (cs : List Char) {after : List Char}
    (h : after.head? ≠ some quote) :
    scan quote (body quote cs ++ quote :: after) = some (cs, after) := by
  induction cs with
  | nil => exact scan_quote h
  | cons c rest ih =>
    by_cases hc : c = quote
    · subst hc; simp [body, scan, ih]
    · simp [body, hc, scan_cons hc, ih]

end Schemata.Text.Quoted
