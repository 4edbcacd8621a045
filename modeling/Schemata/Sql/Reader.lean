import Schemata.Sql.Keyword

/-!
# Reading tokens

A reader takes tokens from the front of a list and fails if they are not what it expects. Another
reader may then be tried in its place; a text that is nested too deeply is at fault however it is
read.

## Main definitions

* `Fault`, `Reader`: the readers, and why they fail
* `keyword`, `hasKeywords`, `symbol`, `hasSymbol`: single tokens, required and optional
* `separated`, `parenthesized`: lists with a separator, and what stands in parentheses
* `attempt`, `found`, `follow`, `optionally`: what may be missing, and what may follow a keyword
* `provided`, `either`: questions that are asked one after the other
* `repeatedly`, `onceEach`: what may be there again and again, and what may be there once
* `Name`, `Reader.name`, `Reader.path`: names, and names qualified by others
* `Reader.text`, `Reader.number`: a text and a number where only they can stand
-/

namespace Schemata.Sql

/-- Why a reader fails. -/
inductive Fault
  /-- The next tokens are not what the reader expects. -/
  | unexpected
  /-- The text is nested deeper than it may be. -/
  | tooDeep
  deriving DecidableEq

/-- Something else is tried only where the tokens are not what was expected. -/
instance : Alternative (Except Fault) where
  failure := .error .unexpected
  orElse
    | .error .unexpected, second => second ()
    | first, _ => first

/-- A function that takes tokens from the front of a list, or fails. -/
abbrev Reader := StateT (List Token) (Except Fault)

namespace Reader

/-- The next token, which is taken. -/
def next : Reader Token := do
  match ← get with
  | [] => failure
  | token :: rest => set rest; return token

/-- The next token, which is left. -/
def peek : Reader (Option Token) := return (← get).head?

/-- Whether tokens begin with the keywords. -/
def announce (keywords : List String) (tokens : List Token) : Bool :=
  keywords.length ≤ tokens.length
    && (tokens.zip keywords).all fun (token, keyword) => token.isKeyword keyword

/-- Takes the keywords, if they are next, and tells whether they were. -/
def hasKeywords (keywords : List String) : Reader Bool := do
  let tokens ← get
  if announce keywords tokens then
    set (tokens.drop keywords.length)
    return true
  else return false

/-- Takes the keyword, if it is next, and tells whether it was. -/
def hasKeyword (keyword : String) : Reader Bool := hasKeywords [keyword]

/-- Takes the keywords. -/
def keywords (words : List String) : Reader Unit := do
  guard (← hasKeywords words)

/-- Takes the keyword. -/
def keyword (word : String) : Reader Unit := keywords [word]

/-- Takes one of the keywords, if one of them is next. -/
def hasOneOf (words : List String) : Reader (Option String) := do
  match ← get with
  | token :: rest =>
    match words.find? token.isKeyword with
    | some word => set rest; return some word
    | none => return none
  | [] => return none

/-- Takes one of the keywords, if one of them is next, and tells whether one was. -/
def hasSomeOf (words : List String) : Reader Bool := return (← hasOneOf words).isSome

/-- Takes one of the keywords. -/
def oneOf (words : List String) : Reader String := do
  match ← hasOneOf words with
  | some word => return word
  | none => failure

/-- Whether the keyword is next. -/
def nextIsKeyword (word : String) : Reader Bool := return (← peek).any (·.isKeyword word)

/-- Whether the symbol is next. -/
def nextIsSymbol (text : String) : Reader Bool := return (← peek) = some (.symbol text)

/-- Takes the symbol, if it is next, and tells whether it was. -/
def hasSymbol (text : String) : Reader Bool := do
  match ← get with
  | .symbol other :: rest => if other = text then set rest; return true else return false
  | _ => return false

/-- Takes the symbol. -/
def symbol (text : String) : Reader Unit := do
  guard (← hasSymbol text)

/-- Takes items with a separator between them, at most `fuel` many. -/
def separatedWithin {α : Type} (item : Reader α) (separator : String) :
    (fuel : Nat) → Reader (List α)
  | 0 => failure
  | fuel + 1 => do
    let first ← item
    if ← hasSymbol separator then return first :: (← separatedWithin item separator fuel)
    else return [first]

/-- Takes items with a separator between them, at least one. -/
def separated {α : Type} (item : Reader α) (separator : String) : Reader (List α) := do
  separatedWithin item separator ((← get).length + 1)

/-- Takes what stands between parentheses. -/
def parenthesized {α : Type} (inner : Reader α) : Reader α := do
  symbol "("
  let result ← inner
  symbol ")"
  return result

/-- Fails because the text is nested too deeply. -/
def tooDeep {α : Type} : Reader α := fun _ => .error .tooDeep

/-- Takes what the reader takes, or nothing if that is not there. -/
def attempt {α : Type} (reader : Reader α) : Reader (Option α) := fun tokens =>
  match reader tokens with
  | .ok (result, rest) => .ok (some result, rest)
  | .error .unexpected => .ok (none, tokens)
  | .error .tooDeep => .error .tooDeep

/-- Takes what the reader takes, if that is there, and tells whether it was. -/
def found {α : Type} (reader : Reader α) : Reader Bool := return (← attempt reader).isSome

/-- Takes the keywords and what has to follow them, if they are next, and tells whether they
were. -/
def follow {α : Type} (words : List String) (reader : Reader α) : Reader Bool := do
  if ← hasKeywords words then
    discard reader
    return true
  else return false

/-- Takes the keywords and what has to follow them, if they are next. -/
def optionally {α : Type} (words : List String) (reader : Reader α) : Reader Unit :=
  discard (follow words reader)

/-- Asks the reader under a condition only. -/
def provided (condition : Bool) (reader : Reader Bool) : Reader Bool :=
  if condition then reader else return false

/-- Asks the second reader only where the first one found nothing. -/
def either (first second : Reader Bool) : Reader Bool := do
  if ← first then return true else second

/-- Takes what the reader takes as often as it finds it, at most `fuel` times. -/
def repeatedlyWithin (reader : Reader Bool) : (fuel : Nat) → Reader Unit
  | 0 => failure
  | fuel + 1 => do if ← reader then repeatedlyWithin reader fuel else return ()

/-- Takes what the reader takes as often as it finds it. -/
def repeatedly (reader : Reader Bool) : Reader Unit := do
  repeatedlyWithin reader ((← get).length + 1)

/-- Words that may be next, each with the reader for what follows them. Only one of them may be
there. -/
abbrev Alternatives := List (List String × Reader Unit)

/-- Takes one of each of the alternatives, in any order, at most `fuel` many; a second one of the
same kind is left. -/
def onceEachWithin (kinds : List Alternatives) : (fuel : Nat) → Reader Unit
  | 0 => failure
  | fuel + 1 => do
    let tokens ← get
    let isNext (part : List String × Reader Unit) : Bool := announce part.1 tokens
    match kinds.flatten.find? isNext with
    | none => return ()
    | some (words, reader) =>
      set (tokens.drop words.length)
      reader
      onceEachWithin (kinds.filter fun kind => !kind.any isNext) fuel

/-- Takes one of each of the alternatives, in any order. -/
def onceEach (kinds : List Alternatives) : Reader Unit := onceEachWithin kinds (kinds.length + 1)

end Reader

/-- A name, with the quote that it was opened by. -/
structure Name where
  /-- The name itself. -/
  text : String
  /-- Its opening quote. -/
  quote : Option Char
  deriving DecidableEq

/-- A text with its quotes doubled, except for those that are a pair already or stand after a
backslash: these are taken to be written as they should be. -/
def requote (quote : Char) (escaped : Bool) : List Char → List Char
  | [] => []
  | [c] => if c = quote ∧ !escaped then [c, c] else [c]
  | c :: d :: rest =>
    if c = quote then
      if escaped then c :: requote quote true (d :: rest)
      else if d = quote then c :: c :: requote quote false rest
      else c :: c :: requote quote false (d :: rest)
    else c :: requote quote (c = '\\') (d :: rest)

/-- A text between quotes. -/
def quoted (quote : Char) (text : String) : String :=
  String.ofList (quote :: requote quote false text.toList ++ [quote])

/-- The written form of a name: in its quotes, if it has some. -/
def Name.render (name : Name) : String :=
  match name.quote with
  | none => name.text
  | some '[' => "[" ++ name.text ++ "]"
  | some quote => quoted quote name.text

/-- The written form of a qualified name. -/
def renderPath (path : List Name) : String := String.intercalate "." (path.map Name.render)

namespace Reader

/-- Takes a name; a string is one too. -/
def name : Reader Name := do
  match ← next with
  | .word text quote => return ⟨text, quote⟩
  | .string text quote => return ⟨text, some quote⟩
  | _ => failure

/-- Takes a name that may be qualified by others before it. -/
def path : Reader (List Name) := separated name "."

/-- Takes a name that may be qualified, as far as it goes. Where a name is missing the token there
is gone, and nothing is wrong with that. -/
def loosePathWithin : (fuel : Nat) → Reader Unit
  | 0 => failure
  | fuel + 1 => do
    match ← get with
    | [] => return ()
    | .word .. :: rest | .string .. :: rest =>
      set rest
      if ← hasSymbol "." then loosePathWithin fuel
    | _ :: rest => set rest

/-- Takes a name that may be qualified, as far as it goes. -/
def loosePath : Reader Unit := do loosePathWithin ((← get).length + 1)

/-- Takes a token, if there is one, and tells whether it was a name. -/
def looseName : Reader Bool := do
  match ← get with
  | [] => return false
  | token :: rest =>
    set rest
    match token with
    | .word .. | .string .. => return true
    | _ => return false

/-- Takes names in parentheses. -/
def names : Reader (List Name) := parenthesized (separated name ",")

/-- Takes names in parentheses, of which there may be none. -/
def anyNames : Reader (List Name) := do
  symbol "("
  if ← hasSymbol ")" then return []
  let names ← separated name ","
  symbol ")"
  return names

/-- Takes a list of names in parentheses, if there is one. -/
def optionalNames : Reader (List Name) := do
  if ← nextIsSymbol "(" then names else return []

/-- Takes a text where only a text can stand; a name that is no keyword stands for itself there. -/
def text : Reader String := do
  match ← next with
  | .string text _ => return text
  | .escaped text _ => return text
  | .word text quote =>
    guard (Token.word text quote).isPlainWord
    return text
  | _ => failure

/-- Takes a text between single quotes. -/
def plainText : Reader String := do
  match ← next with
  | .string text '\'' => return text
  | _ => failure

/-- Takes the name or the number of the place of a value after the mark of the place. -/
def place (mark : String) : Reader String := do
  match ← next with
  | .word text _ => return mark ++ text
  | .number digits "" => return mark ++ digits
  | _ => failure

/-- Takes a number in its written form. It may be left open by the mark of its place. -/
def number : Reader String := do
  match ← next with
  | .number digits mark => return digits ++ mark
  | .literal written =>
    guard (written.startsWith "?" || written.startsWith "$")
    return written
  | .symbol ":" => place ":"
  | .symbol "@" => place "@"
  | _ => failure

/-- Takes a number, perhaps with a sign, in its written form. -/
def signedNumber : Reader String := do
  if ← hasSymbol "+" then return "+" ++ (← number)
  else if ← hasSymbol "-" then return "-" ++ (← number)
  else number

/-- Takes a number without a point or an exponent that is below a bound. -/
def numberBelow (bound : Nat) : Reader Nat := do
  match ← next with
  | .number digits _ =>
    guard (digits.toList.all Char.isDigit)
    let n := codeOf 10 digits.toList
    guard (n < bound)
    return n
  | _ => failure

/-- Takes a number of at most 64 bits. -/
def size : Reader Nat := numberBelow (Nat.pow 2 64)

end Reader

end Schemata.Sql
