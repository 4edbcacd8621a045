import Schemata.Dialect
import Schemata.Text.Blank
import Schemata.Text.Numeric
import Schemata.Text.Quoted

/-!
# The tokens of SQL text

SQL text is a sequence of words, numbers, strings and symbols with blanks and comments between
them. The dialects differ in the characters of a word, in the quotes of names and strings, and in
the operators that they know.

## Main definitions

* `Token`: the tokens
* `isWordStart`, `isWordPart`: the characters of words
* `nameQuote?`, `isStringQuote`: the quotes of names and strings
* `scanString`, `scanNumber`, `scanSymbol`, `skipComment`: the longer tokens
* `scanLettered?`, `scanDollar`: the texts that begin with a letter or a dollar
* `Token.ofText?`: the tokens of a text
* `Token.keyword?`: a word as a keyword
-/

namespace Schemata.Sql

/-- A token of SQL text. -/
inductive Token
  /-- A word, or a name between the given opening quote and its partner. -/
  | word (text : String) (quote : Option Char)
  /-- A number: its digits as they were written, and the mark of a long number after them. -/
  | number (digits : String) (mark : String)
  /-- The text of a string between the given quotes. -/
  | string (text : String) (quote : Char)
  /-- A text with escapes, which PostgreSQL marks by a letter, and its written form. -/
  | escaped (text : String) (written : String)
  /-- Such a text in another dialect, in its written form. It can only stand where nothing but a
  literal can. -/
  | foreign (written : String)
  /-- A text between dollars, in its written form. -/
  | dollars (written : String)
  /-- Any other literal, and a place for a value to come, in its written form. -/
  | literal (written : String)
  /-- A symbol of the language. -/
  | symbol (text : String)
  /-- An operator that a PostgreSQL database may have been given. -/
  | operator (text : String)
  deriving DecidableEq

/-! ### Words -/

/-- Whether a word can begin with the character. -/
def isWordStart (dialect : Dialect) (c : Char) : Bool :=
  match dialect with
  | .sqlite => c.isAlpha || c = '_' || (0x7F ≤ c.toNat && c.toNat ≤ 0xFFFF)
  | .postgresql => Text.isAlphabetic c || c = '_'
  | .mysql =>
    Text.isAlphabetic c || c = '_' || c = '$' || c = '@'
      || (0x80 ≤ c.toNat && c.toNat ≤ 0xFFFF)

/-- Whether a word can go on with the character. -/
def isWordPart (dialect : Dialect) (c : Char) : Bool :=
  isWordStart dialect c || c.isDigit || (c = '$' && dialect = .postgresql)

/-- The quote that closes a name opened by the character, if it opens one. -/
def nameQuote? (dialect : Dialect) (c : Char) : Option Char :=
  match dialect, c with
  | .sqlite, '"' | .postgresql, '"' => some '"'
  | .sqlite, '\x60' | .mysql, '\x60' => some '\x60'
  | .sqlite, '[' => some ']'
  | _, _ => none

/-! ### Strings -/

/-- Whether the character opens and closes a string. -/
def isStringQuote (dialect : Dialect) (c : Char) : Bool :=
  c = '\'' || (c = '"' && dialect = .mysql)

/-- What a backslash and the character stand for in a string. -/
def backslashed (c : Char) : Char :=
  match c with
  | '0' => '\x00'
  | 'a' => '\x07'
  | 'b' => '\x08'
  | 'f' => '\x0c'
  | 'n' => '\n'
  | 'r' => '\r'
  | 't' => '\t'
  | 'Z' => '\x1a'
  | c => c

/-- Reads a string with escapes after its opening quote: its text, and what follows its closing
quote. A quote in it is doubled, and a backslash changes the meaning of the next character. -/
def scanEscaped (quote : Char) : List Char → Option (List Char × List Char)
  | [] => none
  | [c] => if c = quote then some ([], []) else none
  | c :: d :: rest =>
    if c = quote then
      if d = quote then (scanEscaped quote rest).map fun (text, after) => (c :: text, after)
      else some ([], d :: rest)
    else if c = '\\' then
      (scanEscaped quote rest).map fun (text, after) => (backslashed d :: text, after)
    else (scanEscaped quote (d :: rest)).map fun (text, after) => (c :: text, after)

/-- Reads a string after its opening quote. Only MySQL has escapes besides the doubled quote. -/
def scanString (dialect : Dialect) (quote : Char) (cs : List Char) :
    Option (List Char × List Char) :=
  if dialect = .mysql then scanEscaped quote cs else Text.Quoted.scan quote cs

/-! ### Texts that begin with a letter -/

/-- Whether the character is a hexadecimal digit. -/
def isHexDigit (c : Char) : Bool :=
  c.isDigit || ('a' ≤ c && c ≤ 'f') || ('A' ≤ c && c ≤ 'F')

/-- The value of a digit, hexadecimal ones included. -/
def digitValue (c : Char) : Nat :=
  if c.isDigit then c.toNat - '0'.toNat else c.toLower.toNat - 'a'.toNat + 10

/-- The number that digits stand for. -/
def codeOf (base : Nat) (digits : List Char) : Nat :=
  digits.foldl (fun n c => base * n + digitValue c) 0

/-- The character that hexadecimal digits stand for, if all of them are digits and there is one. -/
def charOf? (digits : List Char) : Option Char :=
  let code := codeOf 16 digits
  if digits.all isHexDigit ∧ code.isValidChar then some (Char.ofNat code) else none

/-- Reads a character given by as many hexadecimal digits. -/
def scanCode (length : Nat) (cs : List Char) : Option (Char × List Char) := do
  let digits := cs.take length
  guard (digits.length = length)
  return (← charOf? digits, cs.drop length)

/-- Reads a character given by as many hexadecimal digits, the first of which may be a plus sign. -/
def scanSignedCode (length : Nat) (cs : List Char) : Option (Char × List Char) := do
  let digits := cs.take length
  guard (digits.length = length)
  return (← charOf? (if digits.head? = some '+' then digits.drop 1 else digits), cs.drop length)

/-- Reads the character that a backslash and the characters after it stand for. It is neither a
null character nor, if its number is given by a few digits, outside of ASCII. -/
def scanEscape (c : Char) (rest : List Char) : Option (Char × List Char) := do
  let short (base : Nat) (digits : List Char) (taken : Nat) : Option (Char × List Char) :=
    let code := codeOf base digits % 256
    if code < 128 then some (Char.ofNat code, rest.drop taken) else none
  let (escaped, after) ← match c with
    | 'b' => some ('\x08', rest)
    | 'f' => some ('\x0c', rest)
    | 'n' => some ('\n', rest)
    | 'r' => some ('\r', rest)
    | 't' => some ('\t', rest)
    | 'u' => scanSignedCode 4 rest
    | 'U' => scanSignedCode 8 rest
    | 'x' =>
      let digits := (rest.take 2).takeWhile isHexDigit
      if digits.isEmpty then some ('x', rest) else short 16 digits digits.length
    | c =>
      let isOctal (d : Char) : Bool := '0' ≤ d && d ≤ '7'
      let more := (rest.take 2).takeWhile isOctal
      if isOctal c then short 8 (c :: more) more.length else some (c, rest)
  guard (escaped.toNat ≠ 0)
  return (escaped, after)

/-- Reads a text whose escapes begin with a backslash, after its opening quote. -/
def scanEscapes : (fuel : Nat) → List Char → Option (List Char × List Char)
  | 0, _ | _, [] => none
  | fuel + 1, '\'' :: '\'' :: rest =>
    (scanEscapes fuel rest).map fun (text, after) => ('\'' :: text, after)
  | _, '\'' :: rest => some ([], rest)
  | fuel + 1, '\\' :: c :: rest => do
    let (escaped, rest) ← scanEscape c rest
    let (text, after) ← scanEscapes fuel rest
    return (escaped :: text, after)
  | fuel + 1, c :: rest => (scanEscapes fuel rest).map fun (text, after) => (c :: text, after)

/-- A character of a text with escapes as it is written. -/
def writeEscape : Char → List Char
  | '\'' => ['\\', '\'']
  | '\\' => ['\\', '\\']
  | '\n' => ['\\', 'n']
  | '\t' => ['\\', 't']
  | '\r' => ['\\', 'r']
  | c => [c]

/-- Reads a text in which a backslash begins the number of a character, after its opening quote. -/
def scanCodes : (fuel : Nat) → List Char → Option (List Char × List Char)
  | 0, _ | _, [] => none
  | fuel + 1, '\'' :: '\'' :: rest =>
    (scanCodes fuel rest).map fun (text, after) => ('\'' :: text, after)
  | _, '\'' :: rest => some ([], rest)
  | fuel + 1, '\\' :: '\\' :: rest =>
    (scanCodes fuel rest).map fun (text, after) => ('\\' :: text, after)
  | fuel + 1, '\\' :: rest => do
    let (c, rest) ← if rest.head? = some '+' then scanCode 6 (rest.drop 1) else scanCode 4 rest
    let (text, after) ← scanCodes fuel rest
    return (c :: text, after)
  | fuel + 1, c :: rest => (scanCodes fuel rest).map fun (text, after) => (c :: text, after)

/-- A character of a text with numbers of characters as it is written. -/
def writeCode (c : Char) : List Char :=
  let digits := (Nat.toDigits 16 c.toNat).map Char.toUpper
  if c = '\'' then ['\'', '\'']
  else if c = '\\' then ['\\', '\\']
  else if c.toNat < 0x80 then [c]
  else if c.toNat < 0x10000 then '\\' :: digits.leftpad 4 '0'
  else '\\' :: '+' :: digits.leftpad 6 '0'

/-- Reads a literal that begins with a letter and a quote: national text, a text of hexadecimal
digits, a text with escapes, or in the dialects that have it a text of bits. It is written with a
capital letter and the text as it was understood; nothing else begins like that. -/
def scanLettered? (dialect : Dialect) (letter : Char) (rest : List Char) :
    Option (Option (Token × List Char)) :=
  let literal (quote : Char) (scanned : Option (List Char × List Char)) :=
    scanned.map fun (text, after) =>
      (Token.literal (String.ofList (letter.toUpper :: quote :: text ++ [quote])), after)
  let escaped (start : String) (write : Char → List Char)
      (scanned : Option (List Char × List Char)) :=
    scanned.map fun (text, after) =>
      let written := start ++ "'" ++ String.ofList (text.flatMap write) ++ "'"
      if dialect = .postgresql then (Token.escaped (String.ofList text) written, after)
      else (.foreign written, after)
  match letter.toUpper, rest with
  | 'N', '\'' :: rest => some (literal '\'' (scanEscaped '\'' rest))
  | 'X', '\'' :: rest => some (literal '\'' (scanEscaped '\'' rest))
  | 'B', '\'' :: rest =>
    if dialect = .sqlite then none else some (literal '\'' (Text.Quoted.scan '\'' rest))
  | 'B', '"' :: rest =>
    if dialect = .sqlite then none else some (literal '"' (Text.Quoted.scan '"' rest))
  | 'E', '\'' :: rest => some (escaped "E" writeEscape (scanEscapes (rest.length + 1) rest))
  | 'U', '&' :: '\'' :: rest =>
    if dialect = .postgresql then some (escaped "U&" writeCode (scanCodes (rest.length + 1) rest))
    else none
  | _, _ => none

/-! ### Texts and places that begin with a dollar -/

/-- Compares with a tag and the dollar after it: whether they are there, and what was read to find
out. -/
def scanTag : (tag : List Char) → List Char → Option (Bool × List Char × List Char)
  | [], '$' :: rest => some (true, [], rest)
  | [], rest => some (false, [], rest)
  | _ :: _, [] => none
  | t :: tag, c :: rest =>
    if c = t then (scanTag tag rest).map fun (found, read, after) => (found, c :: read, after)
    else some (false, [c], rest)

/-- Reads a text up to its tag between dollars. -/
def scanTagged (tag : List Char) : (fuel : Nat) → List Char → Option (List Char × List Char)
  | 0, _ => none
  | fuel + 1, cs => do
    let text := cs.takeWhile (· ≠ '$')
    match cs.dropWhile (· ≠ '$') with
    | [] => none
    | _ :: rest =>
      let (found, read, after) ← scanTag tag rest
      if found then return (text, after)
      else
        let (more, after) ← scanTagged tag fuel after
        return (text ++ '$' :: read ++ more, after)

/-- Reads a text between dollars, or the place of a value, after the first dollar. -/
def scanDollar (rest : List Char) : Option (Token × List Char) :=
  let isPart (c : Char) : Bool := Text.isAlphanumeric c || c = '_'
  let tag := rest.takeWhile isPart
  match rest.dropWhile isPart with
  | '$' :: after => do
    let (text, after) ← scanTagged tag (after.length + 1) after
    let mark := '$' :: tag ++ ['$']
    return (.dollars (String.ofList (mark ++ text ++ mark)), after)
  | after => some (.literal (String.ofList ('$' :: tag)), after)

/-! ### Numbers -/

/-- The exponent of a number, if one with a digit follows, and what follows it. -/
def scanExponent : List Char → List Char × List Char
  | [] => ([], [])
  | e :: rest =>
    let sign := if rest.head? = some '+' || rest.head? = some '-' then rest.take 1 else []
    let digits := (rest.drop sign.length).takeWhile Char.isDigit
    if (e = 'e' || e = 'E') && !digits.isEmpty then
      (e :: sign ++ digits, rest.drop (sign.length + digits.length))
    else ([], e :: rest)

/-- Reads a decimal number, or a single point. In MySQL a word may begin with digits, unless the
next letter could begin an exponent. -/
def scanDecimal (dialect : Dialect) (cs : List Char) : Token × List Char :=
  let integer := cs.takeWhile Char.isDigit
  let rest := cs.dropWhile Char.isDigit
  let point := if rest.head? = some '.' then ['.'] else []
  let rest := rest.drop point.length
  let mantissa := integer ++ point ++ rest.takeWhile Char.isDigit
  let rest := rest.dropWhile Char.isDigit
  if mantissa = ['.'] then (.symbol ".", rest)
  else
    let scaled := rest.head? = some 'e' || rest.head? = some 'E'
    let tail := if dialect = .mysql && !scaled then rest.takeWhile (isWordPart dialect) else []
    if !tail.isEmpty then (.word (String.ofList (mantissa ++ tail)) none, rest.drop tail.length)
    else
      let (exponent, rest) := scanExponent rest
      let mark := if rest.head? = some 'L' then "L" else ""
      (.number (String.ofList (mantissa ++ exponent)) mark, rest.drop mark.length)

/-- Reads a number from its first digit, or a single point. A text of hexadecimal digits may
begin with `0x`. -/
def scanNumber (dialect : Dialect) (cs : List Char) : Token × List Char :=
  match cs with
  | '0' :: 'x' :: rest =>
    (.literal ("X'" ++ String.ofList (rest.takeWhile isHexDigit) ++ "'"),
      rest.dropWhile isHexDigit)
  | cs => scanDecimal dialect cs

/-! ### Comments -/

/-- What follows the end of a comment that is `depth` comments deep. The character before decides
whether a slash or a star ends or begins one. -/
def skipComment (depth : Nat) (before : Char) : List Char → Option (List Char)
  | [] => none
  | c :: rest =>
    if before = '/' ∧ c = '*' then skipComment (depth + 1) c rest
    else if before = '*' ∧ c = '/' then
      if depth ≤ 1 then some rest else skipComment (depth - 1) c rest
    else skipComment depth c rest

/-- Whether a comment to the end of the line begins here. -/
def isLineComment (dialect : Dialect) : List Char → Bool
  | '-' :: '-' :: _ => true
  | '#' :: _ => dialect = .mysql
  | _ => false

/-! ### Symbols -/

/-- The symbols of more than one character. Each beginning of a longer one is a symbol too, so a
symbol ends where it cannot be longer. -/
def symbols : List String :=
  ["->", "->>", "|/", "||", "||/", "=>", "==", "!=", "!!", "!~", "!~*", "!~~", "!~~*", "<=", "<=>",
    "<>", "<<", "<@", ">=", ">>", "::", ":=", "&&", "^@", "~*", "~~", "~~*", "#-", "#>", "#>>",
    "@>", "@?", "@@"]

/-- Whether the operators of PostgreSQL may contain the character. -/
def isOperatorPart (c : Char) : Bool := "+-*/<>=~!@#%^&|\x60?".toList.contains c

/-- Reads a symbol. In PostgreSQL some of them take all the operator characters that follow, so
that a comparison and the sign after it are one operator. -/
def scanSymbol (dialect : Dialect) (cs : List Char) : Token × List Char :=
  let length := ([4, 3, 2].find? fun n => symbols.contains (String.ofList (cs.take n))).getD 1
  let extended := dialect = .postgresql && "-%|<>&~#".toList.any (cs.head? = some ·)
  let more := if extended then (cs.drop length).takeWhile isOperatorPart else []
  let text := String.ofList (cs.take length ++ more)
  (if more.isEmpty then .symbol text else .operator text, cs.drop (length + more.length))

/-- Reads on after an at sign. In MySQL it begins a word, whatever follows, unless it is part of a
longer symbol or stands before a blank. -/
def scanAt (dialect : Dialect) (rest : List Char) : Token × List Char :=
  let word (first : List Char) (rest : List Char) : Token × List Char :=
    (.word (String.ofList (first ++ rest.takeWhile (isWordPart dialect))) none,
      rest.dropWhile (isWordPart dialect))
  if dialect ≠ .mysql then scanSymbol dialect ('@' :: rest)
  else
    match rest with
    | [] | '>' :: _ | '?' :: _ | ' ' :: _ => scanSymbol dialect ('@' :: rest)
    | ['@'] | '@' :: ' ' :: _ => scanSymbol dialect ('@' :: rest)
    | '@' :: c :: rest => word ['@', '@', c] rest
    | c :: rest => word ['@', c] rest

/-- Reads on after a question mark. In PostgreSQL it is an operator, which takes the next character
with it, whatever it is; elsewhere it is the place of a value, perhaps with a number. -/
def scanQuestion (dialect : Dialect) (rest : List Char) : Token × List Char :=
  if dialect = .postgresql then
    match rest with
    | '|' :: rest => (.symbol "?|", rest)
    | '&' :: rest => (.symbol "?&", rest)
    | rest => (.symbol "?", rest.drop 1)
  else
    (.literal (String.ofList ('?' :: rest.takeWhile Text.isNumeric)),
      rest.dropWhile Text.isNumeric)

/-! ### Texts -/

/-- Reads on from a character: the token that begins with it, or none if it belongs to a blank or
a comment, and what follows. -/
def scan? (dialect : Dialect) (c : Char) (rest : List Char) :
    Option (Option Token × List Char) :=
  let token (pair : Token × List Char) : Option (Option Token × List Char) :=
    some (some pair.1, pair.2)
  if c = ' ' || c = '\t' || c = '\n' || c = '\r' then some (none, rest)
  else if isLineComment dialect (c :: rest) then some (none, rest.dropWhile (· ≠ '\n'))
  else if c = '/' && rest.head? = some '*' then
    (skipComment 1 ' ' (rest.drop 1)).map fun after => (none, after)
  else if isStringQuote dialect c then
    (scanString dialect c rest).bind fun (text, after) =>
      token (.string (String.ofList text) c, after)
  else
    match scanLettered? dialect c rest, nameQuote? dialect c with
    | some scanned, _ => scanned.bind token
    | none, some close =>
      (Text.Quoted.scan close rest).bind fun (text, after) =>
        token (.word (String.ofList text) (some c), after)
    | none, none =>
      if c.isDigit || c = '.' then token (scanNumber dialect (c :: rest))
      else if c = '@' then token (scanAt dialect rest)
      else if isWordStart dialect c then
        token (.word (String.ofList (c :: rest.takeWhile (isWordPart dialect))) none,
          rest.dropWhile (isWordPart dialect))
      else if c = '$' then (scanDollar rest).bind token
      else if c = '?' then token (scanQuestion dialect rest)
      -- The rarer blanks come last: above the ASCII range SQLite and MySQL take them for letters.
      else if Text.isBlank c then some (none, rest)
      else token (scanSymbol dialect (c :: rest))

namespace Token

/-- The tokens of characters, of which there are at most `fuel`. -/
def scanAll? (dialect : Dialect) : (fuel : Nat) → List Char → Option (List Token)
  | _, [] => some []
  | 0, _ => none
  | fuel + 1, c :: rest => do
    let (token, after) ← scan? dialect c rest
    let tokens ← scanAll? dialect fuel after
    return token.toList ++ tokens

/-- The tokens of a text. -/
def ofText? (dialect : Dialect) (text : String) : Option (List Token) :=
  scanAll? dialect text.toList.length text.toList

/-- The upper case of a character as far as it consists of ASCII letters, which is all that
keywords are made of. -/
def upper (c : Char) : List Char :=
  match c with
  | 'ı' => ['I']
  | 'ſ' => ['S']
  | 'ß' => ['S', 'S']
  | 'ﬀ' => ['F', 'F']
  | 'ﬁ' => ['F', 'I']
  | 'ﬂ' => ['F', 'L']
  | 'ﬃ' => ['F', 'F', 'I']
  | 'ﬄ' => ['F', 'F', 'L']
  | 'ﬅ' => ['S', 'T']
  | 'ﬆ' => ['S', 'T']
  | c => [c.toUpper]

/-- The keyword that the token may be: its text in upper case. A quoted name is none. -/
def keyword? : Token → Option String
  | word text none => some (String.ofList (text.toList.flatMap upper))
  | _ => none

/-- Whether the token is a keyword, given in upper case. -/
def isKeyword (token : Token) (keyword : String) : Bool := token.keyword? = some keyword

/-- The token between its quotes, with nothing inside them escaped or doubled. -/
def bare (token : Token) : String :=
  match token with
  | word text none | number text "" | symbol text | operator text => text
  | word text (some '[') => "[" ++ text ++ "]"
  | word text (some quote) | string text quote => quote.toString ++ text ++ quote.toString
  | number digits mark => digits ++ mark
  | escaped text written => (if written.startsWith "E" then "E'" else "U&'") ++ text ++ "'"
  | foreign written | dollars written | literal written => written

end Token

end Schemata.Sql
