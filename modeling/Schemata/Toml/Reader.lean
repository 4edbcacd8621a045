import Schemata.Toml.Scalar

/-!
# Lines of TOML

A TOML text is a sequence of headers and of keys with values, each on a line of its own, with
blank lines and comments between them. Only an array and a text between triple quotes go over
several lines.

## Main definitions

* `stringBody`: the text of a string
* `skipTrivia`: blanks, line ends and comments
* `Reader.key`, `Reader.value`: the readers of keys and values
* `Line`, `lines?`: the lines of a text
-/

namespace Schemata.Toml

/-! ### Characters -/

/-- The blanks inside a line. -/
def isSpace (c : Char) : Bool := c = ' ' || c = '\t'

/-- The characters of comments and, but for quotes and backslashes, of strings. -/
def isPlain (c : Char) : Bool :=
  c = '\t' || (0x20 ≤ c.toNat && c.toNat ≤ 0x7E) || 0x80 ≤ c.toNat

/-- The characters of keys without quotes. -/
def isBareKeyChar (c : Char) : Bool := c.isAlphanum || c = '_' || c = '-'

/-- Whether a line ends here. -/
def isLineEnd : List Char → Bool
  | '\n' :: _ => true
  | '\r' :: '\n' :: _ => true
  | _ => false

/-- The characters after blanks, line ends and comments. -/
def skipTrivia (inComment : Bool) : List Char → Option (List Char)
  | [] => some []
  | c :: rest =>
    if isLineEnd (c :: rest) then skipTrivia false rest
    else if inComment then if isPlain c then skipTrivia true rest else none
    else if c = '#' then skipTrivia true rest
    else if isSpace c then skipTrivia false rest
    else some (c :: rest)

/-! ### Strings -/

/-- The character that a one-letter escape stands for. -/
def escape? : Char → Option Char
  | 'b' => some '\x08'
  | 't' => some '\t'
  | 'n' => some '\n'
  | 'f' => some '\x0c'
  | 'r' => some '\r'
  | '"' => some '"'
  | '\\' => some '\\'
  | _ => none

/-- The character of a code point in hexadecimal digits; surrogates are none. -/
def codePoint? (digits : List Char) : Option Char :=
  let n := digitsValue 16 digits
  if digits.all (isDigitOf 16) && (n < 0xD800 || (0xE000 ≤ n && n < 0x110000)) then
    some (Char.ofNat n)
  else none

/-- Puts a character in front of the text that has been read. -/
def prepend (c : Char) (read : Option (List Char × List Char)) : Option (List Char × List Char) :=
  read.map fun (text, after) => (c :: text, after)

/-- Reads a string after its opening quotes: its text, and what follows its closing quotes. In a
string over several lines a backslash before the end of a line takes away all blanks and line
ends after it (`skipping`), and up to two quotes may stand before the closing ones. -/
def stringBody (quote : Char) (multiline escapes skipping : Bool) :
    List Char → Option (List Char × List Char)
  | [] => none
  | c :: rest =>
    if skipping && (isSpace c || isLineEnd (c :: rest)) then
      stringBody quote multiline escapes true rest
    else if c = quote then
      let quotes := ((c :: rest).takeWhile (· = quote)).length
      if !multiline then some ([], rest)
      else if quotes < 3 then prepend c (stringBody quote multiline escapes false rest)
      else
        -- Of more than three quotes the last three close the string.
        let inside := min (quotes - 3) 2
        some (List.replicate inside quote, (c :: rest).drop (inside + 3))
    else if c = '\n' then
      if multiline then prepend c (stringBody quote multiline escapes false rest) else none
    else if c = '\r' then
      if multiline && isLineEnd (c :: rest) then stringBody quote multiline escapes false rest
      else none
    else if c = '\\' && escapes then
      if multiline && isLineEnd (rest.dropWhile isSpace) then
        stringBody quote multiline escapes true rest
      else
        match rest with
        | 'u' :: d₁ :: d₂ :: d₃ :: d₄ :: rest => do
          let char ← codePoint? [d₁, d₂, d₃, d₄]
          prepend char (stringBody quote multiline escapes false rest)
        | 'U' :: d₁ :: d₂ :: d₃ :: d₄ :: d₅ :: d₆ :: d₇ :: d₈ :: rest => do
          let char ← codePoint? [d₁, d₂, d₃, d₄, d₅, d₆, d₇, d₈]
          prepend char (stringBody quote multiline escapes false rest)
        | d :: rest => do
          let char ← escape? d
          prepend char (stringBody quote multiline escapes false rest)
        | [] => none
    else if isPlain c then prepend c (stringBody quote multiline escapes false rest)
    else none

/-- The characters without a line end at their start. -/
def dropLineEnd : List Char → List Char
  | '\n' :: rest => rest
  | '\r' :: '\n' :: rest => rest
  | cs => cs

/-! ### Readers -/

/-- A function that takes characters from the front of a text, or fails. -/
abbrev Reader := StateT (List Char) Option

namespace Reader

/-- Takes the characters, if they are next, and tells whether they were. -/
def has (text : String) : Reader Bool := do
  let cs ← get
  if text.toList.isPrefixOf cs then
    set (cs.drop text.toList.length)
    return true
  else return false

/-- Takes the characters. -/
def expect (text : String) : Reader Unit := do
  guard (← has text)

/-- Takes the blanks inside a line. -/
def spaces : Reader Unit := modify (·.dropWhile isSpace)

/-- Takes blanks, line ends and comments. -/
def trivia : Reader Unit := do
  set (← (skipTrivia false (← get) : Option _))

/-- Takes the rest of a string after its opening quotes. -/
def string (quote : Char) (multiline : Bool) : Reader String := do
  if multiline then modify dropLineEnd
  let (text, after) ← (stringBody quote multiline (quote = '"') false (← get) : Option _)
  set after
  return String.ofList text

/-- Takes one part of a key. -/
def keyPart : Reader String := do
  if ← has "\"" then string '"' false
  else if ← has "'" then string '\'' false
  else
    let part := (← get).takeWhile isBareKeyChar
    guard !part.isEmpty
    modify (·.drop part.length)
    return String.ofList part

/-- Takes the parts of a key, at most `fuel` many. -/
def keyWithin : (fuel : Nat) → Reader (List String)
  | 0 => failure
  | fuel + 1 => do
    spaces
    let part ← keyPart
    spaces
    if ← has "." then return part :: (← keyWithin fuel) else return [part]

/-- How many parts of a key, or values inside each other, are too many. -/
def depthLimit : Nat := 80

/-- Takes a key with the blanks around it: parts with points between them. -/
def key : Reader (List String) := keyWithin (depthLimit - 1)

end Reader

/-! ### Tables under construction -/

/-- The entries of a table. -/
abbrev TableEntries := List (String × Value)

/-- The origins to which a dotted key may add. -/
def Origin.isImplicit : Origin → Bool
  | implied | dotted => true
  | header | inline => false

/-- The entries with a further value under a dotted key. Each part of the key but the last names
a table that no header or value has made, and the table of the last part has to come from dotted
keys alone. -/
def addDotted (value : Value) : List String → TableEntries → Option TableEntries
  | [], _ => none
  | [name], entries =>
    if (Entries.find? entries name).isSome then none else some (Entries.set entries name value)
  | name :: next :: path, entries => do
    let changed ← match Entries.find? entries name with
      | none => (addDotted value (next :: path) []).map (Value.table .dotted)
      | some (.table origin inner) =>
        -- The last table of the path must not owe its being to a header inside it.
        guard (origin.isImplicit && (origin = .dotted || !path.isEmpty))
        (addDotted value (next :: path) inner).map (Value.table origin)
      | some (.tables elements) =>
        guard !path.isEmpty
        let last ← elements.getLast?
        (addDotted value (next :: path) last).map fun last =>
          Value.tables (elements.dropLast ++ [last])
      | some _ => none
    return Entries.set entries name changed

namespace Reader

mutual

/-- Takes a value inside `depth` arrays and tables. -/
def valueWithin (depth : Nat) : (fuel : Nat) → Reader Value
  | 0 => failure
  | fuel + 1 => do
    if ← has "\"\"\"" then return .string (← string '"' true)
    else if ← has "\"" then return .string (← string '"' false)
    else if ← has "'''" then return .string (← string '\'' true)
    else if ← has "'" then return .string (← string '\'' false)
    else if ← has "[" then
      guard (depth + 1 < depthLimit)
      return .array (← elementsWithin (depth + 1) fuel)
    else if ← has "\x7b" then
      guard (depth + 1 < depthLimit)
      spaces
      if ← has "\x7d" then return .table .inline []
      else return .table .inline (← entriesWithin (depth + 1) [] fuel)
    else
      let (run, after) := splitScalar (← get)
      let value ← (scalar? run : Option _)
      set after
      return value
termination_by structural fuel => fuel

/-- Takes the elements of an array up to its closing bracket; a comma may stand before it. -/
def elementsWithin (depth : Nat) : (fuel : Nat) → Reader (List Value)
  | 0 => failure
  | fuel + 1 => do
    trivia
    if ← has "]" then return []
    let first ← valueWithin depth fuel
    trivia
    if ← has "," then return first :: (← elementsWithin depth fuel)
    expect "]"
    return [first]
termination_by structural fuel => fuel

/-- Takes the entries of a table up to its closing brace, at least one. -/
def entriesWithin (depth : Nat) (entries : TableEntries) : (fuel : Nat) → Reader TableEntries
  | 0 => failure
  | fuel + 1 => do
    let path ← key
    expect "="
    spaces
    let value ← valueWithin depth fuel
    let entries ← (addDotted value path entries : Option _)
    spaces
    if ← has "," then entriesWithin depth entries fuel
    else
      expect "\x7d"
      return entries
termination_by structural fuel => fuel

end

/-- Takes a value. -/
def value : Reader Value := do valueWithin 0 (2 * (← get).length + 2)

end Reader

/-! ### Lines -/

/-- A line of a text. -/
inductive Line
  /-- The header of a table. -/
  | table (path : List String)
  /-- The header of a further table of an array. -/
  | element (path : List String)
  /-- A key with its value. -/
  | entry (path : List String) (value : Value)

namespace Reader

/-- Takes a line that is not blank. -/
def line : Reader Line := do
  if ← has "[[" then
    let path ← key
    expect "]]"
    return .element path
  else if ← has "[" then
    let path ← key
    expect "]"
    return .table path
  else
    let path ← key
    expect "="
    spaces
    return .entry path (← value)

/-- Takes lines up to the end, at most `fuel` many. -/
def linesWithin : (fuel : Nat) → Reader (List Line)
  | 0 => failure
  | fuel + 1 => do
    trivia
    if (← get).isEmpty then return []
    let first ← line
    spaces
    let rest ← get
    guard (rest.isEmpty || rest.head? = some '#' || isLineEnd rest)
    return first :: (← linesWithin fuel)

end Reader

/-- The characters without a mark of their byte order at the start. -/
def dropByteOrderMark : List Char → List Char
  | '\uFEFF' :: rest => rest
  | cs => cs

/-- The lines of a text that are not blank. -/
def lines? (text : String) : Option (List Line) := do
  let cs := dropByteOrderMark text.toList
  let (lines, _) ← (Reader.linesWithin (cs.length + 1)).run cs
  return lines

end Schemata.Toml
