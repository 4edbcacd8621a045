import Schemata.Sql.Reader

/-!
# Data types in SQL text

The types of column definitions. A type that SQL knows is written in its own spelling, with its
numbers in parentheses; any other keeps the spelling it was given.

## Main definitions

* `DataType`: the types
* `DataType.render`: the written form
* `typeForms`: the types that SQL knows
* `Reader.dataType`: the reader of types
-/

namespace Schemata.Sql

/-- A data type. -/
inductive DataType
  /-- A type that SQL knows: its words, its arguments, and the words after them. -/
  | known (words : String) (sizes : List String) (after : String)
  /-- A type of what is listed, in its written form. -/
  | listed (words : String) (members : List String)
  /-- Any other type: its name and what stands in parentheses after it. -/
  | custom (path : List Name) (modifiers : List String)
  /-- Lists of a type, possibly of a given length. -/
  | array (element : DataType) (length : Option Nat)
  /-- Lists of a type, with the type in angle brackets. -/
  | arrayOf (element : DataType)
  deriving DecidableEq

/-- Items in parentheses, if there are any. -/
def inParentheses (separator : String) (items : List String) : String :=
  if items.isEmpty then "" else "(" ++ String.intercalate separator items ++ ")"

/-- The written form of a type. -/
def DataType.render : DataType → String
  | known words sizes after => words ++ inParentheses "," sizes ++ after
  | listed words members => words ++ inParentheses ", " members
  | custom path modifiers => renderPath path ++ inParentheses ", " modifiers
  | array element length => element.render ++ "[" ++ (length.elim "" Nat.repr) ++ "]"
  | arrayOf element => "ARRAY<" ++ element.render ++ ">"

/-! ### The types that SQL knows -/

/-- What may stand in parentheses after the name of a type. -/
inductive TypeArguments
  /-- Nothing. -/
  | none
  /-- A number. -/
  | size
  /-- A number of characters, with the unit that it counts. -/
  | length
  /-- A number of digits and how many of them follow the point. -/
  | scale
  /-- Texts, which must be there. -/
  | texts
  /-- Texts, each perhaps with a number, which must be there. -/
  | members
  /-- A number, which must be there. -/
  | width
  /-- A number, which must be there, and perhaps a time zone. -/
  | instant
  deriving DecidableEq

/-- What may follow the name of a type that SQL knows. -/
structure TypeForm where
  /-- The keyword. -/
  keyword : String
  /-- Its written form, if that is not the keyword itself. -/
  written : String := keyword
  /-- Words that may follow at once, each with what may stand in parentheses after it. -/
  seconds : List (List String × TypeArguments) := []
  /-- What may stand in parentheses. -/
  arguments : TypeArguments := .none
  /-- Whether `UNSIGNED` may follow. -/
  unsigned : Bool := false
  /-- Whether a time zone may be asked for. -/
  zoned : Bool := false

/-- The types that SQL knows. -/
def typeForms : List TypeForm :=
  (["INT", "INTEGER", "BIGINT", "SMALLINT", "TINYINT", "MEDIUMINT", "INT2", "INT4", "INT8"].map
    fun keyword => { keyword := keyword, arguments := .size, unsigned := true }) ++
  (["REAL", "FLOAT4", "FLOAT8", "FLOAT64", "INT64", "TEXT", "TINYTEXT", "MEDIUMTEXT", "LONGTEXT",
    "TINYBLOB", "MEDIUMBLOB", "LONGBLOB", "BYTEA", "BOOLEAN", "BOOL", "JSON", "JSONB", "UUID",
    "DATE", "INTERVAL", "REGCLASS", "TRIGGER"].map fun keyword => { keyword := keyword }) ++
  ([("FLOAT32", "Float32"), ("INT16", "Int16"), ("INT32", "Int32"), ("INT128", "Int128"),
    ("INT256", "Int256"), ("UINT8", "UInt8"), ("UINT16", "UInt16"), ("UINT32", "UInt32"),
    ("UINT64", "UInt64"), ("UINT128", "UInt128"), ("UINT256", "UInt256"), ("DATE32", "Date32")].map
    fun (keyword, written) => { keyword := keyword, written := written }) ++
  (["FLOAT", "CLOB", "BLOB", "BINARY", "VARBINARY", "BYTES", "STRING", "DATETIME", "TIMESTAMPTZ",
    "TIMETZ"].map fun keyword => { keyword := keyword, arguments := .size }) ++
  (["VARCHAR", "NVARCHAR"].map fun keyword => { keyword := keyword, arguments := .length }) ++
  (["CHAR", "CHARACTER"].map fun keyword =>
    { keyword := keyword, arguments := .length,
      seconds := [(["VARYING"], .length), (["LARGE", "OBJECT"], .size)] }) ++
  (["TIME", "TIMESTAMP"].map fun keyword =>
    { keyword := keyword, arguments := .size, zoned := true }) ++
  (["NUMERIC", "DECIMAL", "DEC", "BIGNUMERIC", "BIGDECIMAL"].map fun keyword =>
    { keyword := keyword, arguments := .scale }) ++
  (["ENUM", "ENUM8", "ENUM16"].map fun keyword =>
    { keyword := keyword, arguments := .members }) ++
  [{ keyword := "FIXEDSTRING", written := "FixedString", arguments := .width },
    { keyword := "DATETIME64", written := "DateTime64", arguments := .instant },
    { keyword := "SET", arguments := .texts },
    { keyword := "DOUBLE", seconds := [(["PRECISION"], .none)] },
    { keyword := "BIT", seconds := [(["VARYING"], .size)], arguments := .size }]

namespace Reader

/-- Takes a number of characters, which may be the greatest there is. -/
def characterLength : Reader String := do
  if ← hasKeyword "MAX" then return "MAX"
  let length ← size
  match ← hasOneOf ["CHARACTERS", "OCTETS"] with
  | some unit => return length.repr ++ " " ++ unit
  | none => return length.repr

/-- Takes the numbers that stand in parentheses, if there are parentheses. -/
def typeSizes (arguments : TypeArguments) : Reader (List String) := do
  if arguments = .none then return []
  else if (← peek) ≠ some (.symbol "(") then return []
  else if arguments = .length then return [← parenthesized characterLength]
  else
    let sizes ← parenthesized (separated size ",")
    guard (sizes.length ≤ if arguments = .scale then 2 else 1)
    return sizes.map Nat.repr

/-- Takes the words for a time zone. -/
def timeZone : Reader String := do
  match ← hasOneOf ["WITH", "WITHOUT"] with
  | some word =>
    keywords ["TIME", "ZONE"]
    return " " ++ word ++ " TIME ZONE"
  | none => return ""

/-- Takes a text of a list, perhaps with its number. -/
def member : Reader String := do
  let name := quoted '\'' (← text)
  if ← hasSymbol "=" then return name ++ " = " ++ (← signedNumber) else return name

/-- Takes a number of digits, and perhaps a time zone. -/
def instant : Reader (List String) := do
  let digits ← size
  if ← hasSymbol "," then return [digits.repr, "'" ++ (← text) ++ "'"] else return [digits.repr]

/-- The reader of what must stand in parentheses, if something must. -/
def typeMembers? (arguments : TypeArguments) : Option (Reader (List String)) :=
  match arguments with
  | .texts => some (separated (quoted '\'' <$> plainText) ",")
  | .members => some (separated member ",")
  | .width => some (do return [(← size).repr])
  | .instant => some instant
  | .none | .size | .length | .scale => none

/-- Takes what follows the name of a type that SQL knows. -/
def afterKeyword (form : TypeForm) : Reader DataType := do
  if let some members := typeMembers? form.arguments then
    return .listed form.written (← parenthesized members)
  let tokens ← get
  match form.seconds.find? fun second => announce second.1 tokens with
  | some (words, arguments) =>
    set (tokens.drop words.length)
    return .known (String.intercalate " " (form.written :: words)) (← typeSizes arguments) ""
  | none =>
    let sizes ← typeSizes form.arguments
    let after ← if form.zoned then timeZone
      else if form.unsigned then do
        if ← hasKeyword "UNSIGNED" then pure " UNSIGNED" else pure ""
      else pure ""
    return .known form.written sizes after

/-- Takes what stands in parentheses after the name of any other type, up to the closing one.
Commas only separate. -/
def modifiersWithin : (fuel : Nat) → Reader (List String)
  | 0 => failure
  | fuel + 1 => do
    match ← next with
    | .symbol ")" => return []
    | .symbol "," => modifiersWithin fuel
    | .word text none => return text :: (← modifiersWithin fuel)
    | .word text (some '[') => return ("[" ++ text ++ "]") :: (← modifiersWithin fuel)
    | .word text (some quote) =>
      let mark := quote.toString
      return (mark ++ text ++ mark) :: (← modifiersWithin fuel)
    | .number digits _ => return digits :: (← modifiersWithin fuel)
    -- A string loses its quotes.
    | .string text '\'' => return text :: (← modifiersWithin fuel)
    | _ => failure

/-- Takes the name of a type that SQL does not know, and what stands in parentheses after it. -/
def customType : Reader DataType := do
  let path ← path
  if ← hasSymbol "(" then return .custom path (← modifiersWithin ((← get).length + 1))
  else return .custom path []

/-- Takes the brackets of types of lists, at most `fuel` many. -/
def arraysWithin (dialect : Dialect) (type : DataType) : (fuel : Nat) → Reader DataType
  | 0 => failure
  | fuel + 1 => do
    if ← hasSymbol "[" then
      let length ← if dialect = .postgresql then attempt size else pure none
      symbol "]"
      arraysWithin dialect (.array type length) fuel
    else return type

/-- Takes a data type, and tells whether a closing angle bracket too many was taken with it. -/
def typeWithin (dialect : Dialect) : (fuel : Nat) → Reader (DataType × Bool)
  | 0 => failure
  | fuel + 1 => do
    match ← get with
    | .word text quote :: rest =>
      let token := Token.word text quote
      if token.isKeyword "ARRAY" then
        set rest
        symbol "<"
        let (element, closed) ← typeWithin dialect fuel
        let doubled ← if closed then pure false else hasSymbol ">>"
        if !closed && !doubled then symbol ">"
        return (← arraysWithin dialect (.arrayOf element) (rest.length + 1), doubled)
      else
        let element ←
          match typeForms.find? fun form => token.isKeyword form.keyword with
          | some form => set rest; afterKeyword form
          | none => customType
        return (← arraysWithin dialect element (rest.length + 1), false)
    | _ => failure

/-- Takes a data type. -/
def dataType (dialect : Dialect) : Reader DataType := do
  let (type, doubled) ← typeWithin dialect ((← get).length + 1)
  guard !doubled
  return type

end Reader

end Schemata.Sql
