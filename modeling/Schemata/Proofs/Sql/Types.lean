import Mathlib.Data.List.Nodup
import Mathlib.Data.List.TakeWhile
import Schemata.Proofs.Sql.Reading
import Schemata.Sql.Grammar.Table

/-!
# Types are read back

The written form of a type is taken for the type, whatever can follow it in the definition of a
column.

## Main definitions

* `namesTokens`, `sizeTokens`: the tokens of names and of numbers in parentheses
* `DataType.IsPlain`: the types that are read back

## Main results

* `Reader.path_apply`, `Reader.names_apply`: names are taken
* `DataType.IsPlain.exists_tokens`: types are taken
-/

namespace Schemata.Sql

open Reader

variable {dialect : Dialect} {rest : List Token}

/-! ### Names -/

/-- The tokens of names with a separator between them. -/
def namesTokens (separator : String) (names : List Name) : List Token :=
  [.symbol separator].intercalate (names.map fun name => [name.token])

theorem namesTokens_cons (separator : String) (first second : Name) (others : List Name) :
    namesTokens separator (first :: second :: others) =
      first.token :: .symbol separator :: namesTokens separator (second :: others) := by
  simp [namesTokens]

theorem namesTokens_ne_nil {names : List Name} (separator : String) (h : names ≠ []) :
    namesTokens separator names ≠ [] := by
  match names with
  | [] => exact absurd rfl h
  | [name] => simp [namesTokens]
  | first :: second :: others => simp [namesTokens_cons]

/-- No name begins with a digit. -/
theorem Name.exists_render_eq_cons {name : Name} (h : name.IsPlain dialect) :
    ∃ c cs, name.render.toList = c :: cs ∧ c.isDigit = false := by
  obtain ⟨text, _ | quote⟩ := name
  · have hword : isWord dialect text := h
    unfold isWord at hword
    split at hword
    · cases hword
    · rename_i c cs hcs
      simp only [Bool.and_eq_true] at hword
      refine ⟨c, cs, hcs, ?_⟩
      by_contra hdigit
      simp [isWordStart_of_isDigit (by simpa using hdigit)] at hword
  · obtain ⟨close, hquote, -⟩ := h
    have hmem := (quotes_of_nameQuote? hquote).1
    refine ⟨quote, _, Name.toList_render_eq rfl, ?_⟩
    have hquotes : ∀ c ∈ ['"', '\x60', '['], c.isDigit = false := by decide
    exact hquotes quote hmem

/-- A qualified name has its parts for tokens, with points between them. -/
theorem spells_path {path : List Name} (h : ∀ name ∈ path, name.IsPlain dialect) :
    Spells dialect (renderPath path) (namesTokens "." path) := by
  induction path with
  | nil => exact spells_empty
  | cons first others ih =>
    have hfirst := h first (by simp)
    cases others with
    | nil => simpa [renderPath, namesTokens] using spells_name hfirst
    | cons second others =>
      have hothers := ih fun name hname => h name (List.mem_cons_of_mem _ hname)
      have htext : renderPath (first :: second :: others) =
          first.render ++ "." ++ renderPath (second :: others) := by
        simp [renderPath, String.intercalate_cons_cons]
      rw [htext, namesTokens_cons]
      have hclosed : Closed [first.token, .symbol "."] := .of_not_mem (by simp [Name.token])
      refine ⟨?_, ?_, hclosed.append hothers.closed⟩
      · intro after ts hafter hlexes
        obtain ⟨c, cs, hc, hdigit⟩ := Name.exists_render_eq_cons (h second (by simp))
        have hcons : ∃ ds, (renderPath (second :: others)).toList ++ after = c :: ds := by
          cases others <;> simp [renderPath, hc, String.intercalate_cons_cons]
        obtain ⟨ds, hds⟩ := hcons
        have hrest := hothers.lexes after ts hafter hlexes
        rw [hds] at hrest
        simp only [String.toList_append, List.append_assoc, List.cons_append, hds]
        exact .name hfirst (by simp) (.point hdigit hrest)
      · have hne := hothers.ne_empty (namesTokens_ne_nil _ (by simp))
        exact .append (absurd · hne) hothers.tight

theorem name_apply (name : Name) : Reader.name (name.token :: rest) = .ok (name, rest) := by
  simp [Reader.name, Name.token]

theorem separated_names {names : List Name} {separator : String} (hne : names ≠ [])
    (hrest : rest.head? ≠ some (.symbol separator)) :
    separated name separator (namesTokens separator names ++ rest) = .ok (names, rest) := by
  have h : separated name separator (namesTokens separator names ++ rest) =
      .ok (names.map id, rest) := by
    apply separated_apply (fun name => [name.token]) id (fun _ => True) hne _ _ trivial hrest
    · intro i _ rest _
      exact name_apply i
    · simp
  rwa [List.map_id] at h

theorem Reader.path_apply {path : List Name} (hne : path ≠ [])
    (hrest : rest.head? ≠ some (.symbol ".")) :
    Reader.path (namesTokens "." path ++ rest) = .ok (path, rest) :=
  separated_names hne hrest

theorem Reader.names_apply {names : List Name} (hne : names ≠ []) :
    Reader.names (.symbol "(" :: (namesTokens "," names ++ .symbol ")" :: rest)) =
      .ok (names, rest) := by
  have h : separated name "," (namesTokens "," names ++ .symbol ")" :: rest) =
      .ok (names, .symbol ")" :: rest) := separated_names hne (by simp)
  simp [Reader.names, parenthesized, h]

/-! ### Numbers in parentheses -/

theorem isDigit_of_mem_repr {n : Nat} {c : Char} (h : c ∈ n.repr.toList) : c.isDigit := by
  rw [Nat.repr, String.toList_ofList] at h
  exact Nat.isDigit_of_mem_toDigits (by decide) (by decide) h

theorem codeOf_repr (n : Nat) : codeOf 10 n.repr.toList = n := by
  have hcode : codeOf 10 n.repr.toList = Nat.ofDigitChars 10 n.repr.toList 0 := by
    rw [codeOf, Nat.ofDigitChars_eq_foldl]
    apply List.foldl_ext
    intro m c hc
    simp [digitValue, isDigit_of_mem_repr hc]
  rw [hcode, Nat.repr, String.toList_ofList, Nat.ofDigitChars_ten_toDigits]

theorem isNumeral_repr (n : Nat) : isNumeral n.repr := by
  have hdrop : n.repr.toList.dropWhile Char.isDigit = [] :=
    List.dropWhile_eq_nil_iff.2 fun c hc => isDigit_of_mem_repr hc
  rw [isNumeral, hdrop]
  simp [Nat.repr, Nat.toDigits_ne_nil]

theorem Reader.size_apply {n : Nat} (h : n < Nat.pow 2 64) :
    size (.number n.repr "" :: rest) = .ok (n, rest) := by
  have hdigits : n.repr.toList.all Char.isDigit :=
    List.all_eq_true.2 fun c hc => isDigit_of_mem_repr hc
  simp only [size, numberBelow, bind_apply, next_cons, guard_apply, hdigits, codeOf_repr, h,
    if_true, pure_apply]

/-- What tells the size of a type in its parentheses. -/
inductive TypeSize
  /-- A number. -/
  | number (n : Nat)
  /-- A number of units. -/
  | units (n : Nat) (unit : String)
  /-- The greatest size that there is. -/
  | max

namespace TypeSize

/-- The written form of a size. -/
def render : TypeSize → String
  | number n => n.repr
  | units n unit => n.repr ++ " " ++ unit
  | max => "MAX"

/-- The tokens of a size. -/
def tokens : TypeSize → List Token
  | number n => [.number n.repr ""]
  | units n unit => [.number n.repr "", .word unit none]
  | max => [.word "MAX" none]

/-- A number that is taken for a size. -/
def IsNumber (size : TypeSize) : Prop := ∃ n < Nat.pow 2 64, size = number n

/-- A size that is taken for the length of a text. -/
def IsLength (size : TypeSize) : Prop :=
  size.IsNumber ∨ (∃ n < Nat.pow 2 64, ∃ unit ∈ ["CHARACTERS", "OCTETS"], size = units n unit) ∨
    size = max

variable {size : TypeSize}

theorem IsLength.spells (h : size.IsLength) : Spells dialect size.render size.tokens := by
  have hunits : ∀ unit ∈ ["CHARACTERS", "OCTETS"], isAsciiWord unit := by decide +kernel
  rcases h with ⟨n, -, rfl⟩ | ⟨n, -, unit, hunit, rfl⟩ | rfl
  · exact spells_numeral (isNumeral_repr n)
  · exact (spells_numeral (isNumeral_repr n)).separated separates_blank
      (spells_word (isWord_of_isAsciiWord (hunits unit hunit))) (by simp)
  · exact spells_word (isWord_of_isAsciiWord (by decide +kernel))

theorem IsLength.characterLength_apply (h : size.IsLength) :
    characterLength (size.tokens ++ .symbol ")" :: rest) = .ok (size.render, .symbol ")" :: rest) := by
  rcases h with ⟨n, hn, rfl⟩ | ⟨n, hn, unit, hunit, rfl⟩ | rfl
  · simp [characterLength, tokens, render, Reader.size_apply hn, hasOneOf]
  · simp only [List.mem_cons, List.not_mem_nil, or_false] at hunit
    rcases hunit with rfl | rfl <;>
      simp +decide [characterLength, tokens, render, Reader.size_apply hn, hasOneOf]
  · simp +decide [characterLength, tokens, render]

end TypeSize

/-- The tokens of sizes in parentheses, if there are any. -/
def sizeTokens (sizes : List TypeSize) : List Token :=
  if sizes.isEmpty then [] else
    .symbol "(" :: ([.symbol ","].intercalate (sizes.map TypeSize.tokens) ++ [.symbol ")"])

theorem spells_sizes {sizes : List TypeSize} (hsizes : ∀ size ∈ sizes, size.IsLength) :
    Spells dialect (inParentheses "," (sizes.map TypeSize.render)) (sizeTokens sizes) := by
  unfold inParentheses sizeTokens
  by_cases h : sizes = []
  · simpa [h] using spells_empty
  · have hall : Spells dialect (String.intercalate "," (sizes.map TypeSize.render))
        ([.symbol ","].intercalate (sizes.map TypeSize.tokens)) :=
      spells_intercalate separates_comma TypeSize.render TypeSize.tokens fun size hsize =>
        ⟨(hsizes size hsize).spells, by cases size <;> simp [TypeSize.tokens]⟩
    simpa [h] using hall.parenthesized

/-- Whether the sizes may stand in the parentheses. -/
def TypeArguments.Admits (arguments : TypeArguments) (sizes : List TypeSize) : Prop :=
  match arguments with
  | .none => sizes = []
  | .size => sizes.length ≤ 1 ∧ ∀ size ∈ sizes, size.IsNumber
  | .scale => sizes.length ≤ 2 ∧ ∀ size ∈ sizes, size.IsNumber
  | .length => sizes.length ≤ 1 ∧ ∀ size ∈ sizes, size.IsLength
  | .texts | .members | .width | .instant => False

section Admits

variable {arguments : TypeArguments} {sizes : List TypeSize}

theorem TypeArguments.Admits.typeMembers?_eq (h : arguments.Admits sizes) :
    typeMembers? arguments = Option.none := by
  cases arguments with
  | none | size | length | scale => rfl
  | texts | members | width | instant => exact h.elim

theorem TypeArguments.Admits.isLength (h : arguments.Admits sizes) :
    ∀ size ∈ sizes, size.IsLength := by
  cases arguments with
  | none => simp [show sizes = [] from h]
  | size | scale => exact fun size hsize => .inl (h.2 size hsize)
  | length => exact h.2
  | texts | members | width | instant => exact h.elim

theorem Reader.typeSizes_nil (arguments : TypeArguments)
    (hrest : rest.head? ≠ some (.symbol "(")) : typeSizes arguments rest = .ok ([], rest) := by
  by_cases h : arguments = .none <;> simp [typeSizes, h, hrest]

/-- Numbers with commas between them. -/
theorem separated_sizes (hne : sizes ≠ []) (hsizes : ∀ size ∈ sizes, size.IsNumber) :
    ∃ numbers, separated size "," ([.symbol ","].intercalate (sizes.map TypeSize.tokens) ++
      .symbol ")" :: rest) = .ok (numbers, .symbol ")" :: rest) ∧
        numbers.map Nat.repr = sizes.map TypeSize.render := by
  choose! number hnumber using hsizes
  refine ⟨sizes.map number, ?_, ?_⟩
  · apply separated_apply TypeSize.tokens number (fun _ => True) hne _ _ trivial (by simp)
    · intro size hsize rest _
      obtain ⟨hbound, heq⟩ := hnumber size hsize
      rw [heq]
      simpa [TypeSize.tokens, ← heq] using size_apply hbound
    · simp
  · rw [List.map_map]
    refine List.map_congr_left fun size hsize => ?_
    conv_rhs => rw [(hnumber size hsize).2]
    rfl

theorem Reader.typeSizes_apply (hsizes : arguments.Admits sizes)
    (hrest : rest.head? ≠ some (.symbol "(")) :
    typeSizes arguments (sizeTokens sizes ++ rest) = .ok (sizes.map TypeSize.render, rest) := by
  by_cases hne : sizes = []
  · simpa [hne, sizeTokens] using typeSizes_nil arguments hrest
  · cases arguments with
    | none => exact absurd hsizes hne
    | texts | members | width | instant => exact hsizes.elim
    | size | scale =>
      obtain ⟨numbers, hread, hrender⟩ := @separated_sizes rest sizes hne hsizes.2
      have hlength : numbers.length = sizes.length := by
        simpa using congrArg List.length hrender
      simp [typeSizes, sizeTokens, hne, parenthesized, hread, hlength, hsizes.1, hrender]
    | length =>
      obtain ⟨size, rfl⟩ : ∃ size, sizes = [size] := by
        rw [← List.length_eq_one_iff]
        have hpos := List.length_pos_of_ne_nil hne
        have hlength := hsizes.1
        omega
      have hread := @TypeSize.IsLength.characterLength_apply rest size (hsizes.2 size (by simp))
      simp [typeSizes, sizeTokens, parenthesized, hread]

end Admits

/-! ### Words after a type -/

/-- Words with a blank before each of them. -/
def trailing (words : List String) : String := String.join (words.map (" " ++ ·))

theorem trailing_cons (word : String) (words : List String) :
    trailing (word :: words) = " " ++ word ++ trailing words := by
  simp [trailing, String.append_assoc]

theorem delimited_trailing (words : List String) : Delimited dialect (trailing words).toList := by
  cases words with
  | nil => exact .nil
  | cons word words =>
    rw [trailing_cons, String.toList_append, String.toList_append, List.append_assoc]
    exact .of_mem (by decide) _

theorem spells_trailing {words : List String} (h : ∀ word ∈ words, isWord dialect word) :
    Spells dialect (trailing words) (words.map (Token.word · none)) := by
  induction words with
  | nil => exact spells_empty
  | cons word words ih =>
    have hword := spells_empty.separated separates_blank (spells_word (h word (by simp))) (by simp)
    rw [trailing_cons]
    simpa using hword.append (ih fun other hother => h other (by simp_all)) (delimited_trailing words)

/-- The words that may stand after the numbers of a type. -/
def TypeForm.endings (form : TypeForm) : List (List String) :=
  if form.zoned then [[], ["WITH", "TIME", "ZONE"], ["WITHOUT", "TIME", "ZONE"]]
  else if form.unsigned then [[], ["UNSIGNED"]] else [[]]

/-! ### Types that SQL knows -/

section Forms

variable {form : TypeForm}

theorem keyword?_written (h : form ∈ typeForms) :
    (Token.word form.written none).keyword? = some form.keyword := by
  have hall : ∀ form ∈ typeForms, (Token.word form.written none).keyword? = some form.keyword := by
    decide +kernel
  exact hall form h

theorem isWord_written (h : form ∈ typeForms) : isWord dialect form.written := by
  have hall : ∀ form ∈ typeForms, isAsciiWord form.written := by decide +kernel
  exact isWord_of_isAsciiWord (hall form h)

/-- A keyword belongs to one form. -/
theorem eq_of_keyword_eq {other : TypeForm} (hform : form ∈ typeForms) (hother : other ∈ typeForms)
    (h : form.keyword = other.keyword) : form = other :=
  List.inj_on_of_nodup_map (by decide +kernel) hform hother h

/-- The form of a type is found by its keyword. -/
theorem find?_typeForms {token : Token} (hform : form ∈ typeForms)
    (h : token.keyword? = some form.keyword) :
    (typeForms.find? fun form => token.isKeyword form.keyword) = some form := by
  cases hfind : typeForms.find? fun form => token.isKeyword form.keyword with
  | none => simpa [Token.isKeyword, h] using List.find?_eq_none.1 hfind form hform
  | some other =>
    have hother : token.keyword? = some other.keyword := by
      simpa [Token.isKeyword] using List.find?_some hfind
    rw [eq_of_keyword_eq (List.mem_of_find?_eq_some hfind) hform (by simpa [hother] using h)]

/-- The words that may follow the name of a type at once begin with one of these. -/
def secondWords : List String := ["VARYING", "LARGE", "PRECISION"]

/-- Nothing but one of the second words is taken for one. -/
theorem find?_seconds_eq_none {tokens : List Token} (hform : form ∈ typeForms)
    (h : ∀ token ∈ tokens.head?, ∀ word ∈ secondWords, token.isKeyword word = false) :
    (form.seconds.find? fun second => announce second.1 tokens) = none := by
  have hall : ∀ form ∈ typeForms, ∀ second ∈ form.seconds,
      second.1.head?.any secondWords.contains := by
    decide +kernel
  rw [List.find?_eq_none]
  intro second hsecond
  have hhead := hall form hform second hsecond
  obtain ⟨words, arguments⟩ := second
  cases words with
  | nil => cases hhead
  | cons word words =>
    have hword : word ∈ secondWords := by simpa using hhead
    cases tokens with
    | nil => simp
    | cons token tokens => simp [h token rfl word hword]

/-- What follows the name of a type that SQL knows is taken with it. -/
theorem afterKeyword_apply {tokens rest : List Token} {sizes ending : List String}
    (hmembers : typeMembers? form.arguments = none)
    (hseconds : (form.seconds.find? fun second => announce second.1 tokens) = none)
    (hsizes : typeSizes form.arguments tokens = .ok (sizes, ending.map (Token.word · none) ++ rest))
    (hending : ending ∈ form.endings)
    (hrest : ∀ token ∈ rest.head?, ∀ word ∈ ["WITH", "WITHOUT", "UNSIGNED"],
      token.isKeyword word = false) :
    afterKeyword form tokens = .ok (.known form.written sizes (trailing ending), rest) := by
  have hzone : hasOneOf ["WITH", "WITHOUT"] rest = .ok (none, rest) := by
    cases rest with
    | nil => rfl
    | cons token rest =>
      have htoken := hrest token rfl
      have hnone : ["WITH", "WITHOUT"].find? token.isKeyword = none := by simp_all
      simp [hasOneOf, hnone]
  have hunsigned : hasKeyword "UNSIGNED" rest = .ok (false, rest) := by
    cases rest with
    | nil => rfl
    | cons token rest => simp [hrest token rfl "UNSIGNED" (by simp)]
  -- A form has the endings of a time zone, or that of an unsigned number, or none.
  unfold TypeForm.endings at hending
  unfold afterKeyword
  simp only [hmembers, bind_apply, get_apply, hseconds, hsizes]
  by_cases hzoned : form.zoned
  · simp only [if_pos hzoned, List.mem_cons, List.not_mem_nil, or_false] at hending ⊢
    rcases hending with rfl | rfl | rfl
    · simp [timeZone, hzone, trailing]
    all_goals
      simp +decide [timeZone, hasOneOf, keywords, trailing]
  · by_cases hsigned : form.unsigned
    · simp only [if_neg hzoned, if_pos hsigned, List.mem_cons, List.not_mem_nil, or_false]
        at hending ⊢
      rcases hending with rfl | rfl
      · simp only [List.map_nil, List.nil_append, bind_apply, hunsigned]
        rfl
      · simp +decide [trailing]
    · simp only [if_neg hzoned, if_neg hsigned, List.mem_singleton] at hending ⊢
      subst hending
      rfl

end Forms

/-! ### Types -/

/-- Whether the word begins a type that SQL knows, or a list of a type. -/
def Token.opensType (token : Token) : Bool :=
  token.isKeyword "ARRAY" || typeForms.any fun form => token.isKeyword form.keyword

section Types

variable {text : String} {quote : Option Char} {tokens : List Token} {type : DataType}

/-- A type ends where no bracket follows. -/
theorem arraysWithin_apply (fuel : Nat) (hrest : rest.head? ≠ some (.symbol "[")) :
    arraysWithin dialect type (fuel + 1) rest = .ok (type, rest) := by
  simp [arraysWithin, hasSymbol_of_head hrest]

/-- A type begins with a word. -/
theorem dataType_of_not_word {token : Token} (h : ∀ text quote, token ≠ .word text quote) :
    dataType dialect (token :: rest) = .error .unexpected := by
  cases token with
  | word text quote => exact absurd rfl (h text quote)
  | _ => rfl

/-- A word is followed by what its form allows for, or else it begins the name of a type; and then
come brackets. -/
theorem dataType_word (hword : (Token.word text quote).isKeyword "ARRAY" = false) :
    dataType dialect (.word text quote :: tokens) =
      match (match typeForms.find? fun form => (Token.word text quote).isKeyword form.keyword with
        | some form => afterKeyword form tokens
        | none => customType (.word text quote :: tokens)) with
      | .ok (type, rest) => arraysWithin dialect type (tokens.length + 1) rest
      | .error fault => .error fault := by
  simp only [dataType, bind_apply, get_apply, List.length_cons, typeWithin, hword, if_neg,
    Bool.false_eq_true, not_false_eq_true]
  cases typeForms.find? fun form => (Token.word text quote).isKeyword form.keyword with
  | some form =>
    simp only [bind_apply, set_apply]
    cases afterKeyword form tokens with
    | error fault => rfl
    | ok taken =>
      simp only [pure_apply]
      cases arraysWithin dialect taken.1 (tokens.length + 1) taken.2 <;> rfl
  | none =>
    simp only [bind_apply]
    cases customType (.word text quote :: tokens) with
    | error fault => rfl
    | ok taken =>
      simp only [pure_apply]
      cases arraysWithin dialect taken.1 (tokens.length + 1) taken.2 <;> rfl

/-- After the keyword of a type comes what its form allows for, and then brackets. -/
theorem dataType_of_form {form : TypeForm} (hform : form ∈ typeForms)
    (hkeyword : (Token.word text quote).keyword? = some form.keyword) :
    dataType dialect (.word text quote :: tokens) = match afterKeyword form tokens with
      | .ok (type, rest) => arraysWithin dialect type (tokens.length + 1) rest
      | .error fault => .error fault := by
  have harray : ∀ form ∈ typeForms, form.keyword ≠ "ARRAY" := by decide +kernel
  have hword : (Token.word text quote).isKeyword "ARRAY" = false := by
    simpa [Token.isKeyword, hkeyword] using harray form hform
  rw [dataType_word hword, find?_typeForms hform hkeyword]

/-- Any other word is the name of a type. -/
theorem dataType_of_custom (hword : (Token.word text quote).opensType = false) :
    dataType dialect (.word text quote :: tokens) =
      match customType (.word text quote :: tokens) with
      | .ok (type, rest) => arraysWithin dialect type (tokens.length + 1) rest
      | .error fault => .error fault := by
  simp only [Token.opensType, Bool.or_eq_false_iff, List.any_eq_false] at hword
  rw [dataType_word hword.1, List.find?_eq_none.2 hword.2]

end Types

/-! ### What follows a type -/

/-- Whether a token goes on with a type, unless it is a bracket. -/
def Token.extendsType (token : Token) : Bool :=
  [.symbol "(", .symbol "."].contains token ||
    (["WITH", "WITHOUT", "UNSIGNED"] ++ secondWords).any token.isKeyword

/-- A type ends where nothing but a bracket goes on with it. -/
def EndsType (rest : List Token) : Prop := ∀ token ∈ rest.head?, token.extendsType = false

namespace EndsType

theorem cons {token : Token} (h : token.extendsType = false) (rest : List Token) :
    EndsType (token :: rest) := by
  simpa [EndsType] using h

theorem isKeyword_eq (h : EndsType rest) :
    ∀ token ∈ rest.head?, ∀ word ∈ ["WITH", "WITHOUT", "UNSIGNED"] ++ secondWords,
      token.isKeyword word = false := by
  intro token htoken word hword
  have hall := h token htoken
  simp only [Token.extendsType, Bool.or_eq_false_iff, List.any_eq_false, Bool.not_eq_true] at hall
  exact hall.2 word hword

theorem head?_ne (h : EndsType rest) {text : String} (htext : text ∈ ["(", "."]) :
    rest.head? ≠ some (.symbol text) := by
  have hall : ∀ text ∈ ["(", "."], (Token.symbol text).extendsType := by decide
  intro hhead
  exact absurd (hall text htext) (by simp [h _ hhead])

end EndsType

theorem Ends.endsType (h : Ends rest) : EndsType rest := by
  have hall : ∀ token ∈ endTokens, token.extendsType = false := by decide +kernel
  exact fun token htoken => hall token (h token htoken)

/-! ### What stands in the parentheses of other types -/

/-- Whether a text in the parentheses of a type that SQL does not know is written as it is scanned: a
word, a number, or a name in quotes. -/
def IsModifier (dialect : Dialect) (text : String) : Prop :=
  isNumeral text ∨ ∃ name : Name, name.IsPlain dialect ∧ name.render = text ∧ name.token.bare = text

/-- The token is taken for the text. -/
structure ReadModifier (dialect : Dialect) (text : String) (token : Token) : Prop where
  /-- It is its token. -/
  spells : Spells dialect text [token]
  /-- It is taken for it. -/
  reads : ∀ fuel tokens, modifiersWithin (fuel + 1) (token :: tokens) =
    match modifiersWithin fuel tokens with
    | .ok (others, rest) => .ok (text :: others, rest)
    | .error fault => .error fault

theorem IsModifier.exists_readModifier {text : String} (h : IsModifier dialect text) :
    ∃ token, ReadModifier dialect text token := by
  rcases h with hnumeral | ⟨name, hplain, hrender, hbare⟩
  · refine ⟨_, spells_numeral hnumeral, fun fuel tokens => ?_⟩
    cases hothers : modifiersWithin fuel tokens <;> simp [modifiersWithin, hothers]
  · refine ⟨_, hrender ▸ spells_name hplain, fun fuel tokens => ?_⟩
    obtain ⟨word, _ | quote⟩ := name
    · obtain rfl : word = text := hbare
      cases hothers : modifiersWithin fuel tokens <;> simp [Name.token, modifiersWithin, hothers]
    · obtain ⟨close, hquote, -⟩ := hplain
      have hmem := (quotes_of_nameQuote? hquote).1
      simp only [List.mem_cons, List.not_mem_nil, or_false] at hmem
      rw [← hbare]
      rcases hmem with rfl | rfl | rfl <;> cases hothers : modifiersWithin fuel tokens <;>
        simp [Name.token, Token.bare, modifiersWithin, hothers, ← String.toList_inj]

/-- The tokens of texts in parentheses, if there are any. -/
def modifierTokens (token : String → Token) (modifiers : List String) : List Token :=
  if modifiers.isEmpty then [] else
    .symbol "(" :: ([.symbol ","].intercalate (modifiers.map fun text => [token text]) ++ [.symbol ")"])

section Modifiers

variable {modifiers : List String} {token : String → Token}

theorem spells_modifiers (h : ∀ text ∈ modifiers, ReadModifier dialect text (token text)) :
    Spells dialect (inParentheses ", " modifiers) (modifierTokens token modifiers) := by
  unfold inParentheses modifierTokens
  by_cases hempty : modifiers = []
  · simpa [hempty] using spells_empty
  · have hall := spells_intercalate (separates_comma.append separates_blank) id
      (fun text => [token text]) fun text htext => ⟨(h text htext).spells, by simp⟩
    simpa [hempty] using hall.parenthesized

theorem length_modifiers (token : String → Token) (modifiers : List String) :
    2 * modifiers.length ≤ ([Token.symbol ","].intercalate
      (modifiers.map fun text => [token text])).length + 1 := by
  induction modifiers with
  | nil => simp
  | cons first others ih =>
    cases others with
    | nil => simp
    | cons second others =>
      simp only [List.map_cons, List.intercalate_cons_cons, List.length_append, List.length_cons,
        List.length_nil] at ih ⊢
      omega

theorem modifiersWithin_apply (h : ∀ text ∈ modifiers, ReadModifier dialect text (token text))
    {fuel : Nat} (hfuel : 2 * modifiers.length < fuel) :
    modifiersWithin fuel ([.symbol ","].intercalate (modifiers.map fun text => [token text])
      ++ .symbol ")" :: rest) = .ok (modifiers, rest) := by
  have hcomma : ∀ (fuel : Nat) (tokens : List Token),
      modifiersWithin (fuel + 1) (.symbol "," :: tokens) = modifiersWithin fuel tokens := by
    simp [modifiersWithin]
  have hclose : ∀ fuel, modifiersWithin (fuel + 1) (.symbol ")" :: rest) = .ok ([], rest) := by
    simp [modifiersWithin]
  induction modifiers generalizing fuel with
  | nil =>
    obtain ⟨fuel, rfl⟩ : ∃ n, fuel = n + 1 := Nat.exists_eq_add_one.2 (by simpa using hfuel)
    exact hclose fuel
  | cons first others ih =>
    have hfirst := (h first (by simp)).reads
    simp only [List.length_cons] at hfuel
    obtain ⟨fuel, rfl⟩ : ∃ n, fuel = n + 2 := ⟨fuel - 2, by omega⟩
    cases others with
    | nil => simp [hfirst, hclose]
    | cons second others =>
      have hothers := @ih (fun text htext => h text (List.mem_cons_of_mem _ htext)) fuel (by omega)
      simp only [List.map_cons] at hothers
      simp only [List.map_cons, List.intercalate_cons_cons, List.cons_append, List.nil_append,
        hfirst, hcomma, hothers]

end Modifiers

/-! ### What is listed in the parentheses of a type -/

/-- The written forms of the numbers that may stand after a text that is listed. -/
def IsSignedNumeral (text : String) : Prop :=
  ∃ sign ∈ ["", "+", "-"], ∃ digits, isNumeral digits ∧ text = sign ++ digits

/-- A number is read back with its sign, and does not begin with a keyword. -/
theorem IsSignedNumeral.exists_tokens {text : String} (h : IsSignedNumeral text) :
    ∃ tokens, tokens ≠ [] ∧ (∀ token ∈ tokens.head?, ∀ word, token.isKeyword word = false) ∧
      Spells dialect text tokens ∧ ∀ rest, signedNumber (tokens ++ rest) = .ok (text, rest) := by
  obtain ⟨sign, hsign, digits, hdigits, rfl⟩ := h
  have hspells : Spells dialect digits [.number digits ""] := spells_numeral hdigits
  have hnumber : ∀ rest, number (.number digits "" :: rest) = .ok (digits, rest) := by
    intro rest
    simp [number]
  -- A sign is a token of its own, since no symbol goes on with a digit.
  have hstart : ∀ c ∈ digits.toList.head?, isOperatorPart c = false ∧ c ≠ ':' := by
    obtain ⟨first, fraction, htext, hne, hall, -⟩ := exists_of_isNumeral hdigits
    obtain ⟨c, cs, rfl⟩ := List.exists_cons_of_ne_nil hne
    intro d hd
    obtain rfl : c = d := by simpa [htext] using hd
    have hdigit := Text.isDigit_iff.1 (hall c (by simp))
    have hcodes : ∀ c ∈ ':' :: "+-*/<>=~!@#%^&|\x60?".toList, c.toNat < 48 ∨ 57 < c.toNat := by decide
    refine ⟨?_, ?_⟩
    · rw [isOperatorPart, List.contains_eq_mem, decide_eq_false_iff_not]
      intro hmem
      have hcode := hcodes c (List.mem_cons_of_mem _ hmem)
      omega
    · rintro rfl
      have hcode := hcodes ':' (by simp)
      omega
  simp only [List.mem_cons, List.not_mem_nil, or_false] at hsign
  rcases hsign with rfl | rfl | rfl
  · exact ⟨[.number digits ""], by simp, by simp, by simpa using hspells,
      by simp [signedNumber, hnumber, hasSymbol]⟩
  · exact ⟨_, by simp, by simp, hspells.prefixed (by decide) (by simp) hstart,
      by simp [signedNumber, hnumber]⟩
  · exact ⟨_, by simp, by simp, hspells.prefixed (by decide) (by simp) hstart,
      by simp [signedNumber, hnumber]⟩

/-- Whether the written forms may be listed in the parentheses of a type. -/
def TypeArguments.Lists (dialect : Dialect) (arguments : TypeArguments) (members : List String) :
    Prop :=
  match arguments with
  | .texts => members ≠ [] ∧ ∀ member ∈ members,
      ∃ text, IsPlainString dialect text '\'' ∧ member = quoted '\'' text
  | .members => members ≠ [] ∧ ∀ member ∈ members, ∃ text, IsPlainString dialect text '\'' ∧
      (member = quoted '\'' text ∨
        ∃ number, IsSignedNumeral number ∧ member = quoted '\'' text ++ " = " ++ number)
  | .width => ∃ n < Nat.pow 2 64, members = [n.repr]
  | .instant => ∃ n < Nat.pow 2 64, members = [n.repr] ∨ ∃ zone, IsPlainString dialect zone '\'' ∧
      quoted '\'' zone = "'" ++ zone ++ "'" ∧ members = [n.repr, "'" ++ zone ++ "'"]
  | .none | .size | .length | .scale => False

/-- What is listed is read back, if each item is. -/
theorem exists_listed {item : Reader String} {members : List String} (hne : members ≠ [])
    (h : ∀ member ∈ members, ∃ tokens, tokens ≠ [] ∧ Spells dialect member tokens ∧
      ∀ rest, rest.head? ≠ some (.symbol "=") → item (tokens ++ rest) = .ok (member, rest)) :
    ∃ tokens, Spells dialect (String.intercalate ", " members) tokens ∧
      ∀ rest, separated item "," (tokens ++ .symbol ")" :: rest) =
        .ok (members, .symbol ")" :: rest) := by
  choose! tokens htokens using h
  refine ⟨[.symbol ","].intercalate (members.map tokens), ?_, fun rest => ?_⟩
  · have hall := spells_intercalate (separates_comma.append separates_blank) id tokens
      fun member hmember => ⟨(htokens member hmember).2.1, (htokens member hmember).1⟩
    simpa using hall
  · have hall : separated item "," ([.symbol ","].intercalate (members.map tokens) ++
        .symbol ")" :: rest) = .ok (members.map id, .symbol ")" :: rest) := by
      apply separated_apply tokens id (fun rest => rest.head? ≠ some (.symbol "=")) hne _ _ (by simp)
        (by simp)
      · exact fun member hmember rest hrest => (htokens member hmember).2.2 rest hrest
      · simp
    rwa [List.map_id] at hall

/-- What may be listed in the parentheses of a type is read back. -/
theorem TypeArguments.Lists.exists_tokens {arguments : TypeArguments} {members : List String}
    (h : arguments.Lists dialect members) : ∃ reader tokens, typeMembers? arguments = some reader ∧
      members ≠ [] ∧ Spells dialect (String.intercalate ", " members) tokens ∧
      ∀ rest, reader (tokens ++ .symbol ")" :: rest) = .ok (members, .symbol ")" :: rest) := by
  cases arguments with
  | none | size | length | scale => exact h.elim
  | texts =>
    obtain ⟨hne, hmembers⟩ := h
    obtain ⟨tokens, hspells, hreads⟩ := @exists_listed dialect (quoted '\'' <$> plainText) _ hne <| by
      intro member hmember
      obtain ⟨text, htext, rfl⟩ := hmembers member hmember
      exact ⟨_, by simp, spells_string htext, by simp [plainText]⟩
    exact ⟨_, tokens, rfl, hne, hspells, hreads⟩
  | members =>
    obtain ⟨hne, hmembers⟩ := h
    obtain ⟨tokens, hspells, hreads⟩ := @exists_listed dialect Reader.member _ hne <| by
      intro member hmember
      obtain ⟨text, htext, rfl | ⟨number, hnumber, rfl⟩⟩ := hmembers member hmember
      · refine ⟨_, by simp, spells_string htext, fun rest hrest => ?_⟩
        simp [Reader.member, Reader.text, hasSymbol_of_head hrest]
      · obtain ⟨digits, hdigits, -, hspells, hread⟩ := hnumber.exists_tokens
        refine ⟨_, ?_, (spells_string htext).separated
          (@separates_symbol _ "=" (by simp [operatorSymbols]) fun _ => by decide) hspells hdigits,
          fun rest _ => ?_⟩
        · simp
        · simp [Reader.member, Reader.text, hread, String.append_assoc]
    exact ⟨_, tokens, rfl, hne, hspells, hreads⟩
  | width =>
    obtain ⟨n, hn, rfl⟩ := h
    exact ⟨_, [.number n.repr ""], rfl, by simp, by simpa using spells_numeral (isNumeral_repr n),
      by simp [Reader.size_apply hn]⟩
  | instant =>
    obtain ⟨n, hn, rfl | ⟨zone, hzone, hquoted, rfl⟩⟩ := h
    · exact ⟨_, [.number n.repr ""], rfl, by simp, by simpa using spells_numeral (isNumeral_repr n),
        by simp [Reader.instant, Reader.size_apply hn]⟩
    · refine ⟨_, [.number n.repr ""] ++ [.symbol ","] ++ [.string zone '\''], rfl, by simp, ?_, ?_⟩
      · rw [String.intercalate_cons_cons, String.intercalate_singleton, ← hquoted]
        exact (spells_numeral (isNumeral_repr n)).separated (separates_comma.append separates_blank)
          (spells_string hzone) (by simp)
      · intro rest
        simp [Reader.instant, Reader.size_apply hn, Reader.text]

/-! ### Types that are read back -/

/-- The types that are read back. -/
inductive DataType.IsPlain (dialect : Dialect) : DataType → Prop
  /-- A type that SQL knows, with its sizes and the words after them. -/
  | known {form : TypeForm} {sizes : List TypeSize} {ending : List String} (hform : form ∈ typeForms)
      (hsizes : form.arguments.Admits sizes) (hending : ending ∈ form.endings) :
      IsPlain dialect (.known form.written (sizes.map TypeSize.render) (trailing ending))
  /-- A type that SQL knows by more than one word. -/
  | longer {form : TypeForm} {words : List String} {arguments : TypeArguments} {sizes : List TypeSize}
      (hform : form ∈ typeForms) (hwords : (words, arguments) ∈ form.seconds)
      (hsizes : arguments.Admits sizes) :
      IsPlain dialect
        (.known (String.intercalate " " (form.written :: words)) (sizes.map TypeSize.render) "")
  /-- A type of what is listed, such as the texts of an enumeration. -/
  | listed {form : TypeForm} {members : List String} (hform : form ∈ typeForms)
      (hmembers : form.arguments.Lists dialect members) :
      IsPlain dialect (.listed form.written members)
  /-- A type that SQL does not know. -/
  | custom {path : List Name} {modifiers : List String} (hpath : ∀ name ∈ path, name.IsPlain dialect)
      (hfirst : ∃ first ∈ path.head?, first.token.opensType = false ∧
        (dialect = .sqlite → Grammar.optionKeywords.any first.token.isKeyword = false))
      (hmodifiers : ∀ text ∈ modifiers, IsModifier dialect text) :
      IsPlain dialect (.custom path modifiers)
  /-- Lists of such a type, perhaps of a given length. SQLite has no brackets but those of names, and
  only PostgreSQL takes a length. -/
  | array {element : DataType} {length : Option Nat} (helement : IsPlain dialect element)
      (hdialect : dialect ≠ .sqlite)
      (hlength : ∀ n ∈ length, n < Nat.pow 2 64 ∧ dialect = .postgresql) :
      IsPlain dialect (.array element length)

section IsPlain

variable {type : DataType}

theorem announce_words {words : List String}
    (h : ∀ word ∈ words, (Token.word word none).keyword? = some word) :
    announce words (words.map (Token.word · none) ++ rest) = true := by
  induction words with
  | nil => simp
  | cons word words ih =>
    have hword : (Token.word word none).isKeyword word := by
      simpa [Token.isKeyword] using h word (by simp)
    simp only [List.map_cons, List.cons_append, announce_cons_cons, hword, Bool.true_and]
    exact ih fun other hother => h other (by simp_all)

/-- Of the second words that a form allows for, those are found that are there. -/
theorem find?_seconds {form : TypeForm} {words : List String} {arguments : TypeArguments}
    (hform : form ∈ typeForms) (hwords : (words, arguments) ∈ form.seconds) :
    (form.seconds.find? fun second => announce second.1 (words.map (Token.word · none) ++ rest)) =
      some (words, arguments) := by
  have hheads : ∀ form ∈ typeForms, (form.seconds.map fun second => second.1.head?).Nodup := by
    decide +kernel
  have hselves : ∀ form ∈ typeForms, ∀ second ∈ form.seconds, second.1 ≠ [] ∧
      ∀ word ∈ second.1, (Token.word word none).keyword? = some word := by
    decide +kernel
  obtain ⟨hne, hself⟩ := hselves form hform _ hwords
  cases hfind : form.seconds.find? fun second =>
      announce second.1 (words.map (Token.word · none) ++ rest) with
  | none => exact absurd (announce_words hself) (List.find?_eq_none.1 hfind _ hwords)
  | some other =>
    have hother := List.mem_of_find?_eq_some hfind
    have hannounced := List.find?_some hfind
    have hhead : other.1.head? = words.head? := by
      obtain ⟨first, others, hfirst⟩ := List.exists_cons_of_ne_nil (hselves form hform _ hother).1
      obtain ⟨word, words', rfl⟩ := List.exists_cons_of_ne_nil hne
      simp only [hfirst, List.map_cons, List.cons_append, announce_cons_cons, Bool.and_eq_true,
        Token.isKeyword, hself word (by simp), decide_eq_true_eq, Option.some.injEq] at hannounced
      simp [hfirst, hannounced.1]
    rw [List.inj_on_of_nodup_map (hheads form hform) hother hwords hhead]

/-- The second words of a type are taken with it. -/
theorem afterKeyword_of_mem {form : TypeForm} {words : List String} {arguments : TypeArguments}
    {sizes : List TypeSize} (hform : form ∈ typeForms) (hwords : (words, arguments) ∈ form.seconds)
    (hsizes : arguments.Admits sizes) (hrest : rest.head? ≠ some (.symbol "(")) :
    afterKeyword form (words.map (Token.word · none) ++ (sizeTokens sizes ++ rest)) =
      .ok (.known (String.intercalate " " (form.written :: words)) (sizes.map TypeSize.render) "",
        rest) := by
  have hmembers : ∀ form ∈ typeForms, form.seconds ≠ [] →
      form.arguments ∈ [TypeArguments.none, .size, .length] := by
    decide +kernel
  have harguments : typeMembers? form.arguments = none := by
    have hmem := hmembers form hform (List.ne_nil_of_mem hwords)
    simp only [List.mem_cons, List.not_mem_nil, or_false] at hmem
    rcases hmem with h | h | h <;> simp [h, typeMembers?]
  have hdrop : (words.map (Token.word · none) ++ (sizeTokens sizes ++ rest)).drop words.length =
      sizeTokens sizes ++ rest := by
    rw [List.drop_left' (by simp)]
  simp only [afterKeyword, harguments, bind_apply, get_apply, find?_seconds hform hwords, set_apply,
    hdrop, typeSizes_apply hsizes hrest, pure_apply]

theorem delimited_inParentheses (separator : String) (items : List String) :
    Delimited dialect (inParentheses separator items).toList := by
  unfold inParentheses
  by_cases h : items.isEmpty
  · simpa [h] using Delimited.nil
  · simpa [h] using Delimited.of_mem (by decide) _

theorem head?_sizeTokens_append {sizes : List TypeSize} {tokens : List Token} {p : Token → Prop}
    (hopen : p (.symbol "(")) (h : ∀ token ∈ tokens.head?, p token) :
    ∀ token ∈ (sizeTokens sizes ++ tokens).head?, p token := by
  unfold sizeTokens
  by_cases hempty : sizes = []
  · simpa [hempty] using h
  · simpa [hempty] using hopen

/-- The words that may stand after the sizes of a type are none that stand before them. -/
theorem isKeyword_of_ending {form : TypeForm} {ending : List String} (hform : form ∈ typeForms)
    (hending : ending ∈ form.endings) (hrest : EndsType rest) :
    ∀ token ∈ (ending.map (Token.word · none) ++ rest).head?, token ≠ .symbol "(" ∧
      ∀ word ∈ secondWords, token.isKeyword word = false := by
  have hall : ∀ form ∈ typeForms, ∀ ending ∈ form.endings, ∀ first ∈ ending.head?,
      ∀ word ∈ secondWords, (Token.word first none).isKeyword word = false := by
    decide +kernel
  intro token htoken
  cases ending with
  | nil =>
    refine ⟨?_, fun word hword => ?_⟩
    · rintro rfl
      exact hrest.head?_ne (by simp) htoken
    · exact hrest.isKeyword_eq token htoken word (List.mem_append_right _ hword)
  | cons first words =>
    cases htoken
    exact ⟨by simp, hall form hform _ hending first rfl⟩

/-- A type is read back from the tokens of its written form, whatever follows it; if brackets do, they
are taken next. -/
structure DataType.ReadFrom (dialect : Dialect) (type : DataType) (tokens : List Token) : Prop where
  /-- These are its tokens. -/
  spells : Spells dialect type.render tokens
  /-- There are some. -/
  ne_nil : tokens ≠ []
  /-- They do not show that there is no type. -/
  announced : ∀ (grammar : Grammar) (rest : List Token), grammar.dialect = dialect →
    grammar.lacksType (tokens ++ rest) = .ok (false, tokens ++ rest)
  /-- They are taken for the type. -/
  reads : ∀ rest, EndsType rest → ∃ more, rest.length < more ∧
    dataType dialect (tokens ++ rest) = arraysWithin dialect type more rest

theorem DataType.ReadFrom.dataType_apply {tokens : List Token} (h : type.ReadFrom dialect tokens)
    (hrest : EndsType rest) (hbracket : rest.head? ≠ some (.symbol "[")) :
    dataType dialect (tokens ++ rest) = .ok (type, rest) := by
  obtain ⟨more, hmore, hread⟩ := h.reads rest hrest
  obtain ⟨more, rfl⟩ : ∃ n, more = n + 1 := Nat.exists_eq_add_one.2 (by omega)
  rw [hread, arraysWithin_apply more hbracket]

theorem DataType.ReadFrom.dataType_of_ends {tokens : List Token} (h : type.ReadFrom dialect tokens)
    (hrest : Ends rest) : dataType dialect (tokens ++ rest) = .ok (type, rest) :=
  h.dataType_apply hrest.endsType (hrest.head?_ne (by decide))

theorem lacksType_word {grammar : Grammar} {text : String} {quote : Option Char}
    (h : grammar.dialect = .sqlite →
      Grammar.optionKeywords.any (Token.word text quote).isKeyword = false) :
    grammar.lacksType (.word text quote :: rest) = .ok (false, .word text quote :: rest) := by
  by_cases hdialect : grammar.dialect = .sqlite
  · simp [Grammar.lacksType, hdialect, h hdialect]
  · simp [Grammar.lacksType, hdialect]

theorem announced_written {form : TypeForm} (hform : form ∈ typeForms) (grammar : Grammar)
    (rest : List Token) : grammar.lacksType (.word form.written none :: rest) =
      .ok (false, .word form.written none :: rest) := by
  have hall : ∀ form ∈ typeForms, form.keyword ∉ Grammar.optionKeywords := by decide +kernel
  refine lacksType_word fun _ => List.any_eq_false.2 fun word hword => ?_
  have hne : form.keyword ≠ word := fun heq => hall form hform (heq ▸ hword)
  simpa [Token.isKeyword, keyword?_written hform] using hne

/-- A type that begins with a keyword is read back, if what follows the keyword is. -/
theorem DataType.readFrom_of_form {form : TypeForm} {tokens : List Token} (hform : form ∈ typeForms)
    (hspells : Spells dialect type.render (.word form.written none :: tokens))
    (h : ∀ rest, EndsType rest → afterKeyword form (tokens ++ rest) = .ok (type, rest)) :
    type.ReadFrom dialect (.word form.written none :: tokens) := by
  refine ⟨hspells, by simp, fun grammar rest _ => announced_written hform grammar _,
    fun rest hrest => ⟨(tokens ++ rest).length + 1, by simp only [List.length_append]; omega, ?_⟩⟩
  rw [List.cons_append, dataType_of_form hform (keyword?_written hform), h rest hrest]

theorem DataType.readFrom_known {form : TypeForm} {sizes : List TypeSize} {ending : List String}
    (hform : form ∈ typeForms) (hsizes : form.arguments.Admits sizes)
      (hending : ending ∈ form.endings) :
    DataType.ReadFrom dialect (.known form.written (sizes.map TypeSize.render) (trailing ending))
      (.word form.written none :: (sizeTokens sizes ++ ending.map (Token.word · none))) := by
  have hwords : ∀ form ∈ typeForms, ∀ ending ∈ form.endings, ∀ word ∈ ending, isAsciiWord word := by
    decide +kernel
  apply readFrom_of_form hform
  · have hname : Spells dialect form.written [.word form.written none] :=
      spells_word (isWord_written hform)
    exact (hname.append (spells_sizes hsizes.isLength) (delimited_inParentheses _ _)).append
      (spells_trailing fun word hword =>
        isWord_of_isAsciiWord (hwords form hform ending hending word hword))
      (delimited_trailing ending)
  · intro rest hrest
    have hnext := isKeyword_of_ending hform hending hrest
    rw [List.append_assoc]
    apply afterKeyword_apply hsizes.typeMembers?_eq _ _ hending
    · exact fun token htoken word hword =>
        hrest.isKeyword_eq token htoken word (List.mem_append_left _ hword)
    · apply find?_seconds_eq_none hform
      apply head?_sizeTokens_append
      · simp
      · exact fun token htoken => (hnext token htoken).2
    · exact typeSizes_apply hsizes fun hopen => (hnext _ hopen).1 rfl

theorem DataType.readFrom_longer {form : TypeForm} {words : List String} {arguments : TypeArguments}
    {sizes : List TypeSize} (hform : form ∈ typeForms) (hwords : (words, arguments) ∈ form.seconds)
    (hsizes : arguments.Admits sizes) :
    DataType.ReadFrom dialect
      (.known (String.intercalate " " (form.written :: words)) (sizes.map TypeSize.render) "")
      (.word form.written none :: (words.map (Token.word · none) ++ sizeTokens sizes)) := by
  have hseconds : ∀ form ∈ typeForms, ∀ second ∈ form.seconds, ∀ word ∈ second.1,
      isAsciiWord word := by
    decide +kernel
  apply readFrom_of_form hform
  · have hall : ∀ word ∈ form.written :: words, isWord dialect word := by
      intro word hword
      rcases List.mem_cons.1 hword with rfl | hword
      · exact isWord_written hform
      · exact isWord_of_isAsciiWord (hseconds form hform _ hwords word hword)
    have htokens := (spells_words hall).append (spells_sizes hsizes.isLength)
      (delimited_inParentheses _ _)
    simpa [DataType.render] using htokens
  · intro rest hrest
    rw [List.append_assoc]
    exact afterKeyword_of_mem hform hwords hsizes (hrest.head?_ne (by simp))

theorem DataType.exists_readFrom_listed {form : TypeForm} {members : List String}
    (hform : form ∈ typeForms) (hmembers : form.arguments.Lists dialect members) :
    ∃ tokens, DataType.ReadFrom dialect (.listed form.written members)
      (.word form.written none :: tokens) := by
  obtain ⟨reader, tokens, hreader, hne, hspells, hread⟩ := hmembers.exists_tokens
  refine ⟨.symbol "(" :: tokens ++ [.symbol ")"], readFrom_of_form hform ?_ fun rest _ => ?_⟩
  · have htext : inParentheses ", " members = "(" ++ String.intercalate ", " members ++ ")" := by
      simp [inParentheses, hne]
    have hname : Spells dialect form.written [.word form.written none] :=
      spells_word (isWord_written hform)
    have hall := hname.append hspells.parenthesized (htext ▸ delimited_inParentheses ", " members)
    rw [← htext] at hall
    exact hall
  · simp [afterKeyword, hreader, parenthesized, hread]

theorem DataType.readFrom_custom {path : List Name} {modifiers : List String} {token : String → Token}
    (hpath : ∀ name ∈ path, name.IsPlain dialect)
    (hfirst : ∃ first ∈ path.head?, first.token.opensType = false ∧
      (dialect = .sqlite → Grammar.optionKeywords.any first.token.isKeyword = false))
    (hmodifiers : ∀ text ∈ modifiers, ReadModifier dialect text (token text)) :
    DataType.ReadFrom dialect (.custom path modifiers)
      (namesTokens "." path ++ modifierTokens token modifiers) := by
  obtain ⟨first, hhead, hcustom, hoption⟩ := hfirst
  obtain ⟨others, rfl⟩ : ∃ others, path = first :: others := by
    cases path <;> simp_all
  obtain ⟨tokens, htokens⟩ : ∃ tokens, namesTokens "." (first :: others) = first.token :: tokens := by
    cases others with
    | nil => exact ⟨[], rfl⟩
    | cons second others => exact ⟨_, namesTokens_cons ..⟩
  refine ⟨?_, by simp [htokens], fun grammar rest hdialect => ?_, fun rest hrest => ?_⟩
  · exact (spells_path hpath).append (spells_modifiers hmodifiers) (delimited_inParentheses _ _)
  · rw [htokens]
    exact lacksType_word fun h => hoption (hdialect ▸ h)
  · have htaken : customType (namesTokens "." (first :: others) ++
        (modifierTokens token modifiers ++ rest)) =
          .ok (.custom (first :: others) modifiers, rest) := by
      -- Without modifiers there must be no parenthesis behind the path.
      by_cases hempty : modifiers = []
      · have hpath : Reader.path (namesTokens "." (first :: others) ++ rest) =
            .ok (first :: others, rest) :=
          path_apply (by simp) (hrest.head?_ne (by simp))
        have hopen : hasSymbol "(" rest = .ok (false, rest) :=
          hasSymbol_of_head (hrest.head?_ne (by simp))
        simp [customType, modifierTokens, hempty, hpath, hopen]
      · have hpath : ∀ tokens,
            Reader.path (namesTokens "." (first :: others) ++ .symbol "(" :: tokens) =
            .ok (first :: others, .symbol "(" :: tokens) :=
          fun tokens => path_apply (by simp) (by simp)
        have hlength := length_modifiers token modifiers
        simp only [customType, modifierTokens, hempty, hpath, List.isEmpty_iff, if_false,
          List.cons_append, List.append_assoc, List.nil_append, bind_apply, hasSymbol_symbol,
          decide_true, if_true, get_apply]
        rw [modifiersWithin_apply hmodifiers (by simp; omega)]
        rfl
    rw [List.append_assoc]
    rw [htokens] at htaken ⊢
    rw [List.cons_append] at htaken ⊢
    rw [Name.token] at htaken ⊢
    rw [dataType_of_custom hcustom, htaken]
    exact ⟨_, by simp only [List.length_append]; omega, rfl⟩

/-! ### Lists of a type -/

/-- The tokens of the brackets after a type. -/
def bracketTokens (length : Option Nat) : List Token :=
  .symbol "[" :: (length.elim [] fun n => [.number n.repr ""]) ++ [.symbol "]"]

theorem spells_brackets (length : Option Nat) (hdialect : dialect ≠ .sqlite) :
    Spells dialect ("[" ++ length.elim "" Nat.repr ++ "]") (bracketTokens length) := by
  cases length with
  | none => exact spells_empty.bracketed hdialect
  | some n => exact (spells_numeral (isNumeral_repr n)).bracketed hdialect

/-- Brackets after a type make it the type of lists. -/
theorem arraysWithin_brackets {length : Option Nat} (more : Nat)
    (hlength : ∀ n ∈ length, n < Nat.pow 2 64 ∧ dialect = .postgresql) :
    arraysWithin dialect type (more + 1) (bracketTokens length ++ rest) =
      arraysWithin dialect (.array type length) more rest := by
  cases length with
  | none =>
    have hsize : size (.symbol "]" :: rest) = .error .unexpected := size_of_error (by simp)
    by_cases hdialect : dialect = .postgresql <;>
      simp [arraysWithin, bracketTokens, hdialect, hsize]
  | some n =>
    obtain ⟨hn, rfl⟩ := hlength n rfl
    simp [arraysWithin, bracketTokens, Reader.size_apply hn]

theorem DataType.ReadFrom.array {tokens : List Token} {length : Option Nat}
    (h : type.ReadFrom dialect tokens) (hdialect : dialect ≠ .sqlite)
    (hlength : ∀ n ∈ length, n < Nat.pow 2 64 ∧ dialect = .postgresql) :
    (DataType.array type length).ReadFrom dialect (tokens ++ bracketTokens length) := by
  refine ⟨?_, by simp [h.ne_nil], fun grammar rest hgrammar => ?_, fun rest hrest => ?_⟩
  · have hopen : Delimited dialect ("[" ++ length.elim "" Nat.repr ++ "]").toList := by
      simp only [String.toList_append, List.append_assoc]
      exact .of_mem (show '[' ∈ delimiters by decide) _
    have hall := h.spells.append (spells_brackets length hdialect) hopen
    simpa [DataType.render, String.append_assoc] using hall
  · simpa using h.announced grammar (bracketTokens length ++ rest) hgrammar
  · obtain ⟨more, hmore, hread⟩ := h.reads (bracketTokens length ++ rest) (.cons (by decide) _)
    obtain ⟨more, rfl⟩ : ∃ n, more = n + 1 := Nat.exists_eq_add_one.2 (by omega)
    refine ⟨more, by simp [bracketTokens] at hmore; omega, ?_⟩
    rw [List.append_assoc, hread, arraysWithin_brackets more hlength]

/-- Every one of these types is read back. -/
theorem DataType.IsPlain.exists_readFrom (h : type.IsPlain dialect) :
    ∃ tokens, type.ReadFrom dialect tokens := by
  induction h with
  | known hform hsizes hending => exact ⟨_, readFrom_known hform hsizes hending⟩
  | longer hform hwords hsizes => exact ⟨_, readFrom_longer hform hwords hsizes⟩
  | listed hform hmembers =>
    obtain ⟨tokens, htokens⟩ := exists_readFrom_listed hform hmembers
    exact ⟨_, htokens⟩
  | custom hpath hfirst hmodifiers =>
    have hread := fun text htext => (hmodifiers text htext).exists_readModifier
    have : Nonempty Token := ⟨.symbol ","⟩
    choose! token htoken using hread
    exact ⟨_, readFrom_custom hpath hfirst htoken⟩
  | array _ hdialect hlength ih =>
    obtain ⟨tokens, htokens⟩ := ih
    exact ⟨_, htokens.array hdialect hlength⟩

end IsPlain

end Schemata.Sql
