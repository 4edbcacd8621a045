import Mathlib.Data.List.Basic
import Schemata.Sql.Reader
import Schemata.Text.Layout

/-!
# Texts and their tokens

A written form has the tokens that it was written for, provided that what follows cannot be taken
for a part of it. Blanks, commas, parentheses and semicolons end whatever stands before them; a
name may also end before a point, and a sign needs no blank after it.

## Main definitions

* `Lexes`, `Spells`: a text has the given tokens, at the end of a text and before others
* `isWord`, `isNumeral`: texts that are one word or one number
* `isAsciiWord`: texts that are a word in every dialect
* `Name.IsPlain`, `IsPlainString`: names and strings that are scanned as they are written

## Main results

* `Lexes.name`, `Lexes.operator`, `Lexes.prefixed`: tokens that need not end before a delimiter
* `spells_word`, `spells_numeral`, `spells_string`: tokens that do
* `Spells.append`, `spells_intercalate`: texts are put together, and so are their tokens
-/

namespace Schemata.Sql

variable {dialect : Dialect}

/-- What is asked of some characters is decided by going through them, and not through all that
there are. -/
instance decidableForallMem {cs : List Char} {p : Char → Prop} [DecidablePred p] :
    Decidable (∀ c ∈ cs, p c) :=
  List.decidableBAll p cs

/-! ### Tokens one by one -/

/-- The characters have the tokens. -/
def Lexes (dialect : Dialect) (cs : List Char) (tokens : List Token) : Prop :=
  ∀ fuel, cs.length ≤ fuel → Token.scanAll? dialect fuel cs = some tokens

theorem Lexes.ofText?_eq {text : String} {tokens : List Token}
    (h : Lexes dialect text.toList tokens) : Token.ofText? dialect text = some tokens :=
  h _ (Nat.le_refl _)

theorem Lexes.nil : Lexes dialect [] [] := by
  intro fuel _
  cases fuel <;> rfl

/-- What is scanned at the start of the characters comes first, be it a token or a blank. -/
theorem Lexes.scan {c : Char} {cs after : List Char} {token : Option Token} {tokens : List Token}
    (hscan : scan? dialect c cs = some (token, after)) (hlength : after.length ≤ cs.length)
    (h : Lexes dialect after tokens) : Lexes dialect (c :: cs) (token.toList ++ tokens) := by
  intro fuel hfuel
  cases fuel with
  | zero => simp at hfuel
  | succ fuel =>
    simp only [List.length_cons] at hfuel
    simp [Token.scanAll?, hscan, h fuel (by omega)]

theorem Lexes.blank {c : Char} {cs : List Char} {tokens : List Token}
    (hc : c = ' ' ∨ c = '\t' ∨ c = '\n') (h : Lexes dialect cs tokens) :
    Lexes dialect (c :: cs) tokens := by
  change Lexes dialect (c :: cs) ((none : Option Token).toList ++ tokens)
  apply Lexes.scan _ (Nat.le_refl _) h
  rcases hc with rfl | rfl | rfl <;> rfl

/-! ### Characters -/

/-- The characters that end whatever stands before them. -/
def delimiters : List Char := [' ', '\n', ',', '(', ')', ';', '[', ':']

/-- Whether the character ends whatever stands before it. In SQLite a closing bracket could also belong
to a name. -/
def isDelimiter (dialect : Dialect) (c : Char) : Bool :=
  delimiters.contains c || (c = ']' && dialect ≠ .sqlite)

/-- Nothing goes on with these characters. -/
def Delimited (dialect : Dialect) (after : List Char) : Prop := ∀ c ∈ after.head?, isDelimiter dialect c

theorem Delimited.nil : Delimited dialect [] := by simp [Delimited]

theorem Delimited.cons {c : Char} (hc : isDelimiter dialect c) (after : List Char) :
    Delimited dialect (c :: after) := by
  simpa [Delimited] using hc

theorem Delimited.of_mem {c : Char} (hc : c ∈ delimiters) (after : List Char) :
    Delimited dialect (c :: after) :=
  .cons (by simp [isDelimiter, hc]) after

theorem Delimited.append {cs after : List Char} (hcs : Delimited dialect cs)
    (hafter : Delimited dialect after) : Delimited dialect (cs ++ after) := by
  cases cs with
  | nil => exact hafter
  | cons c rest => exact .cons (hcs c rfl) _

/-- The marks, quotes and blanks with a meaning of their own begin no word. -/
theorem isWordStart_eq_false {c : Char}
    (hc : c ∈ [' ', '\t', '\n', '\r', '-', '#', '/', '\'', '"', '.', '\x60', '[', ',', '(', ')', ';',
      '&', '+', '*', '%', '|', '=', '<', '>']) : isWordStart dialect c = false := by
  revert c
  cases dialect <;> decide

theorem isWordStart_of_isDigit {c : Char} (h : c.isDigit) : isWordStart dialect c = false := by
  obtain ⟨hlow, hhigh⟩ := Text.isDigit_iff.1 h
  have halpha : c.isAlpha = false := by
    rw [Bool.eq_false_iff, ne_eq, Text.isAlpha_iff]
    omega
  have hne : ∀ d : Char, 57 < d.toNat ∨ d.toNat < 48 → c ≠ d := by
    rintro d hd rfl
    omega
  have hunderscore := hne '_' (by decide)
  have hdollar := hne '$' (by decide)
  have hat := hne '@' (by decide)
  cases dialect <;> simp [isWordStart, Text.isAlphabetic, halpha, hunderscore, hdollar, hat] <;> omega

theorem mem_of_isDelimiter {c : Char} (hc : isDelimiter dialect c ∨ c = '.') :
    c ∈ delimiters ++ [']', '.'] := by
  simp only [isDelimiter, Bool.or_eq_true, List.contains_eq_mem, decide_eq_true_eq, Bool.and_eq_true]
    at hc
  simp only [List.mem_append, List.mem_cons, List.not_mem_nil, or_false]
  tauto

theorem isWordPart_eq_false {c : Char} (hc : isDelimiter dialect c ∨ c = '.') (dialect' : Dialect) :
    isWordPart dialect' c = false := by
  replace hc := mem_of_isDelimiter hc
  revert c
  cases dialect' <;> decide

theorem ne_quote_of_isDelimiter {c : Char} (hc : isDelimiter dialect c ∨ c = '.') :
    c ≠ '\'' ∧ c ≠ '"' ∧ c ≠ '&' := by
  replace hc := mem_of_isDelimiter hc
  revert c
  decide

theorem ne_quote_of_isWordPart {c : Char} (h : isWordPart dialect c) :
    c ≠ '\'' ∧ c ≠ '"' ∧ c ≠ '&' := by
  have hfalse : ∀ d ∈ ['\'', '"', '&'], isWordPart dialect d = false := by
    cases dialect <;> decide
  have hne : ∀ d ∈ ['\'', '"', '&'], c ≠ d := by
    rintro d hd rfl
    simp [hfalse c hd] at h
  simpa using hne

/-- A literal that begins with a letter needs a quote after the letter. -/
theorem scanLettered?_eq_none {c : Char} {rest : List Char}
    (h : ∀ d ∈ rest.head?, d ≠ '\'' ∧ d ≠ '"' ∧ d ≠ '&') : scanLettered? dialect c rest = none := by
  fun_cases scanLettered? dialect c rest
  case case10 => rfl
  all_goals simp at h

/-- Only what begins a name in quotes opens one. -/
theorem nameQuote?_eq_none {c : Char} (h : c ≠ '"' ∧ c ≠ '\x60' ∧ c ≠ '[') :
    nameQuote? dialect c = none := by
  fun_cases nameQuote? dialect c <;> simp_all

theorem isLineComment_eq_false {c : Char} {cs : List Char}
    (h : c = '-' → cs.head? ≠ some '-') (hc : c ≠ '#') :
    isLineComment dialect (c :: cs) = false := by
  unfold isLineComment
  split <;> simp_all

/-! ### Words -/

/-- Whether a text is a word without blanks, which SQLite and MySQL take for letters above the ASCII
range. An at sign would begin a word in MySQL only. -/
def isWord (dialect : Dialect) (text : String) : Bool :=
  match text.toList with
  | [] => false
  | c :: cs =>
    isWordStart dialect c && c != '@' && cs.all (isWordPart dialect)
      && !(c :: cs).any Text.isBlank

/-- Whether a text is made of ASCII letters, digits and underscores, and begins with no digit. -/
def isAsciiWord (text : String) : Bool :=
  match text.toList with
  | [] => false
  | c :: cs => (c.isAlpha || c = '_') && cs.all fun d => d.isAlpha || d = '_' || d.isDigit

theorem isWordStart_of_ascii {c : Char} (h : c.isAlpha ∨ c = '_') : isWordStart dialect c := by
  rcases h with h | rfl
  · have hbounds := Text.isAlpha_iff.1 h
    have hascii : c.toNat < 0x80 := by omega
    cases dialect <;> simp [isWordStart, Text.isAlphabetic, h, hascii]
  · cases dialect <;> decide

theorem isBlank_of_ascii {c : Char} (h : c.isAlpha ∨ c = '_' ∨ c.isDigit) :
    Text.isBlank c = false := by
  have hbounds : 0x30 ≤ c.toNat ∧ c.toNat < 0x80 := by
    rcases h with h | rfl | h
    · have := Text.isAlpha_iff.1 h
      omega
    · decide
    · have := Text.isDigit_iff.1 h
      omega
  simp [Text.isBlank]
  omega

/-- Such a text is a word in every dialect. -/
theorem isWord_of_isAsciiWord {text : String} (h : isAsciiWord text) : isWord dialect text := by
  unfold isAsciiWord at h
  unfold isWord
  cases htext : text.toList with
  | nil => simp [htext] at h
  | cons c cs =>
    simp only [htext, Bool.and_eq_true, Bool.or_eq_true, decide_eq_true_eq, List.all_eq_true,
      or_assoc] at h
    obtain ⟨hfirst, hothers⟩ := h
    have hat : c ≠ '@' := by
      rintro rfl
      simp at hfirst
    have hparts : ∀ d ∈ cs, isWordPart dialect d := by
      intro d hd
      rcases hothers d hd with hletter | hletter | hdigit
      · simp [isWordPart, isWordStart_of_ascii (.inl hletter)]
      · simp [isWordPart, isWordStart_of_ascii (.inr hletter)]
      · simp [isWordPart, hdigit]
    have hblank : Text.isBlank c = false := isBlank_of_ascii (hfirst.imp_right .inl)
    have hblanks : ∀ d ∈ cs, Text.isBlank d = false := fun d hd => isBlank_of_ascii (hothers d hd)
    simpa [isWordStart_of_ascii hfirst, hat, hblank] using ⟨hparts, hblanks⟩

theorem scan?_word {c : Char} {cs after : List Char} (hstart : isWordStart dialect c)
    (hat : c ≠ '@') (hcs : ∀ d ∈ cs, isWordPart dialect d)
    (hafter : ∀ d ∈ after.head?, isDelimiter dialect d ∨ d = '.') :
    scan? dialect c (cs ++ after) = some (some (.word (String.ofList (c :: cs)) none), after) := by
  have hdigit : c.isDigit = false := by
    by_contra h
    simp [isWordStart_of_isDigit (by simpa using h)] at hstart
  have hne : ∀ d ∈ [' ', '\t', '\n', '\r', '-', '#', '/', '\'', '"', '.', '\x60', '['], c ≠ d := by
    rintro d hd rfl
    simp [isWordStart_eq_false (List.mem_append_left _ hd)] at hstart
  simp only [List.forall_mem_cons] at hne
  have hquote : ∀ d ∈ (cs ++ after).head?, d ≠ '\'' ∧ d ≠ '"' ∧ d ≠ '&' := by
    intro d hd
    cases cs with
    | nil => exact ne_quote_of_isDelimiter (hafter d hd)
    | cons e rest => exact ne_quote_of_isWordPart (hcs d (by simp_all))
  obtain ⟨htake, hdrop⟩ := Text.takeWhile_append_stop hcs fun d hd =>
    isWordPart_eq_false (hafter d hd) _
  rw [scan?, if_neg (by simp [hne]), if_neg (by simp [isLineComment_eq_false, hne]),
    if_neg (by simp [hne]), if_neg (by simp [isStringQuote, hne]), scanLettered?_eq_none hquote,
    nameQuote?_eq_none (by simp [hne])]
  simp only
  rw [if_neg (by simp [hdigit, hne]), if_neg (by simp [hat]), if_pos hstart, htake, hdrop]

theorem Lexes.word {text : String} {after : List Char} {tokens : List Token}
    (hword : isWord dialect text) (hafter : ∀ d ∈ after.head?, isDelimiter dialect d ∨ d = '.')
    (h : Lexes dialect after tokens) :
    Lexes dialect (text.toList ++ after) (.word text none :: tokens) := by
  unfold isWord at hword
  split at hword
  · cases hword
  · rename_i c cs hcs
    simp only [Bool.and_eq_true, bne_iff_ne, List.all_eq_true] at hword
    obtain ⟨⟨⟨hstart, hat⟩, hpart⟩, -⟩ := hword
    have htext : String.ofList (c :: cs) = text := by rw [← hcs, String.ofList_toList]
    rw [hcs, List.cons_append, ← htext]
    exact .scan (scan?_word hstart hat hpart hafter) (by simp) h

/-! ### Names and strings in quotes -/

/-- What is scanned up to a closing quote at the end is scanned before anything but that quote. -/
theorem scan_append {quote : Char} {cs text after : List Char}
    (h : Text.Quoted.scan quote cs = some (text, [])) (hafter : after.head? ≠ some quote) :
    Text.Quoted.scan quote (cs ++ after) = some (text, after) := by
  fun_induction Text.Quoted.scan quote cs generalizing text with
  | case1 | case3 | case5 => cases h
  | case2 =>
    cases h
    exact Text.Quoted.scan_quote hafter
  | case4 rest ih | case6 c d rest hc ih =>
    obtain ⟨⟨inner, _⟩, hinner, ⟨⟩⟩ := Option.map_eq_some_iff.1 h
    have hinner := ih hinner
    simp_all [Text.Quoted.scan]

/-- The same for strings with escapes. -/
theorem scanEscaped_append {quote : Char} {cs text after : List Char}
    (h : scanEscaped quote cs = some (text, [])) (hafter : after.head? ≠ some quote) :
    scanEscaped quote (cs ++ after) = some (text, after) := by
  fun_induction scanEscaped quote cs generalizing text with
  | case1 | case3 | case5 => cases h
  | case2 =>
    cases h
    cases after <;> simp_all [scanEscaped]
  | case4 rest ih | case6 d rest hc ih | case7 c d rest hc hd ih =>
    obtain ⟨⟨inner, _⟩, hinner, ⟨⟩⟩ := Option.map_eq_some_iff.1 h
    have hinner := ih hinner
    simp_all [scanEscaped]

/-- A name is plain if its written form is scanned as the name. -/
def Name.IsPlain (dialect : Dialect) (name : Name) : Prop :=
  match name.quote with
  | none => isWord dialect name.text
  | some quote => ∃ close, nameQuote? dialect quote = some close ∧
      Text.Quoted.scan close (name.render.toList.drop 1) = some (name.text.toList, [])

/-- The token of a name. -/
def Name.token (name : Name) : Token := .word name.text name.quote

/-- A string is plain if its written form is scanned as the string. -/
def IsPlainString (dialect : Dialect) (text : String) (quote : Char) : Prop :=
  isStringQuote dialect quote ∧
    scanString dialect quote (requote quote false text.toList ++ [quote]) = some (text.toList, [])

instance (dialect : Dialect) (text : String) (quote : Char) :
    Decidable (IsPlainString dialect text quote) :=
  inferInstanceAs (Decidable (_ ∧ _))

/-- Only some letters begin a literal. -/
theorem scanLettered?_of_not_mem {c : Char} {rest : List Char}
    (h : c.toUpper ∉ ['N', 'X', 'B', 'E', 'U']) : scanLettered? dialect c rest = none := by
  fun_cases scanLettered? dialect c rest
  case case10 => rfl
  all_goals simp_all

theorem quotes_of_nameQuote? {quote close : Char} (h : nameQuote? dialect quote = some close) :
    quote ∈ ['"', '\x60', '['] ∧ close ∈ ['"', '\x60', ']'] ∧
      isStringQuote dialect quote = false := by
  unfold nameQuote? at h
  split at h <;> first
    | cases h
      decide
    | cases h

theorem scan?_nameQuote {quote close : Char} {cs text after : List Char}
    (hquote : nameQuote? dialect quote = some close)
    (h : Text.Quoted.scan close cs = some (text, [])) (hafter : after.head? ≠ some close) :
    scan? dialect quote (cs ++ after) =
      some (some (.word (String.ofList text) (some quote)), after) := by
  obtain ⟨hmem, -, hstring⟩ := quotes_of_nameQuote? hquote
  have hne : quote ∉ [' ', '\t', '\n', '\r', '-', '#', '/'] ∧
      quote.toUpper ∉ ['N', 'X', 'B', 'E', 'U'] := by
    clear hstring hquote
    revert quote
    decide
  rw [scan?, if_neg (by simp_all), if_neg (by simp_all [isLineComment_eq_false]),
    if_neg (by simp_all), if_neg (by simp [hstring]), scanLettered?_of_not_mem hne.2, hquote]
  simp [scan_append h hafter]

theorem Name.toList_render_eq {name : Name} {quote : Char} (h : name.quote = some quote) :
    name.render.toList = quote :: name.render.toList.drop 1 := by
  unfold Name.render
  rw [h]
  split <;> simp_all [quoted]

/-- A plain name is one token, also before a point. -/
theorem Lexes.name {name : Name} {after : List Char} {tokens : List Token}
    (hname : name.IsPlain dialect) (hafter : ∀ d ∈ after.head?, isDelimiter dialect d ∨ d = '.')
    (h : Lexes dialect after tokens) :
    Lexes dialect (name.render.toList ++ after) (name.token :: tokens) := by
  obtain ⟨text, _ | quote⟩ := name
  · exact .word hname hafter h
  · obtain ⟨close, hquote, hscan⟩ := hname
    have hclose : after.head? ≠ some close := by
      intro hhead
      have hdelimiter := hafter close hhead
      clear hafter hhead hscan
      -- Only SQLite has names between brackets, and there no bracket ends them.
      unfold nameQuote? at hquote
      split at hquote <;> first
        | cases hquote
          simp [isDelimiter, delimiters] at hdelimiter
        | cases hquote
    rw [Name.toList_render_eq rfl, List.cons_append]
    have hword := scan?_nameQuote hquote hscan hclose
    rw [String.ofList_toList] at hword
    exact .scan hword (by simp) h

/-- A plain string is one token. -/
theorem Lexes.string {text : String} {quote : Char} {after : List Char} {tokens : List Token}
    (hstring : IsPlainString dialect text quote) (hafter : Delimited dialect after)
    (h : Lexes dialect after tokens) :
    Lexes dialect ((quoted quote text).toList ++ after) (.string text quote :: tokens) := by
  obtain ⟨hquote, hscan⟩ := hstring
  have hmem : quote = '\'' ∨ quote = '"' := by
    simp only [isStringQuote, Bool.or_eq_true, Bool.and_eq_true, decide_eq_true_eq] at hquote
    exact hquote.imp_right And.left
  have hhead : after.head? ≠ some quote := by
    intro hhead
    have hne := ne_quote_of_isDelimiter (.inl (hafter quote hhead))
    exact hmem.elim hne.1 hne.2.1
  have hblank : quote ∉ [' ', '\t', '\n', '\r', '-', '#', '/'] := by
    rcases hmem with rfl | rfl <;> decide
  have hafterScan : scanString dialect quote (requote quote false text.toList ++ [quote] ++ after) =
      some (text.toList, after) := by
    unfold scanString at hscan ⊢
    split at hscan
    · rw [if_pos ‹_›, scanEscaped_append hscan hhead]
    · rw [if_neg ‹_›, scan_append hscan hhead]
  have htoken : scan? dialect quote (requote quote false text.toList ++ [quote] ++ after) =
      some (some (.string text quote), after) := by
    rw [scan?, if_neg (by simp_all), if_neg (by simp_all [isLineComment_eq_false]),
      if_neg (by simp_all), if_pos hquote, hafterScan]
    simp
  rw [quoted, String.toList_ofList, List.cons_append]
  exact .scan htoken (by simp; omega) h

/-! ### Numbers -/

/-- Whether a text is a number without an exponent: digits, and perhaps a point and more digits. -/
def isNumeral (text : String) : Bool :=
  match text.toList.dropWhile Char.isDigit with
  | [] => !text.toList.isEmpty
  | c :: rest => (text.toList.head?.any Char.isDigit) && c == '.' && rest.all Char.isDigit

/-- The parts of a number. -/
theorem exists_of_isNumeral {text : String} (h : isNumeral text) :
    ∃ digits fraction, text.toList = digits ++ fraction ∧ digits ≠ [] ∧
      (∀ c ∈ digits, c.isDigit) ∧
      (fraction = [] ∨ ∃ rest, fraction = '.' :: rest ∧ ∀ c ∈ rest, c.isDigit) := by
  refine ⟨text.toList.takeWhile Char.isDigit, text.toList.dropWhile Char.isDigit,
    List.takeWhile_append_dropWhile.symm, ?_, fun c hc => ?_, ?_⟩
  · unfold isNumeral at h
    cases hlist : text.toList with
    | nil => simp [hlist] at h
    | cons c cs =>
      by_cases hc : c.isDigit
      · simp [hc]
      · simp [hlist, hc] at h
  · exact List.all_eq_true.1 List.all_takeWhile c hc
  · unfold isNumeral at h
    split at h
    · exact .inl ‹_›
    · rename_i c rest hrest
      simp only [Bool.and_eq_true, beq_iff_eq, List.all_eq_true] at h
      obtain ⟨⟨-, rfl⟩, hall⟩ := h
      exact .inr ⟨rest, hrest, hall⟩

theorem scanDecimal_numeral {digits fraction after : List Char} (hne : digits ≠ [])
    (hdigits : ∀ c ∈ digits, c.isDigit)
    (hfraction : fraction = [] ∨ ∃ rest, fraction = '.' :: rest ∧ ∀ c ∈ rest, c.isDigit)
    (hafter : Delimited dialect after) :
    scanDecimal dialect (digits ++ (fraction ++ after)) =
      (.number (String.ofList (digits ++ fraction)) "", after) := by
  -- What delimits a numeral goes on with none of its parts.
  have hends : ∀ c ∈ after.head?, c.isDigit = false ∧ c ≠ '.' ∧ c ≠ 'e' ∧ c ≠ 'E' ∧ c ≠ 'L' := by
    intro c hc
    have hmem := mem_of_isDelimiter (.inl (hafter c hc))
    have hpoint : c ≠ '.' := by
      rintro rfl
      have hdelimiter := hafter '.' hc
      cases dialect <;> simp [isDelimiter, delimiters] at hdelimiter
    clear hc
    refine ⟨?_, hpoint, ?_⟩ <;> (clear hpoint; revert c; decide)
  have hdigit : ∀ c ∈ (fraction ++ after).head?, c.isDigit = false := by
    intro c hc
    rcases hfraction with rfl | ⟨rest, rfl, -⟩
    · exact (hends c hc).1
    · cases hc
      rfl
  obtain ⟨htake, hdrop⟩ := Text.takeWhile_append_stop hdigits hdigit
  have hafterDrop : ∀ cs, (∀ c ∈ cs, c.isDigit) → (cs ++ after).takeWhile Char.isDigit = cs ∧
      (cs ++ after).dropWhile Char.isDigit = after :=
    fun cs hcs => Text.takeWhile_append_stop hcs fun c hc => (hends c hc).1
  have hexponent : scanExponent after = ([], after) := by
    cases after with
    | nil => rfl
    | cons c rest => simp [scanExponent, hends c rfl]
  have hmark : after.head? ≠ some 'L' := fun h => (hends 'L' h).2.2.2.2 rfl
  have htail : ∀ dialect, after.takeWhile (isWordPart dialect) = [] := by
    intro dialect
    cases after with
    | nil => rfl
    | cons c rest => simp [isWordPart_eq_false (.inl (hafter c rfl)) dialect]
  unfold scanDecimal
  rw [htake, hdrop]
  rcases hfraction with rfl | ⟨rest, rfl, hrest⟩
  · have hpoint : after.head? ≠ some '.' := fun h => (hends '.' h).2.1 rfl
    have hmantissa : digits ≠ ['.'] := by
      rintro rfl
      simp at hdigits
    obtain ⟨hnone, hall⟩ := hafterDrop [] (by simp)
    rw [List.nil_append] at hnone hall
    simp [hpoint, hmantissa, hnone, hall, htail, hexponent, hmark]
  · have hmantissa : digits ++ '.' :: rest ≠ ['.'] := by
      cases digits <;> simp_all
    obtain ⟨hnone, hall⟩ := hafterDrop rest hrest
    simp [hmantissa, hnone, hall, htail, hexponent, hmark]

/-- A number is one token. -/
theorem Lexes.numeral {text : String} {after : List Char} {tokens : List Token}
    (hnumeral : isNumeral text) (hafter : Delimited dialect after) (h : Lexes dialect after tokens) :
    Lexes dialect (text.toList ++ after) (.number text "" :: tokens) := by
  obtain ⟨digits, fraction, htext, hne, hdigits, hfraction⟩ := exists_of_isNumeral hnumeral
  obtain ⟨c, rest, rfl⟩ := List.exists_cons_of_ne_nil hne
  have hc : c.isDigit := hdigits c (by simp)
  -- A digit, a point or a delimiter comes next, and that rules every other token out.
  have hnext : ∀ d ∈ (rest ++ (fraction ++ after)).head?,
      d.isDigit ∨ isDelimiter dialect d ∨ d = '.' := by
    intro d hd
    cases rest with
    | cons e rest => exact .inl (hdigits d (by simp_all))
    | nil =>
      rcases hfraction with rfl | ⟨rest, rfl, -⟩
      · exact .inr (.inl (hafter d hd))
      · exact .inr (.inr (by simpa [eq_comm] using hd))
  have hquote : ∀ d ∈ (rest ++ (fraction ++ after)).head?, d ≠ '\'' ∧ d ≠ '"' ∧ d ≠ '&' := by
    intro d hd
    rcases hnext d hd with hdigit | hends
    · refine ⟨?_, ?_, ?_⟩ <;>
      · rintro rfl
        cases hdigit
    · exact ne_quote_of_isDelimiter hends
  have hnumber : scanNumber dialect (c :: (rest ++ (fraction ++ after))) =
      (.number text "", after) := by
    have hdecimal : scanDecimal dialect (c :: rest ++ (fraction ++ after)) =
        (.number (String.ofList (c :: rest ++ fraction)) "", after) :=
      scanDecimal_numeral hne hdigits hfraction hafter
    rw [← htext, String.ofList_toList] at hdecimal
    rw [scanNumber]
    · exact hdecimal
    · -- No letter follows, so the first digit does not begin a number of another base.
      intro tail htail
      have hx := hnext 'x' (by simp_all)
      cases dialect <;> revert hx <;> decide
  have hscan : scan? dialect c (rest ++ (fraction ++ after)) =
      some (some (.number text ""), after) := by
    have hdigit : ∀ c ∈ [' ', '\t', '\n', '\r', '-', '#', '/', '\'', '"', '\x60', '['],
        c.isDigit = false := by
      decide
    have hne : c ∉ [' ', '\t', '\n', '\r', '-', '#', '/', '\'', '"', '\x60', '['] := by
      intro hmem
      simp [hdigit c hmem] at hc
    rw [scan?, if_neg (by simp_all), if_neg (by simp_all [isLineComment_eq_false]),
      if_neg (by simp_all), if_neg (by simp_all [isStringQuote]), scanLettered?_eq_none hquote,
      nameQuote?_eq_none (by simp_all)]
    simp [hc, hnumber]
  rw [htext, List.append_assoc, List.cons_append]
  exact .scan hscan (by simp; omega) h

/-! ### Symbols -/

/-- The longer symbols consist of the characters of operators and of colons. -/
theorem not_symbol_of_mem {cs : List Char} {d : Char} (hd : d ∈ cs)
    (hpart : isOperatorPart d = false) (hcolon : d ≠ ':') :
    symbols.contains (String.ofList cs) = false := by
  have hall : ∀ s ∈ symbols, ∀ c ∈ s.toList, isOperatorPart c ∨ c = ':' := by decide
  by_contra hmem
  have hmem : String.ofList cs ∈ symbols := by simpa using hmem
  rcases hall _ hmem d (by simpa using hd) with h | h
  · simp [h] at hpart
  · exact hcolon h

/-- A symbol ends before a character that no operator has. -/
theorem scanSymbol_before {op rest : List Char} {d : Char} (hpart : isOperatorPart d = false)
    (hcolon : d ≠ ':')
    (hop : op.length = 1 ∨ op.length ∈ [2, 3, 4] ∧ symbols.contains (String.ofList op)) :
    scanSymbol dialect (op ++ d :: rest) = (.symbol (String.ofList op), d :: rest) := by
  -- The longest symbol is tried first. No longer one is there, as the next character is in none.
  have hlonger : ∀ n, op.length < n →
      symbols.contains (String.ofList ((op ++ d :: rest).take n)) = false := by
    intro n hn
    apply not_symbol_of_mem _ hpart hcolon
    rw [List.take_append, List.mem_append]
    right
    obtain ⟨k, hk⟩ : ∃ k, n - op.length = k + 1 := ⟨n - op.length - 1, by omega⟩
    simp [hk]
  have hlength : ([4, 3, 2].find? fun n =>
      symbols.contains (String.ofList ((op ++ d :: rest).take n))).getD 1 = op.length := by
    have htake : (op ++ d :: rest).take op.length = op := List.take_left
    rcases hop with hone | ⟨hlength, hsymbol⟩
    · simp only [List.find?, hlonger 4 (by omega), hlonger 3 (by omega), hlonger 2 (by omega)]
      simp [hone]
    · simp only [List.mem_cons, List.not_mem_nil, or_false] at hlength
      rcases hlength with htwo | hthree | hfour
      · rw [htwo] at htake
        simp only [List.find?, hlonger 4 (by omega), hlonger 3 (by omega), htake, hsymbol]
        simp [htwo]
      · rw [hthree] at htake
        simp only [List.find?, hlonger 4 (by omega), htake, hsymbol]
        simp [hthree]
      · rw [hfour] at htake
        simp only [List.find?, htake, hsymbol]
        simp [hfour]
  have hmore : ∀ extended : Bool,
      (if extended then (d :: rest).takeWhile isOperatorPart else []) = [] := by
    intro extended
    cases extended <;> simp [hpart]
  unfold scanSymbol
  simp only [hlength, List.drop_left, hmore]
  simp

/-- The symbols between operands. -/
def operatorSymbols : List String :=
  ["+", "-", "*", "/", "%", "||", "=", "<>", "<", "<=", ">", ">=", "<=>", "~", "~*", "!~", "!~*", "~~",
    "~~*", "!~~", "!~~*", "|", "&", "^", "->", "->>", "<@", "<<", ">>", "&&", "^@", "#", "#>",
    "#>>", "#-", "@>", "@?", "@@"]

/-- The characters that symbols between operands begin with. -/
def operatorChars : List Char := ['+', '-', '*', '/', '%', '|', '=', '<', '>', '~', '!', '&', '^']

/-- The characters that other symbols between operands begin with, which begin a comment or a word in
MySQL. -/
def markedChars : List Char := ['#', '@']

/-- Whether a symbol begins with one of these. -/
def isMarked (op : String) : Bool := op.toList.head?.any markedChars.contains

/-- The characters around and between elements. -/
def markChars : List Char := ['(', ')', ',', ';']

/-- What begins with a mark and is no comment is a symbol. -/
theorem scan?_mark {c : Char} {cs : List Char}
    (hc : c ∈ operatorChars ++ markChars ∨ c ∈ markedChars ∧ dialect ≠ .mysql)
    (hdash : c = '-' → cs.head? ≠ some '-') (hslash : c = '/' → cs.head? ≠ some '*') :
    scan? dialect c cs =
      some (some (scanSymbol dialect (c :: cs)).1, (scanSymbol dialect (c :: cs)).2) := by
  have hchars : ∀ c ∈ operatorChars ++ markChars ++ markedChars,
      c ∉ [' ', '\t', '\n', '\r', '\'', '"', '\x60', '[', '.', '$', '?'] ∧
        c.isDigit = false ∧ Text.isBlank c = false ∧ c.toUpper ∉ ['N', 'X', 'B', 'E', 'U'] := by
    decide
  have hstarts : ∀ c ∈ operatorChars ++ markChars, isWordStart dialect c = false ∧ c ∉ markedChars := by
    cases dialect <;> decide
  have hmarked : dialect ≠ .mysql → ∀ c ∈ markedChars, isWordStart dialect c = false := by
    cases dialect <;> decide
  -- Only two of the characters begin anything else, and that in MySQL, where they are left out.
  have hsymbol : (c = '#' → dialect ≠ .mysql) ∧ (c = '@' → dialect ≠ .mysql) ∧
      isWordStart dialect c = false ∧ c ∈ operatorChars ++ markChars ++ markedChars := by
    rcases hc with hc | ⟨hc, hdialect⟩
    · obtain ⟨hstart, hother⟩ := hstarts c hc
      simp only [markedChars, List.mem_cons, List.not_mem_nil, or_false, not_or] at hother
      exact ⟨(absurd · hother.1), (absurd · hother.2), hstart, List.mem_append_left _ hc⟩
    · exact ⟨fun _ => hdialect, fun _ => hdialect, hmarked hdialect c hc, List.mem_append_right _ hc⟩
  obtain ⟨hhash, hat, hstart, hmem⟩ := hsymbol
  obtain ⟨hne, hdigit, hblank, hletter⟩ := hchars c hmem
  have hcomment : isLineComment dialect (c :: cs) = false := by
    unfold isLineComment
    split <;> simp_all
  rw [scan?, if_neg (by simp_all), if_neg (by simp [hcomment]), if_neg (by simp_all),
    if_neg (by simp_all [isStringQuote]), scanLettered?_of_not_mem hletter,
    nameQuote?_eq_none (by simp_all)]
  by_cases hsign : c = '@'
  · simp [hsign, scanAt, hat hsign]
  · simp_all

/-- An operator ends before a blank. -/
theorem Lexes.operator {op : String} {after : List Char} {tokens : List Token}
    (hop : op ∈ operatorSymbols)
    (hdialect : dialect = .mysql → isMarked op = false) (h : Lexes dialect (' ' :: after) tokens) :
    Lexes dialect (op.toList ++ ' ' :: after) (.symbol op :: tokens) := by
  have hchars : ∀ op ∈ operatorSymbols, op.toList ≠ [] ∧
      op.toList.head?.all (operatorChars ++ markedChars).contains := by
    decide +kernel
  have hcomments : ∀ op ∈ operatorSymbols, op.toList.take 2 ≠ ['-', '-'] ∧
      op.toList.take 2 ≠ ['/', '*'] := by
    decide +kernel
  have hsizes : ∀ op ∈ operatorSymbols,
      op.toList.length = 1 ∨ op.toList.length ∈ [2, 3, 4] ∧ symbols.contains op := by
    decide +kernel
  have hlength := hsizes op hop
  obtain ⟨hne, hc⟩ := hchars op hop
  obtain ⟨hdash, hslash⟩ := hcomments op hop
  obtain ⟨c, cs, hlist⟩ := List.exists_cons_of_ne_nil hne
  simp only [isMarked, hlist, List.head?_cons, Option.any_some, Option.all_some, List.contains_eq_mem,
    decide_eq_true_eq, decide_eq_false_iff_not] at hdash hslash hc hdialect
  have htext : String.ofList (c :: cs) = op := by rw [← hlist, String.ofList_toList]
  have hchar : c ∈ operatorChars ++ markChars ∨ c ∈ markedChars ∧ dialect ≠ .mysql := by
    rcases List.mem_append.1 hc with hc | hc
    · exact .inl (List.mem_append_left _ hc)
    · exact .inr ⟨hc, fun hmysql => hdialect hmysql hc⟩
  have hscan : scan? dialect c (cs ++ ' ' :: after) = some (some (.symbol op), ' ' :: after) := by
    -- It begins no comment, neither by itself nor with the blank.
    have hnext : ∀ d : Char, d ≠ ' ' → (c :: cs).take 2 ≠ [c, d] →
        (cs ++ ' ' :: after).head? ≠ some d := by
      intro d hblank htake hhead
      cases cs with
      | nil => exact hblank (Option.some.inj hhead).symm
      | cons next others =>
        obtain rfl : next = d := Option.some.inj hhead
        exact htake rfl
    rw [hlist, ← htext] at hlength
    rw [scan?_mark hchar (fun h => hnext '-' (by decide) (h ▸ hdash))
      (fun h => hnext '*' (by decide) (h ▸ hslash)), ← List.cons_append,
      scanSymbol_before (by decide) (by decide) hlength, htext]
  rw [hlist, List.cons_append]
  exact .scan hscan (by simp) h

/-- A mark that no operator has is a symbol by itself. -/
theorem scanSymbol_of_mark {c : Char} {cs : List Char} (hpart : isOperatorPart c = false)
    (hcolon : c ≠ ':') (hextended : c ∉ ['-', '%', '|', '<', '>', '&', '~', '#']) :
    scanSymbol dialect (c :: cs) = (.symbol (String.ofList [c]), cs) := by
  have hnone : ∀ n, symbols.contains (String.ofList ((c :: cs).take (n + 1))) = false :=
    fun n => not_symbol_of_mem List.mem_cons_self hpart hcolon
  have hone : ([4, 3, 2].find? fun n =>
      symbols.contains (String.ofList ((c :: cs).take n))).getD 1 = 1 := by
    simp only [List.find?, hnone]
    rfl
  unfold scanSymbol
  simp only [hone]
  simp_all

/-- Commas, semicolons and parentheses end before anything. -/
theorem Lexes.mark {c : Char} {cs : List Char} {tokens : List Token}
    (hc : c ∈ markChars) (h : Lexes dialect cs tokens) :
    Lexes dialect (c :: cs) (.symbol (String.ofList [c]) :: tokens) := by
  have hchars : ∀ c ∈ markChars, (isOperatorPart c = false ∧ c ≠ ':') ∧ c ≠ '-' ∧ c ≠ '/' ∧
      c ∉ ['-', '%', '|', '<', '>', '&', '~', '#'] := by
    decide
  obtain ⟨⟨hpart, hcolon⟩, hdash, hslash, hextended⟩ := hchars c hc
  have hscan : scan? dialect c cs = some (some (.symbol (String.ofList [c])), cs) := by
    rw [scan?_mark (.inl (List.mem_append_right _ hc)) (absurd · hdash) (absurd · hslash),
      scanSymbol_of_mark hpart hcolon hextended]
  exact .scan hscan (Nat.le_refl _) h

/-- Brackets and colons begin a symbol, but for the brackets of names in SQLite. -/
theorem scan?_bracket {c : Char} {cs : List Char} (hc : c ∈ ['[', ']', ':'])
    (hdialect : dialect = .sqlite → c ≠ '[') :
    scan? dialect c cs =
      some (some (scanSymbol dialect (c :: cs)).1, (scanSymbol dialect (c :: cs)).2) := by
  have hchars : ∀ c ∈ ['[', ']', ':'],
      c ∉ [' ', '\t', '\n', '\r', '-', '/', '\'', '"', '\x60', '.', '@', '$', '?', '#'] ∧
        c.isDigit = false ∧ Text.isBlank c = false ∧ c.toUpper ∉ ['N', 'X', 'B', 'E', 'U'] := by
    decide
  have hstarts : ∀ c ∈ ['[', ']', ':'], isWordStart dialect c = false := by
    cases dialect <;> decide
  have hstart := hstarts c hc
  obtain ⟨hne, hdigit, hblank, hletter⟩ := hchars c hc
  have hquote : nameQuote? dialect c = none := by
    simp only [List.mem_cons, List.not_mem_nil, or_false] at hc
    rcases hc with rfl | rfl | rfl <;> cases dialect <;> first
      | rfl
      | exact absurd rfl (hdialect rfl)
  rw [scan?, if_neg (by simp_all), if_neg (by simp_all [isLineComment_eq_false]),
    if_neg (by simp_all), if_neg (by simp_all [isStringQuote]), scanLettered?_of_not_mem hletter,
    hquote]
  simp_all

/-- Brackets end before anything. In SQLite an opening one begins a name. -/
theorem Lexes.bracket {c : Char} {cs : List Char} {tokens : List Token} (hc : c ∈ ['[', ']'])
    (hdialect : dialect = .sqlite → c ≠ '[') (h : Lexes dialect cs tokens) :
    Lexes dialect (c :: cs) (.symbol (String.ofList [c]) :: tokens) := by
  have hchars : ∀ c ∈ ['[', ']'], (isOperatorPart c = false ∧ c ≠ ':' ∧
      c ∉ ['-', '%', '|', '<', '>', '&', '~', '#']) ∧ c ∈ ['[', ']', ':'] := by
    decide
  obtain ⟨⟨hpart, hcolon, hextended⟩, hmem⟩ := hchars c hc
  have hscan := @scan?_bracket dialect c cs hmem hdialect
  rw [scanSymbol_of_mark hpart hcolon hextended] at hscan
  exact .scan hscan (Nat.le_refl _) h

/-- The symbols that stand right before what they belong to. -/
def prefixSymbols : List String := ["+", "-", "::"]

/-- A sign before an operand is a symbol of its own, and so are the colons before a type. -/
theorem Lexes.prefixed {mark : String} {d : Char} {after : List Char} {tokens : List Token}
    (hmark : mark ∈ prefixSymbols) (hpart : isOperatorPart d = false) (hcolon : d ≠ ':')
    (h : Lexes dialect (d :: after) tokens) :
    Lexes dialect (mark.toList ++ d :: after) (.symbol mark :: tokens) := by
  have hfacts : ∀ mark ∈ prefixSymbols, mark.toList.length = 1 ∨
      mark.toList.length ∈ [2, 3, 4] ∧ symbols.contains (String.ofList mark.toList) := by
    decide
  have hsymbol := @scanSymbol_before dialect mark.toList after d hpart hcolon (hfacts mark hmark)
  rw [String.ofList_toList] at hsymbol
  have hnext : ∀ c, isOperatorPart c → d ≠ c := by
    rintro c hc rfl
    simp [hpart] at hc
  have hscan : ∃ c cs, mark.toList = c :: cs ∧ scan? dialect c (cs ++ d :: after) =
      some (some (scanSymbol dialect (mark.toList ++ d :: after)).1,
        (scanSymbol dialect (mark.toList ++ d :: after)).2) := by
    simp only [prefixSymbols, List.mem_cons, List.not_mem_nil, or_false] at hmark
    rcases hmark with rfl | rfl | rfl
    · exact ⟨'+', [], by decide, scan?_mark (.inl (by decide)) (by simp) (by simp)⟩
    · refine ⟨'-', [], by decide, scan?_mark (.inl (by decide)) (fun _ => ?_) (by simp)⟩
      simpa using hnext '-' (by decide)
    · exact ⟨':', [':'], by decide, scan?_bracket (by decide) (by simp)⟩
  obtain ⟨c, cs, hlist, hscan⟩ := hscan
  rw [hsymbol] at hscan
  rw [hlist, List.cons_append]
  exact .scan hscan (by simp) h

/-- A point that no digit follows is a symbol. -/
theorem Lexes.point {d : Char} {cs : List Char} {tokens : List Token} (hd : d.isDigit = false)
    (h : Lexes dialect (d :: cs) tokens) :
    Lexes dialect ('.' :: d :: cs) (.symbol "." :: tokens) := by
  have hscan : scan? dialect '.' (d :: cs) = some (some (.symbol "."), d :: cs) := by
    have hnumber : scanNumber dialect ('.' :: d :: cs) = (.symbol ".", d :: cs) := by
      simp [scanNumber, scanDecimal, hd]
    have hcomment : isLineComment dialect ('.' :: d :: cs) = false :=
      isLineComment_eq_false (by simp) (by decide)
    rw [scan?, if_neg (by decide), if_neg (by simp [hcomment]), if_neg (by simp),
      if_neg (by simp [isStringQuote]), scanLettered?_of_not_mem (by decide),
      nameQuote?_eq_none (by decide)]
    simp [hnumber]
  exact .scan hscan (by simp) h

/-! ### Texts one behind the other -/

/-- The text does not end with a blank. -/
def Tight (text : String) : Prop := ∀ c ∈ text.toList.getLast?, Text.isBlank c = false

theorem Tight.of_getLast? {text : String} {c : Char} (hlast : text.toList.getLast? = some c)
    (hc : Text.isBlank c = false) : Tight text := by
  intro d hd
  rw [hlast] at hd
  cases hd
  exact hc

theorem Tight.append {first second : String} (hfirst : second = "" → Tight first)
    (hsecond : Tight second) : Tight (first ++ second) := by
  by_cases h : second = ""
  · simpa [h] using hfirst h
  · have hne : second.toList ≠ [] := by simpa using h
    intro c hc
    rw [String.toList_append, List.getLast?_append_of_ne_nil _ hne] at hc
    exact hsecond c hc

/-- A text without a blank at its end is left alone. -/
theorem Tight.endTrimmed_eq {text : String} (h : Tight text) : Text.endTrimmed text = text := by
  apply String.toList_inj.1
  rw [Text.endTrimmed, String.toList_ofList]
  rcases List.eq_nil_or_concat text.toList with hnil | ⟨cs, c, hcs⟩
  · rw [hnil, Text.trimEnd_nil]
  · rw [hcs, List.concat_eq_append]
    exact Text.trimEnd_eq_self (h c (by simp [hcs]))

/-- Among the tokens, each closing parenthesis has an opening one before it. -/
def Closed (tokens : List Token) : Prop :=
  .symbol ")" ∉ tokens.takeWhile (· ≠ .symbol "(")

theorem Closed.of_not_mem {tokens : List Token} (h : .symbol ")" ∉ tokens) : Closed tokens :=
  fun hmem => h ((List.takeWhile_sublist _).mem hmem)

theorem Closed.opened (tokens : List Token) : Closed (.symbol "(" :: tokens) := by
  simp [Closed]

theorem Closed.append {first second : List Token} (hfirst : Closed first) (hsecond : Closed second) :
    Closed (first ++ second) := by
  unfold Closed at hfirst hsecond ⊢
  rw [List.takeWhile_append]
  split
  · rename_i hall
    rw [List.mem_append, not_or]
    rw [(List.takeWhile_prefix _).eq_of_length hall] at hfirst
    exact ⟨hfirst, hsecond⟩
  · exact hfirst

/-- The text has the tokens, before whatever cannot be taken for a part of it, it does not end with a
blank, and no parenthesis is closed that was not opened. -/
structure Spells (dialect : Dialect) (text : String) (tokens : List Token) : Prop where
  /-- It has the tokens. -/
  lexes : ∀ after ts, Delimited dialect after → Lexes dialect after ts →
    Lexes dialect (text.toList ++ after) (tokens ++ ts)
  /-- It does not end with a blank. -/
  tight : Tight text
  /-- It closes only what it opens. -/
  closed : Closed tokens

theorem Spells.ofText?_eq {text : String} {tokens : List Token} (h : Spells dialect text tokens) :
    Token.ofText? dialect text = some tokens := by
  have hall := h.lexes [] [] .nil .nil
  rw [List.append_nil, List.append_nil] at hall
  exact hall.ofText?_eq

theorem Spells.ne_empty {text : String} {tokens : List Token} (h : Spells dialect text tokens)
    (hne : tokens ≠ []) : text ≠ "" := by
  rintro rfl
  have hnil := h.ofText?_eq
  cases hnil
  exact hne rfl

theorem spells_empty : Spells dialect "" [] :=
  ⟨fun _ _ _ h => h, by simp [Tight], .of_not_mem (by simp)⟩

theorem tight_of_isWord {text : String} (h : isWord dialect text) : Tight text := by
  unfold isWord at h
  split at h
  · cases h
  · rename_i c cs hcs
    simp only [Bool.and_eq_true, Bool.not_eq_true', List.any_eq_false] at h
    intro d hd
    rw [hcs] at hd
    simpa using h.2 d (List.mem_of_getLast? hd)

theorem spells_word {text : String} (h : isWord dialect text) :
    Spells dialect text [.word text none] :=
  ⟨fun _ _ hafter hlexes => .word h (fun d hd => .inl (hafter d hd)) hlexes, tight_of_isWord h,
    .of_not_mem (by simp)⟩

theorem spells_numeral {text : String} (h : isNumeral text) :
    Spells dialect text [.number text ""] := by
  refine ⟨fun _ _ hafter hlexes => .numeral h hafter hlexes, fun c hc => ?_, .of_not_mem (by simp)⟩
  obtain ⟨digits, fraction, htext, -, hdigits, hfraction⟩ := exists_of_isNumeral h
  have hmem : c ∈ digits ++ fraction := htext ▸ List.mem_of_getLast? hc
  have hc : c.isDigit ∨ c = '.' := by
    rcases hfraction with rfl | ⟨rest, rfl, hrest⟩ <;>
      simp only [List.mem_append, List.mem_cons, List.not_mem_nil, or_false] at hmem
    · exact .inl (hdigits c hmem)
    · rcases hmem with hmem | rfl | hmem
      · exact .inl (hdigits c hmem)
      · exact .inr rfl
      · exact .inl (hrest c hmem)
  rcases hc with hdigit | rfl
  · exact isBlank_of_ascii (.inr (.inr hdigit))
  · rfl

theorem tight_quoted {quote : Char} (hquote : Text.isBlank quote = false) (text : String) :
    Tight (quoted quote text) :=
  .of_getLast? (by simp [quoted, List.getLast?_cons]) hquote

theorem spells_string {text : String} {quote : Char} (h : IsPlainString dialect text quote) :
    Spells dialect (quoted quote text) [.string text quote] := by
  refine ⟨fun _ _ hafter hlexes => .string h hafter hlexes, tight_quoted ?_ text,
    .of_not_mem (by simp)⟩
  have hquote := h.1
  simp only [isStringQuote, Bool.or_eq_true, Bool.and_eq_true, decide_eq_true_eq] at hquote
  rcases hquote with rfl | ⟨rfl, -⟩ <;> rfl

theorem Name.tight {name : Name} (h : name.IsPlain dialect) : Tight name.render := by
  obtain ⟨text, _ | quote⟩ := name
  · exact tight_of_isWord h
  · obtain ⟨close, hquote, -⟩ := h
    have hmem := (quotes_of_nameQuote? hquote).1
    simp only [List.mem_cons, List.not_mem_nil, or_false] at hmem
    rcases hmem with rfl | rfl | rfl
    · exact tight_quoted (by decide) text
    · exact tight_quoted (by decide) text
    · exact .of_getLast? (c := ']') (by simp [Name.render, List.getLast?_cons]) (by decide)

theorem spells_name {name : Name} (h : name.IsPlain dialect) :
    Spells dialect name.render [name.token] :=
  ⟨fun _ _ hafter hlexes => .name h (fun d hd => .inl (hafter d hd)) hlexes, Name.tight h,
    .of_not_mem (by simp [Name.token])⟩

theorem Spells.append {first second : String} {tokens tokens' : List Token}
    (hfirst : Spells dialect first tokens) (hsecond : Spells dialect second tokens')
    (hdelimited : Delimited dialect second.toList) :
    Spells dialect (first ++ second) (tokens ++ tokens') := by
  refine ⟨fun after ts hafter hlexes => ?_, .append (fun _ => hfirst.tight) hsecond.tight,
    hfirst.closed.append hsecond.closed⟩
  rw [String.toList_append, List.append_assoc, List.append_assoc]
  exact hfirst.lexes _ _ (hdelimited.append hafter) (hsecond.lexes _ _ hafter hlexes)

/-- The text has the tokens whatever follows it, and can follow anything. -/
structure Separates (dialect : Dialect) (text : String) (tokens : List Token) : Prop where
  /-- It ends what stands before it. -/
  delimited : ∀ after, Delimited dialect (text.toList ++ after)
  /-- It has the tokens. -/
  lexes : ∀ after ts, Lexes dialect after ts → Lexes dialect (text.toList ++ after) (tokens ++ ts)
  /-- It closes only what it opens. -/
  closed : Closed tokens

theorem separates_blank : Separates dialect " " [] :=
  ⟨fun _ => .of_mem (by decide) _, fun _ _ h => .blank (.inl rfl) h, .of_not_mem (by simp)⟩

theorem separates_comma : Separates dialect "," [.symbol ","] :=
  ⟨fun _ => .of_mem (by decide) _, fun _ _ h => .mark (by decide) h,
    .of_not_mem (by decide)⟩

theorem Separates.append {first second : String} {tokens tokens' : List Token}
    (hfirst : Separates dialect first tokens) (hsecond : Separates dialect second tokens') :
    Separates dialect (first ++ second) (tokens ++ tokens') := by
  refine ⟨?_, ?_, hfirst.closed.append hsecond.closed⟩
  · intro after
    rw [String.toList_append, List.append_assoc]
    exact hfirst.delimited _
  · intro after ts h
    rw [String.toList_append, List.append_assoc, List.append_assoc]
    exact hfirst.lexes _ _ (hsecond.lexes _ _ h)

/-- An operator between blanks. -/
theorem separates_symbol {op : String} (hop : op ∈ operatorSymbols)
    (hdialect : dialect = .mysql → isMarked op = false) :
    Separates dialect (" " ++ op ++ " ") [.symbol op] := by
  have hparens : ∀ op ∈ operatorSymbols, op ≠ ")" := by decide
  refine ⟨fun after => ?_, fun after ts hlexes => ?_, .of_not_mem ?_⟩
  · simpa using Delimited.of_mem (by decide) _
  · simpa using Lexes.blank (.inl rfl) (.operator hop hdialect (.blank (.inl rfl) hlexes))
  · simpa [eq_comm] using hparens op hop

/-- Two texts with a separator between them. -/
theorem Spells.separated {first separator second : String} {tokens between tokens' : List Token}
    (hfirst : Spells dialect first tokens) (hseparator : Separates dialect separator between)
    (hsecond : Spells dialect second tokens') (hne : tokens' ≠ []) :
    Spells dialect (first ++ separator ++ second) (tokens ++ between ++ tokens') := by
  refine ⟨fun after ts hafter hlexes => ?_,
    .append (fun h => absurd h (hsecond.ne_empty hne)) hsecond.tight,
    (hfirst.closed.append hseparator.closed).append hsecond.closed⟩
  simp only [String.toList_append, List.append_assoc]
  exact hfirst.lexes _ _ (hseparator.delimited _)
    (hseparator.lexes _ _ (hsecond.lexes _ _ hafter hlexes))

/-- Texts with a separator between them. -/
theorem spells_intercalate {α : Type} {separator : String} {between : List Token}
    (hseparator : Separates dialect separator between) (text : α → String)
    (tokens : α → List Token) {items : List α}
    (h : ∀ item ∈ items, Spells dialect (text item) (tokens item) ∧ tokens item ≠ []) :
    Spells dialect (String.intercalate separator (items.map text))
      (between.intercalate (items.map tokens)) := by
  induction items with
  | nil => exact spells_empty
  | cons first rest ih =>
    cases rest with
    | nil => simpa using (h first (by simp)).1
    | cons second rest =>
      rw [List.map_cons, List.map_cons, List.map_cons, List.map_cons, String.intercalate_cons_cons,
        List.intercalate_cons_cons]
      apply (h first (by simp)).1.separated hseparator
        (ih fun item hitem => h item (by simp_all))
      have hsecond := (h second (by simp)).2
      cases rest <;> simp [hsecond]

/-- Words with blanks between them. -/
theorem spells_words {words : List String} (h : ∀ word ∈ words, isWord dialect word) :
    Spells dialect (String.intercalate " " words) (words.map (.word · none)) := by
  induction words with
  | nil => exact spells_empty
  | cons first rest ih =>
    have hfirst := spells_word (h first (by simp))
    cases rest with
    | nil => simpa using hfirst
    | cons second rest =>
      rw [String.intercalate_cons_cons, List.map_cons]
      have hrest := ih fun word hword => h word (by simp_all)
      simpa using hfirst.separated separates_blank hrest (by simp)

/-- A text with a symbol right before it, which does not go on with the symbol. -/
theorem Spells.prefixed {mark : String} {text : String} {tokens : List Token}
    (hmark : mark ∈ prefixSymbols) (h : Spells dialect text tokens) (hne : tokens ≠ [])
    (hstart : ∀ c ∈ text.toList.head?, isOperatorPart c = false ∧ c ≠ ':') :
    Spells dialect (mark ++ text) (.symbol mark :: tokens) := by
  have hmarks : ∀ mark ∈ prefixSymbols, Token.symbol mark ≠ .symbol ")" := by decide
  have hempty := h.ne_empty hne
  have hclosed : Closed [.symbol mark] := .of_not_mem (by simpa [eq_comm] using hmarks mark hmark)
  refine ⟨fun after ts hafter hlexes => ?_, .append (absurd · hempty) h.tight,
    hclosed.append h.closed⟩
  obtain ⟨d, cs, hcs⟩ := List.exists_cons_of_ne_nil (show text.toList ≠ [] by simpa using hempty)
  obtain ⟨hpart, hcolon⟩ := hstart d (by simp [hcs])
  have hall := h.lexes after ts hafter hlexes
  rw [hcs, List.cons_append] at hall
  simpa [hcs] using Lexes.prefixed hmark hpart hcolon hall

/-- A text in parentheses. -/
theorem Spells.parenthesized {text : String} {tokens : List Token}
    (h : Spells dialect text tokens) :
    Spells dialect ("(" ++ text ++ ")") (.symbol "(" :: tokens ++ [.symbol ")"]) := by
  refine ⟨fun after ts hafter hlexes => ?_,
    .of_getLast? (c := ')') (by simp [List.getLast?_cons]) (by decide), .opened _⟩
  simp only [String.toList_append, List.append_assoc, List.cons_append]
  refine Lexes.mark (by decide) (h.lexes _ _ (.of_mem (by decide) _) ?_)
  exact Lexes.mark (by decide) hlexes

/-- A text in brackets, which in SQLite are those of names. -/
theorem Spells.bracketed {text : String} {tokens : List Token} (h : Spells dialect text tokens)
    (hdialect : dialect ≠ .sqlite) :
    Spells dialect ("[" ++ text ++ "]") (.symbol "[" :: (tokens ++ [.symbol "]"])) := by
  have hopen : Closed [Token.symbol "["] := .of_not_mem (by decide)
  have hclose : Closed [Token.symbol "]"] := .of_not_mem (by decide)
  refine ⟨fun after ts hafter hlexes => ?_,
    .of_getLast? (c := ']') (by simp [List.getLast?_cons]) (by decide),
    hopen.append (h.closed.append hclose)⟩
  simp only [String.toList_append, List.append_assoc, List.cons_append]
  refine Lexes.bracket (by decide) (absurd · hdialect) (h.lexes _ _ ?_ ?_)
  · exact .cons (show isDelimiter dialect ']' by simp [isDelimiter, hdialect]) _
  · exact Lexes.bracket (by decide) (absurd · hdialect) hlexes

end Schemata.Sql
