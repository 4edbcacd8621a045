import Schemata.Proofs.Query.Depth
import Schemata.Text.Quoted

/-!
# Reading a statement token by token

Blanks between the tokens of a statement mean nothing, and blanks inside quotes are part of the text
that is quoted. Whether a statement may be moved to the right is therefore a question about its
tokens. They are read here character by character: what has been read so far is a list of finished
tokens and a mode, which says what the next character goes on with.

Tabs behind a line end do nothing to a reading, except inside quotes, where each of them is one more
character of the text. Since the mode does not depend on how long a quoted text is, nothing else
changes, and the tokens of a moved text are longer by exactly these tabs.

## Main definitions

* `Lexeme`, `lexemes`: the tokens of SQL, and those of a text
* `Lexeme.Reading`, `Lexeme.Reading.read`: what has been read so far, and reading on
* `Lexeme.Reading.quotedEnds`: the number of line ends inside quotes
* `Lexeme.Reading.Grown`: readings that differ in the lengths of quoted texts only

## Main results

* `Lexeme.Reading.read_moved`: moving a text without quoted line ends does not change its tokens
* `Lexeme.Reading.Grown.moved`: moving any other text makes its tokens longer
* `Lexeme.Reading.lexemes_literal`: a literal where a token may begin is one token
-/

namespace Schemata

open Text (movedChar)

/-- The ways to quote a text: as a literal between `'`, and as a name between `"` or backticks. -/
inductive Quoting
  | literal
  | name
  | tickedName
  deriving DecidableEq

/-- The character at both ends of a quoted text. -/
def Quoting.mark : Quoting → Char
  | literal => '\''
  | name => '"'
  | tickedName => '\x60'

/-- The way to quote that a character begins. -/
def Quoting.of? (c : Char) : Option Quoting :=
  [literal, name, tickedName].find? fun quoting => quoting.mark = c

/-- A token of a statement. -/
inductive Lexeme
  /-- A keyword, a number, or a name with the names that it is qualified by. -/
  | word (text : List Char)
  /-- An operator or another sign. -/
  | symbol (text : List Char)
  /-- A text between quotes, in which doubled quotes are single. -/
  | quoted (quoting : Quoting) (text : List Char)
  /-- A text after an opening quote without a closing one. -/
  | unclosed (quoting : Quoting) (text : List Char)
  deriving DecidableEq

namespace Lexeme

/-- The blanks of SQL. -/
def isSpace (c : Char) : Bool := c = ' ' || c = '\t' || c = '\n' || c = '\r' || c = '\x0c'

/-- The characters of words; a number keeps its point, and a name its qualification. -/
def isWordPart (c : Char) : Bool :=
  c.isAlphanum || c = '_' || c = '.' || c = '$' || 0x80 ≤ c.toNat

/-- The operators of more than one character. -/
def longOperators : List (List Char) :=
  ["||", "<=", "<>", "<<", ">=", ">>", "==", "!=", "->", "->>"].map String.toList

/-- What the next character goes on with. -/
inductive Mode
  /-- Nothing: the next token may begin. -/
  | blank
  | word (text : List Char)
  | symbol (text : List Char)
  | quoted (quoting : Quoting) (text : List Char)
  /-- A quoted text after its mark: if it comes once more, it belongs to the text. -/
  | closing (quoting : Quoting) (text : List Char)
  | lineComment
  /-- A comment up to a star and a slash, of which the star has come or not. -/
  | blockComment (starred : Bool)

/-- The token that would end here. -/
def Mode.pending : Mode → List Lexeme
  | word text => [.word text]
  | symbol text => [.symbol text]
  | quoted quoting text => [.unclosed quoting text]
  | closing quoting text => [.quoted quoting text]
  | blank | lineComment | blockComment _ => []

/-- What has been read: the finished tokens, and the mode. -/
structure Reading where
  /-- The finished tokens. -/
  done : List Lexeme := []
  /-- What the next character goes on with. -/
  mode : Mode := .blank

namespace Reading

/-- The tokens if nothing follows. -/
def lexemes (r : Reading) : List Lexeme := r.done ++ r.mode.pending

/-- Begins the next token, or skips a blank. -/
def start (done : List Lexeme) (c : Char) : Reading :=
  if isSpace c then ⟨done, .blank⟩
  else match Quoting.of? c with
    | some quoting => ⟨done, .quoted quoting []⟩
    | none => if isWordPart c then ⟨done, .word [c]⟩ else ⟨done, .symbol [c]⟩

/-- Reads one character. -/
def next (r : Reading) (c : Char) : Reading :=
  match r.mode with
  | .blank => start r.done c
  | .word text => if isWordPart c then ⟨r.done, .word (text ++ [c])⟩ else start r.lexemes c
  | .symbol text =>
    if text = ['-'] ∧ c = '-' then ⟨r.done, .lineComment⟩
    else if text = ['/'] ∧ c = '*' then ⟨r.done, .blockComment false⟩
    else if text ++ [c] ∈ longOperators then ⟨r.done, .symbol (text ++ [c])⟩
    else start r.lexemes c
  | .quoted quoting text =>
    if c = quoting.mark then ⟨r.done, .closing quoting text⟩
    else ⟨r.done, .quoted quoting (text ++ [c])⟩
  | .closing quoting text =>
    if c = quoting.mark then ⟨r.done, .quoted quoting (text ++ [c])⟩ else start r.lexemes c
  | .lineComment => if c = '\n' then ⟨r.done, .blank⟩ else r
  | .blockComment starred =>
    if starred ∧ c = '/' then ⟨r.done, .blank⟩ else ⟨r.done, .blockComment (c = '*')⟩

/-- Reads characters one after the other. -/
def read (r : Reading) (cs : List Char) : Reading := cs.foldl next r

/-- Whether the next character stands inside quotes. -/
def inQuotes (r : Reading) : Bool :=
  match r.mode with
  | .quoted _ _ => true
  | _ => false

/-- How many line ends are read inside quotes. -/
def quotedEnds : Reading → List Char → Nat
  | _, [] => 0
  | r, c :: rest =>
    (if c = '\n' ∧ r.inQuotes then 1 else 0) + (r.next c).quotedEnds rest

end Reading

/-- The text of a quoted token, and none for every other token. -/
def quotedText : Lexeme → List Char
  | quoted _ text | unclosed _ text => text
  | word _ | symbol _ => []

/-- The quoted text that has been read of the token that would end here. -/
def Mode.quotedText : Mode → List Char
  | quoted _ text | closing _ text => text
  | blank | word _ | symbol _ | lineComment | blockComment _ => []

end Lexeme

/-- The tokens of a text. -/
def lexemes (text : String) : List Lexeme := (Lexeme.Reading.read {} text.toList).lexemes

namespace Lexeme.Reading

@[simp] theorem read_nil (r : Reading) : r.read [] = r := rfl

@[simp] theorem read_cons (r : Reading) (c : Char) (cs : List Char) :
    r.read (c :: cs) = (r.next c).read cs := rfl

theorem read_append (r : Reading) (cs ds : List Char) : r.read (cs ++ ds) = (r.read cs).read ds :=
  List.foldl_append

/-- Every operator of more than one character ends in one of these four. -/
theorem not_mem_longOperators {c : Char} (h : c ∉ ['|', '=', '<', '>']) (text : List Char) :
    text ++ [c] ∉ longOperators := by
  have hlast : ∀ operator ∈ longOperators,
      operator.getLast? ∈ ['|', '=', '<', '>'].map some := by
    decide
  intro hmem
  have hc : some c ∈ ['|', '=', '<', '>'].map some := by simpa using hlast _ hmem
  exact h (by simpa using hc)

/-! ### Tabs behind a line end -/

/-- Outside quotes the next token may begin after a line end, unless a comment goes on. -/
theorem mode_next_newLine {r : Reading} (h : r.inQuotes = false) :
    (r.next '\n').mode = .blank ∨ (r.next '\n').mode = .blockComment false := by
  have hstart (done : List Lexeme) : (start done '\n').mode = .blank := rfl
  obtain ⟨done, mode⟩ := r
  cases mode with
  | blank => exact .inl (hstart _)
  | word text => exact .inl (hstart _)
  | symbol text =>
    have hlong : text ++ ['\n'] ∉ longOperators := not_mem_longOperators (by decide) text
    simp [next, hlong, hstart]
  | quoted quoting text => cases h
  | closing quoting text =>
    have hmark : '\n' ≠ quoting.mark := by cases quoting <;> decide
    simp [next, hmark, hstart]
  | lineComment => simp [next]
  | blockComment starred => simp [next]

/-- Outside quotes, tabs behind a line end do nothing. -/
theorem read_tabs {r : Reading} (h : r.inQuotes = false) (count : Nat) :
    (r.next '\n').read (List.replicate count '\t') = r.next '\n' := by
  have htab : (r.next '\n').next '\t' = r.next '\n' := by
    have hmode := mode_next_newLine h
    generalize r.next '\n' = after at hmode ⊢
    obtain ⟨done, mode⟩ := after
    rcases hmode with rfl | rfl <;> rfl
  induction count with
  | zero => rfl
  | succ count ih => rw [List.replicate_succ, read_cons, htab, ih]

/-- Inside quotes, every character but the mark belongs to the text. -/
theorem read_quoted (done : List Lexeme) (quoting : Quoting) (text : List Char) {cs : List Char}
    (h : quoting.mark ∉ cs) :
    (Reading.mk done (.quoted quoting text)).read cs = ⟨done, .quoted quoting (text ++ cs)⟩ := by
  induction cs generalizing text with
  | nil => simp
  | cons c rest ih =>
    have hc : c ≠ quoting.mark := fun eq => h (by simp [eq])
    have hnext : (Reading.mk done (.quoted quoting text)).next c =
        ⟨done, .quoted quoting (text ++ [c])⟩ := if_neg hc
    rw [read_cons, hnext, ih _ fun hm => h (List.mem_cons_of_mem _ hm), List.append_assoc,
      List.singleton_append]

/-- A text is read in the same way wherever it is moved to, if no line end in it is quoted. -/
theorem read_moved {depth : Nat} {cs : List Char} {r : Reading}
    (h : depth = 0 ∨ r.quotedEnds cs = 0) :
    r.read (cs.flatMap (movedChar depth)) = r.read cs := by
  induction cs generalizing r with
  | nil => rfl
  | cons c rest ih =>
    -- Only the tabs behind a line end are new, and they stand outside quotes.
    have hrest : depth = 0 ∨ (r.next c).quotedEnds rest = 0 :=
      h.imp_right fun hends => (Nat.add_eq_zero_iff.1 hends).2
    rw [List.flatMap_cons, read_append, read_cons, ← ih hrest]
    by_cases hc : c = '\n'
    · subst hc
      have hout : depth = 0 ∨ r.inQuotes = false := h.imp_right fun hends => by
        simpa using (Nat.add_eq_zero_iff.1 hends).1
      rw [movedChar, if_pos rfl, read_cons]
      rcases hout with rfl | hout
      · rfl
      · rw [read_tabs hout]
    · rw [movedChar, if_neg hc, read_cons, read_nil]

/-! ### Readings that differ in quoted texts -/

/-- How much quoted text has been read. -/
def size (r : Reading) : Nat :=
  (r.done.flatMap Lexeme.quotedText).length + r.mode.quotedText.length

end Reading

/-- The modes are the same, but for the text that is quoted. -/
inductive Mode.Alike : Mode → Mode → Prop
  | same (mode : Mode) : Mode.Alike mode mode
  | quoted (quoting : Quoting) (text text' : List Char) :
    Mode.Alike (.quoted quoting text) (.quoted quoting text')
  | closing (quoting : Quoting) (text text' : List Char) :
    Mode.Alike (.closing quoting text) (.closing quoting text')

/-- The second reading has as many tokens as the first and is in the same mode, but it has read so
much more quoted text. -/
structure Reading.Grown (extra : Nat) (r r' : Reading) : Prop where
  /-- The modes differ in a quoted text at most. -/
  alike : r.mode.Alike r'.mode
  /-- As many tokens are finished. -/
  length_eq : r'.done.length = r.done.length
  /-- The quoted texts are longer by the given number of characters together. -/
  size_eq : r'.size = r.size + extra

namespace Reading

variable {extra : Nat} {r r' : Reading}

theorem Grown.refl (r : Reading) : Grown 0 r r := ⟨.same _, rfl, rfl⟩

/-- As many tokens would be finished here. -/
theorem Grown.length_lexemes (h : Grown extra r r') : r'.lexemes.length = r.lexemes.length := by
  have hpending : r'.mode.pending.length = r.mode.pending.length := by
    obtain ⟨done, mode⟩ := r
    obtain ⟨done', mode'⟩ := r'
    cases h.alike <;> rfl
  simp [lexemes, h.length_eq, hpending]

/-- The quoted text that has been read is that of the tokens. -/
theorem size_eq_lexemes (r : Reading) :
    r.size = (r.lexemes.flatMap Lexeme.quotedText).length := by
  have hpending : r.mode.pending.flatMap Lexeme.quotedText = r.mode.quotedText := by
    cases r.mode <;> simp [Mode.pending, Mode.quotedText, Lexeme.quotedText]
  rw [lexemes, List.flatMap_append, List.length_append, hpending]
  rfl

/-- The next token begins in the same way after any tokens. -/
theorem start_eq (c : Char) :
    ∃ mode, mode.quotedText = [] ∧
      ∀ done : List Lexeme, start done c = ⟨done, mode⟩ := by
  unfold start
  split
  · exact ⟨.blank, rfl, fun _ => rfl⟩
  · split
    · exact ⟨.quoted _ [], rfl, fun _ => rfl⟩
    · split
      · exact ⟨.word [c], rfl, fun _ => rfl⟩
      · exact ⟨.symbol [c], rfl, fun _ => rfl⟩

/-- Tokens of quoted texts that are longer remain so when the next token begins. -/
theorem Grown.start (h : Grown extra r r') (c : Char) :
    Grown extra (start r.lexemes c) (start r'.lexemes c) := by
  obtain ⟨mode, hmode, heq⟩ := start_eq c
  rw [heq, heq]
  refine ⟨.same mode, h.length_lexemes, ?_⟩
  have hsize := h.size_eq
  rw [size_eq_lexemes, size_eq_lexemes] at hsize
  simpa [size, hmode] using hsize

/-- Tokens of quoted texts that are longer remain so in the same mode. -/
theorem Grown.keep {done done' : List Lexeme} {mode : Mode}
    (h : Grown extra ⟨done, mode⟩ ⟨done', mode⟩) (mode' : Mode) :
    Grown extra ⟨done, mode'⟩ ⟨done', mode'⟩ := by
  have hsize := h.size_eq
  refine ⟨.same mode', h.length_eq, ?_⟩
  simp only [size] at hsize ⊢
  omega

/-- Quoted texts that go on in the same way are as much longer as before. -/
theorem Grown.append {done done' : List Lexeme} {quoting : Quoting} {text text' : List Char}
    (h : Grown extra ⟨done, .quoted quoting text⟩ ⟨done', .quoted quoting text'⟩)
    (added : List Char) :
    Grown extra ⟨done, .quoted quoting (text ++ added)⟩
      ⟨done', .quoted quoting (text' ++ added)⟩ := by
  have hsize := h.size_eq
  refine ⟨.quoted .., h.length_eq, ?_⟩
  simp only [size, Mode.quotedText, List.length_append] at hsize ⊢
  omega

/-- The same character has the same effect. -/
theorem Grown.next (h : Grown extra r r') (c : Char) : Grown extra (r.next c) (r'.next c) := by
  have hstart := h.start c
  obtain ⟨done, mode⟩ := r
  obtain ⟨done', mode'⟩ := r'
  -- What a character does depends on the mode, and on a quoted text only by its being one.
  cases h.alike with
  | same =>
    cases mode with
    | blank => simpa [Reading.next, lexemes, Mode.pending] using hstart
    | word text =>
      unfold Reading.next
      dsimp only
      split
      · exact h.keep _
      · exact hstart
    | symbol text =>
      unfold Reading.next
      dsimp only
      repeat' split
      all_goals first | exact h.keep _ | exact hstart
    | quoted quoting text =>
      unfold Reading.next
      dsimp only
      split <;> exact h.keep _
    | closing quoting text =>
      unfold Reading.next
      dsimp only
      split
      · exact h.keep _
      · exact hstart
    | lineComment =>
      unfold Reading.next
      dsimp only
      split <;> exact h.keep _
    | blockComment starred =>
      unfold Reading.next
      dsimp only
      split <;> exact h.keep _
  | quoted quoting text text' =>
    unfold Reading.next
    dsimp only
    split
    · exact ⟨.closing .., h.length_eq, h.size_eq⟩
    · exact h.append [c]
  | closing quoting text text' =>
    have hquoted : Grown extra ⟨done, .quoted quoting text⟩ ⟨done', .quoted quoting text'⟩ :=
      ⟨.quoted .., h.length_eq, h.size_eq⟩
    unfold Reading.next
    dsimp only
    split
    · exact hquoted.append [c]
    · exact hstart

theorem Grown.inQuotes_eq (h : Grown extra r r') : r'.inQuotes = r.inQuotes := by
  obtain ⟨done, mode⟩ := r
  obtain ⟨done', mode'⟩ := r'
  cases h.alike <;> rfl

/-- Characters that are added to a quoted text make it longer. -/
theorem Grown.append_quoted {done done' : List Lexeme} {quoting : Quoting} {text text' : List Char}
    (h : Grown extra ⟨done, .quoted quoting text⟩ ⟨done', .quoted quoting text'⟩)
    (added : List Char) :
    Grown (extra + added.length) ⟨done, .quoted quoting text⟩
      ⟨done', .quoted quoting (text' ++ added)⟩ := by
  have hsize := h.size_eq
  refine ⟨.quoted .., h.length_eq, ?_⟩
  simp only [size, Mode.quotedText, List.length_append] at hsize ⊢
  omega

/-- The tabs behind a line end are added to the text that is quoted there, if there is one. -/
theorem Grown.tabs (h : Grown extra r r') (count : Nat) :
    Grown (extra + count * if r.inQuotes then 1 else 0) (r.next '\n')
      ((r'.next '\n').read (List.replicate count '\t')) := by
  cases hquotes : r.inQuotes with
  | false =>
    rw [read_tabs (h.inQuotes_eq.trans hquotes)]
    simpa using h.next '\n'
  | true =>
    have hquoted : ∃ quoting text text', r.mode = .quoted quoting text ∧
        r'.mode = .quoted quoting text' := by
      obtain ⟨done, mode⟩ := r
      obtain ⟨done', mode'⟩ := r'
      cases h.alike with
      | same => cases mode <;> first | exact ⟨_, _, _, rfl, rfl⟩ | cases hquotes
      | quoted quoting text text' => exact ⟨quoting, text, text', rfl, rfl⟩
      | closing => cases hquotes
    obtain ⟨quoting, text, text', hmode, hmode'⟩ := hquoted
    have hends : '\n' ≠ quoting.mark := by cases quoting <;> decide
    have htabs : quoting.mark ∉ List.replicate count '\t' := by
      cases quoting <;> simp [Quoting.mark, List.mem_replicate]
    obtain ⟨done, mode⟩ := r
    obtain ⟨done', mode'⟩ := r'
    subst hmode hmode'
    have hnext := h.next '\n'
    simp only [Reading.next, if_neg hends] at hnext ⊢
    rw [read_quoted _ _ _ htabs]
    simpa using hnext.append_quoted (List.replicate count '\t')

/-- The quoted texts of a moved text are longer by the tabs behind the line ends in them. -/
theorem Grown.moved (depth : Nat) (cs : List Char) (h : Grown extra r r') :
    Grown (extra + depth * r.quotedEnds cs) (r.read cs)
      (r'.read (cs.flatMap (movedChar depth))) := by
  induction cs generalizing extra r r' with
  | nil => simpa [quotedEnds] using h
  | cons c rest ih =>
    rw [List.flatMap_cons, read_append, read_cons, quotedEnds]
    by_cases hc : c = '\n'
    · subst hc
      have htabs := ih (h.tabs depth)
      rw [movedChar, if_pos rfl, read_cons]
      simpa [Nat.mul_add, Nat.add_assoc] using htabs
    · rw [movedChar, if_neg hc, read_cons, read_nil]
      simpa [hc] using ih (h.next c)

/-- Readings of which one has read more quoted text have read other tokens. -/
theorem Grown.lexemes_ne (h : Grown extra r r') (hextra : extra ≠ 0) : r'.lexemes ≠ r.lexemes := by
  intro heq
  have hsize := h.size_eq
  rw [size_eq_lexemes, size_eq_lexemes, heq] at hsize
  omega

/-! ### Literals -/

/-- A literal may begin at the next character: no quoted text and no comment goes on, and no literal
has ended just before. -/
def isFree (r : Reading) : Bool :=
  match r.mode with
  | .blank | .word _ | .symbol _ => true
  | .closing quoting _ => quoting ≠ .literal
  | .quoted _ _ | .lineComment | .blockComment _ => false

/-- Where a literal may begin, its mark begins one. -/
theorem next_mark {r : Reading} (h : r.isFree) :
    r.next '\'' = ⟨r.lexemes, .quoted .literal []⟩ := by
  have hstart (done : List Lexeme) : start done '\'' = ⟨done, .quoted .literal []⟩ := rfl
  obtain ⟨done, mode⟩ := r
  cases mode with
  | blank => simp [next, lexemes, Mode.pending, hstart]
  | word text => exact hstart _
  | symbol text =>
    have hlong : text ++ ['\''] ∉ longOperators := not_mem_longOperators (by decide) text
    simp [next, hlong, hstart]
  | closing quoting text =>
    have hmark : '\'' ≠ quoting.mark := by
      cases quoting
      · simp [isFree] at h
      all_goals decide
    simp [next, hmark, hstart]
  | quoted quoting text => cases h
  | lineComment => cases h
  | blockComment starred => cases h

/-- The body of a literal is its text. -/
theorem read_body (done : List Lexeme) (text cs : List Char) :
    (Reading.mk done (.quoted .literal text)).read (Text.Quoted.body '\'' cs) =
      ⟨done, .quoted .literal (text ++ cs)⟩ := by
  induction cs generalizing text with
  | nil => simp [Text.Quoted.body]
  | cons c rest ih =>
    by_cases hc : c = '\''
    · subst hc
      have hdoubled : ((Reading.mk done (.quoted .literal text)).next '\'').next '\'' =
          ⟨done, .quoted .literal (text ++ ['\''])⟩ := rfl
      rw [Text.Quoted.body, if_pos rfl, read_cons, read_cons, hdoubled, ih, List.append_assoc]
      rfl
    · have hnext : (Reading.mk done (.quoted .literal text)).next c =
          ⟨done, .quoted .literal (text ++ [c])⟩ := if_neg hc
      rw [Text.Quoted.body, if_neg hc, read_cons, hnext, ih, List.append_assoc]
      rfl

/-- A literal is read as its text, which ends unless one more mark follows. -/
theorem read_literal {r : Reading} (h : r.isFree) (cs : List Char) :
    r.read (Text.Quoted.render '\'' cs) = ⟨r.lexemes, .closing .literal cs⟩ := by
  rw [Text.Quoted.render, List.cons_append, read_cons, next_mark h, read_append, read_body]
  rfl

/-- Tokens that have been finished before stay in front, and nothing else depends on them. -/
theorem next_prepend (earlier : List Lexeme) (r : Reading) (c : Char) :
    (Reading.mk (earlier ++ r.done) r.mode).next c =
      ⟨earlier ++ (r.next c).done, (r.next c).mode⟩ := by
  obtain ⟨mode, -, hstart⟩ := start_eq c
  obtain ⟨done, current⟩ := r
  cases current <;> simp only [next, hstart, lexemes, Mode.pending, List.append_assoc] <;>
    repeat' split
  all_goals rfl

theorem read_prepend (earlier : List Lexeme) (r : Reading) (cs : List Char) :
    (Reading.mk (earlier ++ r.done) r.mode).read cs =
      ⟨earlier ++ (r.read cs).done, (r.read cs).mode⟩ := by
  induction cs generalizing r with
  | nil => rfl
  | cons c rest ih => rw [read_cons, read_cons, next_prepend, ih]

/-- A literal where a token may begin is a token of its own, unless one more mark follows. -/
theorem lexemes_literal {r : Reading} (h : r.isFree) (cs : List Char) {after : List Char}
    (hafter : after.head? ≠ some '\'') :
    (r.read (Text.Quoted.render '\'' cs ++ after)).lexemes =
      r.lexemes ++ .quoted .literal cs :: (Reading.read {} after).lexemes := by
  rw [read_append, read_literal h]
  -- The token ends with the next character or the text; what is read behind it comes after it.
  cases after with
  | nil => simp [lexemes, Mode.pending]
  | cons c rest =>
    have hc : c ≠ '\'' := fun eq => hafter (by simp [eq])
    obtain ⟨mode, -, hstart⟩ := start_eq c
    have hnext : (Reading.mk r.lexemes (.closing .literal cs)).next c =
        ⟨r.lexemes ++ [.quoted .literal cs] ++ [], mode⟩ := by
      rw [List.append_nil]
      exact (if_neg hc).trans (hstart _)
    have hfirst : (Reading.next {} c) = ⟨[], mode⟩ := hstart []
    rw [read_cons, hnext, read_prepend _ ⟨[], mode⟩, read_cons, hfirst]
    simp [lexemes]

theorem getElem?_literal {r : Reading} (h : r.isFree) (cs : List Char) {after : List Char}
    (hafter : after.head? ≠ some '\'') :
    (r.read (Text.Quoted.render '\'' cs ++ after)).lexemes[r.lexemes.length]? =
      some (.quoted .literal cs) := by
  rw [lexemes_literal h cs hafter]
  simp

end Reading

end Lexeme

end Schemata
