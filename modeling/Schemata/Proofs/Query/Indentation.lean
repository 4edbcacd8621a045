import Schemata.Proofs.Query.Lexeme
import Schemata.Proofs.Query.Pieces

/-!
# Indentation and the tokens of a query

A query is moved to the right as a text, line by line, without regard to what the line ends stand
for. Between two tokens that does not matter. Inside quotes it does: every tab behind such a line
end becomes a character of the literal or the name. How many tabs that are decides whether the
tokens of a statement survive, and the depth of a literal whether its value does.

## Main definitions

* `Piece.quotedTabs`, `Node.quotedTabs`: the number of tabs that are put inside quotes

## Main results

* `Piece.read_text`, `Piece.grown_text`: what is read if there are none, and if there are some
* `Node.lexemes_sql`: when the tokens of a query survive, and what becomes of a literal
-/

namespace Schemata

open Text (movedChar moved)
open Lexeme (Reading)

/-! ### The tokens of the pieces -/

/-- The tabs that are put inside quotes when the pieces are moved. -/
def Piece.quotedTabs : Reading → List Piece → Nat
  | _, [] => 0
  | r, piece :: rest =>
    piece.depth * r.quotedEnds piece.chars + quotedTabs (r.read piece.chars) rest

/-- The tabs that compiling a query tree puts inside quotes. -/
def Node.quotedTabs (node : Node) : Nat := Piece.quotedTabs {} node.pieces

namespace Piece

theorem text_zero_cons (piece : Piece) (rest : List Piece) :
    text 0 (piece :: rest) = piece.chars ++ text 0 rest := by
  rw [text_cons, Nat.zero_mul, Text.flatMap_movedChar_zero]

/-- Pieces are read in the same way if no tab is put inside quotes. -/
theorem read_text {r : Reading} {pieces : List Piece} (h : quotedTabs r pieces = 0) :
    r.read (text 1 pieces) = r.read (text 0 pieces) := by
  induction pieces generalizing r with
  | nil => rfl
  | cons piece rest ih =>
    obtain ⟨hpiece, hrest⟩ := Nat.add_eq_zero_iff.1 h
    have hmoved := Reading.read_moved (Nat.mul_eq_zero.1 hpiece)
    rw [text_cons, text_zero_cons, Reading.read_append, Reading.read_append, Nat.one_mul, hmoved,
      ih hrest]

/-- The quoted texts of pieces that are moved are longer by the tabs that are put inside quotes. -/
theorem grown_text {extra : Nat} {r r' : Reading} (h : Reading.Grown extra r r')
    (pieces : List Piece) :
    Reading.Grown (extra + quotedTabs r pieces) (r.read (text 0 pieces))
      (r'.read (text 1 pieces)) := by
  induction pieces generalizing extra r r' with
  | nil => exact h
  | cons piece rest ih =>
    have hpiece := h.moved piece.depth piece.chars
    have hrest := ih hpiece
    rw [text_zero_cons, text_cons, Reading.read_append, Reading.read_append, Nat.one_mul,
      quotedTabs, ← Nat.add_assoc]
    exact hrest

/-- Moving pieces does not change what they begin with. -/
theorem head?_text (width : Nat) (pieces : List Piece) :
    (text width pieces).head? = (text 0 pieces).head? := by
  have hmoved (depth : Nat) (cs : List Char) : (cs.flatMap (movedChar depth)).head? = cs.head? := by
    cases cs with
    | nil => rfl
    | cons c rest =>
      rw [List.flatMap_cons, movedChar]
      split
      case isTrue h => rw [h]; rfl
      case isFalse => rfl
  induction pieces with
  | nil => rfl
  | cons piece rest ih =>
    rw [text_zero_cons, text_cons, List.head?_append, List.head?_append, hmoved, ih]

/-- A literal is moved by moving its text. -/
theorem flatMap_movedChar_literal (depth : Nat) (s : String) :
    (Literal.text s).render.toList.flatMap (movedChar depth) =
      Text.Quoted.render '\'' (moved depth s).toList := by
  have hmark : movedChar depth '\'' = ['\''] := rfl
  have htabs (cs : List Char) : Text.Quoted.body '\'' (List.replicate depth '\t' ++ cs) =
      List.replicate depth '\t' ++ Text.Quoted.body '\'' cs := by
    induction depth with
    | zero => rfl
    | succ depth ih =>
      rw [List.replicate_succ, List.cons_append, Text.Quoted.body, if_neg (by decide), ih rfl]
      rfl
  have hbody : ∀ cs : List Char, (Text.Quoted.body '\'' cs).flatMap (movedChar depth) =
      Text.Quoted.body '\'' (cs.flatMap (movedChar depth)) := by
    intro cs
    induction cs with
    | nil => rfl
    | cons c rest ih =>
      by_cases hc : c = '\''
      · subst hc
        simp [Text.Quoted.body, hmark, ih]
      · by_cases hline : c = '\n'
        · subst hline
          simp [Text.Quoted.body, movedChar, ih, htabs]
        · simp [Text.Quoted.body, movedChar, hc, hline, ih]
  simp only [Literal.render, String.toList_ofList, Text.Quoted.render, moved, List.cons_append,
    List.flatMap_cons, List.flatMap_append, hbody, hmark, List.flatMap_nil, List.append_nil,
    List.nil_append]

/-- A piece that is a literal is a token of its own, with the tabs that it is moved by, if a literal
may begin where it stands and no further mark follows it. -/
theorem getElem?_literal {before after : List Piece} {depth : Nat} {s : String} (width : Nat)
    {r : Reading} (hfree : (r.read (text width before)).isFree)
    (hafter : (text width after).head? ≠ some '\'') :
    (r.read (text width (before ++ ⟨depth, .value (.text s)⟩ :: after))).lexemes[
        (r.read (text width before)).lexemes.length]? =
      some (.quoted .literal (moved (width * depth) s).toList) := by
  have hchars : (Piece.mk depth (.value (.text s))).chars = (Literal.text s).render.toList := rfl
  rw [text_append, Reading.read_append, text_cons, hchars, flatMap_movedChar_literal]
  exact Reading.getElem?_literal hfree _ hafter

end Piece

theorem Lexeme.Reading.Grown.isFree_eq {extra : Nat} {r r' : Reading} (h : Grown extra r r') :
    r'.isFree = r.isFree := by
  obtain ⟨done, mode⟩ := r
  obtain ⟨done', mode'⟩ := r'
  cases h.alike <;> rfl

/-! ### The tokens of a query -/

/-- Compiling a query tree leaves its tokens alone exactly if it puts no tab inside quotes. The
literals of the tree are pieces of the statement; each of them, where a literal may begin and no
further mark follows, is a token of its own. Its text is that of the value, with a tab for every
time the place is moved behind each line end in it, so it is the value exactly if it is of one line
or the place is not moved. -/
theorem Node.lexemes_sql (node : Node) :
    (lexemes node.sql = lexemes node.flat ↔ node.quotedTabs = 0) ∧
    Piece.literals node.pieces = node.literals ∧
    ∀ before depth s after, node.pieces = before ++ ⟨depth, .value (.text s)⟩ :: after →
      (Reading.read {} (Piece.text 0 before)).isFree →
      (Piece.text 0 after).head? ≠ some '\'' →
      ∃ place : Nat, (lexemes node.flat)[place]? = some (Lexeme.quoted .literal s.toList) ∧
        (lexemes node.sql)[place]? = some (Lexeme.quoted .literal (moved depth s).toList) ∧
        (moved depth s = s ↔ depth = 0 ∨ '\n' ∉ s.toList) := by
  have hsql : lexemes node.sql = (Reading.read {} (Piece.text 1 node.pieces)).lexemes := by
    rw [lexemes, Node.sql_eq, Node.text_pieces nestsBy_nest]
  have hflat : lexemes node.flat = (Reading.read {} (Piece.text 0 node.pieces)).lexemes := by
    rw [lexemes, Node.flat, Node.text_pieces nestsBy_nestFlat]
  refine ⟨⟨fun heq => ?_, fun htabs => ?_⟩, node.literals_pieces, ?_⟩
  -- Tabs inside quotes show in the length of the quoted texts.
  · have hgrown := Piece.grown_text (.refl {}) node.pieces
    rw [Nat.zero_add] at hgrown
    refine Decidable.byContradiction fun htabs => hgrown.lexemes_ne htabs ?_
    rw [← hsql, ← hflat, heq]
  · rw [hsql, hflat, Piece.read_text htabs]
  -- Both renderings have read as many tokens where the literal begins.
  · intro before depth s after hpieces hfree hafter
    have hgrown := Piece.grown_text (.refl {}) before
    refine ⟨(Reading.read {} (Piece.text 0 before)).lexemes.length, ?_, ?_, Text.moved_eq_self_iff⟩
    · rw [hflat, hpieces]
      simpa using Piece.getElem?_literal 0 hfree hafter
    · rw [hsql, hpieces, ← hgrown.length_lexemes]
      have hfree' := hgrown.isFree_eq.trans hfree
      have hafter' : (Piece.text 1 after).head? ≠ some '\'' := by rwa [Piece.head?_text]
      simpa using Piece.getElem?_literal 1 hfree' hafter'

/-- A field that is computed from a text of two lines. -/
def textOverTwoLines : Node :=
  .relation .many { instanceAlias := "X1", table := "User" }
    [("note", .expr ⟨[.value (.text "x\ny")]⟩)]

/-- The second line of the text is moved to the right, and the literal is another one. -/
theorem lexemes_textOverTwoLines :
    textOverTwoLines.sql = "SELECT\n\t('x\n\ty') as note\nFROM User X1\n" ∧
      lexemes textOverTwoLines.sql ≠ lexemes textOverTwoLines.flat ∧
      Lexeme.quoted .literal "x\ny".toList ∈ lexemes textOverTwoLines.flat ∧
      Lexeme.quoted .literal "x\ny".toList ∉ lexemes textOverTwoLines.sql := by
  decide +kernel

/-- A condition on the root that compares a column with a text of two lines. -/
def filteredByTwoLines : Node :=
  .relation .many
    { instanceAlias := "X1", table := "User",
      filters := [.equals (.column ⟨"X1", "note"⟩) (.value (.text "x\ny"))] }
    [("note", .leaf ⟨"X1", "note"⟩)]

/-- The conditions on the root are not moved, and the same literal stays as it is. -/
theorem lexemes_filteredByTwoLines :
    lexemes filteredByTwoLines.sql = lexemes filteredByTwoLines.flat ∧
      ∃ place : Nat, (lexemes filteredByTwoLines.sql)[place]? =
        some (Lexeme.quoted .literal "x\ny".toList) := by
  obtain ⟨htokens, -, hliteral⟩ := Node.lexemes_sql filteredByTwoLines
  refine ⟨htokens.2 (by decide +kernel), ?_⟩
  obtain ⟨place, -, hplace, -⟩ := hliteral (filteredByTwoLines.pieces.take 8) 0 "x\ny"
    (filteredByTwoLines.pieces.drop 9) rfl (by decide +kernel) (by decide +kernel)
  exact ⟨place, by rwa [Text.moved_zero] at hplace⟩

end Schemata
