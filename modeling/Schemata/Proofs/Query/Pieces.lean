import Schemata.Proofs.Query.Depth
import Schemata.Query.Sql

/-!
# The pieces of a compiled query

The statement of a query is put together from fixed texts, names, and the parts of the expressions.
Compiling moves them to the right, each as often as there are texts of several lines around it, and
takes the blanks off the ends of these texts; nothing else happens to them. So the statement is a
list of pieces with a depth each, and it is the same list whatever the width of a step to the right
is: with a tab it is what the compiler writes, with nothing it is the same rendering without any
indentation.

## Main definitions

* `Piece`, `Piece.text`: a part of a statement at a depth, and the characters of several
* `Piece.nest`, `Node.pieces`: a nested text in pieces, and the statement of a query tree
* `Node.sqlBy`, `Node.flat`: the statement with texts nested in another way, and without indentation
* `Node.literals`: the literals of a query tree in the order in which they are written

## Main results

* `Node.text_pieces`: the pieces make up the statement, with tabs and without
* `Node.literals_pieces`: the literals of a query are pieces of its statement
-/

namespace Schemata

open Text (movedChar moved isBlank trim trimStart trimEnd)

/-! ### Pieces -/

/-- A piece of a statement: what it is, and how often it is moved to the right. -/
structure Piece where
  /-- The number of times. -/
  depth : Nat
  /-- The text, column or value. -/
  part : Part

namespace Piece

/-- The characters of the piece before it is moved. -/
def chars (piece : Piece) : List Char := piece.part.render.toList

/-- The characters of pieces, each time moved by the given number of tabs. -/
def text (width : Nat) (pieces : List Piece) : List Char :=
  pieces.flatMap fun piece => piece.chars.flatMap (movedChar (width * piece.depth))

/-- A text of the statement itself. -/
def fixed (sql : String) : List Piece := [⟨0, .sql sql⟩]

/-- The pieces moved once more. -/
def deepened (pieces : List Piece) : List Piece :=
  pieces.map fun piece => { piece with depth := piece.depth + 1 }

/-- What is left of a piece after trimming, if anything is. A literal stays whole, since it has its
marks at both ends. -/
def cut? (cut : List Char → List Char) (piece : Piece) : Option Piece :=
  match piece.part with
  | .value (.text _) => some piece
  | _ =>
    if cut piece.chars = [] then none
    else some ⟨piece.depth, .sql (String.ofList (cut piece.chars))⟩

/-- The pieces without the blanks at their start. -/
def trimmedStart : List Piece → List Piece
  | [] => []
  | piece :: rest =>
    match piece.cut? trimStart with
    | none => trimmedStart rest
    | some kept => kept :: rest

/-- The pieces without the blanks at their end. -/
def trimmedEnd : List Piece → List Piece
  | [] => []
  | piece :: rest =>
    match trimmedEnd rest with
    | [] => (piece.cut? trimEnd).toList
    | kept => piece :: kept

/-- The pieces of a field inside a statement: several lines are moved and put in parentheses. -/
def nest (pieces : List Piece) : List Piece :=
  if '\n' ∈ text 0 pieces then
    fixed "(" ++ deepened (trimmedEnd (trimmedStart pieces)) ++ fixed ")"
  else pieces

@[simp] theorem text_nil (width : Nat) : text width [] = [] := rfl

@[simp] theorem text_cons (width : Nat) (piece : Piece) (rest : List Piece) :
    text width (piece :: rest) =
      piece.chars.flatMap (movedChar (width * piece.depth)) ++ text width rest := rfl

@[simp] theorem text_append (width : Nat) (xs ys : List Piece) :
    text width (xs ++ ys) = text width xs ++ text width ys :=
  List.flatMap_append

@[simp] theorem text_fixed (width : Nat) (sql : String) : text width (fixed sql) = sql.toList := by
  simp [fixed, chars, Part.render, Text.flatMap_movedChar_zero]

theorem text_deepened (width : Nat) (pieces : List Piece) :
    text width (deepened pieces) = (text width pieces).flatMap (movedChar width) := by
  induction pieces with
  | nil => rfl
  | cons piece rest ih =>
    have hdeeper : width * (piece.depth + 1) = width + width * piece.depth := by
      rw [Nat.mul_add, Nat.mul_one, Nat.add_comm]
    simp only [deepened, List.map_cons, text_cons, List.flatMap_append,
      Text.flatMap_movedChar_movedChar] at ih ⊢
    rw [ih, hdeeper]
    rfl

/-- A line end in the pieces is one wherever they are moved to. -/
theorem mem_newLine_text {width : Nat} {pieces : List Piece} :
    '\n' ∈ text width pieces ↔ ∃ piece ∈ pieces, '\n' ∈ piece.chars := by
  induction pieces with
  | nil => simp
  | cons piece rest ih =>
    rw [text_cons, List.mem_append, ih, Text.mem_newLine_flatMap_movedChar]
    simp

/-- Cutting a piece cuts its text, if literals are left alone and moving makes no difference. -/
theorem text_cut {cut : List Char → List Char} (width : Nat)
    (hmoved : ∀ depth cs, cut (cs.flatMap (movedChar depth)) = (cut cs).flatMap (movedChar depth))
    (hliteral : ∀ s : String, cut (Literal.text s).render.toList = (Literal.text s).render.toList)
    (piece : Piece) :
    text width (piece.cut? cut).toList = cut (text width [piece]) := by
  obtain ⟨depth, part⟩ := piece
  have hcut : cut (text width [⟨depth, part⟩]) =
      (cut (chars ⟨depth, part⟩)).flatMap (movedChar (width * depth)) := by
    rw [text_cons, text_nil, List.append_nil, hmoved]
  have hother : text width
      (if cut (chars ⟨depth, part⟩) = [] then none
        else some ⟨depth, .sql (String.ofList (cut (chars ⟨depth, part⟩)))⟩ : Option Piece).toList =
      (cut (chars ⟨depth, part⟩)).flatMap (movedChar (width * depth)) := by
    split
    case isTrue h => simp [h]
    case isFalse => simp [chars, Part.render]
  rw [hcut]
  unfold cut?
  split
  case h_1 s hpart =>
    obtain rfl : part = .value (.text s) := hpart
    have hwhole : cut (chars ⟨depth, .value (.text s)⟩) = chars ⟨depth, .value (.text s)⟩ :=
      hliteral s
    simp [hwhole]
  case h_2 => exact hother

/-- A literal begins with its mark. -/
theorem trimStart_literal (s : String) :
    trimStart (Literal.text s).render.toList = (Literal.text s).render.toList := by
  simp only [Literal.render, String.toList_ofList, Text.Quoted.render, List.cons_append]
  exact Text.trimStart_cons (by decide) _

/-- A literal ends with its mark. -/
theorem trimEnd_literal (s : String) :
    trimEnd (Literal.text s).render.toList = (Literal.text s).render.toList := by
  simp only [Literal.render, String.toList_ofList, Text.Quoted.render]
  exact Text.trimEnd_eq_self (by decide)

/-- What is left of a piece after trimming is not empty. -/
theorem text_ne_nil_of_cut {cut : List Char → List Char} (width : Nat) {piece kept : Piece}
    (h : piece.cut? cut = some kept) : text width [kept] ≠ [] := by
  have hchars : kept.chars ≠ [] := by
    unfold cut? at h
    split at h
    case h_1 s hpart =>
      cases h
      simp [chars, hpart, Part.render, Literal.render, Text.Quoted.render]
    case h_2 =>
      split at h
      · cases h
      · cases h
        simpa [chars, Part.render] using ‹_›
  rwa [text_cons, text_nil, List.append_nil, Ne, Text.flatMap_movedChar_eq_nil_iff]

theorem text_trimmedStart (width : Nat) (pieces : List Piece) :
    text width (trimmedStart pieces) = trimStart (text width pieces) := by
  induction pieces with
  | nil => rfl
  | cons piece rest ih =>
    have hcut := text_cut width Text.trimStart_flatMap_movedChar trimStart_literal piece
    have hsplit : text width (piece :: rest) = text width [piece] ++ text width rest := by simp
    rw [trimmedStart, hsplit, trimStart, List.dropWhile_append]
    -- Trimming goes on into the next piece only if nothing is left of this one.
    cases hkept : piece.cut? trimStart with
    | none =>
      rw [hkept] at hcut
      have hnil : List.dropWhile isBlank (text width [piece]) = [] := hcut.symm
      rw [hnil]
      exact ih
    | some kept =>
      have hne := text_ne_nil_of_cut width hkept
      rw [hkept] at hcut
      have hsome : List.dropWhile isBlank (text width [piece]) = text width [kept] := hcut.symm
      rw [hsome, if_neg (by simpa using hne)]
      simp

/-- The last piece that is kept is not empty. -/
theorem text_ne_nil_of_trimmedEnd (width : Nat) {pieces : List Piece}
    (h : trimmedEnd pieces ≠ []) : text width (trimmedEnd pieces) ≠ [] := by
  induction pieces with
  | nil => exact absurd rfl h
  | cons piece rest ih =>
    rw [trimmedEnd] at h ⊢
    cases hrest : trimmedEnd rest with
    | nil =>
      rw [hrest] at h
      cases hcut : piece.cut? trimEnd with
      | none => simp [hcut] at h
      | some kept => exact text_ne_nil_of_cut width hcut
    | cons first others =>
      rw [hrest] at ih
      have hothers := ih (by simp)
      rw [text_cons]
      exact fun hnil => hothers (List.append_eq_nil_iff.1 hnil).2

theorem text_trimmedEnd (width : Nat) (pieces : List Piece) :
    text width (trimmedEnd pieces) = trimEnd (text width pieces) := by
  induction pieces with
  | nil => rfl
  | cons piece rest ih =>
    have hcut := text_cut width Text.trimEnd_flatMap_movedChar trimEnd_literal piece
    have hsplit : text width (piece :: rest) = text width [piece] ++ text width rest := by simp
    rw [trimmedEnd, hsplit]
    cases hkept : trimmedEnd rest with
    | nil =>
      rw [hkept] at ih
      rw [Text.trimEnd_append_of_eq_nil ih.symm]
      exact hcut
    | cons first others =>
      have hne : text width (trimmedEnd rest) ≠ [] :=
        text_ne_nil_of_trimmedEnd width (by simp [hkept])
      rw [Text.trimEnd_append_of_ne_nil (ih ▸ hne), ← ih, hkept]
      simp

/-- Pieces inside a statement are nested like their text. -/
theorem text_nest {width : Nat} {nest : String → String}
    (hnest : ∀ sql, (nest sql).toList = if '\n' ∈ sql.toList then
      '(' :: (trim sql.toList).flatMap (movedChar width) ++ [')'] else sql.toList)
    {pieces : List Piece} {sql : String} (h : text width pieces = sql.toList) :
    text width (Piece.nest pieces) = (nest sql).toList := by
  -- Whether a text is nested does not depend on how far its lines have been moved.
  have hmultiline : '\n' ∈ text 0 pieces ↔ '\n' ∈ sql.toList := by
    rw [← h, mem_newLine_text, mem_newLine_text]
  rw [hnest, Piece.nest]
  by_cases hline : '\n' ∈ sql.toList
  · rw [if_pos (hmultiline.2 hline), if_pos hline]
    simp only [text_append, text_fixed, text_deepened, text_trimmedEnd, text_trimmedStart, h]
    rfl
  · rw [if_neg fun hmem => hline (hmultiline.1 hmem), if_neg hline, h]

end Piece

/-! ### Statements in pieces -/

open Piece (fixed)

/-- The parts of the expression. -/
def Expression.pieces (expr : Expression) : List Piece := expr.parts.map fun part => ⟨0, part⟩

namespace Rows

/-- The condition on the rows in pieces. -/
def conditionPieces (rows : Rows) : List Piece :=
  match rows.filters with
  | [] => []
  | [filter] => fixed "WHERE " ++ filter.pieces ++ fixed "\n"
  | filters =>
    fixed "WHERE "
      ++ (fixed " AND ").intercalate (filters.map fun f => fixed "(" ++ f.pieces ++ fixed ")")
      ++ fixed "\n"

/-- A clause in pieces. -/
def clausePieces (keyword : String) (expr : Option Expression) : List Piece :=
  expr.elim [] fun e => fixed (keyword ++ " ") ++ e.pieces ++ fixed "\n"

/-- What follows the table in pieces. -/
def clausesPieces (rows : Rows) (cardinality : Cardinality) : List Piece :=
  rows.conditionPieces ++ clausePieces "GROUP BY" rows.groupBy
    ++ clausePieces "ORDER BY" rows.orderBy ++ fixed (rows.bound cardinality)

/-- The statement with a result column per field in pieces. -/
def tablePieces (rows : Rows) (cardinality : Cardinality) (fields : List (String × List Piece)) :
    List Piece :=
  fixed "SELECT\n"
    ++ (fixed ",\n").intercalate
      (fields.map fun (name, pieces) => fixed "\t" ++ pieces ++ fixed (" as " ++ name))
    ++ fixed ("\nFROM " ++ rows.instanceText ++ "\n") ++ rows.clausesPieces cardinality

/-- The JSON object of the fields in pieces. -/
def jsonObjectPieces (fields : List (String × List Piece)) : List Piece :=
  fixed "json_object(\n"
    ++ (fixed ",\n").intercalate
      (fields.map fun (name, pieces) => fixed ("\t'" ++ name ++ "', ") ++ pieces)
    ++ fixed "\n)"

/-- The statement with one JSON value in pieces. -/
def objectPieces (rows : Rows) (cardinality : Cardinality) (fields : List (String × List Piece)) :
    List Piece :=
  let value := match cardinality with
    | .one => jsonObjectPieces fields
    | .many => fixed "json_group_array(" ++ jsonObjectPieces fields ++ fixed ")"
  fixed "SELECT " ++ value ++ fixed (" FROM " ++ rows.instanceText ++ "\n")
    ++ rows.clausesPieces cardinality

end Rows

mutual

/-- The pieces of a field inside a selection. -/
def Node.nestedPieces : Node → List Piece
  | .leaf l => Piece.nest [⟨0, .column l⟩]
  | .expr e => Piece.nest e.pieces
  | .relation cardinality rows fields =>
    Piece.nest (rows.objectPieces cardinality (nestedFieldPieces fields))

/-- The pieces of the fields of a selection. -/
def nestedFieldPieces : List (String × Node) → List (String × List Piece)
  | [] => []
  | (name, node) :: rest =>
    if isReserved name then nestedFieldPieces rest
    else (name, node.nestedPieces) :: nestedFieldPieces rest

end

/-- The statement of a query tree in pieces. -/
def Node.pieces : Node → List Piece
  | .leaf l => [⟨0, .column l⟩]
  | .expr e => e.pieces
  | .relation cardinality rows fields => rows.tablePieces cardinality (nestedFieldPieces fields)

mutual

/-- The text of a field inside a selection, with the texts inside it nested in the given way. -/
def Node.nestedBy (nest : String → String) : Node → String
  | .leaf l => nest l.render
  | .expr e => nest e.render
  | .relation cardinality rows fields =>
    nest (rows.objectQuery cardinality (nestedFieldsBy nest fields))

/-- The texts of the fields of a selection, nested in the given way. -/
def nestedFieldsBy (nest : String → String) : List (String × Node) → List (String × String)
  | [] => []
  | (name, node) :: rest =>
    if isReserved name then nestedFieldsBy nest rest
    else (name, node.nestedBy nest) :: nestedFieldsBy nest rest

end

/-- The statement of a query tree, with the texts inside it nested in the given way. -/
def Node.sqlBy (nest : String → String) : Node → String
  | .leaf l => l.render
  | .expr e => e.render
  | .relation cardinality rows fields => rows.tableQuery cardinality (nestedFieldsBy nest fields)

/-- A nested text with its lines left where they are. -/
def nestFlat (sql : String) : String :=
  if Text.isMultiline sql then "(" ++ Text.trimmed sql ++ ")" else sql

/-- The statement of a query tree without any indentation of nested texts. -/
def Node.flat (node : Node) : String := node.sqlBy nestFlat

/-! ### The text of the pieces -/

namespace Piece

theorem text_intercalate (width : Nat) (separator : List Piece) (items : List (List Piece)) :
    text width (separator.intercalate items) =
      (text width separator).intercalate (items.map (text width)) := by
  induction items with
  | nil => rfl
  | cons item rest ih =>
    cases rest with
    | nil => simp
    | cons _ _ =>
      simp only [List.intercalate_cons_cons, text_append, List.map_cons] at ih ⊢
      rw [ih]

theorem text_expression (width : Nat) (expr : Expression) :
    text width expr.pieces = expr.render.toList := by
  have hjoin : ∀ parts : List Part,
      text width (parts.map fun part => ⟨0, part⟩) =
        (String.join (parts.map Part.render)).toList := by
    intro parts
    induction parts with
    | nil => rfl
    | cons part rest ih =>
      rw [List.map_cons, text_cons, ih, List.map_cons, String.join_cons, String.toList_append,
        Nat.mul_zero, Text.flatMap_movedChar_zero]
      rfl
  exact hjoin expr.parts

theorem text_conditionPieces (width : Nat) (rows : Rows) :
    text width rows.conditionPieces = rows.condition.toList := by
  match hfilters : rows.filters with
  | [] => simp only [Rows.conditionPieces, Rows.condition, hfilters, text_nil, String.toList_empty]
  | [filter] =>
    simp only [Rows.conditionPieces, Rows.condition, hfilters, text_append, text_fixed,
      text_expression, String.toList_append]
  | first :: second :: rest =>
    simp only [Rows.conditionPieces, Rows.condition, hfilters, text_append, text_fixed,
      text_intercalate, text_expression, String.toList_append, String.toList_intercalate,
      List.map_map, Function.comp_def]

theorem text_clausePieces (width : Nat) (keyword : String) (expr : Option Expression) :
    text width (Rows.clausePieces keyword expr) = (Rows.clause keyword expr).toList := by
  cases expr with
  | none => rfl
  | some e =>
    simp only [Rows.clausePieces, Rows.clause, Option.elim_some, text_append, text_fixed,
      text_expression, String.toList_append]

theorem text_clausesPieces (width : Nat) (rows : Rows) (cardinality : Cardinality) :
    text width (rows.clausesPieces cardinality) = (rows.clauses cardinality).toList := by
  simp only [Rows.clausesPieces, Rows.clauses, text_append, text_conditionPieces, text_clausePieces,
    text_fixed, String.toList_append]

variable {width : Nat} {fields : List (String × List Piece)} {texts : List (String × String)}

/-- Fields in pieces have the given texts. -/
def HaveTexts (width : Nat) (fields : List (String × List Piece)) (texts : List (String × String)) :
    Prop :=
  Entries.mapValues (fun pieces => String.ofList (text width pieces)) fields = texts

theorem text_tablePieces (h : HaveTexts width fields texts) (rows : Rows)
    (cardinality : Cardinality) :
    text width (rows.tablePieces cardinality fields) =
      (rows.tableQuery cardinality texts).toList := by
  subst h
  unfold Rows.tablePieces Rows.tableQuery
  simp only [text_append, text_fixed, text_intercalate,
    text_clausesPieces, String.toList_append, String.toList_intercalate, List.map_map,
    Entries.mapValues, Function.comp_def, String.toList_ofList, List.append_assoc]

theorem text_jsonObjectPieces (h : HaveTexts width fields texts) :
    text width (Rows.jsonObjectPieces fields) = (Rows.jsonObject texts).toList := by
  subst h
  unfold Rows.jsonObjectPieces Rows.jsonObject
  simp only [text_append, text_fixed, text_intercalate,
    String.toList_append, String.toList_intercalate, List.map_map,
    Entries.mapValues, Function.comp_def, String.toList_ofList, List.append_assoc]

theorem text_objectPieces (h : HaveTexts width fields texts) (rows : Rows)
    (cardinality : Cardinality) :
    text width (rows.objectPieces cardinality fields) =
      (rows.objectQuery cardinality texts).toList := by
  unfold Rows.objectPieces Rows.objectQuery
  cases cardinality <;>
    simp only [text_append, text_fixed, text_jsonObjectPieces h, text_clausesPieces,
      String.toList_append, List.append_assoc]

end Piece

/-- The way to nest a text moves its later lines by the given number of tabs. -/
def NestsBy (width : Nat) (nest : String → String) : Prop :=
  ∀ sql, (nest sql).toList = if '\n' ∈ sql.toList then
    '(' :: (trim sql.toList).flatMap (movedChar width) ++ [')'] else sql.toList

section

variable {width : Nat} {nest : String → String}

mutual

theorem Node.text_nestedPieces (hnest : NestsBy width nest) :
    (node : Node) → Piece.text width node.nestedPieces = (node.nestedBy nest).toList
  | .leaf l => by
    refine Piece.text_nest hnest ?_
    simp [Piece.chars, Part.render, Text.flatMap_movedChar_zero]
  | .expr e => Piece.text_nest hnest (Piece.text_expression width e)
  | .relation cardinality rows fields =>
    Piece.text_nest hnest (Piece.text_objectPieces (haveTexts_fields hnest fields) rows cardinality)

theorem haveTexts_fields (hnest : NestsBy width nest) : (fields : List (String × Node)) →
    Piece.HaveTexts width (nestedFieldPieces fields) (nestedFieldsBy nest fields)
  | [] => rfl
  | (name, node) :: rest => by
    have hrest := haveTexts_fields hnest rest
    rw [nestedFieldPieces, nestedFieldsBy]
    split
    · exact hrest
    · have hnode := Node.text_nestedPieces hnest node
      simp only [Piece.HaveTexts, Entries.mapValues, List.map_cons, hnode, String.ofList_toList]
        at hrest ⊢
      rw [hrest]

end

/-- The pieces of a query tree are the statement, moved by the given number of tabs. -/
theorem Node.text_pieces (hnest : NestsBy width nest) (node : Node) :
    Piece.text width node.pieces = (node.sqlBy nest).toList := by
  cases node with
  | leaf l => simp [Node.pieces, Node.sqlBy, Piece.chars, Part.render, Text.flatMap_movedChar_zero]
  | expr e => exact Piece.text_expression width e
  | relation cardinality rows fields =>
    exact Piece.text_tablePieces (haveTexts_fields hnest fields) rows cardinality

end

theorem nestsBy_nest : NestsBy 1 nest := by
  intro sql
  unfold nest
  simp only [Text.isMultiline, List.contains_iff_mem]
  split
  · simp only [String.toList_append, Text.toList_trimmed_indent]
    rfl
  · rfl

theorem nestsBy_nestFlat : NestsBy 0 nestFlat := by
  intro sql
  unfold nestFlat
  simp only [Text.isMultiline, List.contains_iff_mem]
  split
  · simp only [Text.trimmed, String.toList_append, String.toList_ofList,
      Text.flatMap_movedChar_zero]
    rfl
  · rfl

mutual

theorem Node.nested_eq : (node : Node) → node.nested = node.nestedBy nest
  | .leaf _ => rfl
  | .expr _ => rfl
  | .relation cardinality rows fields => by
    rw [Node.nested, Node.nestedBy, nestedFields_eq fields]

theorem nestedFields_eq : (fields : List (String × Node)) →
    nestedFields fields = nestedFieldsBy nest fields
  | [] => rfl
  | (name, node) :: rest => by
    rw [nestedFields, nestedFieldsBy, nestedFields_eq rest, Node.nested_eq node]

end

theorem Node.sql_eq (node : Node) : node.sql = node.sqlBy nest := by
  cases node with
  | leaf l => rfl
  | expr e => rfl
  | relation cardinality rows fields =>
    rw [Node.sql, Selection.statement, nestedFields_eq]
    rfl

/-! ### The literals of a query -/

/-- The text of a literal. -/
def Part.literal? : Part → Option String
  | .value (.text s) => some s
  | _ => none

/-- The literals of the expression. -/
def Expression.literals (expr : Expression) : List String := expr.parts.filterMap Part.literal?

/-- The literals of the clauses. -/
def Rows.literals (rows : Rows) : List String :=
  rows.filters.flatMap Expression.literals
    ++ rows.groupBy.toList.flatMap Expression.literals
    ++ rows.orderBy.toList.flatMap Expression.literals

mutual

/-- The literals of a query tree in the order in which they are written, those of reserved fields
left out. -/
def Node.literals : Node → List String
  | .leaf _ => []
  | .expr e => e.literals
  | .relation _ rows fields => fieldLiterals fields ++ rows.literals

/-- The literals of fields. -/
def fieldLiterals : List (String × Node) → List String
  | [] => []
  | (name, node) :: rest =>
    if isReserved name then fieldLiterals rest else node.literals ++ fieldLiterals rest

end

namespace Piece

/-- The literals among the pieces. -/
def literals (pieces : List Piece) : List String :=
  pieces.filterMap fun piece => piece.part.literal?

@[simp] theorem literals_nil : literals [] = [] := rfl

@[simp] theorem literals_append (xs ys : List Piece) :
    literals (xs ++ ys) = literals xs ++ literals ys :=
  List.filterMap_append

@[simp] theorem literals_fixed (sql : String) : literals (fixed sql) = [] := rfl

theorem literals_expression (expr : Expression) : literals expr.pieces = expr.literals := by
  simp only [literals, Expression.pieces, Expression.literals, List.filterMap_map]
  rfl

@[simp] theorem literals_intercalate (separator : String) (items : List (List Piece)) :
    literals ((fixed separator).intercalate items) = items.flatMap literals := by
  induction items with
  | nil => rfl
  | cons item rest ih =>
    cases rest with
    | nil => simp
    | cons _ _ =>
      rw [List.intercalate_cons_cons, literals_append, literals_append, literals_fixed, ih]
      simp

theorem literals_deepened (pieces : List Piece) : literals (deepened pieces) = literals pieces := by
  simp only [literals, deepened, List.filterMap_map]
  rfl

/-- Trimming leaves literals alone. -/
theorem literals_cut (cut : List Char → List Char) (piece : Piece) :
    literals (piece.cut? cut).toList = literals [piece] := by
  obtain ⟨depth, part⟩ := piece
  unfold cut?
  split
  case h_1 s hpart =>
    obtain rfl : part = .value (.text s) := hpart
    rfl
  case h_2 hpart =>
    have hnone : part.literal? = none := by
      unfold Part.literal?
      split
      · exact absurd rfl (hpart _)
      · rfl
    have hsql (sql : String) : Part.literal? (.sql sql) = none := rfl
    split <;> simp [literals, hnone, hsql]

theorem literals_cons (piece : Piece) (rest : List Piece) :
    literals (piece :: rest) = literals [piece] ++ literals rest :=
  literals_append [piece] rest

theorem literals_trimmedStart (pieces : List Piece) :
    literals (trimmedStart pieces) = literals pieces := by
  induction pieces with
  | nil => rfl
  | cons piece rest ih =>
    have hcut := literals_cut trimStart piece
    rw [trimmedStart, literals_cons piece rest, ← hcut]
    cases piece.cut? trimStart with
    | none => simpa using ih
    | some kept => exact literals_cons kept rest

theorem literals_trimmedEnd (pieces : List Piece) :
    literals (trimmedEnd pieces) = literals pieces := by
  induction pieces with
  | nil => rfl
  | cons piece rest ih =>
    rw [trimmedEnd, literals_cons piece rest, ← ih]
    cases trimmedEnd rest with
    | nil => simpa using literals_cut trimEnd piece
    | cons _ _ => exact literals_cons piece _

theorem literals_nest (pieces : List Piece) : literals (nest pieces) = literals pieces := by
  unfold nest
  split
  · simp [literals_deepened, literals_trimmedEnd, literals_trimmedStart]
  · rfl

theorem literals_clausesPieces (rows : Rows) (cardinality : Cardinality) :
    literals (rows.clausesPieces cardinality) = rows.literals := by
  have hclause (keyword : String) (expr : Option Expression) :
      literals (Rows.clausePieces keyword expr) = expr.toList.flatMap Expression.literals := by
    cases expr <;> simp [Rows.clausePieces, literals_expression]
  have hcondition : literals rows.conditionPieces = rows.filters.flatMap Expression.literals := by
    match hfilters : rows.filters with
    | [] => simp [Rows.conditionPieces, hfilters]
    | [filter] => simp [Rows.conditionPieces, hfilters, literals_expression]
    | first :: second :: rest =>
      simp only [Rows.conditionPieces, hfilters, literals_append, literals_fixed,
        literals_intercalate, List.flatMap_map, literals_expression, List.nil_append,
        List.append_nil]
  simp [Rows.clausesPieces, Rows.literals, hclause, hcondition]

end Piece

mutual

theorem Node.literals_nestedPieces : (node : Node) →
    Piece.literals node.nestedPieces = node.literals
  | .leaf l => by
    rw [Node.nestedPieces, Piece.literals_nest]
    rfl
  | .expr e => by
    rw [Node.nestedPieces, Piece.literals_nest, Piece.literals_expression]
    rfl
  | .relation cardinality rows fields => by
    rw [Node.nestedPieces, Piece.literals_nest, Node.literals, ← literals_nestedFieldPieces fields]
    cases cardinality <;>
      simp only [Rows.objectPieces, Rows.jsonObjectPieces, Piece.literals_append,
        Piece.literals_fixed, Piece.literals_intercalate, Piece.literals_clausesPieces,
        List.flatMap_map, List.nil_append, List.append_nil]

theorem literals_nestedFieldPieces : (fields : List (String × Node)) →
    (nestedFieldPieces fields).flatMap (fun field => Piece.literals field.2) = fieldLiterals fields
  | [] => rfl
  | (name, node) :: rest => by
    rw [nestedFieldPieces, fieldLiterals]
    split
    · exact literals_nestedFieldPieces rest
    · rw [List.flatMap_cons, literals_nestedFieldPieces rest, Node.literals_nestedPieces node]

end

/-- The literals of a query are the literals among the pieces of its statement. -/
theorem Node.literals_pieces (node : Node) : Piece.literals node.pieces = node.literals := by
  cases node with
  | leaf l => rfl
  | expr e => exact Piece.literals_expression e
  | relation cardinality rows fields =>
    rw [Node.literals, ← literals_nestedFieldPieces fields]
    simp only [Node.pieces, Rows.tablePieces, Piece.literals_append, Piece.literals_fixed,
      Piece.literals_intercalate, Piece.literals_clausesPieces, List.flatMap_map, List.nil_append,
      List.append_nil]

end Schemata
