import Mathlib.Data.List.Sort
import Mathlib.Data.List.TakeDrop
import Schemata.Query.Sql

/-!
# What a statement yields

The clauses of a statement take effect in an order of their own: the table and the conditions give
the rows, the selected values make rows of a result out of them, and only then is the result ordered
and cut. It matters what the selected values do. A statement of columns or of objects makes one row
of the result out of each row, so that the order and the bound are felt by the rows. A statement of
an array folds all rows into one row of the result before the order and the bound come to it: the
array has all rows, in the order in which they are found, and a bound either does nothing or, if it
is zero, takes the array away.

What the texts inside a statement mean is left open: the values of the fields, the truth of the
conditions and the order are given by any functions of the texts and of the rows around them.

## Main definitions

* `Select`, `Select.text`: a statement without grouping, and its text
* `Meaning`, `Scope`: the contents of the tables and the meaning of the texts at given rows
* `Select.results`, `Select.value`: the rows of the result, and the value as a subquery
* `Select.LimitsRows`: the value is the array of the first rows in order

## Main results

* `Rows.objectQuery_many_eq_text` and its like: the statements that queries are compiled to
* `rowwise_yields`: the root and a nested selection of one row yield their first rows in order
* `nested_many_yields`: what a nested selection of many rows yields, and when that is what its order
  and its bound ask for
-/

namespace Schemata

/-! ### Statements -/

/-- What is made of the rows. -/
inductive Projection
  /-- A result column per field. -/
  | columns
  /-- A JSON object of each row. -/
  | object
  /-- A JSON array of the objects of all rows. -/
  | array

/-- A statement without grouping; the texts inside it are finished. -/
structure Select where
  /-- What is made of the rows. -/
  projection : Projection
  /-- The names and the texts of the fields. -/
  fields : List (String × String)
  /-- The table. -/
  table : String
  /-- The alias of the table instance. -/
  instanceAlias : String
  /-- The conditions on the rows, all of which have to hold. -/
  conditions : List String
  /-- What the result is ordered by. -/
  orderBy : Option String
  /-- The greatest number of rows of the result. -/
  limit : Option Nat

namespace Select

/-- What stands before the table. -/
def head (s : Select) : String :=
  match s.projection with
  | .columns =>
    "SELECT\n"
      ++ String.intercalate ",\n" (s.fields.map fun (name, sql) => "\t" ++ sql ++ " as " ++ name)
      ++ "\nFROM "
  | .object => "SELECT " ++ Rows.jsonObject s.fields ++ " FROM "
  | .array => "SELECT " ++ ("json_group_array(" ++ Rows.jsonObject s.fields ++ ")") ++ " FROM "

/-- The text of the conditions: one as it is, several in parentheses. -/
def conditionText (s : Select) : String :=
  match s.conditions with
  | [] => ""
  | [condition] => "WHERE " ++ condition ++ "\n"
  | conditions =>
    "WHERE " ++ String.intercalate " AND " (conditions.map fun c => "(" ++ c ++ ")") ++ "\n"

/-- What stands after the table: conditions, order and bound. -/
def clauses (s : Select) : String :=
  s.conditionText ++ s.orderBy.elim "" (fun e => "ORDER BY " ++ e ++ "\n")
    ++ s.limit.elim "" fun n => "LIMIT " ++ n.repr ++ "\n"

/-- The text of the statement. -/
def text (s : Select) : String :=
  s.head ++ s.table ++ " " ++ s.instanceAlias ++ "\n" ++ s.clauses

end Select

namespace Rows

/-- The statement of the rows, if they are not grouped. -/
def select (projection : Projection) (rows : Rows) (cardinality : Cardinality)
    (fields : List (String × String)) : Select where
  projection := projection
  fields := fields
  table := rows.table
  instanceAlias := rows.instanceAlias
  conditions := rows.filters.map Expression.render
  orderBy := rows.orderBy.map Expression.render
  limit := match rows.limit, cardinality with
    | some n, _ => some n.toNat
    | none, .one => some 1
    | none, .many => none

variable {rows : Rows} {cardinality : Cardinality}

theorem condition_eq_select (projection : Projection) (fields : List (String × String)) :
    rows.condition = (rows.select projection cardinality fields).conditionText := by
  unfold condition Select.conditionText select
  match hfilters : rows.filters with
  | [] => rfl
  | [_] => rfl
  | _ :: _ :: _ => simp [Function.comp_def]

theorem bound_eq_select (projection : Projection) (fields : List (String × String)) :
    rows.bound cardinality = (rows.select projection cardinality fields).limit.elim ""
      fun n => "LIMIT " ++ n.repr ++ "\n" := by
  unfold bound select
  cases rows.limit <;> cases cardinality <;> rfl

/-- The clauses of rows that are not grouped are those of their statement. -/
theorem clauses_eq_select (h : rows.groupBy = none) (projection : Projection)
    (fields : List (String × String)) :
    rows.clauses cardinality = (rows.select projection cardinality fields).clauses := by
  have horder : clause "ORDER BY" rows.orderBy =
      (rows.orderBy.map Expression.render).elim "" fun e => "ORDER BY " ++ e ++ "\n" := by
    cases rows.orderBy with
    | none => rfl
    | some e => simp [clause, String.append_assoc]
  rw [clauses, Select.clauses, ← condition_eq_select, ← bound_eq_select, h, horder]
  simp [clause, select]

/-- A nested selection of one row is a statement of an object. -/
theorem objectQuery_one_eq_text (h : rows.groupBy = none) (fields : List (String × String)) :
    rows.objectQuery .one fields = (rows.select .object .one fields).text := by
  simp only [objectQuery, clauses_eq_select h .object fields, Select.text, Select.head,
    instanceText, select, String.append_assoc]

/-- A nested selection of many rows is a statement of an array. -/
theorem objectQuery_many_eq_text (h : rows.groupBy = none) (fields : List (String × String)) :
    rows.objectQuery .many fields = (rows.select .array .many fields).text := by
  simp only [objectQuery, clauses_eq_select h .array fields, Select.text, Select.head,
    instanceText, select, String.append_assoc]

/-- The root is a statement of columns. -/
theorem tableQuery_eq_text (h : rows.groupBy = none) (fields : List (String × String)) :
    rows.tableQuery cardinality fields = (rows.select .columns cardinality fields).text := by
  simp only [tableQuery, clauses_eq_select h .columns fields, Select.text, Select.head,
    instanceText, select, String.append_assoc]

end Rows

/-! ### The meaning of a statement -/

/-- A value of a result. -/
inductive Datum (ν : Type)
  /-- No value. -/
  | null
  /-- A plain value. -/
  | plain (value : ν)
  /-- Values with names: a JSON object, or a row of a plain result set. -/
  | object (fields : List (String × Datum ν))
  /-- A JSON array. -/
  | array (elements : List (Datum ν))

/-- What the aliases stand for at a place of a statement, the innermost first: a row, or the rows
that have been folded into a row of the result. -/
abbrev Scope (ρ : Type) := List (String × List ρ)

/-- The contents of the tables, and the meaning of the texts inside a statement. -/
structure Meaning (ρ ν : Type) where
  /-- The rows of a table, in the order in which they are found. -/
  rows : String → List ρ
  /-- The value of the text of a field. -/
  value : String → Scope ρ → Datum ν
  /-- Whether a condition holds. -/
  holds : String → Scope ρ → Bool
  /-- Whether the first place comes no later than the second in the order that a text asks for. -/
  before : String → Scope ρ → Scope ρ → Bool

/-- What a text asks for as an order is one: any two places can be compared, and the comparison
carries over. -/
structure Meaning.IsOrdered {ρ ν : Type} (m : Meaning ρ ν) : Prop where
  total (sql : String) (a b : Scope ρ) : m.before sql a b = true ∨ m.before sql b a = true
  trans {sql : String} {a b c : Scope ρ} :
    m.before sql a b = true → m.before sql b c = true → m.before sql a c = true

namespace Select

variable {ρ ν : Type} (m : Meaning ρ ν) (scope : Scope ρ) (s : Select)

/-- The scope in which the alias of the statement stands for the given rows. -/
def within (rows : List ρ) : Scope ρ := (s.instanceAlias, rows) :: scope

/-- The rows of the table that satisfy all conditions. -/
def picked : List ρ :=
  (m.rows s.table).filter fun row =>
    s.conditions.all fun condition => m.holds condition (s.within scope [row])

/-- The object of a row. -/
def object (row : ρ) : Datum ν :=
  .object (s.fields.map fun (name, sql) => (name, m.value sql (s.within scope [row])))

/-- The rows of the result before they are ordered, each with the rows of which it is made. An array
is one row of the result, made of all rows. -/
def made : List (List ρ × Datum ν) :=
  match s.projection with
  | .columns | .object => (s.picked m scope).map fun row => ([row], s.object m scope row)
  | .array =>
    -- There is this one row even if there are no rows to fold.
    [(s.picked m scope, .array ((s.picked m scope).map (s.object m scope)))]

/-- A row of the result made of the first rows comes no later than one made of the second. -/
def Precedes (sql : String) (rows rows' : List ρ) : Prop :=
  m.before sql (s.within scope rows) (s.within scope rows') = true

instance (sql : String) (rows rows' : List ρ) : Decidable (s.Precedes m scope sql rows rows') :=
  inferInstanceAs (Decidable (_ = true))

/-- The rows of the result in order. -/
def ordered (results : List (List ρ × Datum ν)) : List (List ρ × Datum ν) :=
  match s.orderBy with
  | none => results
  | some sql => results.insertionSort fun a b => s.Precedes m scope sql a.1 b.1

/-- As many as the bound lets through. -/
def bounded {α : Type} (xs : List α) : List α :=
  match s.limit with
  | none => xs
  | some n => xs.take n

/-- The rows of the result: first the rows, then what is made of them, then order and bound. -/
def results : List (Datum ν) := (s.bounded (s.ordered m scope (s.made m scope))).map Prod.snd

/-- The value of the statement inside another one: its first row, if there is one. -/
def value : Datum ν := (s.results m scope).head?.getD .null

/-- The rows stand in the order that the statement asks for. -/
def InOrder (rows : List ρ) : Prop :=
  ∀ sql, s.orderBy = some sql → rows.Pairwise fun a b => s.Precedes m scope sql [a] [b]

/-- The value is the array of the objects of the first rows in order, as many as the bound lets
through. -/
def LimitsRows : Prop :=
  ∃ rows : List ρ, rows.Perm (s.picked m scope) ∧ s.InOrder m scope rows ∧
    s.value m scope = .array ((s.bounded rows).map (s.object m scope))

variable {m scope s}

theorem bounded_map {α β : Type} (f : α → β) (xs : List α) :
    s.bounded (xs.map f) = (s.bounded xs).map f := by
  unfold bounded
  cases s.limit with
  | none => rfl
  | some n => exact List.map_take.symm

/-- A bound that is not zero lets a single row of the result through, and zero lets none. -/
theorem bounded_singleton {α : Type} (a : α) :
    s.bounded [a] = if s.limit = some 0 then [] else [a] := by
  unfold bounded
  match s.limit with
  | none => rfl
  | some 0 => rfl
  | some (n + 1) => simp

/-- A bound changes nothing exactly if there are no more rows than it lets through. -/
theorem bounded_eq_self_iff {α : Type} {xs : List α} :
    s.bounded xs = xs ↔ ∀ n, s.limit = some n → xs.length ≤ n := by
  unfold bounded
  cases s.limit with
  | none => simp
  | some n => simp

theorem bounded_sublist {α : Type} (xs : List α) : (s.bounded xs).Sublist xs := by
  unfold bounded
  cases s.limit with
  | none => exact .refl _
  | some n => exact List.take_sublist n xs

/-- A single row of the result is in order. -/
theorem ordered_singleton (result : List ρ × Datum ν) :
    s.ordered m scope [result] = [result] := by
  unfold ordered
  cases s.orderBy with
  | none => rfl
  | some sql => rfl

/-! ### Rows one by one -/

/-- Rows can be put in the order that the statement asks for, and then so are the rows of the
result. -/
theorem exists_ordered_eq (hm : m.IsOrdered) (scope : Scope ρ) (s : Select) (rows : List ρ)
    (f : ρ → Datum ν) :
    ∃ rows' : List ρ, rows'.Perm rows ∧ s.InOrder m scope rows' ∧
      s.ordered m scope (rows.map fun row => ([row], f row)) =
        rows'.map fun row => ([row], f row) := by
  unfold ordered InOrder
  cases s.orderBy with
  | none => exact ⟨rows, .refl _, by simp, rfl⟩
  | some sql =>
    have htotal : Std.Total fun a b : ρ => s.Precedes m scope sql [a] [b] :=
      ⟨fun a b => hm.total sql _ _⟩
    have htrans : IsTrans ρ fun a b => s.Precedes m scope sql [a] [b] :=
      ⟨fun a b c hab hbc => hm.trans hab hbc⟩
    refine ⟨rows.insertionSort fun a b => s.Precedes m scope sql [a] [b],
      List.perm_insertionSort _ _, ?_, ?_⟩
    · rintro _ ⟨⟩
      exact List.pairwise_insertionSort _ _
    · -- Each row of the result is compared by the one row of which it is made.
      symm
      apply List.map_insertionSort
      intro a _ b _
      rfl

/-- A statement that makes a row of the result out of each row yields the first rows in order. -/
theorem exists_results_eq (hm : m.IsOrdered) (hprojection : s.projection ≠ .array) :
    ∃ rows : List ρ, rows.Perm (s.picked m scope) ∧ s.InOrder m scope rows ∧
      s.results m scope = (s.bounded rows).map (s.object m scope) := by
  have hmade : s.made m scope =
      (s.picked m scope).map fun row => ([row], s.object m scope row) := by
    unfold made
    cases hp : s.projection with
    | columns => rfl
    | object => rfl
    | array => exact absurd hp hprojection
  obtain ⟨rows, hperm, horder, heq⟩ :=
    exists_ordered_eq hm scope s (s.picked m scope) (s.object m scope)
  refine ⟨rows, hperm, horder, ?_⟩
  rw [results, hmade, heq, bounded_map, List.map_map]
  -- What is left of a row of the result is the object of its row.
  rfl

/-! ### All rows as one -/

/-- The rows of the result of an array: one with all rows, unless the bound is zero. -/
theorem results_array (hprojection : s.projection = .array) :
    s.results m scope = if s.limit = some 0 then []
      else [.array ((s.picked m scope).map (s.object m scope))] := by
  rw [results, made, hprojection]
  -- The order has one row before it, and the bound lets it through or not.
  simp only [ordered_singleton, bounded_singleton]
  split <;> rfl

/-- The value of an array has all rows, unless the bound is zero. -/
theorem value_array (hprojection : s.projection = .array) :
    s.value m scope = if s.limit = some 0 then .null
      else .array ((s.picked m scope).map (s.object m scope)) := by
  rw [value, results_array hprojection]
  split <;> rfl

/-- An array is limited to the first rows in order exactly if there is nothing to limit: the bound
is not zero and there are no more rows than it lets through, and their objects come in order by
themselves. -/
theorem limitsRows_array_iff (hprojection : s.projection = .array) :
    s.LimitsRows m scope ↔
      (∀ n, s.limit = some n → 0 < n ∧ (s.picked m scope).length ≤ n) ∧
        ∃ rows : List ρ, rows.Perm (s.picked m scope) ∧ s.InOrder m scope rows ∧
          rows.map (s.object m scope) = (s.picked m scope).map (s.object m scope) := by
  rw [LimitsRows, value_array hprojection]
  constructor
  · rintro ⟨rows, hperm, horder, hvalue⟩
    have hzero : s.limit ≠ some 0 := by
      intro hlimit
      rw [if_pos hlimit] at hvalue
      exact absurd hvalue (by simp)
    rw [if_neg hzero, Datum.array.injEq] at hvalue
    -- The bound lets as many through as there are, for all of them are in the array.
    have hlength : (s.bounded rows).length = rows.length := by
      simpa [hperm.length_eq] using (congrArg List.length hvalue).symm
    have hbounded : s.bounded rows = rows := (bounded_sublist rows).eq_of_length hlength
    refine ⟨?_, rows, hperm, horder, by rw [hvalue, hbounded]⟩
    intro n hn
    rw [← hperm.length_eq]
    have hpos : n ≠ 0 := fun h => hzero (h ▸ hn)
    exact ⟨by omega, bounded_eq_self_iff.1 hbounded n hn⟩
  · rintro ⟨hlimit, rows, hperm, horder, hobjects⟩
    have hzero : s.limit ≠ some 0 := fun h => absurd (hlimit 0 h).1 (by simp)
    refine ⟨rows, hperm, horder, ?_⟩
    rw [if_neg hzero, bounded_eq_self_iff.2, hobjects]
    intro n hn
    rw [hperm.length_eq]
    exact (hlimit n hn).2

end Select

/-! ### Compiled queries -/

section Compiled

variable {ρ ν : Type} (m : Meaning ρ ν) (scope : Scope ρ) {rows : Rows}

/-- The root of a query and a nested selection of one row yield their first rows in order, as many
as the bound lets through. -/
theorem rowwise_yields (hm : m.IsOrdered) (h : rows.groupBy = none)
    (fields : List (String × Node)) :
    (∀ cardinality, ∃ s : Select, s = rows.select .columns cardinality (nestedFields fields) ∧
      Node.sql (.relation cardinality rows fields) = s.text ∧
      ∃ sorted : List ρ, sorted.Perm (s.picked m scope) ∧ s.InOrder m scope sorted ∧
        s.results m scope = (s.bounded sorted).map (s.object m scope)) ∧
    ∃ s : Select, s = rows.select .object .one (nestedFields fields) ∧
      Node.nested (.relation .one rows fields) = nest s.text ∧
      ∃ sorted : List ρ, sorted.Perm (s.picked m scope) ∧ s.InOrder m scope sorted ∧
        s.results m scope = (s.bounded sorted).map (s.object m scope) := by
  constructor
  · intro cardinality
    refine ⟨_, rfl, ?_, Select.exists_results_eq hm (by simp [Rows.select])⟩
    rw [Node.sql, Selection.statement, Rows.tableQuery_eq_text h]
  · refine ⟨_, rfl, ?_, Select.exists_results_eq hm (by simp [Rows.select])⟩
    rw [Node.nested, Rows.objectQuery_one_eq_text h]

/-- What a nested selection of many rows without grouping yields. It is compiled to a statement of
an array. Its value is the array of the objects of all rows that satisfy the conditions, as they are
found, or no value if the bound is zero. So the array has the first rows in order exactly if the
bound is not zero, there are no more rows than it lets through, and the objects of the rows come in
order by themselves. -/
theorem nested_many_yields (h : rows.groupBy = none) (fields : List (String × Node)) :
    ∃ s : Select, s = rows.select .array .many (nestedFields fields) ∧
      Node.nested (.relation .many rows fields) = nest s.text ∧
      s.value m scope = (if rows.limit = some 0 then .null
        else .array ((s.picked m scope).map (s.object m scope))) ∧
      (s.LimitsRows m scope ↔
        (∀ n, rows.limit = some n → 0 < n.toNat ∧ (s.picked m scope).length ≤ n.toNat) ∧
          ∃ sorted : List ρ, sorted.Perm (s.picked m scope) ∧ s.InOrder m scope sorted ∧
            sorted.map (s.object m scope) = (s.picked m scope).map (s.object m scope)) := by
  have hlimit (n : Nat) : (rows.select .array .many (nestedFields fields)).limit = some n ↔
      ∃ k : UInt64, rows.limit = some k ∧ k.toNat = n := by
    unfold Rows.select
    cases rows.limit <;> simp
  -- The bound of the statement is the number that the selection has.
  refine ⟨_, rfl, ?_, ?_, ?_⟩
  · rw [Node.nested, Rows.objectQuery_many_eq_text h]
  · rw [Select.value_array rfl]
    have hzero : (rows.select .array .many (nestedFields fields)).limit = some 0 ↔
        rows.limit = some 0 := by
      rw [hlimit]
      constructor
      · rintro ⟨k, hk, hk'⟩
        have hk0 : k = 0 := UInt64.toNat_inj.1 hk'
        rw [hk, hk0]
      · intro hk
        exact ⟨0, hk, rfl⟩
    simp only [hzero]
  · rw [Select.limitsRows_array_iff rfl]
    apply and_congr_left'
    constructor
    · intro hall n hn
      exact hall n.toNat ((hlimit _).2 ⟨n, hn, rfl⟩)
    · intro hall n hn
      obtain ⟨k, hk, rfl⟩ := (hlimit n).1 hn
      exact hall k hk

end Compiled

/-! ### The newest posts -/

/-- The posts, of which at most so many are asked for, the newest first. -/
def Rows.newestPosts (limit : UInt64) : Rows where
  instanceAlias := "X2"
  table := "Post"
  limit := some limit
  orderBy := some ⟨[.column ⟨"X2", "id"⟩, .sql " DESC"]⟩

/-- A field of a post. -/
def postFields : List (String × Node) := [("id", .leaf ⟨"X2", "id"⟩)]

/-- Posts with the given numbers, the greatest of which is the newest. -/
def Meaning.ofPosts (posts : List Nat) : Meaning Nat Nat where
  rows table := if table = "Post" then posts else []
  value _ scope := (scope.head?.bind fun e => e.2.head?).elim .null .plain
  holds _ _ := true
  before _ scope scope' :=
    (scope'.flatMap Prod.snd).head?.getD 0 ≤ (scope.flatMap Prod.snd).head?.getD 0

/-- The statement that the selection of the newest posts is compiled to. -/
def Select.newestPosts (limit : UInt64) : Select :=
  (Rows.newestPosts limit).select .array .many (nestedFields postFields)

/-- The newest of two posts is asked for, and both are in the array, the oldest first. -/
theorem not_limitsRows_newestPosts :
    Node.nested (.relation .many (.newestPosts 1) postFields) =
        nest (Select.newestPosts 1).text ∧
      (Select.newestPosts 1).text =
        "SELECT json_group_array(json_object(\n\t'id', X2.id\n)) FROM Post X2\n"
          ++ "ORDER BY X2.id DESC\nLIMIT 1\n" ∧
      (Select.newestPosts 1).value (.ofPosts [1, 2]) [] =
        .array [.object [("id", .plain 1)], .object [("id", .plain 2)]] ∧
      ¬(Select.newestPosts 1).LimitsRows (.ofPosts [1, 2]) [] := by
  have htext : Node.nested (.relation .many (.newestPosts 1) postFields) =
      nest (Select.newestPosts 1).text := by
    rw [Node.nested, Rows.objectQuery_many_eq_text rfl, Select.newestPosts]
  have hvalue : (Select.newestPosts 1).value (.ofPosts [1, 2]) [] =
      .array [.object [("id", .plain 1)], .object [("id", .plain 2)]] := rfl
  refine ⟨htext, by rfl, hvalue, ?_⟩
  rintro ⟨rows, -, -, hlimited⟩
  rw [hvalue, Datum.array.injEq] at hlimited
  have hlength := congrArg List.length hlimited
  -- The array has two objects, and the bound lets one through.
  have hbound : ((Select.newestPosts 1).bounded rows).length ≤ 1 := List.length_take_le 1 rows
  simp only [List.length_map, List.length_cons, List.length_nil] at hlength
  omega

/-- Two posts that are found with the newest first are what is asked for. -/
theorem limitsRows_newestPosts :
    (Node.nested (.relation .many (.newestPosts 2) postFields) =
        nest (Select.newestPosts 2).text) ∧
      (Select.newestPosts 2).LimitsRows (.ofPosts [2, 1]) [] := by
  have hgroup : (Rows.newestPosts 2).groupBy = none := rfl
  obtain ⟨_, rfl, htext, -, hlimits⟩ :=
    nested_many_yields (.ofPosts [2, 1]) [] hgroup postFields
  refine ⟨htext, hlimits.2 ⟨?_, [2, 1], .refl _, ?_, rfl⟩⟩
  · rintro n ⟨⟩
    decide
  · rintro sql ⟨⟩
    decide

end Schemata
