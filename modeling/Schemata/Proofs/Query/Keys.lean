import Schemata.Proofs.Query.Layout
import Schemata.Text.Quoted

/-!
# The keys of the objects of a query

A nested selection makes a JSON object of its fields, in which the names stand between the marks of
a literal. A literal would double a mark that belongs to it; a name is written as it is. So it is
read back as the key of its field only if it has no mark in it. And like everything that is nested
it is moved to the right, by which it gets other characters if it has several lines.

An object stands somewhere in the statement, at the depth that the selections around it make up.
What is before it and behind it depends on these selections, and not on the fields of the object.

## Main definitions

* `Members.readObject`: reads the keys of an object whose values are given
* `Places`: the functions that put their argument somewhere into a text, at a depth
* `Frame`, `Node.within`: a selection around one of its fields, and a query tree around a node
* `shownNames`: the names of the fields that are written

## Main results

* `Quoted.scan_eq_some_iff`: a scan gives the one text whose doubled form stands there
* `Members.isKey_of_scan`, `Members.readObject_iff`: the names that are read back as they are
* `Node.exists_sql_within`: where an object stands in a statement
* `Node.keys_read_iff`: when the keys of an object are the names of its fields
-/

namespace Schemata

open Text (newLine moved movedChar trim trimStart trimEnd isBlank)

/-! ### Marks within a text -/

namespace Text.Quoted

variable {quote : Char} {cs text after : List Char}

/-- What is scanned is the text whose doubled form stands before the closing quote. -/
theorem scan_eq_some_iff : scan quote text = some (cs, after) ↔
    text = body quote cs ++ quote :: after ∧ after.head? ≠ some quote := by
  constructor
  · intro h
    -- The induction follows the scan, which takes a doubled quote at once.
    fun_induction scan quote text generalizing cs with
    | case1 => cases h
    | case2 =>
      obtain ⟨rfl, rfl⟩ := Prod.mk.inj (Option.some.inj h)
      simp [body]
    | case3 c hc => cases h
    | case4 rest ih =>
      obtain ⟨⟨read, rest'⟩, hread, heq⟩ := Option.map_eq_some_iff.1 h
      obtain ⟨rfl, rfl⟩ := Prod.mk.inj heq
      obtain ⟨rfl, hafter⟩ := ih hread
      exact ⟨by simp [body], hafter⟩
    | case5 d rest hd =>
      obtain ⟨rfl, rfl⟩ := Prod.mk.inj (Option.some.inj h)
      exact ⟨rfl, by simpa using hd⟩
    | case6 c d rest hc ih =>
      obtain ⟨⟨read, rest'⟩, hread, heq⟩ := Option.map_eq_some_iff.1 h
      obtain ⟨rfl, rfl⟩ := Prod.mk.inj heq
      obtain ⟨hrest, hafter⟩ := ih hread
      exact ⟨by rw [hrest, body, if_neg hc]; rfl, hafter⟩
  · rintro ⟨rfl, hafter⟩
    exact scan_body quote cs hafter

theorem length_body : (body quote cs).length = cs.length + cs.count quote := by
  induction cs with
  | nil => rfl
  | cons c rest ih =>
    by_cases hc : c = quote
    · simp only [body, hc, if_true, List.length_cons, ih, List.count_cons_self]
      omega
    · simp only [body, hc, if_false, List.length_cons, ih, List.count_cons_of_ne hc]
      omega

theorem count_body : (body quote cs).count quote = 2 * cs.count quote := by
  induction cs with
  | nil => rfl
  | cons c rest ih =>
    by_cases hc : c = quote
    · simp only [body, hc, if_true, List.count_cons_self, ih]
      omega
    · simp only [body, hc, if_false, List.count_cons_of_ne hc, ih]

theorem body_of_not_mem (h : quote ∉ cs) : body quote cs = cs := by
  induction cs with
  | nil => rfl
  | cons c rest ih =>
    have hc : c ≠ quote := fun heq => h (by simp [heq])
    rw [body, if_neg hc, ih fun hmem => h (List.mem_cons_of_mem _ hmem)]

end Text.Quoted

/-! ### Reading an object -/

/-- Texts in one are the first of them, and the others with the separator in front. -/
theorem toList_intercalate_cons (separator first : String) (others : List String) :
    (String.intercalate separator (first :: others)).toList =
      first.toList ++ others.flatMap fun text => separator.toList ++ text.toList := by
  induction others generalizing first with
  | nil => simp
  | cons second others ih =>
    rw [String.intercalate_cons_cons, String.toList_append, String.toList_append, ih]
    simp

namespace Members

/-- What is left of a text behind what it has to begin with. -/
def after? (start : String) (text : List Char) : Option (List Char) :=
  if start.toList.isPrefixOf text then some (text.drop start.toList.length) else none

/-- Reads a member in a line of its own: the key, which is a literal, and behind a comma the text
that is its value. -/
def readMember (depth : Nat) (value : String) (text : List Char) :
    Option (String × List Char) := do
  let text ← after? (newLine (depth + 1) ++ "'") text
  let (key, text) ← Text.Quoted.scan '\'' text
  let text ← after? (", " ++ value) text
  return (String.ofList key, text)

/-- Reads further members, each behind a comma. -/
def readFurther (depth : Nat) : List String → List Char → Option (List String × List Char)
  | [], text => some ([], text)
  | value :: rest, text => do
    let text ← after? "," text
    let (key, text) ← readMember depth value text
    let (keys, text) ← readFurther depth rest text
    return (key :: keys, text)

/-- Reads members, of which there may be none: then there is an empty line. -/
def readMembers (depth : Nat) : List String → List Char → Option (List String × List Char)
  | [], text => (after? (newLine depth) text).map ([], ·)
  | value :: rest, text => do
    let (key, text) ← readMember depth value text
    let (keys, text) ← readFurther depth rest text
    return (key :: keys, text)

/-- Reads an object whose members have the given values: its keys, and what is behind it. -/
def readObject (depth : Nat) (values : List String) (text : List Char) :
    Option (List String × List Char) := do
  let text ← after? "json_object(" text
  let (keys, text) ← readMembers depth values text
  let text ← after? (newLine depth ++ ")") text
  return (keys, text)

variable {depth : Nat} {name value start : String} {fields : List (String × String)}
variable {rest text after : List Char}

@[simp] theorem after?_append : after? start (start.toList ++ rest) = some rest := by
  simp [after?]

theorem after?_eq_some_iff : after? start text = some rest ↔ text = start.toList ++ rest := by
  constructor
  · intro h
    unfold after? at h
    split at h
    · rename_i hstart
      obtain ⟨tail, rfl⟩ := List.isPrefixOf_iff_prefix.1 hstart
      rw [List.drop_left] at h
      rw [Option.some.inj h]
    · cases h
  · rintro rfl
    exact after?_append

theorem after?_comma : after? "," (',' :: text) = some text := by
  simp [after?]

/-- A name stays what it is at the depth, and has no mark in it. -/
def IsKey (depth : Nat) (name : String) : Prop := '\'' ∉ name.toList ∧ moved depth name = name

/-- Moving puts no marks into a text. -/
theorem count_moved : (moved depth name).toList.count '\'' = name.toList.count '\'' := by
  rw [moved, String.toList_ofList]
  induction name.toList with
  | nil => rfl
  | cons c cs ih =>
    rw [List.flatMap_cons, List.count_append, ih, List.count_cons, movedChar]
    by_cases hc : c = '\n'
    · simp [hc, List.count_replicate]
    · simp [hc, List.count_cons, Nat.add_comm]

/-- A name with a mark in it is not read back. What is read has only half of the marks, or it goes
on behind the name, where not all characters are marks. -/
theorem not_mem_of_scan (hrest : rest.head? ≠ some '\'')
    (h : Text.Quoted.scan '\'' ((moved depth name).toList ++ '\'' :: rest) =
      some (name.toList, after)) : '\'' ∉ name.toList := by
  obtain ⟨htext, -⟩ := Text.Quoted.scan_eq_some_iff.1 h
  rw [← List.count_eq_zero]
  obtain ⟨tail, hbody, htail⟩ | ⟨tail, hmoved, -⟩ := List.append_eq_append_iff.1 htext
  · -- The doubled name goes on behind the literal, with a tail of what is there.
    have hcount := congrArg (List.count '\'') hbody
    rw [Text.Quoted.count_body, List.count_append, count_moved] at hcount
    cases tail with
    | nil =>
      rw [List.count_nil] at hcount
      omega
    | cons mark further =>
      obtain ⟨rfl, hfurther⟩ := List.cons_eq_cons.1 htail
      cases further with
      | nil => simp [hfurther] at hrest
      | cons c further =>
        -- The tail would have to make up for all the marks that are doubled.
        have hc : c ≠ '\'' := by simpa [hfurther] using hrest
        have hlength := congrArg List.length hbody
        rw [Text.Quoted.length_body, List.length_append, moved, String.toList_ofList,
          Text.length_flatMap_movedChar] at hlength
        have hfew := further.count_le_length (a := '\'')
        simp only [List.count_cons_self, List.count_cons_of_ne hc, List.length_cons] at *
        omega
  · -- The doubled name is only a part of the literal.
    have hcount := congrArg (List.count '\'') hmoved
    rw [List.count_append, Text.Quoted.count_body, count_moved] at hcount
    omega

theorem scan_of_isKey (h : IsKey depth name) (hrest : rest.head? ≠ some '\'') :
    Text.Quoted.scan '\'' ((moved depth name).toList ++ '\'' :: rest) =
      some (name.toList, rest) := by
  rw [h.2, ← Text.Quoted.body_of_not_mem h.1, Text.Quoted.scan_body '\'' name.toList hrest,
    Text.Quoted.body_of_not_mem h.1]

/-- A name that is read back, in front of a mark, is a key at its depth. -/
theorem isKey_of_scan (hrest : rest.head? ≠ some '\'')
    (h : Text.Quoted.scan '\'' ((moved depth name).toList ++ '\'' :: rest) =
      some (name.toList, after)) : IsKey depth name := by
  have hmark := not_mem_of_scan hrest h
  refine ⟨hmark, ?_⟩
  obtain ⟨htext, -⟩ := Text.Quoted.scan_eq_some_iff.1 h
  rw [Text.Quoted.body_of_not_mem hmark] at htext
  -- Neither text has a mark in it, so both end where the first mark stands.
  have hmoved : '\'' ∉ (moved depth name).toList := by
    rwa [← List.count_eq_zero, count_moved, List.count_eq_zero]
  have hfirst {cs ds : List Char} (hcs : '\'' ∉ cs) :
      (cs ++ '\'' :: ds).takeWhile (· ≠ '\'') = cs :=
    (Text.takeWhile_append_stop
      (fun c hc => by simpa using fun heq : c = '\'' => hcs (heq ▸ hc)) (by simp)).1
  have hsame := congrArg (List.takeWhile (· ≠ '\'')) htext
  rw [hfirst hmoved, hfirst hmark] at hsame
  exact String.toList_inj.1 hsame

/-! ### What is read of the members that are written -/

/-- The characters of a member at a depth. -/
def memberChars (depth : Nat) (member : String × String) : List Char :=
  (newLine (depth + 1) ++ "'").toList ++
    ((moved depth member.1).toList ++ '\'' :: (", " ++ moved depth member.2).toList)

theorem readMember_of_isKey (h : IsKey depth name) :
    readMember depth (moved depth value) (memberChars depth (name, value) ++ rest) =
      some (name, rest) := by
  simp only [readMember, memberChars, List.append_assoc, after?_append, Option.bind_eq_bind,
    Option.bind_some, List.cons_append]
  rw [scan_of_isKey h (by simp), Option.bind_some, after?_append, Option.bind_some]
  exact congrArg some (congrArg (·, rest) (String.ofList_toList))

theorem isKey_of_readMember
    (h : readMember depth (moved depth value) (memberChars depth (name, value) ++ rest) =
      some (name, after)) : IsKey depth name ∧ after = rest := by
  have hkey : IsKey depth name := by
    simp only [readMember, memberChars, List.append_assoc, after?_append, Option.bind_eq_bind,
      Option.bind_some, List.cons_append, Option.bind_eq_some_iff, Prod.exists] at h
    obtain ⟨key, text, hscan, text', -, heq⟩ := h
    obtain ⟨hname, -⟩ := Prod.mk.inj (Option.some.inj heq)
    obtain rfl : key = name.toList := by rw [← hname, String.toList_ofList]
    exact isKey_of_scan (by simp) hscan
  rw [readMember_of_isKey hkey] at h
  exact ⟨hkey, (Prod.mk.inj (Option.some.inj h)).2.symm⟩

theorem readFurther_of_isKey (h : ∀ f ∈ fields, IsKey depth f.1) :
    readFurther depth (fields.map fun f => moved depth f.2)
        (fields.flatMap (fun f => ',' :: memberChars depth f) ++ rest) =
      some (Entries.names fields, rest) := by
  induction fields with
  | nil => rfl
  | cons f fields ih =>
    obtain ⟨hfirst, hfields⟩ := List.forall_mem_cons.1 h
    simp only [List.map_cons, List.flatMap_cons, List.cons_append, List.append_assoc, readFurther,
      after?_comma, readMember_of_isKey hfirst, ih hfields, Option.bind_eq_bind, Option.bind_some]
    rfl

theorem isKey_of_readFurther
    (h : readFurther depth (fields.map fun f => moved depth f.2)
        (fields.flatMap (fun f => ',' :: memberChars depth f) ++ rest) =
      some (Entries.names fields, after)) : ∀ f ∈ fields, IsKey depth f.1 := by
  induction fields with
  | nil => simp
  | cons f fields ih =>
    simp only [List.map_cons, List.flatMap_cons, List.cons_append, List.append_assoc, readFurther,
      after?_comma, Option.bind_eq_bind, Option.bind_some, Option.bind_eq_some_iff, Prod.exists]
      at h
    obtain ⟨key, text, hmember, keys, text', hfurther, heq⟩ := h
    obtain ⟨hnames, rfl⟩ := Prod.mk.inj (Option.some.inj heq)
    obtain ⟨rfl, rfl⟩ := List.cons_eq_cons.1 hnames
    -- What is left behind the first member is what was written behind it.
    obtain ⟨hfirst, rfl⟩ := isKey_of_readMember hmember
    exact List.forall_mem_cons.2 ⟨hfirst, ih hfurther⟩

/-- The characters of members at a depth, or an empty line. -/
def membersChars (depth : Nat) : List (String × String) → List Char
  | [] => (newLine depth).toList
  | f :: rest => memberChars depth f ++ rest.flatMap fun f => ',' :: memberChars depth f

theorem readMembers_of_isKey (h : ∀ f ∈ fields, IsKey depth f.1) :
    readMembers depth (fields.map fun f => moved depth f.2) (membersChars depth fields ++ rest) =
      some (Entries.names fields, rest) := by
  cases fields with
  | nil => simp [readMembers, membersChars]
  | cons f fields =>
    obtain ⟨hfirst, hfields⟩ := List.forall_mem_cons.1 h
    simp only [List.map_cons, readMembers, membersChars, List.append_assoc,
      readMember_of_isKey hfirst, readFurther_of_isKey hfields, Option.bind_eq_bind,
      Option.bind_some]
    rfl

theorem isKey_of_readMembers
    (h : readMembers depth (fields.map fun f => moved depth f.2)
        (membersChars depth fields ++ rest) =
      some (Entries.names fields, after)) : ∀ f ∈ fields, IsKey depth f.1 := by
  cases fields with
  | nil => simp
  | cons f fields =>
    simp only [List.map_cons, readMembers, membersChars, List.append_assoc, Option.bind_eq_bind,
      Option.bind_eq_some_iff, Prod.exists] at h
    obtain ⟨key, text, hmember, keys, text', hfurther, heq⟩ := h
    obtain ⟨hnames, rfl⟩ := Prod.mk.inj (Option.some.inj heq)
    obtain ⟨rfl, rfl⟩ := List.cons_eq_cons.1 hnames
    obtain ⟨hfirst, rfl⟩ := isKey_of_readMember hmember
    exact List.forall_mem_cons.2 ⟨hfirst, isKey_of_readFurther hfurther⟩

/-- The tab of a member makes the line that it stands in one of the next depth. -/
theorem newLine_member (f : String × String) :
    (newLine depth).toList ++ ("\t'" ++ f.1 ++ "', " ++ f.2).toList.flatMap (movedChar depth) =
      memberChars depth f := by
  have hmark : moved depth "\t'" = "\t'" := Text.moved_of_isLine (by decide)
  have hcomma : moved depth "', " = "', " := Text.moved_of_isLine (by decide)
  have hmember := congrArg String.toList
    (show moved depth ("\t'" ++ f.1 ++ "', " ++ f.2) = _ by
      rw [Text.moved_append, Text.moved_append, Text.moved_append, hmark, hcomma])
  rw [moved, String.toList_ofList] at hmember
  rw [hmember]
  simp [memberChars, newLine, List.replicate_succ']

/-- An object at a depth is written member by member. -/
theorem moved_jsonObject (depth : Nat) (fields : List (String × String)) :
    (moved depth (Rows.jsonObject fields)).toList =
      "json_object(".toList ++ (membersChars depth fields ++ (newLine depth ++ ")").toList) := by
  have hopen : moved depth "json_object(\n" = "json_object(" ++ newLine depth := by
    have hbreak : "json_object(\n" = "json_object(" ++ newLine 0 := rfl
    rw [hbreak, Text.moved_append, Text.moved_newLine, Text.moved_of_isLine (by decide)]
    rfl
  have hclose : moved depth "\n)" = newLine depth ++ ")" := by
    have hbreak : "\n)" = newLine 0 ++ ")" := rfl
    rw [hbreak, Text.moved_append, Text.moved_newLine, Text.moved_of_isLine (by decide)]
    rfl
  rw [Rows.jsonObject, Text.moved_append, Text.moved_append, hopen, hclose]
  generalize newLine depth ++ ")" = closing
  simp only [String.toList_append, List.append_assoc]
  congr 1
  rw [← List.append_assoc]
  congr 1
  cases fields with
  | nil => simp [membersChars, moved]
  | cons f rest =>
    have hseparator : ",\n".toList.flatMap (movedChar depth) = ',' :: (newLine depth).toList := by
      simp [movedChar, newLine]
    rw [membersChars, moved, String.toList_ofList, List.map_cons,
      toList_intercalate_cons, List.flatMap_append, ← List.append_assoc, newLine_member,
      List.flatMap_map, List.flatMap_assoc]
    -- What stands before a further member is a comma and the line end that belongs to the member.
    simp only [List.flatMap_append, hseparator, List.cons_append, newLine_member]

/-- The keys of an object are read back exactly if the names are keys at its depth. -/
theorem readObject_iff : readObject depth (fields.map fun f => moved depth f.2)
      ((moved depth (Rows.jsonObject fields)).toList ++ rest) = some (Entries.names fields, rest) ↔
    ∀ f ∈ fields, IsKey depth f.1 := by
  rw [moved_jsonObject]
  -- The beginning of the object is there in any case.
  simp only [readObject, List.append_assoc, after?_append, Option.bind_eq_bind, Option.bind_some]
  constructor
  · intro h
    obtain ⟨⟨keys, text⟩, hmembers, hclose⟩ := Option.bind_eq_some_iff.1 h
    obtain ⟨text', -, heq⟩ := Option.bind_eq_some_iff.1 hclose
    obtain ⟨rfl, -⟩ := Prod.mk.inj (Option.some.inj heq)
    exact isKey_of_readMembers hmembers
  · intro h
    rw [readMembers_of_isKey h, Option.bind_some, after?_append]
    rfl

end Members

/-! ### Where an object stands -/

/-- A selection around one of its fields. -/
structure Frame where
  /-- Whether it makes one object or an array. -/
  cardinality : Cardinality
  /-- Its rows. -/
  rows : Rows
  /-- The fields before the one. -/
  before : List (String × Node)
  /-- The name of the field. -/
  name : String
  /-- The fields after it. -/
  after : List (String × Node)

/-- The selection with a node as the field. -/
def Frame.fill (frame : Frame) (node : Node) : Node :=
  .relation frame.cardinality frame.rows (frame.before ++ (frame.name, node) :: frame.after)

/-- A query tree around a node, by the selections from the root on. -/
def Node.within (frames : List Frame) (node : Node) : Node := frames.foldr Frame.fill node

/-- The function puts its argument somewhere into a text, moved by the depth. -/
def Places (depth : Nat) (f : String → String) : Prop :=
  ∃ before after : List Char, ∀ text,
    (f text).toList = before ++ ((moved depth text).toList ++ after)

/-- The statement with one JSON value, of the rows of a table instance. -/
def Rows.selecting (rows : Rows) (cardinality : Cardinality) (object : String) : String :=
  "SELECT " ++ (match cardinality with
    | .one => object
    | .many => "json_group_array(" ++ object ++ ")")
    ++ " FROM " ++ rows.instanceText ++ "\n" ++ rows.clauses cardinality

theorem Rows.objectQuery_eq_selecting (rows : Rows) (cardinality : Cardinality)
    (fields : List (String × String)) :
    rows.objectQuery cardinality fields = rows.selecting cardinality (jsonObject fields) := rfl

/-- What is visible is not trimmed away. -/
theorem Text.trimEnd_ne_nil {cs : List Char} {c : Char} (hc : isBlank c = false) (hmem : c ∈ cs) :
    trimEnd cs ≠ [] := by
  induction cs with
  | nil => cases hmem
  | cons d rest ih =>
    by_cases hrest : trimEnd rest = []
    · obtain rfl : c = d := (List.mem_cons.1 hmem).resolve_right fun h => ih h hrest
      simp [trimEnd, hrest, hc]
    · have hkept := trimEnd_append_of_ne_nil hrest [d]
      rw [List.singleton_append] at hkept
      simp [hkept]

namespace Places

variable {depth depth' : Nat} {f g : String → String}

/-- What is put into a text that is put somewhere is moved by both depths. -/
theorem comp (hg : Places depth' g) (hf : Places depth f) : Places (depth' + depth) (g ∘ f) := by
  obtain ⟨before, after, hf⟩ := hf
  obtain ⟨before', after', hg⟩ := hg
  refine ⟨before' ++ before.flatMap (movedChar depth'), after.flatMap (movedChar depth') ++ after',
    fun text => ?_⟩
  have hmoved : (moved depth' (f text)).toList = before.flatMap (movedChar depth') ++
      ((moved (depth' + depth) text).toList ++ after.flatMap (movedChar depth')) := by
    have hchars (d : Nat) (t : String) : (moved d t).toList = t.toList.flatMap (movedChar d) :=
      String.toList_ofList
    rw [← Text.moved_moved, hchars, hf, List.flatMap_append, List.flatMap_append, ← hchars]
  simp only [Function.comp_apply, hg, hmoved, List.append_assoc]

theorem append_left (hf : Places depth f) (first : String) :
    Places depth fun text => first ++ f text := by
  obtain ⟨before, after, hf⟩ := hf
  exact ⟨first.toList ++ before, after, fun text => by simp [hf]⟩

theorem append_right (hf : Places depth f) (last : String) :
    Places depth fun text => f text ++ last := by
  obtain ⟨before, after, hf⟩ := hf
  exact ⟨before, after ++ last.toList, fun text => by simp [hf]⟩

theorem id : Places 0 fun text => text := ⟨[], [], fun text => by simp⟩

/-- A text in a list stands between those before it and those behind it. -/
theorem intercalate (separator : String) (xs ys : List String) :
    Places 0 fun text => String.intercalate separator (xs ++ text :: ys) := by
  cases xs with
  | nil =>
    refine ⟨[], ys.flatMap fun text => separator.toList ++ text.toList, fun text => ?_⟩
    simp only [List.nil_append, toList_intercalate_cons, Text.moved_zero]
  | cons x xs =>
    refine ⟨x.toList ++ ((xs.flatMap fun text => separator.toList ++ text.toList) ++
      separator.toList), ys.flatMap fun text => separator.toList ++ text.toList, fun text => ?_⟩
    simp only [List.cons_append, toList_intercalate_cons, List.flatMap_append, List.flatMap_cons,
      Text.moved_zero, List.append_assoc]

variable (fields further : List (String × String)) (name : String)

/-- The value of a member in an object. -/
theorem jsonObject :
    Places 0 fun value => Rows.jsonObject (fields ++ (name, value) :: further) := by
  let write (f : String × String) : String := "\t'" ++ f.1 ++ "', " ++ f.2
  have hmembers := (((intercalate ",\n" (fields.map write) (further.map write)).comp
    (id.append_left ("\t'" ++ name ++ "', "))).append_left "json_object(\n").append_right "\n)"
  simpa [Rows.jsonObject, Function.comp_def, write] using hmembers

/-- The value of a column in a statement with a result column per field. -/
theorem tableQuery (rows : Rows) (cardinality : Cardinality) : Places 0 fun value =>
    rows.tableQuery cardinality (fields ++ (name, value) :: further) := by
  let write (f : String × String) : String := "\t" ++ f.2 ++ " as " ++ f.1
  have hcolumns := (((intercalate ",\n" (fields.map write) (further.map write)).comp
    ((id.append_left "\t").append_right (" as " ++ name))).append_left "SELECT\n").append_right
      ("\nFROM " ++ rows.instanceText ++ "\n" ++ rows.clauses cardinality)
  simpa [Rows.tableQuery, Function.comp_def, write, String.append_assoc] using hcolumns

/-- A statement that is put into another one, with something visible behind its argument. -/
theorem nest (start visible : Char) (first last : List Char) (hstart : isBlank start = false)
    (hvisible : isBlank visible = false) (hmem : visible ∈ last) (hline : '\n' ∈ last)
    (hf : ∀ text, (f text).toList = start :: first ++ (text.toList ++ last)) :
    Places 1 fun text => Schemata.nest (f text) := by
  refine ⟨'(' :: (start :: first).flatMap (movedChar 1),
    (trimEnd last).flatMap (movedChar 1) ++ [')'], fun text => ?_⟩
  have hlines : Text.isMultiline (f text) = true := by
    simp only [Text.isMultiline, hf, List.contains_iff_mem, List.mem_append]
    exact Or.inr (Or.inr hline)
  -- Trimming does not reach the argument from either side.
  have htrim : trim (f text).toList = start :: first ++ (text.toList ++ trimEnd last) := by
    rw [hf, trim, List.cons_append, Text.trimStart_cons hstart, ← List.cons_append,
      ← List.append_assoc, Text.trimEnd_append_of_ne_nil (Text.trimEnd_ne_nil hvisible hmem),
      List.append_assoc]
  have htext : text.toList.flatMap (movedChar 1) = (moved 1 text).toList := by
    rw [moved, String.toList_ofList]
  simp only [Schemata.nest, hlines, if_true, String.toList_append, Text.toList_trimmed_indent,
    htrim, List.flatMap_append, htext]
  simp

/-- The object of a selection that stands in another one. -/
theorem nest_selecting (rows : Rows) (cardinality : Cardinality) :
    Places 1 fun object => Schemata.nest (rows.selecting cardinality object) := by
  cases cardinality with
  | one =>
    have hselecting (object : String) : (rows.selecting .one object).toList =
        'S' :: "ELECT ".toList ++ (object.toList ++
          (" FROM " ++ rows.instanceText ++ "\n" ++ rows.clauses .one).toList) := by
      simp [Rows.selecting]
    exact nest 'S' 'F' _ _ (by decide) (by decide) (by simp) (by simp) hselecting
  | many =>
    have hselecting (object : String) : (rows.selecting .many object).toList =
        'S' :: "ELECT json_group_array(".toList ++ (object.toList ++
          (")" ++ " FROM " ++ rows.instanceText ++ "\n" ++ rows.clauses .many).toList) := by
      simp [Rows.selecting]
    exact nest 'S' ')' _ _ (by decide) (by decide) (by simp) (by simp) hselecting

end Places

/-! ### The keys in a statement -/

variable {fields : List (String × Node)} {frames : List Frame}

/-- The names of the fields that are written, in order. -/
def shownNames (fields : List (String × Node)) : List String :=
  (Entries.names fields).filter fun name => !isReserved name

theorem names_nestedFields : Entries.names (nestedFields fields) = shownNames fields := by
  induction fields with
  | nil => rfl
  | cons field rest ih =>
    obtain ⟨name, node⟩ := field
    have hnames : shownNames ((name, node) :: rest) =
        if isReserved name then shownNames rest else name :: shownNames rest := by
      cases h : isReserved name <;> simp [shownNames, Entries.names, h]
    rw [hnames, nestedFields, ← ih]
    split <;> rfl

/-- A field that is shown is written between those before it and those after it. -/
theorem nestedFields_insert {name : String} {node : Node} {further : List (String × Node)}
    (hshown : isReserved name = false) :
    nestedFields (fields ++ (name, node) :: further) =
      nestedFields fields ++ (name, node.nested) :: nestedFields further := by
  induction fields with
  | nil => simp [nestedFields, hshown]
  | cons field rest ih =>
    rw [List.cons_append, nestedFields, nestedFields, ih]
    split <;> rfl

namespace Frame

variable {frame : Frame} {node : Node}

/-- The text of a selection inside another one, from the text of its one field. -/
def text (frame : Frame) (value : String) : String :=
  nest (frame.rows.selecting frame.cardinality (Rows.jsonObject
    (nestedFields frame.before ++ (frame.name, value) :: nestedFields frame.after)))

/-- The statement of a selection at the root, from the text of its one field. -/
def statement (frame : Frame) (value : String) : String :=
  frame.rows.tableQuery frame.cardinality
    (nestedFields frame.before ++ (frame.name, value) :: nestedFields frame.after)

theorem nested_fill (hshown : isReserved frame.name = false) :
    (frame.fill node).nested = frame.text node.nested := by
  rw [fill, Node.nested, nestedFields_insert hshown, Rows.objectQuery_eq_selecting, text]

theorem sql_fill (hshown : isReserved frame.name = false) :
    (frame.fill node).sql = frame.statement node.nested := by
  rw [fill, Node.sql, Selection.statement, nestedFields_insert hshown, statement]

theorem places_text (frame : Frame) : Places 1 frame.text := by
  have hobject :=
    Places.jsonObject (nestedFields frame.before) (nestedFields frame.after) frame.name
  have htext := (Places.nest_selecting frame.rows frame.cardinality).comp hobject
  simp only [Function.comp_def, Nat.add_zero] at htext
  unfold text
  exact htext

theorem places_statement (frame : Frame) : Places 0 frame.statement :=
  Places.tableQuery _ _ frame.name frame.rows frame.cardinality

end Frame

/-- The object of a selection inside others is put into their text, moved by the number of
statements that it stands in. -/
theorem Node.exists_nested_within (hshown : ∀ frame ∈ frames, isReserved frame.name = false)
    (cardinality : Cardinality) (rows : Rows) : ∃ place, Places (frames.length + 1) place ∧
      ∀ fields, ((Node.relation cardinality rows fields).within frames).nested =
        place (Rows.jsonObject (nestedFields fields)) := by
  -- The induction goes outwards: each frame puts the text of its field into one more statement.
  induction frames with
  | nil =>
    exact ⟨_, Places.nest_selecting rows cardinality, fun fields => by
      rw [within, List.foldr_nil, nested, Rows.objectQuery_eq_selecting]⟩
  | cons frame frames ih =>
    obtain ⟨hframe, hframes⟩ := List.forall_mem_cons.1 hshown
    obtain ⟨place, hplace, hnested⟩ := ih hframes
    refine ⟨frame.text ∘ place, ?_, fun fields => ?_⟩
    · rw [List.length_cons, Nat.add_comm]
      exact frame.places_text.comp hplace
    · rw [Function.comp_apply, ← hnested]
      exact Frame.nested_fill hframe

/-- Where the object of a selection stands in the statement of a query. -/
theorem Node.exists_sql_within {frame : Frame}
    (hshown : ∀ f ∈ frame :: frames, isReserved f.name = false) (cardinality : Cardinality)
    (rows : Rows) : ∃ before after : List Char, ∀ fields,
      ((Node.relation cardinality rows fields).within (frame :: frames)).sql.toList =
        before ++ ((moved (frames.length + 1) (Rows.jsonObject (nestedFields fields))).toList ++
          after) := by
  obtain ⟨hframe, hframes⟩ := List.forall_mem_cons.1 hshown
  obtain ⟨place, hplace, hnested⟩ := exists_nested_within hframes cardinality rows
  have hstatement : Places (0 + (frames.length + 1)) (frame.statement ∘ place) :=
    frame.places_statement.comp hplace
  rw [Nat.zero_add] at hstatement
  obtain ⟨before, after, hsql⟩ := hstatement
  refine ⟨before, after, fun fields => ?_⟩
  rw [← hsql, Function.comp_apply, ← hnested]
  exact congrArg String.toList (Frame.sql_fill hframe)

/-- Inside a statement a name is a key if it has no mark and is of one line. -/
theorem Members.isKey_succ_iff {depth : Nat} {name : String} :
    IsKey (depth + 1) name ↔ '\'' ∉ name.toList ∧ '\n' ∉ name.toList := by
  rw [IsKey, Text.moved_eq_self_iff]
  exact and_congr_right fun _ => or_iff_right (Nat.succ_ne_zero depth)

/-- The object of a selection stands in the statement of the query at the depth that the selections
around it make up. Its keys are read as the names of its shown fields, in order and each with the
text of its value behind it, exactly if no such name has a mark or a line end in it. -/
theorem Node.keys_read_iff (frame : Frame) (frames : List Frame)
    (hshown : ∀ f ∈ frame :: frames, isReserved f.name = false) (cardinality : Cardinality)
    (rows : Rows) : ∃ before after : List Char, ∀ fields,
      let depth := frames.length + 1
      let object := (moved depth (Rows.jsonObject (nestedFields fields))).toList
      ((Node.relation cardinality rows fields).within (frame :: frames)).sql.toList =
          before ++ (object ++ after) ∧
        (Members.readObject depth ((nestedFields fields).map fun f => moved depth f.2)
            (object ++ after) = some (shownNames fields, after) ↔
          ∀ name ∈ shownNames fields, '\'' ∉ name.toList ∧ '\n' ∉ name.toList) := by
  obtain ⟨before, after, hsql⟩ := exists_sql_within hshown cardinality rows
  refine ⟨before, after, fun fields => ⟨hsql fields, ?_⟩⟩
  have hkeys : (∀ name ∈ shownNames fields, '\'' ∉ name.toList ∧ '\n' ∉ name.toList) ↔
      ∀ f ∈ nestedFields fields, Members.IsKey (frames.length + 1) f.1 := by
    simp only [Members.isKey_succ_iff, ← names_nestedFields, Entries.names, List.forall_mem_map]
  rw [hkeys, ← names_nestedFields]
  exact Members.readObject_iff

/-- A comment for each of the posts of the users: the reserved field is not among the keys. -/
theorem keys_read_comments :
    let posts : Frame := ⟨.many, { instanceAlias := "X2", table := "Post" }, [], "newest", []⟩
    let users : Frame := ⟨.many, { instanceAlias := "X1", table := "User" }, [], "posts", []⟩
    let comments : List (String × Node) :=
      [("id", .leaf ⟨"X3", "id"⟩), ("__order", .expr ⟨[.sql "1"]⟩), ("n", .expr ⟨[.sql "2"]⟩)]
    (∀ f ∈ [users, posts], isReserved f.name = false) ∧ ∃ before after : List Char,
      ((Node.relation .one { instanceAlias := "X3", table := "Comment" } comments).within
          [users, posts]).sql.toList =
        before ++ ((moved 2 (Rows.jsonObject (nestedFields comments))).toList ++ after) ∧
      Members.readObject 2 ["X3.id", "2"]
          ((moved 2 (Rows.jsonObject (nestedFields comments))).toList ++ after) =
        some (["id", "n"], after) := by
  intro posts users comments
  have hshown : ∀ f ∈ [users, posts], isReserved f.name = false := by decide +kernel
  refine ⟨hshown, ?_⟩
  obtain ⟨before, after, hfields⟩ := Node.keys_read_iff users [posts] hshown .one
    { instanceAlias := "X3", table := "Comment" }
  obtain ⟨hsql, hread⟩ := hfields comments
  exact ⟨before, after, hsql, hread.2 (by decide +kernel)⟩

/-- A name with a mark in it ends its literal too early: what is read is `it`, and there is no value
behind it. -/
theorem not_keys_read_its :
    let posts : Node := .relation .many { instanceAlias := "X2", table := "Post" }
      [("it's", .leaf ⟨"X2", "id"⟩)]
    let users : Frame := ⟨.many, { instanceAlias := "X1", table := "User" }, [], "posts", []⟩
    (posts.within [users]).sql = "SELECT\n\t(SELECT json_group_array(" ++
        "json_object(\n\t\t'it's', X2.id\n\t)) FROM Post X2) as posts\nFROM User X1\n" ∧
      Members.readObject 1 ["X2.id"]
          "json_object(\n\t\t'it's', X2.id\n\t)) FROM Post X2) as posts\nFROM User X1\n".toList =
        none ∧
      Members.readObject 1 ["X2.id"]
          "json_object(\n\t\t'it''s', X2.id\n\t)) FROM Post X2) as posts\nFROM User X1\n".toList =
        some (["it's"], ") FROM Post X2) as posts\nFROM User X1\n".toList) := by
  decide +kernel

end Schemata
