import Mathlib.Data.List.Forall2
import Schemata.Proofs.Sql.Options

/-!
# Identity columns are read back

An identity column may tell in parentheses how its sequence counts: by clauses in one order, each of
which may be missing. A clause is told by its first words, so those that are there are taken one by
one, and each of the others is passed over.

## Main definitions

* `sequenceStarts`: the beginnings of the clauses, in their order
* `IsSequence`: the written forms of clauses in this order
* `ReadsClause`: a reader takes the clause that begins in one of some ways, if it is there

## Main results

* `sequenceOptions_eq`: a sequence is read clause by clause
* `IsSequence.exists_tokens`: the clauses are taken one by one
* `ColumnOption.exists_readFrom_identity`: identity columns with a sequence of their own
-/

namespace Schemata.Sql

open Reader

variable {dialect : Dialect} {rest : List Token}

/-! ### Words that are told apart -/

/-- Whether the words are not taken for the others, whatever follows them. -/
def areApart (others words : List String) : Bool :=
  (others.zip words).any fun pair => !(Token.word pair.2 none).isKeyword pair.1

theorem announce_of_areApart {others words : List String} (h : areApart others words)
    (rest : List Token) : announce others (words.map (Token.word · none) ++ rest) = false := by
  induction others generalizing words with
  | nil => simp [areApart] at h
  | cons other others ih =>
    cases words with
    | nil => simp [areApart] at h
    | cons word words =>
      simp only [areApart, List.zip_cons_cons, List.any_cons, Bool.or_eq_true,
        Bool.not_eq_true'] at h
      rcases h with hword | hwords
      · simp [hword]
      · simp [ih hwords]

/-! ### Clauses -/

/-- How a clause may begin, and whether a number follows. -/
abbrev ClauseStarts := List (List String × Bool)

/-- How the clauses of a sequence may begin, in their order. -/
def sequenceStarts : List ClauseStarts :=
  [[(["INCREMENT", "BY"], true), (["INCREMENT"], true)],
    [(["MINVALUE"], true), (["NO", "MINVALUE"], false)],
    [(["MAXVALUE"], true), (["NO", "MAXVALUE"], false)],
    [(["START", "WITH"], true), (["START"], true)],
    [(["CACHE"], true)],
    [(["NO", "CYCLE"], false), (["CYCLE"], false)]]

/-- The written form of a clause that begins in one of the ways. -/
inductive IsClause (starts : ClauseStarts) : String → Prop
  /-- The words are all of it. -/
  | words {words : List String} (h : (words, false) ∈ starts) :
      IsClause starts (String.intercalate " " words)
  /-- A number follows. -/
  | number {words : List String} {number : String} (h : (words, true) ∈ starts)
      (hnumber : IsSignedNumeral number) :
      IsClause starts (String.intercalate " " words ++ " " ++ number)

/-- The written forms of clauses of different kinds, in the order of the kinds. -/
inductive IsSequence : List ClauseStarts → List String → Prop
  /-- No kind is left. -/
  | nil : IsSequence [] []
  /-- The clause is missing. -/
  | missing {starts : ClauseStarts} {kinds : List ClauseStarts} {texts : List String}
      (h : IsSequence kinds texts) : IsSequence (starts :: kinds) texts
  /-- The clause comes first. -/
  | cons {starts : ClauseStarts} {kinds : List ClauseStarts} {text : String} {texts : List String}
      (htext : IsClause starts text) (h : IsSequence kinds texts) :
      IsSequence (starts :: kinds) (text :: texts)

/-- The reader takes a clause that begins in one of the ways, and nothing where none does. -/
structure ReadsClause (reader : Reader (List String)) (starts : ClauseStarts) : Prop where
  /-- There is no clause. -/
  missing : ∀ rest, (∀ start ∈ starts, announce start.1 rest = false) → reader rest = .ok ([], rest)
  /-- There is a clause of words. -/
  words : ∀ words, (words, false) ∈ starts → ∀ rest,
    reader (words.map (Token.word · none) ++ rest) = .ok ([String.intercalate " " words], rest)
  /-- There is a clause with a number. -/
  number : ∀ words, (words, true) ∈ starts → ∀ number tokens rest,
    signedNumber tokens = .ok (number, rest) →
      (∀ token ∈ tokens.head?, ∀ word, token.isKeyword word = false) →
        reader (words.map (Token.word · none) ++ tokens) =
          .ok ([String.intercalate " " words ++ " " ++ number], rest)

/-- Readers one after the other, all that they give in one list. -/
def readAll : List (Reader (List String)) → Reader (List String)
  | [] => return []
  | reader :: readers => do
    let texts ← reader
    return texts ++ (← readAll readers)

/-! ### The clauses of a sequence -/

theorem readsClause_number {keyword between : String}
    (hkeyword : (Token.word keyword none).isKeyword keyword)
    (hbetween : (Token.word between none).isKeyword between) :
    ReadsClause (Grammar.sequenceNumber keyword between)
      [([keyword, between], true), ([keyword], true)] where
  missing rest h := by
    have hnone := h _ (List.mem_cons_of_mem _ (List.mem_singleton_self _))
    simp [Grammar.sequenceNumber, hnone]
  words words h := by simp at h
  number words h number tokens rest hnumber hfirst := by
    have hnext : announce [between] tokens = false := by
      cases tokens with
      | nil => simp
      | cons token tokens => simp [hfirst token rfl]
    simp only [List.mem_cons, List.not_mem_nil, or_false, Prod.mk.injEq, and_true] at h
    rcases h with rfl | rfl
    · simp [Grammar.sequenceNumber, hkeyword, hbetween, hnumber, String.intercalate_cons_cons]
    · simp [Grammar.sequenceNumber, hkeyword, hnext, hnumber]

theorem readsClause_bound {keyword : String} (hkeyword : (Token.word keyword none).isKeyword keyword)
    (hno : (Token.word "NO" none).isKeyword keyword = false) :
    ReadsClause (Grammar.sequenceBound keyword) [([keyword], true), (["NO", keyword], false)] where
  missing rest h := by
    simp only [List.forall_mem_cons] at h
    simp [Grammar.sequenceBound, h]
  words words h rest := by
    simp only [List.mem_cons, List.not_mem_nil, or_false, Prod.mk.injEq] at h
    obtain rfl : words = ["NO", keyword] := by simpa using h
    simp +decide [Grammar.sequenceBound, hkeyword, hno, String.intercalate_cons_cons]
  number words h number tokens rest hnumber _ := by
    obtain rfl : words = [keyword] := by simpa using h
    simp [Grammar.sequenceBound, hkeyword, hnumber]

theorem readsClause_cache : ReadsClause Grammar.sequenceCache [(["CACHE"], true)] where
  missing rest h := by simp [Grammar.sequenceCache, h _ (List.mem_singleton_self _)]
  words words h := by simp at h
  number words h number tokens rest hnumber _ := by
    obtain rfl : words = ["CACHE"] := by simpa using h
    simp +decide [Grammar.sequenceCache, hnumber]

theorem readsClause_cycle :
    ReadsClause Grammar.sequenceCycle [(["NO", "CYCLE"], false), (["CYCLE"], false)] where
  missing rest h := by
    simp only [List.forall_mem_cons] at h
    simp [Grammar.sequenceCycle, h]
  words words h rest := by
    simp only [List.mem_cons, List.not_mem_nil, or_false, Prod.mk.injEq, and_true] at h
    rcases h with rfl | rfl <;> simp +decide [Grammar.sequenceCycle]
  number words h := by simp at h

/-- The readers of the clauses of a sequence, in their order. -/
def sequenceReaders : List (Reader (List String)) :=
  [Grammar.sequenceNumber "INCREMENT" "BY", Grammar.sequenceBound "MINVALUE",
    Grammar.sequenceBound "MAXVALUE", Grammar.sequenceNumber "START" "WITH", Grammar.sequenceCache,
    Grammar.sequenceCycle]

theorem readsClause_sequence : List.Forall₂ ReadsClause sequenceReaders sequenceStarts :=
  .cons (readsClause_number (by decide) (by decide)) <|
  .cons (readsClause_bound (by decide) (by decide)) <|
  .cons (readsClause_bound (by decide) (by decide)) <|
  .cons (readsClause_number (by decide) (by decide)) <|
  .cons readsClause_cache <| .cons readsClause_cycle .nil

/-- A sequence is read clause by clause. -/
theorem sequenceOptions_eq : Grammar.sequenceOptions = readAll sequenceReaders := by
  simp [Grammar.sequenceOptions, readAll, sequenceReaders]

/-! ### Sequences are taken clause by clause -/

section Sequences

variable {starts : ClauseStarts} {kinds : List ClauseStarts} {text : String} {texts : List String}

/-- A clause is taken with its first words. -/
theorem IsClause.exists_tokens (h : IsClause starts text)
    (hwords : ∀ start ∈ starts, start.1 ≠ [] ∧ ∀ word ∈ start.1, isAsciiWord word) :
    ∃ start ∈ starts, ∃ tokens, Spells dialect text (start.1.map (Token.word · none) ++ tokens) ∧
      ∀ reader, ReadsClause reader starts → ∀ rest,
        reader (start.1.map (Token.word · none) ++ (tokens ++ rest)) = .ok ([text], rest) := by
  have hspells : ∀ start ∈ starts, Spells dialect (String.intercalate " " start.1)
      (start.1.map (Token.word · none)) := fun start hstart =>
    spells_words fun word hword => isWord_of_isAsciiWord ((hwords start hstart).2 word hword)
  cases h with
  | words h =>
    refine ⟨_, h, [], ?_, fun reader hreader rest => hreader.words _ h rest⟩
    simpa using hspells _ h
  | number h hnumber =>
    obtain ⟨tokens, hne, hfirst, htext, hread⟩ := @IsSignedNumeral.exists_tokens dialect _ hnumber
    refine ⟨_, h, tokens, ?_, fun reader hreader rest => ?_⟩
    · simpa using (hspells _ h).separated separates_blank htext hne
    · apply hreader.number _ h _ _ _ (hread rest)
      rwa [List.head?_append_of_ne_nil _ hne]

/-- Clauses are taken one by one, and those that are missing are passed over. -/
theorem IsSequence.exists_tokens (h : IsSequence kinds texts)
    (hwords : ∀ starts ∈ kinds, ∀ start ∈ starts,
      start.1 ≠ [] ∧ ∀ word ∈ start.1, isAsciiWord word)
    (hapart : kinds.Pairwise fun first second =>
      ∀ start ∈ first, ∀ other ∈ second, areApart start.1 other.1) :
    ∃ tokens, Spells dialect (trailing texts) tokens ∧
      (∀ others, others ≠ [] → (∀ starts ∈ kinds, ∀ start ∈ starts, areApart others start.1) →
        ∀ rest, announce others (tokens ++ .symbol ")" :: rest) = false) ∧
      ∀ readers, List.Forall₂ ReadsClause readers kinds → ∀ rest,
        readAll readers (tokens ++ .symbol ")" :: rest) = .ok (texts, .symbol ")" :: rest) := by
  -- A clause that is missing is told from whatever clause comes next, so the induction carries along
  -- that words which are apart from all the clauses do not begin the rest.
  induction h with
  | nil =>
    refine ⟨[], spells_empty, fun others hne _ rest => ?_, fun readers hreaders rest => ?_⟩
    · obtain ⟨other, others, rfl⟩ := List.exists_cons_of_ne_nil hne
      simp
    · cases hreaders
      rfl
  | @missing starts kinds texts h ih =>
    obtain ⟨hfirst, hlater⟩ := List.pairwise_cons.1 hapart
    obtain ⟨tokens, hspells, hnext, hread⟩ :=
      ih (fun starts hstarts => hwords starts (List.mem_cons_of_mem _ hstarts)) hlater
    refine ⟨tokens, hspells, fun others hne hothers => ?_, fun readers hreaders rest => ?_⟩
    · exact hnext others hne fun starts hstarts => hothers starts (List.mem_cons_of_mem _ hstarts)
    · cases hreaders with
      | cons hreader hreaders =>
        have hmissing := hreader.missing _ fun start hstart =>
          hnext start.1 (hwords _ List.mem_cons_self start hstart).1
            (fun kind hkind => hfirst kind hkind start hstart) rest
        simp [readAll, hmissing, hread _ hreaders]
  | @cons starts kinds text texts htext h ih =>
    obtain ⟨tokens, hspells, -, hread⟩ :=
      ih (fun starts hstarts => hwords starts (List.mem_cons_of_mem _ hstarts))
        (List.pairwise_cons.1 hapart).2
    have hstarts := hwords starts List.mem_cons_self
    obtain ⟨start, hstart, others, hclause, hreadsClause⟩ := htext.exists_tokens hstarts
    refine ⟨start.1.map (Token.word · none) ++ (others ++ tokens), ?_, fun later _ hlater rest => ?_,
      fun readers hreaders rest => ?_⟩
    · have hfirst := spells_empty.separated separates_blank hclause (by simp [hstarts start hstart])
      rw [trailing_cons]
      simpa using hfirst.append hspells (delimited_trailing texts)
    · rw [List.append_assoc]
      exact announce_of_areApart (hlater starts List.mem_cons_self start hstart) _
    · cases hreaders with
      | cons hreader hreaders =>
        have hfirst := hreadsClause _ hreader (tokens ++ .symbol ")" :: rest)
        simp [readAll, hfirst, hread _ hreaders]

end Sequences

/-! ### Identity columns -/

/-- A text in parentheses, with a blank before the end. -/
theorem Spells.parenthesized_blank {text : String} {tokens : List Token}
    (h : Spells dialect text tokens) :
    Spells dialect ("(" ++ text ++ " )") (.symbol "(" :: (tokens ++ [.symbol ")"])) := by
  refine ⟨fun after ts hafter hlexes => ?_,
    .of_getLast? (c := ')') (by simp [List.getLast?_cons]) (by decide), .opened _⟩
  have hclose : Lexes dialect (' ' :: ')' :: after) (.symbol ")" :: ts) :=
    .blank (by decide) (.mark (by decide) hlexes)
  have hall : Lexes dialect ('(' :: _) (.symbol "(" :: _) :=
    .mark (by decide) (h.lexes _ _ (.of_mem (show ' ' ∈ delimiters by decide) _) hclose)
  simpa using hall

/-- The words of identity columns. -/
def identityWords : List (List String) :=
  [["GENERATED", "ALWAYS", "AS", "IDENTITY"], ["GENERATED", "BY", "DEFAULT", "AS", "IDENTITY"]]

theorem ColumnOption.exists_readFrom_identity {words texts : List String} (h : words ∈ identityWords)
    (htexts : IsSequence sequenceStarts texts) (hne : texts ≠ []) :
    ∃ tokens, (ColumnOption.words (String.intercalate " " words ++
      Grammar.writtenSequence texts)).ReadFrom dialect tokens := by
  obtain ⟨tokens, hspells, -, hread⟩ := @IsSequence.exists_tokens dialect _ _ htexts
    (by decide +kernel) (by decide +kernel)
  have hall : ∀ words ∈ identityWords, ∀ word ∈ words, isAsciiWord word := by decide +kernel
  have hwords : Spells dialect (String.intercalate " " words) (words.map (Token.word · none)) :=
    spells_words fun word hword => isWord_of_isAsciiWord (hall words h word hword)
  have htext : String.intercalate " " words ++ Grammar.writtenSequence texts =
      String.intercalate " " words ++ " " ++ ("(" ++ trailing texts ++ " )") := by
    simp [Grammar.writtenSequence, trailing, hne, ← String.toList_inj]
  have hoption : Spells dialect (ColumnOption.words (String.intercalate " " words ++
      Grammar.writtenSequence texts)).render
        (words.map (Token.word · none) ++ .symbol "(" :: (tokens ++ [.symbol ")"])) := by
    rw [ColumnOption.render, htext]
    simpa using hwords.separated separates_blank hspells.parenthesized_blank (by simp)
  have hsequence : ∀ rest, Grammar.sequenceOptions (tokens ++ .symbol ")" :: rest) =
      .ok (texts, .symbol ")" :: rest) := by
    rw [sequenceOptions_eq]
    exact hread _ readsClause_sequence
  simp only [identityWords, List.mem_cons, List.not_mem_nil, or_false] at h
  rcases h with rfl | rfl
  all_goals
    refine ⟨_, readFrom_of_word hoption (by decide) (by decide) (by decide) fun size rest _ _ _ => ?_⟩
    simp +decide [Grammar.columnOption, Grammar.dialectOption, Grammar.generation, nextIsSymbol,
      parenthesized, hsequence]

end Schemata.Sql
