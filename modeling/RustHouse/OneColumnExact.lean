import RustHouse.OneColumnParserSound

/-!
# The one-column parser is exact

A statement parser accepts exactly the sentences of its grammar within the limits and
returns the tree of each. Every tree of well-formed names and numbers has a sentence,
and no sentence has two trees.
-/

namespace RustHouse.OneColumn

open Decimal (Numeral)
open Scanning TextPositions Words
open Batch (eqIgnoreAsciiCase)

/-! ## Printing -/

def Inhabited (l : Language Lexeme) : Prop := ∃ ls, ls ∈ l

section
variable {l m : Language Lexeme} {maxIdentifierBytes : Nat}

theorem inhabited_mul : Inhabited (l * m) ↔ Inhabited l ∧ Inhabited m := by
  constructor
  · intro hgiven
    obtain ⟨ls, hls⟩ := hgiven
    obtain ⟨a, ha, b, hb, _⟩ := (Language.mem_mul).1 hls
    exact ⟨⟨a, ha⟩, b, hb⟩
  · intro hgiven
    obtain ⟨⟨a, ha⟩, b, hb⟩ := hgiven
    exact ⟨a ++ b, Language.mem_mul.2 ⟨a, ha, b, hb, rfl⟩⟩

theorem inhabited_add : Inhabited (l + m) ↔ Inhabited l ∨ Inhabited m := by
  simp only [Inhabited, Language.mem_add, exists_or]

theorem inhabited_one : Inhabited (1 : Language Lexeme) := ⟨[], rfl⟩

theorem inhabited_opt : Inhabited (opt l) := inhabited_add.2 (.inl inhabited_one)

theorem inhabited_mark (s : Symbol) : Inhabited (mark s) := ⟨_, rfl⟩

def isWordText : List Char → Bool
  | [] => false
  | c :: cs => isWordStart c && cs.all isWordChar

theorem inhabited_keyword {expected : String} (h : isWordText expected.toList = true) : Inhabited (keyword expected) := by
  cases htext : expected.toList with
  | nil =>
    rw [htext] at h
    cases h
  | cons c cs =>
    rw [htext, isWordText, Bool.and_eq_true, List.all_eq_true] at h
    have hw : (⟨c, cs, h.1, h.2⟩ : Word).text = expected := by
      rw [Word.text, Word.chars, ← htext, String.ofList_toList]
    exact ⟨_, _, by rw [hw]; exact beq_self_eq_true _, rfl⟩

theorem inhabited_identifier {name : String} :
    Inhabited (identifier maxIdentifierBytes name) ↔ IsIdentifier maxIdentifierBytes name := by
  constructor
  · intro hgiven
    obtain ⟨_, w, hw, hbound, _⟩ := hgiven
    exact ⟨⟨w, hw⟩, hbound⟩
  · intro hgiven
    obtain ⟨⟨w, hw⟩, hbound⟩ := hgiven
    exact ⟨_, w, hw, hbound, rfl⟩

/-- The digits of a number. -/
def numeralOf (n : Nat) : Numeral where
  sign := none
  digits := Nat.toDigits 10 n
  digits_ne_nil := Nat.toDigits_ne_nil
  isDigit := fun _ hc => Nat.isDigit_of_mem_toDigits (by decide) (by decide) hc

theorem value_numeralOf (n : Nat) : (numeralOf n).value = n := by
  rw [Numeral.value, if_neg fun hsign => by cases hsign]
  exact congrArg Int.ofNat (Nat.ofDigitChars_toDigits (by decide) (by decide))

theorem inhabited_int64 (v : Int64) : Inhabited (int64 v) := by
  by_cases h : 0 ≤ v.toInt
  · exact ⟨_, numeralOf v.toInt.toNat, by rw [value_numeralOf, Int.toNat_of_nonneg h], rfl⟩
  · refine ⟨_, { numeralOf (-v.toInt).toNat with sign := some .minus }, ?_, rfl⟩
    have hvalue := value_numeralOf (-v.toInt).toNat
    rw [Numeral.value, if_neg fun hsign => by cases hsign] at hvalue
    rw [Numeral.value, if_pos rfl, hvalue]
    omega

theorem inhabited_unsignedInteger {n : Nat} : Inhabited (unsignedInteger n) ↔ n ≤ Checked.usizeMax := by
  constructor
  · intro hgiven
    obtain ⟨_, _, _, _, hmax, _⟩ := hgiven
    exact hmax
  · intro hmax
    exact ⟨_, numeralOf n, rfl, value_numeralOf n, hmax, rfl⟩

theorem inhabited_comparisonOperator (operator : ComparisonOperator) : Inhabited (comparisonOperator operator) := by
  cases operator with
  | ne => exact inhabited_add.2 (.inl (inhabited_mark _))
  | _ => exact inhabited_mark _

theorem inhabited_ifNotExists (b : Bool) : Inhabited (ifNotExistsSyntax b) := by
  cases b with
  | false => exact inhabited_one
  | true =>
    rw [ifNotExistsSyntax, inhabited_mul, inhabited_mul]
    exact ⟨⟨inhabited_keyword (by decide), inhabited_keyword (by decide)⟩, inhabited_keyword (by decide)⟩

theorem inhabited_columnType (b : Bool) : Inhabited (columnTypeSyntax b) := by
  cases b with
  | false =>
    rw [columnTypeSyntax, inhabited_mul, inhabited_mul]
    exact ⟨⟨inhabited_keyword (by decide), inhabited_keyword (by decide)⟩, inhabited_keyword (by decide)⟩
  | true =>
    rw [columnTypeSyntax, inhabited_add, inhabited_mul]
    exact .inl ⟨inhabited_keyword (by decide), inhabited_opt⟩

theorem inhabited_value (v : Option Int64) : Inhabited (valueSyntax v) := by
  cases v with
  | none => exact inhabited_keyword (by decide)
  | some v => exact inhabited_int64 v

theorem inhabited_comparison {p : ComparisonPredicate} :
    Inhabited (comparisonSyntax maxIdentifierBytes p) ↔ IsIdentifier maxIdentifierBytes p.columnName := by
  rw [comparisonSyntax, inhabited_mul, inhabited_mul, inhabited_identifier, and_assoc]
  exact and_iff_left ⟨inhabited_comparisonOperator _, inhabited_int64 _⟩

theorem inhabited_predicate {p : SelectPredicate} :
    Inhabited (predicateSyntax maxIdentifierBytes p) ↔ IsIdentifier maxIdentifierBytes p.columnName := by
  cases p with
  | comparison p => exact inhabited_comparison
  | nullness p =>
    rw [predicateSyntax, nullnessSyntax, inhabited_mul, inhabited_mul, inhabited_mul, inhabited_identifier, and_assoc, and_assoc]
    refine and_iff_left ⟨inhabited_keyword (by decide), ?_, inhabited_keyword (by decide)⟩
    cases p.predicate with
    | isNull => exact inhabited_one
    | isNotNull => exact inhabited_keyword (by decide)

theorem inhabited_where {α : Type} {G : α → Language Lexeme} {p : Option α} :
    Inhabited (whereSyntax G p) ↔ ∀ a ∈ p, Inhabited (G a) := by
  cases p with
  | none => exact iff_of_true inhabited_one nofun
  | some a =>
    rw [whereSyntax, inhabited_mul]
    simp [@inhabited_keyword "WHERE" (by decide)]

theorem inhabited_orderBy {o : Option OrderByClause} :
    Inhabited (orderBySyntax maxIdentifierBytes o) ↔ ∀ a ∈ o, IsIdentifier maxIdentifierBytes a.columnName := by
  cases o with
  | none => exact iff_of_true inhabited_one nofun
  | some o =>
    have hdirection : Inhabited (directionSyntax o.direction) := by
      cases o.direction <;> exact inhabited_keyword (by decide)
    have hnullOrder : Inhabited (nullOrderSyntax o.nullOrder) := by
      cases o.nullOrder <;> exact inhabited_keyword (by decide)
    simp (disch := decide) only [orderBySyntax, inhabited_mul, inhabited_keyword, inhabited_identifier, hdirection,
      hnullOrder, true_and, and_true]
    simp

theorem inhabited_limit {n : Option Nat} : Inhabited (limitSyntax n) ↔ ∀ limit ∈ n, limit ≤ Checked.usizeMax := by
  cases n with
  | none => exact iff_of_true inhabited_one nofun
  | some n =>
    rw [limitSyntax, inhabited_mul, inhabited_unsignedInteger]
    simp [@inhabited_keyword "LIMIT" (by decide)]

theorem inhabited_from {name : String} :
    Inhabited (fromSyntax maxIdentifierBytes name) ↔ IsIdentifier maxIdentifierBytes name := by
  rw [fromSyntax, inhabited_mul, inhabited_identifier]
  exact and_iff_right (inhabited_keyword (by decide))

theorem inhabited_parenthesized : Inhabited (parenthesized l) ↔ Inhabited l := by
  rw [parenthesized, inhabited_mul, inhabited_mul]
  simp [inhabited_mark]

theorem inhabited_countArgument {a : ScalarCountArgument} :
    Inhabited (countArgumentSyntax maxIdentifierBytes a) ↔ ∀ name ∈ a.columnName, IsIdentifier maxIdentifierBytes name := by
  cases a with
  | star => exact iff_of_true (inhabited_mark _) nofun
  | column c =>
    rw [countArgumentSyntax, inhabited_identifier]
    simp [ScalarCountArgument.columnName]

end

section
variable {maxIdentifierBytes : Nat}

theorem createTable_printable (s : CreateTableStatement) :
    Inhabited (createTableSyntax maxIdentifierBytes s) ↔ s.WellFormed maxIdentifierBytes := by
  simp (disch := decide) only [createTableSyntax, CreateTableStatement.WellFormed, Named, inhabited_mul, inhabited_keyword,
    inhabited_identifier, inhabited_mark, inhabited_opt, inhabited_ifNotExists, inhabited_columnType, true_and, and_true,
    List.forall_mem_cons]
  simp

theorem insert_printable (s : InsertStatement) :
    Inhabited (insertSyntax maxIdentifierBytes s) ↔ s.WellFormed maxIdentifierBytes := by
  simp (disch := decide) only [insertSyntax, InsertStatement.WellFormed, Named, inhabited_mul, inhabited_keyword,
    inhabited_identifier, inhabited_parenthesized, inhabited_value, true_and, and_true, List.forall_mem_cons]
  simp

theorem join_printable {kind : String} (h : isWordText kind.toList = true) (s : JoinStatement) :
    Inhabited (joinSyntax maxIdentifierBytes kind s) ↔ s.WellFormed maxIdentifierBytes := by
  simp (disch := decide) only [joinSyntax, JoinStatement.WellFormed, Named, inhabited_mul, inhabited_keyword,
    inhabited_keyword h, inhabited_identifier, inhabited_from, inhabited_mark, optionalSemicolon, inhabited_opt, true_and,
    and_true, List.forall_mem_cons, and_assoc]
  simp

theorem scalarCount_printable (s : ScalarCountStatement) :
    Inhabited (scalarCountSyntax maxIdentifierBytes s) ↔ s.WellFormed maxIdentifierBytes := by
  simp (disch := decide) only [scalarCountSyntax, ScalarCountStatement.WellFormed, Named, inhabited_mul, inhabited_keyword,
    inhabited_parenthesized, inhabited_countArgument, inhabited_from, inhabited_where, inhabited_comparison,
    optionalSemicolon, inhabited_opt, true_and, and_true, List.forall_mem_append]
  simp

theorem scalarSum_printable (s : ScalarSumStatement) :
    Inhabited (scalarSumSyntax maxIdentifierBytes s) ↔ s.WellFormed maxIdentifierBytes := by
  simp (disch := decide) only [scalarSumSyntax, ScalarSumStatement.WellFormed, Named, inhabited_mul, inhabited_keyword,
    inhabited_parenthesized, inhabited_identifier, inhabited_from, inhabited_where, inhabited_comparison,
    optionalSemicolon, inhabited_opt, true_and, and_true, List.forall_mem_append, List.forall_mem_cons]
  simp

theorem scalarMin_printable (s : ScalarMinStatement) :
    Inhabited (scalarMinSyntax maxIdentifierBytes s) ↔ s.WellFormed maxIdentifierBytes := by
  simp (disch := decide) only [scalarMinSyntax, ScalarMinStatement.WellFormed, Named, inhabited_mul, inhabited_keyword,
    inhabited_parenthesized, inhabited_identifier, inhabited_from, optionalSemicolon, inhabited_opt, true_and, and_true,
    List.forall_mem_cons]
  simp

theorem selectDistinct_printable (s : SelectDistinctStatement) :
    Inhabited (selectDistinctSyntax maxIdentifierBytes s) ↔ s.WellFormed maxIdentifierBytes := by
  simp (disch := decide) only [selectDistinctSyntax, SelectDistinctStatement.WellFormed, Named, inhabited_mul,
    inhabited_keyword, inhabited_identifier, inhabited_from, optionalSemicolon, inhabited_opt, true_and, and_true,
    List.forall_mem_cons]
  simp

theorem select_printable (s : SelectStatement) :
    Inhabited (selectSyntax maxIdentifierBytes s) ↔ s.WellFormed maxIdentifierBytes := by
  have hcondition : Inhabited (selectSyntax maxIdentifierBytes s) ↔ (s.orderBy.isSome → s.limit.isSome) ∧
      Inhabited (keyword "SELECT" * identifier maxIdentifierBytes s.columnName *
        fromSyntax maxIdentifierBytes s.tableName * whereSyntax (predicateSyntax maxIdentifierBytes) s.predicate *
          orderBySyntax maxIdentifierBytes s.orderBy * limitSyntax s.limit * optionalSemicolon) := exists_and_left
  rw [hcondition]
  simp (disch := decide) only [SelectStatement.WellFormed, Named, inhabited_mul, inhabited_keyword, inhabited_identifier,
    inhabited_from, inhabited_where, inhabited_predicate, inhabited_orderBy, inhabited_limit, optionalSemicolon,
    inhabited_opt, true_and, and_true, List.forall_mem_append, List.forall_mem_cons]
  simp
  exact and_left_comm

end

/-! ## Texts -/

def spaced (ls : List Lexeme) : List Char := ls.flatMap fun l => ' ' :: l.chars

theorem written_spaced (edge : Edge) (ls : List Lexeme) : Written edge ls (spaced ls) := by
  induction ls generalizing edge with
  | nil => exact nofun
  | cons l ls ih =>
    refine ⟨[' '], spaced ls, rfl, ?_, fun _ => List.cons_ne_nil _ _, ih l.edge⟩
    intro c hc
    rw [List.mem_singleton.1 hc]
    rfl

theorem exists_sentence {l : Language Lexeme} : (∃ input, Sentence l input) ↔ Inhabited l := by
  constructor
  · intro hgiven
    obtain ⟨_, ls, hls, _⟩ := hgiven
    exact ⟨ls, hls⟩
  · intro hgiven
    obtain ⟨ls, hls⟩ := hgiven
    refine ⟨.ofList (spaced ls), ls, hls, ?_⟩
    rw [String.toList_ofList]
    exact written_spaced .free ls

/-! ## Exactness -/

structure Exact {τ : Type} (parse : String → ParseLimits → Exec ParseError τ) (syntaxOf : Nat → τ → Language Lexeme)
    (wellFormed : Nat → τ → Prop) : Prop where
  accepts : ∀ input limits t, parse input limits = .ok t ↔
    (utf8 input).length ≤ limits.maxStatementBytes ∧ Sentence (syntaxOf limits.maxIdentifierBytes t) input
  no_panic : ∀ input limits, parse input limits ≠ .panic
  unambiguous : ∀ maxIdentifierBytes input t t', Sentence (syntaxOf maxIdentifierBytes t) input →
    Sentence (syntaxOf maxIdentifierBytes t') input → t = t'
  located : ∀ input limits e, parse input limits = .error e →
    ∀ offset ∈ e.offset, offset ≤ (utf8 input).length ∧ Boundary input offset
  printable : ∀ maxIdentifierBytes t,
    (∃ input, Sentence (syntaxOf maxIdentifierBytes t) input) ↔ wellFormed maxIdentifierBytes t

section
variable {τ : Type} {input : String} {limits : ParseLimits} {parser : String → Nat → Parse τ}
  {syntaxOf : Nat → τ → Language Lexeme} {wellFormed : Nat → τ → Prop}

theorem Reads.decides_sentence {m : Parse τ} {L : τ → Language Lexeme} (h : Reads input m (.behind .free) L) :
    Decides input m 0 fun t => Sentence (L t) input := h 0 input.toList (at_zero input) nofun

theorem parseWith_cases (h : Decides input (parser input limits.maxIdentifierBytes) 0 fun t =>
      Sentence (syntaxOf limits.maxIdentifierBytes t) input)
    (hlength : (utf8 input).length ≤ limits.maxStatementBytes) :
    (∃ t, parseWith parser input limits = .ok t ∧
      ∀ t', Sentence (syntaxOf limits.maxIdentifierBytes t') input ↔ t' = t) ∨
    ∃ e, parseWith parser input limits = .error e ∧ (∀ offset ∈ e.offset, Boundary input offset) ∧
      ∀ t, ¬ Sentence (syntaxOf limits.maxIdentifierBytes t) input := by
  have hvalid : validateStatementLength input limits = .ok () := if_neg (Nat.not_lt.2 hlength)
  rw [parseWith, hvalid]
  rw [Decides, Method.wp] at h
  cases hrun : parser input limits.maxIdentifierBytes 0 with
  | none =>
    rw [hrun] at h
    exact h.elim
  | some result =>
    obtain ⟨outcome, position⟩ := result
    rw [hrun] at h
    cases outcome with
    | ok t => exact .inl ⟨t, rfl, h⟩
    | error e => exact .inr ⟨e, rfl, h⟩

theorem parseWith_too_long (hlength : ¬ (utf8 input).length ≤ limits.maxStatementBytes) :
    parseWith parser input limits = .error (.statementTooLong (utf8 input).length limits.maxStatementBytes) := by
  have hinvalid : validateStatementLength input limits =
      .error (.statementTooLong (utf8 input).length limits.maxStatementBytes) := if_pos (Nat.lt_of_not_le hlength)
  rw [parseWith, hinvalid]
  rfl

theorem exact_of_reads
    (hreads : ∀ input maxIdentifierBytes,
      Reads input (parser input maxIdentifierBytes) (.behind .free) (syntaxOf maxIdentifierBytes))
    (hprintable : ∀ maxIdentifierBytes t, Inhabited (syntaxOf maxIdentifierBytes t) ↔ wellFormed maxIdentifierBytes t) :
    Exact (parseWith parser) syntaxOf wellFormed where
  accepts input limits t := by
    by_cases hlength : (utf8 input).length ≤ limits.maxStatementBytes
    · rw [and_iff_right hlength]
      cases parseWith_cases (hreads input _).decides_sentence hlength with
      | inl h =>
        obtain ⟨t', hparse, honly⟩ := h
        rw [hparse, honly, Exec.ok.injEq, eq_comm]
      | inr h =>
        obtain ⟨e, hparse, _, hnone⟩ := h
        rw [hparse]
        exact iff_of_false nofun (hnone t)
    · rw [parseWith_too_long hlength]
      exact iff_of_false nofun fun h => hlength h.1
  no_panic input limits := by
    by_cases hlength : (utf8 input).length ≤ limits.maxStatementBytes
    · cases parseWith_cases (hreads input _).decides_sentence hlength with
      | inl h =>
        obtain ⟨t, hparse, _⟩ := h
        rw [hparse]
        exact nofun
      | inr h =>
        obtain ⟨e, hparse, _⟩ := h
        rw [hparse]
        exact nofun
    · rw [parseWith_too_long hlength]
      exact nofun
  unambiguous maxIdentifierBytes input t t' ht ht' := by
    have hcases := @parseWith_cases τ input ⟨(utf8 input).length, maxIdentifierBytes⟩ parser syntaxOf
      (hreads input _).decides_sentence (Nat.le_refl _)
    cases hcases with
    | inl h =>
      obtain ⟨t₀, _, honly⟩ := h
      rw [(honly t).1 ht, (honly t').1 ht']
    | inr h =>
      obtain ⟨_, _, _, hnone⟩ := h
      exact absurd ht (hnone t)
  located input limits e he offset ho := by
    have hboundary : Boundary input offset := by
      by_cases hlength : (utf8 input).length ≤ limits.maxStatementBytes
      · cases parseWith_cases (hreads input _).decides_sentence hlength with
        | inl h =>
          obtain ⟨t, hparse, _⟩ := h
          rw [hparse] at he
          cases he
        | inr h =>
          obtain ⟨e', hparse, hat, _⟩ := h
          rw [hparse] at he
          cases he
          exact hat offset ho
      · rw [parseWith_too_long hlength] at he
        cases he
        cases ho
    exact ⟨hboundary.le_length, hboundary⟩
  printable maxIdentifierBytes t := exists_sentence.trans (hprintable maxIdentifierBytes t)

end

/-! ## The nine grammars -/

/-- A kind of statement of the one-column parser. -/
inductive Production where
  | createTable | insert | select | innerJoin | leftJoin | scalarCount | scalarSum | scalarMin | selectDistinct
  deriving DecidableEq

namespace Production

def Tree : Production → Type
  | createTable => CreateTableStatement
  | insert => InsertStatement
  | select => SelectStatement
  | innerJoin | leftJoin => JoinStatement
  | scalarCount => ScalarCountStatement
  | scalarSum => ScalarSumStatement
  | scalarMin => ScalarMinStatement
  | selectDistinct => SelectDistinctStatement

def parse : (production : Production) → String → ParseLimits → Exec ParseError production.Tree
  | createTable => parseCreateTable
  | insert => parseInsert
  | select => parseSelect
  | innerJoin => parseInnerJoin
  | leftJoin => parseLeftJoin
  | scalarCount => parseScalarCount
  | scalarSum => parseScalarSum
  | scalarMin => parseScalarMin
  | selectDistinct => parseSelectDistinct

/-- The ways to write a tree, whose names are no longer than the bound. -/
def syntaxOf : (production : Production) → Nat → production.Tree → Language Lexeme
  | createTable => createTableSyntax
  | insert => insertSyntax
  | select => selectSyntax
  | innerJoin => fun bound => joinSyntax bound "INNER"
  | leftJoin => fun bound => joinSyntax bound "LEFT"
  | scalarCount => scalarCountSyntax
  | scalarSum => scalarSumSyntax
  | scalarMin => scalarMinSyntax
  | selectDistinct => selectDistinctSyntax

def WellFormed : (production : Production) → Nat → production.Tree → Prop
  | createTable => fun bound s => CreateTableStatement.WellFormed bound s
  | insert => fun bound s => InsertStatement.WellFormed bound s
  | select => fun bound s => SelectStatement.WellFormed bound s
  | innerJoin | leftJoin => fun bound s => JoinStatement.WellFormed bound s
  | scalarCount => fun bound s => ScalarCountStatement.WellFormed bound s
  | scalarSum => fun bound s => ScalarSumStatement.WellFormed bound s
  | scalarMin => fun bound s => ScalarMinStatement.WellFormed bound s
  | selectDistinct => fun bound s => SelectDistinctStatement.WellFormed bound s

theorem exact (production : Production) : Exact production.parse production.syntaxOf production.WellFormed := by
  cases production with
  | createTable => exact exact_of_reads reads_createTable fun _ => createTable_printable
  | insert => exact exact_of_reads reads_insert fun _ => insert_printable
  | select => exact exact_of_reads reads_select fun _ => select_printable
  | innerJoin => exact exact_of_reads (fun _ _ => reads_join _ _) fun _ => join_printable (by decide)
  | leftJoin => exact exact_of_reads (fun _ _ => reads_join _ _) fun _ => join_printable (by decide)
  | scalarCount => exact exact_of_reads reads_scalarCount fun _ => scalarCount_printable
  | scalarSum => exact exact_of_reads reads_scalarSum fun _ => scalarSum_printable
  | scalarMin => exact exact_of_reads reads_scalarMin fun _ => scalarMin_printable
  | selectDistinct => exact exact_of_reads reads_selectDistinct fun _ => selectDistinct_printable

theorem parse_too_long (production : Production) {input : String} {limits : ParseLimits}
    (hlength : ¬ (utf8 input).length ≤ limits.maxStatementBytes) :
    production.parse input limits = .error (.statementTooLong (utf8 input).length limits.maxStatementBytes) := by
  cases production <;> exact parseWith_too_long hlength

end Production

/-- **The one-column parser.** Each of the nine statement parsers is exact for its grammar. -/
theorem parsers_exact :
    Exact parseCreateTable createTableSyntax (fun bound s => s.WellFormed bound) ∧
    Exact parseInsert insertSyntax (fun bound s => s.WellFormed bound) ∧
    Exact parseSelect selectSyntax (fun bound s => s.WellFormed bound) ∧
    Exact parseInnerJoin (fun bound => joinSyntax bound "INNER") (fun bound s => s.WellFormed bound) ∧
    Exact parseLeftJoin (fun bound => joinSyntax bound "LEFT") (fun bound s => s.WellFormed bound) ∧
    Exact parseScalarCount scalarCountSyntax (fun bound s => s.WellFormed bound) ∧
    Exact parseScalarSum scalarSumSyntax (fun bound s => s.WellFormed bound) ∧
    Exact parseScalarMin scalarMinSyntax (fun bound s => s.WellFormed bound) ∧
    Exact parseSelectDistinct selectDistinctSyntax (fun bound s => s.WellFormed bound) :=
  ⟨Production.exact .createTable, Production.exact .insert, Production.exact .select, Production.exact .innerJoin,
    Production.exact .leftJoin, Production.exact .scalarCount, Production.exact .scalarSum, Production.exact .scalarMin,
    Production.exact .selectDistinct⟩

/-- **The documented grammar.** A text within the byte limit is read as the one tree that it is a sentence of. Every
other text has an error, whose place is a boundary of the text, and every well-formed tree has sentences to print. -/
theorem sentences_read (production : Production) (input : String) (limits : ParseLimits) :
    (if (utf8 input).length ≤ limits.maxStatementBytes then
      (∃ t, production.parse input limits = .ok t ∧
        ∀ t', Sentence (production.syntaxOf limits.maxIdentifierBytes t') input ↔ t' = t) ∨
      ∃ e, production.parse input limits = .error e ∧
        (∀ offset ∈ e.offset, offset ≤ (utf8 input).length ∧ Boundary input offset) ∧
        ∀ t, ¬ Sentence (production.syntaxOf limits.maxIdentifierBytes t) input
    else production.parse input limits = .error (.statementTooLong (utf8 input).length limits.maxStatementBytes)) ∧
    ∀ t, (production.WellFormed limits.maxIdentifierBytes t ↔
        ∃ text, Sentence (production.syntaxOf limits.maxIdentifierBytes t) text) ∧
      ∀ text, Sentence (production.syntaxOf limits.maxIdentifierBytes t) text →
        (utf8 text).length ≤ limits.maxStatementBytes → production.parse text limits = .ok t := by
  have hexact := production.exact
  refine ⟨?_, fun t => ⟨(hexact.printable _ t).symm, fun text htext hlength =>
    (hexact.accepts text limits t).2 ⟨hlength, htext⟩⟩⟩
  split
  · rename_i hlength
    cases hparse : production.parse input limits with
    | ok t =>
      have hsentence := ((hexact.accepts input limits t).1 hparse).2
      refine .inl ⟨t, rfl, fun t' => ⟨fun h => hexact.unambiguous _ input t' t h hsentence, ?_⟩⟩
      rintro rfl
      exact hsentence
    | error e =>
      refine .inr ⟨e, rfl, hexact.located input limits e hparse, fun t hsentence => ?_⟩
      have hok := (hexact.accepts input limits t).2 ⟨hlength, hsentence⟩
      rw [hparse] at hok
      cases hok
    | panic => exact absurd hparse (hexact.no_panic input limits)
  · rename_i hlength
    exact production.parse_too_long hlength

end RustHouse.OneColumn
