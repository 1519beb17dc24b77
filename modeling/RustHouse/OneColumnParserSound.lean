import RustHouse.OneColumnClauses

/-!
# The one-column parser accepts its grammar

Every statement parser decides the grammar of its statement from the first byte on.
It accepts exactly the sentences within the limits, each for its only tree, and an
error is always at a character.
-/

namespace RustHouse.OneColumn

open Decimal (Numeral)
open Exec Scanning TextPositions Words
open Batch (eqIgnoreAsciiCase)

/-! ## What follows -/

section
variable {τ : Type} {C : Option Lexeme → Prop} {l : Language Lexeme} {maxIdentifierBytes : Nat} {L : τ → Language Lexeme}

theorem when_true : when (fun _ => True) L = L := by
  funext t
  ext ls
  exact and_iff_right trivial

theorem heads_semicolon (hnone : C none) (hsemicolon : C (some (.symbol .semicolon))) : Heads C optionalSemicolon := by
  refine (heads_one hnone).add ?_
  rw [← mul_one (mark .semicolon)]
  exact heads_mark hsemicolon

theorem heads_limit {n : Option Nat} (h : ∀ w : Word, eqIgnoreAsciiCase w.text "LIMIT" = true → C (some (.word w)))
    (hl : Heads C l) : Heads C (limitSyntax n * l) := by
  cases n with
  | none => rwa [limitSyntax, one_mul]
  | some n =>
    rw [limitSyntax, mul_assoc]
    exact heads_keyword h

theorem heads_orderBy {o : Option OrderByClause}
    (h : ∀ w : Word, eqIgnoreAsciiCase w.text "ORDER" = true → C (some (.word w))) (hl : Heads C l) :
    Heads C (orderBySyntax maxIdentifierBytes o * l) := by
  cases o with
  | none => rwa [orderBySyntax, one_mul]
  | some o =>
    simp only [orderBySyntax, mul_assoc]
    exact heads_keyword h

theorem heads_where {α : Type} {G : α → Language Lexeme} {p : Option α}
    (h : ∀ w : Word, eqIgnoreAsciiCase w.text "WHERE" = true → C (some (.word w))) (hl : Heads C l) :
    Heads C (whereSyntax G p * l) := by
  cases p with
  | none => rwa [whereSyntax, one_mul]
  | some p =>
    rw [whereSyntax, mul_assoc]
    exact heads_keyword h

theorem shuts_semicolon : Heads Edge.word.Shuts optionalSemicolon := heads_semicolon shuts_none (shuts_symbol _)

/-- Behind a clause and not at its keyword. -/
def Beyond (expected : String) (l? : Option Lexeme) : Prop := AfterClause l? ∧ ¬ IsKeyword expected l?

theorem beyond_semicolon (expected : String) : Heads (Beyond expected) optionalSemicolon :=
  heads_semicolon ⟨.inl rfl, fun h => by cases h.choose_spec.1⟩ ⟨.inr (.inl rfl), not_isKeyword_symbol⟩

theorem beyond_word {expected other : String} (hapart : toAsciiLowercase expected ≠ toAsciiLowercase other) (w : Word)
    (hw : eqIgnoreAsciiCase w.text other = true) : Beyond expected (some (.word w)) := by
  refine ⟨.inr (.inr ⟨w, rfl⟩), fun hgiven => ?_⟩
  obtain ⟨w', hw', hexpected⟩ := hgiven
  cases hw'
  rw [eqIgnoreAsciiCase, beq_iff_eq] at hw hexpected
  exact hapart (hexpected.symm.trans hw)

end

/-! ## Statements -/

section
variable {τ : Type} {input : String} {P : τ → Prop} {L : τ → Language Lexeme}

theorem Reads.selectKeyword {k : Unit → Parse τ} (h : Reads input (k ()) .token L) (hgaps : ∀ t, Heads Edge.word.Gaps (L t)) :
    Reads input (parseSelectKeyword input >>= k) (.behind .free) fun t => OneColumn.keyword "SELECT" * L t := by
  rw [parseSelectKeyword, Parse.bind_assoc]
  exact Reads.skip (Reads.keywordBeforeWord h hgaps) fun t => shuts_free

theorem reads_insertEnd {t₀ : τ} (hP : ∀ t, P t ↔ t = t₀) :
    Reads input (skipWhitespace input >>= fun _ => Method.read >>= fun position => peek input >>= fun byte =>
      match byte with
      | none => unexpected "')'"
      | some byte =>
        if byte ≠ ')'.toUInt8 then Method.call (.error (.invalidInt64 position))
        else Method.modify (· + 1) >>= fun _ => skipWhitespace input >>= fun _ => Method.read >>= fun position =>
          peek input >>= fun byte =>
            if byte = some ','.toUInt8 then Method.call (.error (.extraRows position))
            else parseEnd input >>= fun _ => pure t₀)
      (.behind .free) (when P fun _ => mark .rightParen) := by
  have hend := @Reads.end_ τ input P t₀ hP
  -- A comma is no end either.
  have hrow : Reads input (Method.read >>= fun position => peek input >>= fun byte =>
      if byte = some ','.toUInt8 then Method.call (.error (.extraRows position)) else parseEnd input >>= fun _ => pure t₀)
      .token (when P fun _ => 1) := by
    intro position text hat hfits
    refine Decides.bind rfl (Decides.bind peek_ok ?_)
    have hhead := hat.getElem?_eq_some (c := ',') (by decide)
    by_cases hcomma : text.head? = some ','
    · rw [if_pos (hhead.2 hcomma)]
      refine (fails_call ?_).decides fun t hgiven => ?_
      · intro offset ho
        cases ho
        exact hat.boundary
      · obtain ⟨ls, hls, hbegins⟩ := hgiven
        obtain rfl := (Language.mem_one ls).1 hls.2
        rw [show text = [] from hbegins] at hcomma
        cases hcomma
    · rw [if_neg (mt hhead.1 hcomma)]
      exact hend position text hat hfits
  have hmark : (when P fun _ => mark .rightParen) = fun t => mark .rightParen * when P (fun _ => 1) t := by
    rw [← when_mul]
    simp only [mul_one]
  rw [hmark]
  refine Reads.skip ?_ fun t => shuts_free
  have hparen : Reads input (expectByte input ')'.toUInt8 "')'" >>= fun _ => skipWhitespace input >>= fun _ =>
      Method.read >>= fun position => peek input >>= fun byte =>
        if byte = some ','.toUInt8 then Method.call (.error (.extraRows position)) else parseEnd input >>= fun _ => pure t₀)
      .token fun t => mark .rightParen * when P (fun _ => 1) t :=
    Reads.byte rfl (by decide) (Reads.skip hrow (heads_when fun t => heads_one shuts_none)) (by decide)
  intro position text hat hfits
  have hhead := hat.getElem?_eq_some (c := ')') (by decide)
  have hdecides := hparen position text hat hfits
  refine Decides.bind rfl (Decides.bind peek_ok ?_)
  by_cases hfound : (utf8 input)[position]? = some ')'.toUInt8
  · have hstep : expectByte input ')'.toUInt8 "')'" position = some (.ok (), position + 1) := by
      rw [expectByte, Method.bind_of_ok peek_ok, if_neg (not_not_intro hfound)]
      rfl
    rw [Decides, Method.wp, Method.bind_of_ok hstep] at hdecides
    rw [hfound]
    exact hdecides
  · refine Fails.decides ?_ fun t hgiven => ?_
    · cases hbyte : (utf8 input)[position]? with
      | none => exact fails_unexpected hat.boundary _
      | some byte =>
        rw [hbyte] at hfound
        dsimp only
        rw [if_pos fun heq => hfound (congrArg some heq)]
        refine fails_call ?_
        intro offset ho
        cases ho
        exact hat.boundary
    · obtain ⟨ls, hls, hbegins⟩ := hgiven
      refine hfound (hhead.2 ?_)
      obtain ⟨ls', rfl, _⟩ := mem_mark_mul.1 hls
      obtain ⟨rest, rfl, _⟩ := hbegins
      rfl

end

section
variable (input : String) (maxIdentifierBytes : Nat)

theorem reads_selectDistinct :
    Reads input (Parser.parseSelectDistinct input maxIdentifierBytes) (.behind .free)
      (selectDistinctSyntax maxIdentifierBytes) := by
  have hgrammar : selectDistinctSyntax maxIdentifierBytes = when (fun _ => True) fun s =>
      keyword "SELECT" * (keyword "DISTINCT" * (identifier maxIdentifierBytes s.columnName *
        (fromSyntax maxIdentifierBytes s.tableName * optionalSemicolon))) := by
    rw [when_true]
    funext s
    simp only [selectDistinctSyntax, mul_assoc]
  rw [hgrammar, Parser.parseSelectDistinct]
  refine .whenMul (Reads.selectKeyword ?_ (heads_when fun t => gaps_keyword))
  refine .whenMul (Reads.keywordBeforeWord ?_ (heads_when fun t => gaps_identifier))
  refine .whenComponent SelectDistinctStatement.columnName (Reads.projectedColumn (fun columnName => ?_) fun _ =>
    heads_when fun t => ?_)
  · refine .whenComponent SelectDistinctStatement.tableName (Reads.fromTable nofun fun tableName => ?_)
    refine Reads.skip (Reads.terminator fun s => ?_) (heads_when fun t => shuts_semicolon)
    cases s
    simp
  · rw [fromSyntax, mul_assoc]
    exact heads_keyword fun w hw => ⟨w, rfl, hw⟩

theorem reads_scalarMin :
    Reads input (Parser.parseScalarMin input maxIdentifierBytes) (.behind .free) (scalarMinSyntax maxIdentifierBytes) := by
  have hgrammar : scalarMinSyntax maxIdentifierBytes = when (fun _ => True) fun s =>
      keyword "SELECT" * (keyword "MIN" * (parenthesized (identifier maxIdentifierBytes s.columnName) *
        (fromSyntax maxIdentifierBytes s.tableName * optionalSemicolon))) := by
    rw [when_true]
    funext s
    simp only [scalarMinSyntax, mul_assoc]
  rw [hgrammar, Parser.parseScalarMin]
  refine .whenMul (Reads.selectKeyword ?_ (heads_when fun t => gaps_keyword))
  refine .whenMul (Reads.keyword ?_)
  refine .whenComponent (G := fun c => parenthesized (identifier maxIdentifierBytes c)) ScalarMinStatement.columnName
    (Reads.argument readsArgument_identifier fun columnName => ?_)
  refine .whenComponent ScalarMinStatement.tableName (Reads.fromTable nofun fun tableName => ?_)
  refine Reads.skip (Reads.terminator fun s => ?_) (heads_when fun t => shuts_semicolon)
  cases s
  simp

theorem reads_scalarSum :
    Reads input (Parser.parseScalarSum input maxIdentifierBytes) (.behind .free) (scalarSumSyntax maxIdentifierBytes) := by
  have hgrammar : scalarSumSyntax maxIdentifierBytes = when (fun _ => True) fun s =>
      keyword "SELECT" * (keyword "SUM" * (parenthesized (identifier maxIdentifierBytes s.columnName) *
        (fromSyntax maxIdentifierBytes s.tableName *
          (whereSyntax (comparisonSyntax maxIdentifierBytes) s.predicate * optionalSemicolon)))) := by
    rw [when_true]
    funext s
    simp only [scalarSumSyntax, mul_assoc]
  rw [hgrammar, Parser.parseScalarSum]
  refine .whenMul (Reads.selectKeyword ?_ (heads_when fun t => gaps_keyword))
  refine .whenMul (Reads.keyword ?_)
  refine .whenComponent (G := fun c => parenthesized (identifier maxIdentifierBytes c)) ScalarSumStatement.columnName
    (Reads.argument readsArgument_identifier fun columnName => ?_)
  refine .whenComponent ScalarSumStatement.tableName (Reads.fromTable nofun fun tableName => ?_)
  refine Reads.skip ?_ (heads_when fun t => heads_where (fun w _ => shuts_word w) shuts_semicolon)
  refine .whenComponent ScalarSumStatement.predicate (Reads.optionalComparison (fun predicate => ?_) fun _ =>
    heads_when fun t => beyond_semicolon _)
  refine Reads.terminator fun s => ?_
  cases s
  simp [and_assoc]

theorem reads_scalarCount :
    Reads input (Parser.parseScalarCount input maxIdentifierBytes) (.behind .free) (scalarCountSyntax maxIdentifierBytes) := by
  have hgrammar : scalarCountSyntax maxIdentifierBytes = when (fun _ => True) fun s =>
      keyword "SELECT" * (keyword "COUNT" * (parenthesized (countArgumentSyntax maxIdentifierBytes s.argument) *
        (fromSyntax maxIdentifierBytes s.tableName *
          (whereSyntax (comparisonSyntax maxIdentifierBytes) s.predicate * optionalSemicolon)))) := by
    rw [when_true]
    funext s
    simp only [scalarCountSyntax, mul_assoc]
  rw [hgrammar, Parser.parseScalarCount]
  refine .whenMul (Reads.selectKeyword ?_ (heads_when fun t => gaps_keyword))
  refine .whenMul (Reads.keyword ?_)
  refine .whenComponent (G := fun a => parenthesized (countArgumentSyntax maxIdentifierBytes a)) ScalarCountStatement.argument
    (Reads.argument readsArgument_count fun argument => ?_)
  refine .whenComponent ScalarCountStatement.tableName (Reads.fromTable nofun fun tableName => ?_)
  refine Reads.skip ?_ (heads_when fun t => heads_where (fun w _ => shuts_word w) shuts_semicolon)
  refine .whenComponent ScalarCountStatement.predicate (Reads.optionalComparison (fun predicate => ?_) fun _ =>
    heads_when fun t => beyond_semicolon _)
  refine Reads.terminator fun s => ?_
  cases s
  simp [and_assoc]

theorem reads_join {kind before behind : String} :
    Reads input (Parser.parseJoin input maxIdentifierBytes kind before behind) (.behind .free)
      (joinSyntax maxIdentifierBytes kind) := by
  have hgrammar : joinSyntax maxIdentifierBytes kind = when (fun _ => True) fun s =>
      keyword "SELECT" * (identifier maxIdentifierBytes s.projectedColumnName *
        (fromSyntax maxIdentifierBytes s.leftTableName * (keyword kind * (keyword "JOIN" *
          (identifier maxIdentifierBytes s.rightTableName * (keyword "ON" *
            (identifier maxIdentifierBytes s.leftColumnName * (mark .eq *
              (identifier maxIdentifierBytes s.rightColumnName * optionalSemicolon))))))))) := by
    rw [when_true]
    funext s
    simp only [joinSyntax, mul_assoc]
  rw [hgrammar, Parser.parseJoin]
  refine .whenMul (Reads.selectKeyword ?_ (heads_when fun t => gaps_identifier))
  refine .whenComponent JoinStatement.projectedColumnName (Reads.identifier fun projectedColumnName => ?_)
  refine .whenComponent JoinStatement.leftTableName (Reads.fromTable nofun fun leftTableName => ?_)
  refine Reads.require ?_ (heads_when fun t => gaps_keyword)
  refine .whenMul (Reads.keywordBeforeWord ?_ (heads_when fun t => gaps_keyword))
  refine .whenMul (Reads.keywordBeforeWord ?_ (heads_when fun t => gaps_identifier))
  refine .whenComponent JoinStatement.rightTableName (Reads.identifier fun rightTableName => ?_)
  refine Reads.require ?_ (heads_when fun t => gaps_keyword)
  refine .whenMul (Reads.keywordBeforeWord ?_ (heads_when fun t => gaps_identifier))
  refine .whenComponent JoinStatement.leftColumnName (Reads.identifier fun leftColumnName => ?_)
  refine .whenMul (Reads.byteBetween rfl (by decide) (by decide) ?_ (heads_when fun t => shuts_free))
  refine .whenComponent JoinStatement.rightColumnName (Reads.identifier fun rightColumnName => ?_)
  refine Reads.skip (Reads.terminator fun s => ?_) (heads_when fun t => shuts_semicolon)
  cases s
  simp [and_assoc]

theorem reads_select :
    Reads input (Parser.parseSelect input maxIdentifierBytes) (.behind .free) (selectSyntax maxIdentifierBytes) := by
  have hgrammar : selectSyntax maxIdentifierBytes = when (fun s => s.orderBy.isSome → s.limit.isSome) fun s =>
      keyword "SELECT" * (identifier maxIdentifierBytes s.columnName * (fromSyntax maxIdentifierBytes s.tableName *
        (whereSyntax (predicateSyntax maxIdentifierBytes) s.predicate * (orderBySyntax maxIdentifierBytes s.orderBy *
          (limitSyntax s.limit * optionalSemicolon))))) := by
    funext s
    simp only [selectSyntax, mul_assoc]
    rfl
  rw [hgrammar, Parser.parseSelect]
  refine .whenMul (Reads.selectKeyword ?_ (heads_when fun t => gaps_identifier))
  refine .whenComponent SelectStatement.columnName (Reads.projectedColumn (fun columnName => ?_) fun _ =>
    heads_when fun t => ?_)
  · refine .whenComponent SelectStatement.tableName (Reads.fromTable nofun fun tableName => ?_)
    refine Reads.skip ?_ (heads_when fun t => heads_where (fun w _ => shuts_word w)
      (heads_orderBy (fun w _ => shuts_word w) (heads_limit (fun w _ => shuts_word w) shuts_semicolon)))
    refine .whenComponent SelectStatement.predicate (Reads.optionalPredicate (fun predicate => ?_) fun _ =>
      heads_when fun t => heads_orderBy (beyond_word (by decide))
        (heads_limit (beyond_word (by decide)) (beyond_semicolon _)))
    refine .whenComponent SelectStatement.orderBy (Reads.optionalOrderBy (fun orderBy => ?_) fun _ =>
      heads_when fun t => heads_limit (beyond_word (by decide)) (beyond_semicolon _))
    refine .whenComponent SelectStatement.limit (Reads.optionalLimit (fun limit => ?_) fun _ =>
      heads_when fun t => beyond_semicolon _)
    by_cases hlimit : orderBy.isSome ∧ limit.isNone
    · rw [if_pos hlimit]
      intro position text hat _
      refine (fails_unexpected hat.boundary _).decides fun s hgiven => ?_
      obtain ⟨ls, ⟨hs, _⟩, _⟩ := hgiven
      obtain ⟨⟨⟨⟨⟨hneeds, _⟩, _⟩, _⟩, horder⟩, hnone⟩ := hs
      have hsome := hneeds (horder ▸ hlimit.1)
      rw [hnone, ← Option.not_isNone, hlimit.2] at hsome
      cases hsome
    · rw [if_neg hlimit]
      refine Reads.terminator fun s => ?_
      have hneeds : orderBy.isSome → limit.isSome := by
        intro hsome
        rw [← Option.not_isNone]
        exact Bool.not_eq_true' _ ▸ Bool.eq_false_of_not_eq_true fun hnone => hlimit ⟨hsome, hnone⟩
      cases s
      simp only [SelectStatement.mk.injEq]
      constructor
      · intro hgiven
        obtain ⟨⟨⟨⟨⟨_, hcolumn⟩, htable⟩, hpredicate⟩, horder⟩, hbound⟩ := hgiven
        exact ⟨hcolumn, htable, hpredicate, horder, hbound⟩
      · intro hgiven
        obtain ⟨hcolumn, htable, hpredicate, horder, hbound⟩ := hgiven
        subst horder hbound
        exact ⟨⟨⟨⟨⟨hneeds, hcolumn⟩, htable⟩, hpredicate⟩, rfl⟩, rfl⟩
  · rw [fromSyntax, mul_assoc]
    exact heads_keyword fun w hw => ⟨w, rfl, hw⟩

theorem reads_insert :
    Reads input (Parser.parseInsert input maxIdentifierBytes) (.behind .free) (insertSyntax maxIdentifierBytes) := by
  have hgrammar : insertSyntax maxIdentifierBytes = when (fun _ => True) fun s =>
      keyword "INSERT" * (keyword "INTO" * (identifier maxIdentifierBytes s.tableName * (keyword "VALUES" *
        (mark .leftParen * (valueSyntax s.value * mark .rightParen))))) := by
    rw [when_true]
    funext s
    simp only [insertSyntax, parenthesized, mul_assoc]
  rw [hgrammar, Parser.parseInsert]
  refine Reads.skip (.whenMul (Reads.keywordBeforeWord ?_ (heads_when fun t => gaps_keyword))) fun t => shuts_free
  refine .whenMul (Reads.keywordBeforeWord ?_ (heads_when fun t => gaps_identifier))
  refine .whenComponent InsertStatement.tableName (Reads.identifier fun tableName => ?_)
  refine Reads.require ?_ (heads_when fun t => gaps_keyword)
  refine .whenMul (Reads.keyword ?_)
  refine .whenMul (Reads.byteBetween rfl (by decide) (by decide) ?_ (heads_when fun t => shuts_free))
  refine .whenComponent InsertStatement.value (Reads.value (fun value => ?_) fun _ => heads_when fun t => ?_)
  · refine reads_insertEnd fun s => ?_
    cases s
    simp
  · rw [← mul_one (mark .rightParen)]
    exact heads_mark rfl

theorem reads_createTable :
    Reads input (Parser.parseCreateTable input maxIdentifierBytes) (.behind .free)
      (createTableSyntax maxIdentifierBytes) := by
  have hgrammar : createTableSyntax maxIdentifierBytes = when (fun _ => True) fun s =>
      keyword "CREATE" * (keyword "TABLE" * (ifNotExistsSyntax s.ifNotExists * (identifier maxIdentifierBytes s.tableName *
        (mark .leftParen * (identifier maxIdentifierBytes s.column.name * (columnTypeSyntax s.column.nullable *
          (mark .rightParen * (opt (keyword "ENGINE" * mark .eq * keyword "Memory") * 1)))))))) := by
    rw [when_true]
    funext s
    simp only [createTableSyntax, mul_assoc, mul_one]
  rw [hgrammar, Parser.parseCreateTable]
  refine Reads.skip (.whenMul (Reads.keywordBeforeWord ?_ (heads_when fun t => gaps_keyword))) fun t => shuts_free
  refine .whenMul (Reads.keywordBeforeWord ?_ (heads_when fun t => ?_))
  · refine .whenComponent CreateTableStatement.ifNotExists (Reads.ifNotExists (fun ifNotExists => ?_)
      (heads_when fun t => gaps_identifier) ?_)
    · refine .whenComponent CreateTableStatement.tableName (Reads.identifier fun tableName => ?_)
      refine .whenMul (Reads.byteBetween rfl (by decide) (by decide) ?_ (heads_when fun t => shuts_free))
      refine .whenComponent (fun s : CreateTableStatement => s.column.name) (Reads.identifier fun columnName => ?_)
      refine Reads.require ?_ (heads_when fun t => ?_)
      · refine .whenComponent (fun s : CreateTableStatement => s.column.nullable) (Reads.columnType (fun nullable => ?_)
          fun _ => heads_when fun t => heads_mark rfl)
        refine .whenMul (Reads.byteBetween rfl (by decide) (by decide) ?_ (heads_when fun t => ?_))
        · refine .whenMul (Reads.engine (Reads.end_ fun s => ?_) (heads_when fun t => heads_one rfl))
          obtain ⟨_, ⟨_, dataType, _⟩, _⟩ := s
          cases dataType
          simp only [CreateTableStatement.mk.injEq, ColumnDefinition.mk.injEq]
          constructor
          · intro hgiven
            obtain ⟨⟨⟨⟨_, hexists⟩, htable⟩, hname⟩, hnullable⟩ := hgiven
            exact ⟨htable, ⟨hname, trivial, hnullable⟩, hexists⟩
          · intro hgiven
            obtain ⟨htable, ⟨hname, _, hnullable⟩, hexists⟩ := hgiven
            exact ⟨⟨⟨⟨trivial, hexists⟩, htable⟩, hname⟩, hnullable⟩
        · rw [mul_one, mul_assoc]
          refine (heads_one shuts_none).add (heads_keyword fun w hw => ?_)
          intro l hl hfrom
          cases hl
          rw [eqIgnoreAsciiCase, beq_iff_eq] at hw
          have hfrom : (toAsciiLowercase w.text == toAsciiLowercase "FROM") = true := hfrom
          rw [hw] at hfrom
          exact absurd hfrom (by decide)
      · cases t.column.nullable with
        | true =>
          simp only [columnTypeSyntax, add_mul, mul_assoc]
          exact gaps_keyword.add gaps_keyword
        | false =>
          simp only [columnTypeSyntax, mul_assoc]
          exact gaps_keyword
    · intro t ls hls hgiven
      obtain ⟨l, w, rest, heq⟩ := hgiven
      obtain ⟨w', ls', rfl, _, _, hls'⟩ := mem_identifier_mul.1 hls.2
      obtain ⟨ls'', rfl, _⟩ := mem_mark_mul.1 hls'
      cases heq
  · cases t.ifNotExists with
    | true =>
      simp only [ifNotExistsSyntax, mul_assoc]
      exact gaps_keyword
    | false =>
      rw [ifNotExistsSyntax, one_mul]
      exact gaps_identifier

end

end RustHouse.OneColumn
