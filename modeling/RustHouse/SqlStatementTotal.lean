import RustHouse.SqlParserTotal

/-!
# Parsing never panics

Every production of a statement takes tokens from the front of the input, and
every statement takes one at least. With the call stack that the limits of a
predicate ask for, a text is parsed or there is an error, whatever the text is.
-/

namespace RustHouse.Batch

open Method

namespace Parse

variable {α : Type}

/-! ## Select items -/

instance steady_eatWhen (condition : Bool) (expected : TokenKind) : Steady (eatWhen condition expected) := by
  unfold eatWhen
  infer_instance

instance steady_validateShape (position : Nat) (message : Option String) : Steady (validateShape position message) := by
  cases message
  · exact steady_pure _
  · exact steady_failAt position _

instance steady_parseColumnCastTargetType : Steady parseColumnCastTargetType := by
  unfold parseColumnCastTargetType
  infer_instance

instance steady_parseWindowDirection : Steady parseWindowDirection := by unfold parseWindowDirection; infer_instance

instance steady_parseWindowOrder : Steady parseWindowOrder := by unfold parseWindowOrder; infer_instance

instance steady_parseRowNumber : Steady parseRowNumber := by unfold parseRowNumber; infer_instance

instance steady_parseCastItem : Steady parseCastItem := by unfold parseCastItem; infer_instance

instance steady_parseIfNullItem : Steady parseIfNullItem := by unfold parseIfNullItem; infer_instance

instance steady_parseUnaryItem (item : String → Option String → SelectItem) (argument closing : String) :
    Steady (parseUnaryItem item argument closing) := by
  unfold parseUnaryItem
  infer_instance

instance steady_parseAggregateArgument (function : AggregateFunction) : Steady (parseAggregateArgument function) := by
  unfold parseAggregateArgument
  infer_instance

instance steady_parseAggregateItem (position : Nat) (name : String) : Steady (parseAggregateItem position name) := by
  unfold parseAggregateItem
  infer_instance

instance steady_parseCallItem (position : Nat) (name : String) : Steady (parseCallItem position name) := by
  unfold parseCallItem
  repeat' apply steady_ite

instance steady_parseSelectItem : Steady parseSelectItem := by
  unfold parseSelectItem
  infer_instance

/-! ## Keys -/

instance steady_orderByFunction (render : String → String) (argument closing : String) :
    Steady (orderByFunction render argument closing) := by
  unfold orderByFunction
  infer_instance

instance steady_orderByCast : Steady orderByCast := by unfold orderByCast; infer_instance

instance steady_orderByIfNull : Steady orderByIfNull := by unfold orderByIfNull; infer_instance

theorem steady_some_ite {c : Prop} [Decidable c] {m : Parse α} [hm : Steady m] {calls : Option (Parse α)}
    (h : ∀ call ∈ calls, Steady call) : ∀ call ∈ (if c then some m else calls), Steady call := by
  split
  · intro call hcall
    obtain rfl := Option.some.inj hcall
    exact hm
  · exact h

theorem orderByCall_steady (name : String) : ∀ call ∈ orderByCall name, Steady call := by
  unfold orderByCall
  repeat' apply steady_some_ite
  exact fun call hcall => absurd hcall (Option.not_mem_none call)

instance steady_parseOrderByName : Steady parseOrderByName := by
  unfold parseOrderByName
  refine steady_of_bind fun name => steady_of_bind fun isSubtraction => ?_
  split
  · infer_instance
  · cases hcall : orderByCall name with
    | none => exact steady_pure name
    | some call =>
      have hsteady := orderByCall_steady name call hcall
      show Steady (do if ← eat .leftParen then call else return name)
      infer_instance

instance steady_parseGroupByExpr : Steady parseGroupByExpr := by unfold parseGroupByExpr; infer_instance

instance steady_parseDirection : Steady parseDirection := by unfold parseDirection; infer_instance

instance steady_reserved (item : Parse α) [Steady item] : Steady (reserved item) := by unfold reserved; infer_instance

instance steady_parseOrderByItem (parseName : Parse String) [Steady parseName] : Steady (parseOrderByItem parseName) := by
  unfold parseOrderByItem
  infer_instance

instance steady_parseKeys (keyword : String) (item : Parse α) [Steady item] : Steady (parseKeys keyword item) := by
  unfold parseKeys
  infer_instance

/-! ## Pagination -/

instance steady_parsePaginationValue (number : String) (position : Nat) (name : String) :
    Steady (parsePaginationValue number position name) := steady_okOrAt _ _ _

instance steady_parseOffset : Steady parseOffset := by unfold parseOffset; infer_instance

instance steady_parsePagination : Steady parsePagination := by
  unfold parsePagination
  refine steady_of_bind fun isLimit => @steady_ite _ _ _ _ _ ?_ inferInstance
  refine steady_of_bind fun position => steady_of_bind fun number => steady_of_bind fun first => ?_
  infer_instance

/-! ## Queries -/

section
variable (float : FloatText)

instance steady_parseHavingPredicate : Steady (parseHavingPredicate float) := by
  unfold parseHavingPredicate
  infer_instance

instance steady_parseHaving : Steady (parseHaving float) := by unfold parseHaving; infer_instance

instance steady_parseDistinctColumn : Steady parseDistinctColumn := by unfold parseDistinctColumn; infer_instance

end

/-- The state of predicates starts afresh behind `WHERE`. -/
instance total_resetPredicate :
    Total (.modify fun parser => { parser with predicateDepth := 0, predicateNodes := 0 }) := ⟨fun _ => Nat.le_refl _⟩

section
variable (float : FloatText) {frames : Nat} (hframes : predicateFrames ≤ frames)
include hframes

theorem total_parseWhere : Total (parseWhere float frames) := by
  unfold parseWhere
  refine ⟨fun p => ?_⟩
  rw [wp_bind]
  refine wp_mono ((steady_eatKeyword "WHERE").steady p) (fun isWhere q hq => ?_) fun _ _ h => h
  split
  · rw [wp_bind, wp_modify, wp_bind]
    refine wp_mono ((predicates_total float frames _).1 hframes) (fun predicate r hr => ?_) fun _ _ h => h
    exact hr.left_le.trans hq.left_le
  · exact hq.left_le

theorem total_parseRegularSelect : Total (parseRegularSelect float frames) := by
  have hwhere := total_parseWhere float hframes
  unfold parseRegularSelect
  infer_instance

theorem total_parseDistinctSelect : Total (parseDistinctSelect float frames) := by
  have hwhere := total_parseWhere float hframes
  unfold parseDistinctSelect
  refine total_of_bind fun items => total_of_bind fun isFrom => ?_
  have hrest : Total (do
      let table ← expectIdentifier "table name after FROM"
      let predicate ← parseWhere float frames
      let orderBy ← parseKeys "ORDER" (parseOrderByItem (expectIdentifier "projected physical column after ORDER BY"))
      let pagination ← parsePagination
      unless ← peekIs endsDistinct do error distinctShape
      return ⟨true, items, table, predicate, [], none, orderBy, pagination.limit, pagination.offset⟩ : Parse Select) :=
    inferInstance
  exact @total_ite _ _ _ _ _ hrest (@total_bind _ _ _ _ _ fun _ => hrest)

end

theorem attempt_wp {m : Parse α} [hm : Total m] {Q : Except Error α → Parser → Prop} {p : Parser}
    (hok : ∀ a q, q.left ≤ p.left → Q (.ok a) q) (herror : ∀ e q, Q (.error e) q) :
    wp (attempt m) Q (fun _ _ => True) p := by
  obtain ⟨hrun, hleft, _⟩ := wp_iff.1 (hm.total p)
  cases houtcome : m p with
  | none => exact absurd houtcome hrun
  | some outcome =>
    obtain ⟨result, q⟩ := outcome
    have hattempt : attempt m p = some (.ok result, q) := by rw [attempt, houtcome]; rfl
    rw [wp, hattempt]
    cases result with
    | ok a => exact hok a q (hleft a q houtcome)
    | error e => exact herror e q

section
variable (float : FloatText) {frames : Nat} (hframes : predicateFrames ≤ frames)
include hframes

theorem total_parseSelectAfter (distinctError : Error) : Total (parseSelectAfter float frames distinctError) := by
  have hregular := total_parseRegularSelect float hframes
  refine ⟨fun p => ?_⟩
  rw [parseSelectAfter, wp_bind]
  exact attempt_wp (fun select q hq => hq) fun error q => trivial

theorem total_parseSelect : Total (parseSelect float frames) := by
  have hregular := total_parseRegularSelect float hframes
  have hdistinct := total_parseDistinctSelect float hframes
  have hafter := total_parseSelectAfter float hframes
  unfold parseSelect
  refine ⟨fun p => ?_⟩
  rw [wp_bind]
  refine wp_mono ((steady_atKeyword "DISTINCT").steady p) (fun atDistinct q hq => ?_) fun _ _ h => h
  split
  · rw [wp_bind, wp_read, wp_bind]
    refine wp_mono (steady_advance.steady q) (fun _ r hr => ?_) fun _ _ h => h
    rw [wp_bind]
    refine attempt_wp (fun select s hs => ?_) fun error s => ?_
    · exact hs.trans (hr.left_le.trans hq.left_le)
    · rw [wp_bind, wp_modify]
      -- The failed reading is taken back, so what it has taken is there again.
      exact wp_mono ((hafter error).total _) (fun _ _ h => h.trans hq.left_le) fun _ _ h => h
  · exact wp_mono (hregular.total q) (fun _ _ h => h.trans hq.left_le) fun _ _ h => h

end

/-! ## Queries without a table -/

instance steady_expectColumns (description : String) (columns : List String) :
    Steady (expectColumns description columns) := by
  induction columns with
  | nil => exact steady_pure ()
  | cons column columns ih =>
    cases columns <;> (unfold expectColumns; infer_instance)

instance steady_parseSystemSelect (columns : List String) (separator dot table shape : String) (statement : Statement) :
    Steady (parseSystemSelect columns separator dot table shape statement) := by
  unfold parseSystemSelect
  refine steady_of_bind fun _ => steady_of_bind fun _ => ?_
  infer_instance

instance steady_atSystemSelectStart (first : String) (columns : List String) (table : String) :
    Steady (atSystemSelectStart first columns table) := by
  unfold atSystemSelectStart
  infer_instance

instance steady_parseSystemDatabasesSelect : Steady parseSystemDatabasesSelect := steady_parseSystemSelect _ _ _ _ _ _

instance steady_parseSystemFunctionsSelect : Steady parseSystemFunctionsSelect := steady_parseSystemSelect _ _ _ _ _ _

instance steady_parseSystemSettingsSelect : Steady parseSystemSettingsSelect := steady_parseSystemSelect _ _ _ _ _ _

instance steady_parseSystemMetricsSelect : Steady parseSystemMetricsSelect := steady_parseSystemSelect _ _ _ _ _ _

instance steady_parseSystemColumnsSelect : Steady parseSystemColumnsSelect := steady_parseSystemSelect _ _ _ _ _ _

instance steady_parseSystemTablesSelect : Steady parseSystemTablesSelect := steady_parseSystemSelect _ _ _ _ _ _

instance steady_parseVersionSelect : Steady parseVersionSelect := by
  unfold parseVersionSelect
  refine steady_of_bind fun _ => steady_of_bind fun _ => steady_of_bind fun _ => ?_
  infer_instance

instance steady_parseCurrentDatabaseSelect : Steady parseCurrentDatabaseSelect := by
  unfold parseCurrentDatabaseSelect
  refine steady_of_bind fun _ => steady_of_bind fun _ => steady_of_bind fun _ => ?_
  infer_instance

instance steady_atCallStart (name : String) : Steady (atCallStart name) := by unfold atCallStart; infer_instance

instance steady_parseLiteralSelect (float : FloatText) : Steady (parseLiteralSelect float) := by
  unfold parseLiteralSelect
  infer_instance

instance steady_parseTypedNullSelect : Steady parseTypedNullSelect := by
  unfold parseTypedNullSelect
  refine steady_of_bind fun _ => steady_of_bind fun _ => steady_of_bind fun _ => steady_of_bind fun _ => ?_
  refine steady_of_bind fun _ => steady_of_bind fun position => steady_of_bind fun typeName => steady_of_bind fun dataType => ?_
  infer_instance

instance steady_atCompleteTypedNullSelect : Steady atCompleteTypedNullSelect := by
  unfold atCompleteTypedNullSelect
  infer_instance

/-! ## SELECT -/

instance steady_parseCrossJoinLimit : Steady parseCrossJoinLimit := by unfold parseCrossJoinLimit; infer_instance

instance steady_parseCrossJoin (left : Select) : Steady (parseCrossJoin left) := by
  unfold parseCrossJoin
  infer_instance

instance steady_parseUnionMode : Steady parseUnionMode := by unfold parseUnionMode; infer_instance

section
variable (float : FloatText) {frames : Nat} (hframes : predicateFrames ≤ frames)
include hframes

theorem total_parseTableSelect : Total (parseTableSelect float frames) := by
  have hselect := total_parseSelect float hframes
  have hunion (left : Select) : Total (parseUnion float frames left) := by
    unfold parseUnion
    infer_instance
  unfold parseTableSelect
  infer_instance

theorem total_parseSelectStatement : Total (parseSelectStatement float frames) := by
  have htable := total_parseTableSelect float hframes
  unfold parseSelectStatement
  iterate 10 refine total_of_if ?_
  exact htable

end

/-! ## Other statements -/

instance steady_parseShownDatabase (qualifier : String) : Steady (parseShownDatabase qualifier) := by
  unfold parseShownDatabase
  infer_instance

instance steady_parseShowTables : Steady parseShowTables := by unfold parseShowTables; infer_instance

instance steady_complete (message : String) (statement : Statement) : Steady (complete message statement) := by
  unfold complete
  infer_instance

instance steady_parseShow : Steady parseShow := by unfold parseShow; infer_instance

instance steady_parseTableStatement (statement : String → Statement) (message : String) :
    Steady (parseTableStatement statement message) := by
  unfold parseTableStatement
  infer_instance

instance steady_parseDescribe : Steady parseDescribe := by unfold parseDescribe; infer_instance

instance steady_parseExists : Steady parseExists := by unfold parseExists; infer_instance

instance steady_parseTruncate : Steady parseTruncate := by unfold parseTruncate; infer_instance

/-- What is taken back was taken from the front. -/
instance total_parseIf (keyword : String) (rest : Parse Unit) [hrest : Total rest] : Total (parseIf keyword rest) := by
  refine ⟨fun p => ?_⟩
  rw [parseIf, wp_bind]
  refine wp_mono ((steady_atKeyword "IF").steady p) (fun atIf q hq => ?_) fun _ _ h => h
  split
  · rw [wp_bind, wp_read, wp_bind]
    refine wp_mono (steady_advance.steady q) (fun _ r hr => ?_) fun _ _ h => h
    rw [wp_bind]
    refine wp_mono ((steady_eatKeyword keyword).steady r) (fun eaten u hu => ?_) fun _ _ h => h
    split
    · rw [wp_bind]
      exact wp_mono (hrest.total u) (fun _ _ h => h.trans ((hq.trans (hr.trans hu)).left_le)) fun _ _ h => h
    · exact hq.left_le
  · exact hq.left_le

instance total_parseIfNotExists : Total parseIfNotExists := total_parseIf _ _

instance total_parseIfExists : Total parseIfExists := total_parseIf _ _

instance steady_parseColumnName : Steady parseColumnName := by unfold parseColumnName; infer_instance

instance steady_parseNullableType : Steady parseNullableType := by unfold parseNullableType; infer_instance

instance steady_columnDataType (position : Nat) (typeName : String) : Steady (columnDataType position typeName) := by
  unfold columnDataType
  infer_instance

instance steady_parseCreatedColumn (created : CreatedColumns) : Steady (parseCreatedColumn created) := by
  unfold parseCreatedColumn
  infer_instance

instance steady_parseNextColumn (created : CreatedColumns) : Steady (parseNextColumn created) := by
  unfold parseNextColumn
  infer_instance

instance steady_parseEngine : Steady parseEngine := by unfold parseEngine; infer_instance

instance total_parseCreate : Total parseCreate := by
  have hcolumns (first : CreatedColumns) : Steady (whileEat (isToken .comma) parseNextColumn first) :=
    steady_whileEat (proper_isToken rfl) steady_parseNextColumn first
  unfold parseCreate
  refine total_of_bind fun _ => total_of_bind fun ifNotExists => total_of_bind fun name => total_of_bind fun _ => ?_
  infer_instance

instance total_parseDrop : Total parseDrop := by unfold parseDrop; infer_instance

instance steady_parseRename : Steady parseRename := by unfold parseRename; infer_instance

section
variable (float : FloatText)

instance steady_parseDeleteComparisonAfterColumn (column : String) :
    Steady (parseDeleteComparisonAfterColumn float column) := by
  unfold parseDeleteComparisonAfterColumn
  infer_instance

instance steady_parseDeleteComparison : Steady (parseDeleteComparison float) := by
  unfold parseDeleteComparison
  infer_instance

instance steady_parseDeleteNullness (table column : String) : Steady (parseDeleteNullness table column) := by
  unfold parseDeleteNullness
  infer_instance

instance steady_parseDeleteComparisons (table column : String) :
    Steady (parseDeleteComparisons float table column) := by
  unfold parseDeleteComparisons
  infer_instance

instance total_parseDeleteWhere (table : String) : Total (parseDeleteWhere float table) := by
  unfold parseDeleteWhere
  infer_instance

instance total_parseDelete : Total (parseDelete float) := by unfold parseDelete; infer_instance

instance total_parseAddColumn (table : String) : Total (parseAddColumn table) := by
  unfold parseAddColumn
  infer_instance

instance steady_parseRenameColumn (table : String) : Steady (parseRenameColumn table) := by
  unfold parseRenameColumn
  infer_instance

instance steady_parseAssignedValue : Steady (parseAssignedValue float) := by unfold parseAssignedValue; infer_instance

instance steady_parseAlterUpdate (table : String) : Steady (parseAlterUpdate float table) := by
  unfold parseAlterUpdate
  infer_instance

instance steady_parseDropColumn (table : String) : Steady (parseDropColumn table) := by
  unfold parseDropColumn
  infer_instance

instance total_parseAlter : Total (parseAlter float) := by
  unfold parseAlter
  refine total_of_bind fun _ => total_of_bind fun table => ?_
  iterate 4 refine total_of_if ?_
  infer_instance

instance steady_parseInsertColumns : Steady parseInsertColumns := by unfold parseInsertColumns; infer_instance

instance steady_parseInsertValue : Steady (parseInsertValue float) := by unfold parseInsertValue; infer_instance

instance steady_parseRowValues : Steady (parseRowValues float) := by unfold parseRowValues; infer_instance

instance steady_parseInsertRow : Steady (parseInsertRow float) := by unfold parseInsertRow; infer_instance

instance steady_parseInsert : Steady (parseInsert float) := by unfold parseInsert; infer_instance

end

/-! ## Batches -/

/-- A production that takes a token where it succeeds. -/
class Consumes (m : Parse α) : Prop where
  consumes : ∀ p, wp m (fun _ q => q.left < p.left) (fun _ _ => True) p

instance consumes_error (message : String) : Consumes (error message : Parse α) := ⟨fun p => error_wp message p⟩

theorem consumes_of_if {keyword : String} {m n : Parse α} [hm : Total m] (hn : Consumes n) :
    Consumes (do if ← eatKeyword keyword then m else n) := by
  refine ⟨fun p => ?_⟩
  rw [wp_bind]
  refine wp_mono (eatIf_wp (proper_keyword keyword) p) (fun eaten q hq => ?_) fun _ _ h => h
  split
  · rename_i heaten
    exact wp_mono (hm.total q) (fun _ _ h => lt_of_le_of_lt h (hq.2 heaten)) fun _ _ h => h
  · exact wp_mono (hn.consumes q) (fun _ _ h => lt_of_lt_of_le h hq.1.left_le) fun _ _ h => h

instance steady_skipSemicolons : Steady skipSemicolons :=
  steady_whileEat (proper_isToken rfl) (fun _ => steady_pure ()) ()

instance steady_checkStatementLimit (statements : Nat) : Steady (checkStatementLimit statements) := by
  unfold checkStatementLimit
  infer_instance

section
variable (float : FloatText) {frames : Nat} (hframes : predicateFrames ≤ frames)
include hframes

theorem consumes_parseStatement : Consumes (parseStatement float frames) := by
  have hselect := total_parseSelectStatement float hframes
  unfold parseStatement
  iterate 11 refine consumes_of_if ?_
  exact consumes_error _

theorem consumes_parseBatchStatement (statements : List Statement) :
    Consumes (parseBatchStatement float frames statements) := by
  refine ⟨fun p => ?_⟩
  rw [parseBatchStatement, wp_bind]
  refine wp_mono ((steady_checkStatementLimit _).steady p) (fun _ q hq => ?_) fun _ _ h => h
  rw [wp_bind]
  refine wp_mono ((consumes_parseStatement float hframes).consumes q) (fun statement r hr => ?_) fun _ _ h => h
  have hrest : Total (do
      unless ← peekIs isTerminator do error "expected ';' between statements"
      skipSemicolons
      return statements ++ [statement] : Parse (List Statement)) := inferInstance
  exact wp_mono (hrest.total r) (fun _ _ h => (lt_of_le_of_lt h hr).trans_le hq.left_le) fun _ _ h => h

theorem parseStatements_wp {fuel : Nat} {statements : List Statement} {p : Parser} (hfuel : p.left < fuel) :
    wp (parseStatements float frames fuel statements) (fun _ _ => True) (fun _ _ => True) p := by
  induction fuel generalizing statements p with
  | zero => exact absurd hfuel (Nat.not_lt_zero _)
  | succ fuel ih =>
    rw [parseStatements, wp_bind]
    refine wp_mono ((steady_peekIs _).steady p) (fun atEnd q hq => ?_) fun _ _ h => h
    split
    · trivial
    · rw [wp_bind]
      refine wp_mono ((consumes_parseBatchStatement float hframes statements).consumes q) (fun _ r hr => ?_)
        fun _ _ h => h
      exact ih (hr.trans_le (hq.left_le.trans (Nat.lt_succ_iff.1 hfuel)))

theorem parseScript_wp (allowEmpty : Bool) (p : Parser) :
    wp (parseScript float frames allowEmpty) (fun _ _ => True) (fun _ _ => True) p := by
  rw [parseScript, wp_bind]
  refine wp_mono (steady_skipSemicolons.steady p) (fun _ q _ => ?_) fun _ _ h => h
  rw [wp_bind, wp_read, wp_bind]
  refine wp_mono (parseStatements_wp float hframes ?_) (fun statements r _ => ?_) fun _ _ h => h
  · have hone := q.current.kind.isProper.toNat_le
    unfold Parser.left
    omega
  · have hrest : Total (do
        if statements = [] ∧ ¬ allowEmpty then error "expected a SQL statement"
        return statements : Parse (List Statement)) := inferInstance
    exact wp_mono (hrest.total r) (fun _ _ _ => trivial) fun _ _ h => h

/-- More frames than predicates need make no difference to whether a text is parsed. -/
theorem parseInFrames_ne_panic (input : String) (limits : BatchSqlLimits) :
    parseInFrames float frames input limits ≠ .panic := by
  obtain ⟨hrun, _⟩ := wp_iff.1 (parseScript_wp float hframes false (.new input limits))
  unfold parseInFrames
  split
  · rename_i hpanic
    exact absurd hpanic hrun
  · exact Exec.ok_ne_panic _
  · exact Exec.error_ne_panic _

end

end Parse

/-- **Parsing never panics**: the loops come to an end and the call stack is never exhausted, whatever the text is. -/
theorem parse_ne_panic (float : FloatText) (input : String) : parse float input ≠ .panic :=
  Parse.parseInFrames_ne_panic float (Nat.le_refl _) input .default

end RustHouse.Batch
