import RustHouse.DatabaseRuns
import RustHouse.MutationRows
import RustHouse.PruningSound

/-!
# UPDATE and DELETE are exact

A `DELETE` leaves the rows of which its predicate is not true, and an `UPDATE`
changes one cell in each of the rows that it selects. Whatever else a table and
a database have stays as it is.
-/

namespace RustHouse.Batch

open Checked (usizeMax saturatingAdd)
open Exec Words KeyedTotals Method

/-! ## Statements -/

def deletion : Statement → Option (String × Predicate)
  | .delete table column literal => some (table, comparisonPredicate column .equal literal)
  | .deleteComparison table column operator literal => some (table, comparisonPredicate column operator literal)
  | .deleteConjunction table first second =>
    some (table, .and (deleteComparisonPredicate first) (deleteComparisonPredicate second))
  | .deleteNullness table column isNull => some (table, if isNull then .isNull column else .isNotNull column)
  | _ => none

/-- The parts of an `ALTER TABLE UPDATE`. -/
structure Update where
  table : String
  targetColumn : String
  value : AlterUpdateValue
  predicateColumn : String
  predicateValue : AlterUpdateValue

/-- A row is updated when its predicate column equals the literal. -/
def Update.predicate (update : Update) : Predicate :=
  comparisonPredicate update.predicateColumn .equal update.predicateValue.value

def update : Statement → Option Update
  | .alterUpdate table targetColumn value predicateColumn predicateValue =>
    some ⟨table, targetColumn, .literal (.int64 value), predicateColumn, .literal (.int64 predicateValue)⟩
  | .alterUpdateTyped table targetColumn value predicateColumn predicateValue =>
    some ⟨table, targetColumn, .literal value, predicateColumn, .literal predicateValue⟩
  | .alterUpdateOwned table targetColumn value predicateColumn predicateValue =>
    some ⟨table, targetColumn, value, predicateColumn, predicateValue⟩
  | _ => none

/-- The rows of which a predicate is true, in order. -/
def Predicate.satisfied (predicate : Predicate) (t : Table) : List Nat :=
  (List.range t.rowCount).filter fun row => (predicate.truth t row).isTrue

/-- The rows of which a predicate is not true, in order. -/
def Predicate.unsatisfied (predicate : Predicate) (t : Table) : List Nat :=
  (List.range t.rowCount).filter fun row => !(predicate.truth t row).isTrue

theorem Predicate.satisfied_inside (predicate : Predicate) (t : Table) : ∀ row ∈ predicate.satisfied t, row < t.rowCount :=
  fun _ hrow => List.mem_range.1 (List.mem_filter.1 hrow).1

theorem Predicate.satisfied_sorted (predicate : Predicate) (t : Table) : (predicate.satisfied t).Pairwise (· < ·) :=
  List.pairwise_lt_range.filter _

theorem Predicate.survivors_satisfied (predicate : Predicate) (t : Table) :
    survivors t.rowCount (predicate.satisfied t) = predicate.unsatisfied t := by
  refine List.filter_congr fun row hrow => ?_
  rw [satisfied, Bool.eq_iff_iff, decide_eq_true_iff, List.mem_filter, not_and]
  simp [hrow]

/-! ## Compilation -/

section
variable {declared : List Declared} {t : Table}

theorem columnPosition_ne_panic (h : Table.Consistent declared t) {name : String} {i : Nat}
    (hi : t.columnIndex name = .ok i) : orPanic t.schema[i]? ≠ (.panic : Exec Error ColumnDef) := by
  obtain ⟨_, d, hd⟩ := Table.columnIndex_eq_ok h hi
  rw [h.schema_getElem?, hd]
  exact Exec.ok_ne_panic _

theorem compileColumn_ne_panic (h : Table.Consistent declared t) (name : String) : compileColumn t name ≠ .panic :=
  bind_ne_panic (Table.columnIndex_ne_panic t name) fun _ hi =>
    bind_ne_panic (columnPosition_ne_panic h hi) fun _ _ => Exec.ok_ne_panic _

theorem validatePredicateLiteralValue_ne_panic (value : Value) : validatePredicateLiteralValue value ≠ .panic := by
  cases value with
  | float64 => exact rejectIf_ne_panic _ _
  | null => rintro ⟨⟩
  | _ => exact Exec.ok_ne_panic _

theorem compileOperand_ne_panic (h : Table.Consistent declared t) (operand : Operand) :
    compileOperand t operand ≠ .panic := by
  cases operand with
  | literal value => exact bind_ne_panic (validatePredicateLiteralValue_ne_panic value) fun _ _ => Exec.ok_ne_panic _
  | _ name => exact compileColumn_ne_panic h name

theorem compileLikeColumn_ne_panic (h : Table.Consistent declared t) (name : String) :
    compileLikeColumn t name ≠ .panic :=
  bind_ne_panic (Table.columnIndex_ne_panic t name) fun _ hi =>
    bind_ne_panic (columnPosition_ne_panic h hi) fun _ _ =>
      bind_ne_panic (rejectIf_ne_panic _ _) fun _ _ => Exec.ok_ne_panic _

theorem compile_ne_panic (h : Table.Consistent declared t) (negated : Bool) (predicate : Predicate) :
    compilePredicateWithPolarity t negated predicate ≠ .panic := by
  induction predicate generalizing negated with
  | comparison left _ right =>
    refine bind_ne_panic (compileOperand_ne_panic h left) fun _ _ => ?_
    refine bind_ne_panic (compileOperand_ne_panic h right) fun _ _ => ?_
    exact bind_ne_panic (rejectIf_ne_panic _ _) fun _ _ => Exec.ok_ne_panic _
  | isNull | isNotNull => exact bind_ne_panic (Table.columnIndex_ne_panic _ _) fun _ _ => Exec.ok_ne_panic _
  | likePrefix | likeSuffix | likeContains =>
    exact bind_ne_panic (compileLikeColumn_ne_panic h _) fun _ _ => Exec.ok_ne_panic _
  | not predicate ih => exact ih (!negated)
  | and left right ihLeft ihRight | or left right ihLeft ihRight =>
    exact bind_ne_panic (ihLeft negated) fun _ _ => bind_ne_panic (ihRight negated) fun _ _ => Exec.ok_ne_panic _

theorem fullScan_satisfied (h : Table.Consistent declared t) {predicate : Predicate} {compiled : CompiledPredicate}
    (hcompile : compilePredicate t predicate = .ok compiled) :
    fullScan t (some compiled) = some (predicate.satisfied t) := by
  have hkeeps : ∀ row < t.rowCount, keeps t (some compiled) row = some (predicate.truth t row).isTrue :=
    fun row hrow => compile_evaluate h hrow hcompile
  rw [fullScan, filterRows_eq fun row hrow => ⟨_, hkeeps row (List.mem_range.1 hrow)⟩]
  refine congrArg some (List.filter_congr fun row hrow => ?_)
  rw [hkeeps row (List.mem_range.1 hrow)]
  simp

/-! ## Selection of the rows to update -/

theorem selectRows_eq {test : Nat → Option Bool} {p : Nat → Bool} {rows : List Nat} (h : ∀ row ∈ rows, test row = some (p row)) :
    selectRows test rows = some (rows.filter p) := by
  induction rows with
  | nil => rfl
  | cons row rows ih =>
    obtain ⟨hrow, hrows⟩ := List.forall_mem_cons.1 h
    rw [selectRows, hrow, ih hrows, List.filter_cons]
    rfl

theorem equal_truth (left right : Value) :
    (ComparisonOperator.equal.truth left right).isTrue = decide (left.sqlCmp right = some .eq) := by
  rw [ComparisonOperator.truth, ← sqlCmp_eq_exactCmp]
  cases left.sqlCmp right with
  | none => rfl
  | some comparison => cases comparison <;> rfl

theorem alterUpdateMatches_eq {column : Column} {literal : AlterUpdateValue} {row : Nat} {value : Value}
    (htype : column.dataType = literal.dataType) (hnull : literal ≠ .null) (hvalue : column.value row = some value) :
    alterUpdateMatches column literal row = some (ComparisonOperator.equal.truth value literal.value).isTrue := by
  rw [equal_truth]
  cases column with
  | int64 values =>
    obtain ⟨v, hv, rfl⟩ := Option.map_eq_some_iff.1 hvalue
    cases literal with
    | literal literal =>
      cases literal with
      | int64 literal =>
        simp [alterUpdateMatches, hv, AlterUpdateValue.value, AlterUpdateLiteral.value, Value.sqlCmp, Int64.toInt_inj]
      | _ => cases htype
    | string => cases htype
    | null => exact absurd rfl hnull
  | nullableInt64 values =>
    obtain ⟨v, hv, rfl⟩ := Option.map_eq_some_iff.1 hvalue
    cases literal with
    | literal literal =>
      cases literal with
      | int64 literal =>
        cases v <;>
          simp [alterUpdateMatches, hv, AlterUpdateValue.value, AlterUpdateLiteral.value, Value.sqlCmp, Int64.toInt_inj]
      | _ => cases htype
    | string => cases htype
    | null => exact absurd rfl hnull
  | float64 values =>
    obtain ⟨v, hv, rfl⟩ := Option.map_eq_some_iff.1 hvalue
    cases literal with
    | literal literal =>
      cases literal with
      | float64 literal =>
        rw [alterUpdateMatches, hv]
        exact congrArg some (decide_eq_decide.2 Iff.rfl)
      | _ => cases htype
    | _ => cases htype
  | bool values =>
    obtain ⟨v, hv, rfl⟩ := Option.map_eq_some_iff.1 hvalue
    cases literal with
    | literal literal =>
      cases literal with
      | bool literal =>
        simp [alterUpdateMatches, hv, AlterUpdateValue.value, AlterUpdateLiteral.value, Value.sqlCmp]
      | _ => cases htype
    | _ => cases htype
  | string values =>
    obtain ⟨v, hv, rfl⟩ := Option.map_eq_some_iff.1 hvalue
    cases literal with
    | literal literal => cases literal <;> cases htype
    | string literal => simp [alterUpdateMatches, hv, AlterUpdateValue.value, Value.sqlCmp]
    | null => cases htype

theorem column_of_position (h : Table.Consistent declared t) {name : String} {i : Nat} (hi : t.columnIndex name = .ok i) :
    ∃ d physical, declared[i]? = some d ∧ t.schema[i]? = some d.1 ∧ t.columns[i]? = some physical ∧
      physical.kind = d.kind ∧ physical.len = t.rowCount := by
  obtain ⟨_, d, hd⟩ := Table.columnIndex_eq_ok h hi
  obtain ⟨physical, hphysical, hkind, hlen⟩ := h.column_of_declared hd
  refine ⟨d, physical, hd, ?_, hphysical, hkind, hlen⟩
  rw [h.schema_getElem?, hd]
  rfl

theorem alterUpdateMatches_truth (h : Table.Consistent declared t) (u : Update) {i : Nat} {physical : Column}
    (hi : t.columnIndex u.predicateColumn = .ok i) (hphysical : t.columns[i]? = some physical)
    (htype : physical.dataType = u.predicateValue.dataType)
    (hnull : u.predicateValue ≠ .null) {row : Nat} (hrow : row < t.rowCount) :
    alterUpdateMatches physical u.predicateValue row = some (u.predicate.truth t row).isTrue := by
  obtain ⟨value, hvalue, hcell⟩ := cell_of_columnIndex h hrow hi
  rw [Table.valueAt, hphysical] at hvalue
  rw [alterUpdateMatches_eq htype hnull hvalue, Update.predicate, comparisonPredicate, Predicate.truth, Operand.cell,
    hcell]
  rfl

theorem validateValue_of_checks {i : Nat} {field : ColumnDef} {physical : Column} {value : AlterUpdateValue}
    (hphysical : t.columns[i]? = some physical) (htype : field.dataType = value.dataType)
    (hfinite : value.isNonFinite = false) (hnullable : value = .null → physical.isNullableInt64) :
    t.validateValue i field value.value = .ok () := by
  cases value with
  | null =>
    have hnullable := hnullable rfl
    simp [AlterUpdateValue.value, Table.validateValue, hphysical, hnullable]
  | string text =>
    simp [AlterUpdateValue.value, Table.validateValue, htype, AlterUpdateValue.dataType, Value.dataType]
  | literal literal =>
    cases literal with
    | float64 number =>
      have hfinite : number.isFinite = true := by simpa [AlterUpdateValue.isNonFinite] using hfinite
      simp [AlterUpdateValue.value, AlterUpdateLiteral.value, Table.validateValue, htype, AlterUpdateValue.dataType,
        AlterUpdateLiteral.dataType, hfinite]
      rfl
    | _ =>
      simp [AlterUpdateValue.value, AlterUpdateLiteral.value, Table.validateValue, htype, AlterUpdateValue.dataType,
        AlterUpdateLiteral.dataType, Value.dataType]

theorem validateAlterUpdateNull_ne_panic (h : Table.Consistent declared t) {name : String} {i : Nat}
    (hi : t.columnIndex name = .ok i) (value : AlterUpdateValue) : validateAlterUpdateNull t name i value ≠ .panic := by
  obtain ⟨d, physical, _, hfield, hphysical, _⟩ := column_of_position h hi
  unfold validateAlterUpdateNull
  split
  · rw [hphysical, hfield]
    exact rejectIf_ne_panic _ _
  · exact Exec.ok_ne_panic _

theorem validateAlterUpdateType_ne_panic (h : Table.Consistent declared t) {name : String} {i : Nat}
    (hi : t.columnIndex name = .ok i) (literal : AlterUpdateValue) (role : String) :
    validateAlterUpdateType t name i literal role ≠ .panic :=
  bind_ne_panic (columnPosition_ne_panic h hi) fun _ _ => rejectIf_ne_panic _ _

theorem validateAlterUpdateType_eq_ok {name : String} {i : Nat} {d : Declared} {literal : AlterUpdateValue} {role : String}
    (hfield : t.schema[i]? = some d.1) (hok : validateAlterUpdateType t name i literal role = .ok ()) :
    d.1.dataType = literal.dataType := by
  rw [validateAlterUpdateType, hfield, orPanic_some, Exec.ok_bind, rejectIf_eq_ok, not_not] at hok
  exact hok

theorem validateAlterUpdateNull_eq_ok {name : String} {i : Nat} {d : Declared} {physical : Column}
    {value : AlterUpdateValue} (hfield : t.schema[i]? = some d.1) (hphysical : t.columns[i]? = some physical)
    (hok : validateAlterUpdateNull t name i value = .ok ()) (hnull : value = .null) : physical.isNullableInt64 := by
  rw [validateAlterUpdateNull, if_pos hnull, hphysical, hfield, orPanic_some, orPanic_some, Exec.ok_bind, Exec.ok_bind,
    rejectIf_eq_ok, not_not] at hok
  exact hok

theorem alterUpdateReplacements_ok (h : Table.Consistent declared t) {u : Update} {limits : QueryResultLimits}
    {replacements : List (Nat × Value)} (hok : alterUpdateReplacements t u.targetColumn u.value u.predicateColumn
      u.predicateValue limits = .ok replacements) :
    ∃ i d, t.columnIndex u.targetColumn = .ok i ∧ declared[i]? = some d ∧
      t.validateValue i d.1 u.value.value = .ok () ∧
      replacements = (u.predicate.satisfied t).map (·, u.value.value) := by
  obtain ⟨i, hi, hok⟩ := Exec.bind_eq_ok.1 hok
  obtain ⟨j, hj, hok⟩ := Exec.bind_eq_ok.1 hok
  obtain ⟨_, hnull, hok⟩ := Exec.bind_eq_ok.1 hok
  obtain ⟨_, hnullable, hok⟩ := Exec.bind_eq_ok.1 hok
  obtain ⟨_, htarget, hok⟩ := Exec.bind_eq_ok.1 hok
  obtain ⟨_, hwhere, hok⟩ := Exec.bind_eq_ok.1 hok
  obtain ⟨_, hfinite, hok⟩ := Exec.bind_eq_ok.1 hok
  obtain ⟨_, _, hok⟩ := Exec.bind_eq_ok.1 hok
  obtain ⟨_, _, hok⟩ := Exec.bind_eq_ok.1 hok
  obtain ⟨predicateValues, hvalues, hok⟩ := Exec.bind_eq_ok.1 hok
  obtain ⟨rows, hrows, hok⟩ := Exec.bind_eq_ok.1 hok
  have hreplacements : rows.map (·, u.value.value) = replacements := by
    dsimp only at hok
    split at hok
    · obtain ⟨_, _, hok⟩ := Exec.bind_eq_ok.1 hok
      exact Exec.ok.inj hok
    · exact Exec.ok.inj hok
  obtain ⟨d, physical, hd, hfield, hphysical, _⟩ := column_of_position h hi
  obtain ⟨d', physical', _, hfield', hphysical', hkind', _⟩ := column_of_position h hj
  obtain rfl := Option.some.inj (hphysical'.symm.trans (orPanic_eq_ok.1 hvalues))
  have hfinite : u.value.isNonFinite = false := Bool.not_eq_true _ ▸ rejectIf_eq_ok.1 hfinite
  have htype : physical'.dataType = u.predicateValue.dataType := by
    rw [← validateAlterUpdateType_eq_ok hfield' hwhere]
    exact congrArg Prod.fst hkind'
  refine ⟨i, d, hi, hd, ?_, ?_⟩
  · exact validateValue_of_checks hphysical (validateAlterUpdateType_eq_ok hfield htarget) hfinite
      (validateAlterUpdateNull_eq_ok hfield hphysical hnullable)
  · have hselected := selectRows_eq fun row hrow => alterUpdateMatches_truth h u hj hphysical' htype
      (rejectIf_eq_ok.1 hnull) (List.mem_range.1 hrow)
    obtain rfl := Option.some.inj (hselected.symm.trans (orPanic_eq_ok.1 hrows))
    exact hreplacements.symm

theorem alterUpdateReplacements_ne_panic (h : Table.Consistent declared t) (u : Update) (limits : QueryResultLimits) :
    alterUpdateReplacements t u.targetColumn u.value u.predicateColumn u.predicateValue limits ≠ .panic := by
  refine bind_ne_panic (Table.columnIndex_ne_panic _ _) fun i hi => ?_
  refine bind_ne_panic (Table.columnIndex_ne_panic _ _) fun j hj => ?_
  refine bind_ne_panic (rejectIf_ne_panic _ _) fun _ hnull => ?_
  refine bind_ne_panic (validateAlterUpdateNull_ne_panic h hi _) fun _ _ => ?_
  refine bind_ne_panic (validateAlterUpdateType_ne_panic h hi _ _) fun _ _ => ?_
  refine bind_ne_panic (validateAlterUpdateType_ne_panic h hj _ _) fun _ hwhere => ?_
  refine bind_ne_panic (rejectIf_ne_panic _ _) fun _ _ => bind_ne_panic (rejectIf_ne_panic _ _) fun _ _ => ?_
  refine bind_ne_panic (rejectIf_ne_panic _ _) fun _ _ => ?_
  obtain ⟨d, physical, _, hfield, hphysical, hkind, _⟩ := column_of_position h hj
  have htype : physical.dataType = u.predicateValue.dataType := by
    rw [← validateAlterUpdateType_eq_ok hfield hwhere]
    exact congrArg Prod.fst hkind
  rw [hphysical, orPanic_some, Exec.ok_bind, selectRows_eq fun row hrow => alterUpdateMatches_truth h u hj hphysical
    htype (rejectIf_eq_ok.1 hnull) (List.mem_range.1 hrow), orPanic_some, Exec.ok_bind]
  dsimp only
  split
  · exact bind_ne_panic (rejectIf_ne_panic _ _) fun _ _ => Exec.ok_ne_panic _
  · exact Exec.ok_ne_panic _

end

/-! ## One table of a database -/

structure Exchanges (db : Database) (name : String) (t t' : Table) (db' : Database) : Prop where
  found : db.catalog.found (normalize name) = some t
  others : db'.catalog.found = Function.update db.catalog.found (normalize name) (some t')
  unchanged : t' = t → db' = db

/-- What a `DELETE` does: the rows of which the predicate is not true stay, in their order. -/
structure Deletes (db : Database) (table : String) (predicate : Predicate) (t t' : Table) (result : StatementResult)
    (db' : Database) : Prop where
  found : db.catalog.found (normalize table) = some t
  others : db'.catalog.found = Function.update db.catalog.found (normalize table) (some t')
  read : ∃ rows, t.rows = some rows
  schema : t'.schema = t.schema
  aligned : ∀ column ∈ t'.columns, column.len = t'.rowCount
  rows : t'.rows = (predicate.unsatisfied t).mapM t.rowValues
  count : result = .command "DELETE" (predicate.satisfied t).length
  nothing : predicate.satisfied t = [] → db' = db

/-- What an update does: the rows of which the predicate is true get the value in the target column,
and every other cell stays. A logged table without such a row only logs that there was none. -/
structure Updates (db : Database) (u : Update) (t t' : Table) (column : Nat) (result : StatementResult)
    (db' : Database) : Prop where
  found : db.catalog.found (normalize u.table) = some t
  others : db'.catalog.found = Function.update db.catalog.found (normalize u.table) (some t')
  target : t.columnIndex u.targetColumn = .ok column
  read : ∃ rows, t.rows = some rows
  schema : t'.schema = t.schema
  aligned : ∀ column ∈ t'.columns, column.len = t'.rowCount
  rows : t'.rows = t.updatedRows column u.value.value (u.predicate.satisfied t)
  count : result = .command "ALTER TABLE" (u.predicate.satisfied t).length
  nothing : u.predicate.satisfied t = [] → Untouched db db' ∧ (db.walTracks u.table = false → db' = db)

namespace Database

/-- What a `DELETE` checks before it changes anything. -/
def deleteChecks (db : Database) (table : String) (predicate : Predicate) (limits : QueryResultLimits) :
    Exec Error Unit := do
  db.rejectUnloggedWalMutation table "DELETE"
  let target ← db.catalog.table table
  let _ ← compilePredicate target predicate
  enforceScanLimit target limits "DELETE scanned rows"

def updateChecks (db : Database) (u : Update) (limits : QueryResultLimits) : Exec Error Unit := do
  let target ← db.catalog.table u.table
  let _ ← alterUpdateReplacements target u.targetColumn u.value u.predicateColumn u.predicateValue limits
  .ok ()

section
variable {accepts : TableLimits → Prop} {db : Database} {E : Error → Database → Prop}

theorem tableMut_wp {α : Type} (hsound : Sound accepts db.core) {m : Method Table Error α} {name : String} {t : Table}
    {Q : α → Table → Prop} (hfound : db.catalog.tables.lookup (normalize name) = some t)
    (hm : wp m Q (fun _ _ => False) t) :
    wp (tableMut name m) (fun a db' => ∃ t', Q a t' ∧ Exchanges db name t t' db') E db := by
  have hmeasured : db.measurements = .ofTables db.catalog.tables := hsound.measured
  unfold wp tableMut
  rw [hfound]
  unfold wp at hm
  dsimp only
  revert hm
  rcases m t with _ | ⟨_ | a, t'⟩ <;> intro hm
  · exact hm
  · exact hm.elim
  · refine ⟨t', hm, hfound, Catalog.found_replace hfound, ?_⟩
    rintro rfl
    rw [KeyedTotals.replace_self hfound, hmeasured, DatabaseMeasurements.replace_self hfound, ← hmeasured]

theorem expectTable_wp {α : Type} {name : String} {t : Table} {Q : α → Database → Prop} {m : Method Database Error α}
    (hfound : db.catalog.tables.lookup (normalize name) = some t) (hm : wp m Q E db) :
    wp (expectTable name >>= fun _ => m) Q E db := by
  simp only [expectTable, wp_bind, wp_read, hfound, orPanic_some, wp_call_ok, wp_pure]
  exact hm

theorem checked_wp {α β : Type} {x : Exec Error α} {f : α → Method Database Error β} {Q : β → Database → Prop}
    (hx : x ≠ .panic) (hE : ∀ e, x = .error e → E e db) (hf : ∀ a, x = .ok a → wp (f a) Q E db) :
    wp (call x >>= f) Q E db := by
  rw [wp_bind]
  exact wp_call hx hf hE

theorem executeDeleteStatement_wp (hsound : Sound accepts db.core) (table : String) (predicate : Predicate)
    (limits : QueryResultLimits) :
    wp (executeDeleteStatement table predicate limits)
      (fun result db' => ∃ t t', Deletes db table predicate t t' result db')
      (fun e db' => db' = db ∧ db.deleteChecks table predicate limits = .error e) db := by
  rw [executeDeleteStatement, wp_bind, wp_read]
  refine checked_wp (rejectIf_ne_panic _ _) (fun e he => ⟨rfl, ?_⟩) fun _ hlogged => ?_
  · rw [deleteChecks, he]
    rfl
  refine checked_wp (getOr_ne_panic _ _) (fun e he => ⟨rfl, ?_⟩) fun t ht => ?_
  · rw [deleteChecks, hlogged, he]
    rfl
  have hfound : db.catalog.tables.lookup (normalize table) = some t := getOr_eq_ok.1 ht
  obtain ⟨declared, hconsistent, _⟩ := hsound.good _ _ hfound
  refine checked_wp (compile_ne_panic hconsistent false predicate) (fun e he => ⟨rfl, ?_⟩) fun compiled hcompile => ?_
  · rw [deleteChecks, hlogged, ht, Exec.ok_bind, Exec.ok_bind, show compilePredicate t predicate = .error e from he]
    rfl
  refine checked_wp (rejectIf_ne_panic _ _) (fun e he => ⟨rfl, ?_⟩) fun _ _ => ?_
  · rw [deleteChecks, hlogged, ht, Exec.ok_bind, Exec.ok_bind, show compilePredicate t predicate = .ok compiled from hcompile]
    exact he
  rw [fullScan_satisfied hconsistent hcompile, orPanic_some, wp_bind, wp_call_ok]
  refine expectTable_wp hfound ?_
  rw [wp_bind]
  have hdelete := Table.deleteRows_wp (E := fun _ _ => False) hconsistent (predicate.satisfied_inside t)
    (predicate.satisfied_sorted t)
  refine wp_mono (tableMut_wp hsound hfound hdelete) ?_ fun _ _ he => he
  intro affectedRows db' ⟨t', ⟨hcount, hconsistent', hschema, hrows, hnothing⟩, hexchanges⟩
  refine ⟨t, t', hexchanges.found, hexchanges.others, hconsistent.rows_total, hschema, hconsistent'.columns_len, ?_, ?_,
    fun hempty => hexchanges.unchanged (hnothing hempty)⟩
  · rw [hrows, Predicate.survivors_satisfied]
  · rw [hcount]

theorem applyUpdate_wp {db₁ : Database} {declared : List Declared} {u : Update} {t : Table} {i : Nat} {d : Declared}
    (hsound : Sound accepts db.core) (huntouched : Untouched db db₁) (hlogged : db.walTracks u.table = false → db₁ = db)
    (hfound : db.catalog.tables.lookup (normalize u.table) = some t) (hconsistent : Table.Consistent declared t)
    (hi : t.columnIndex u.targetColumn = .ok i) (hd : declared[i]? = some d)
    (hvalue : t.validateValue i d.1 u.value.value = .ok ()) :
    wp (expectTable u.table >>= fun _ => do
        let affectedRows ← tableMut u.table
          (Table.replaceColumnValues u.targetColumn ((u.predicate.satisfied t).map (·, u.value.value)))
        return StatementResult.command "ALTER TABLE" affectedRows)
      (fun result db' => ∃ t t' column, Updates db u t t' column result db') E db₁ := by
  have hcatalog : db₁.catalog = db.catalog := congrArg Prod.fst huntouched.1
  have hfound₁ : db₁.catalog.tables.lookup (normalize u.table) = some t := by rw [hcatalog]; exact hfound
  refine expectTable_wp hfound₁ ?_
  rw [wp_bind]
  have hreplace := Table.replaceColumnValues_wp (E := fun _ _ => False) hconsistent hi hd
    (u.predicate.satisfied_inside t) (u.predicate.satisfied_sorted t) hvalue
  refine wp_mono (tableMut_wp (huntouched.sound hsound) hfound₁ hreplace) ?_ fun _ _ he => he
  intro affectedRows db' ⟨t', ⟨hcount, hconsistent', hschema, hrows, hnothing⟩, hexchanges⟩
  refine ⟨t, t', i, hfound, ?_, hi, hconsistent.rows_total, hschema, hconsistent'.columns_len, hrows, ?_, fun hempty => ?_⟩
  · rw [hexchanges.others, hcatalog]
  · rw [hcount]
  · have hsame := hexchanges.unchanged (hnothing hempty)
    exact ⟨hsame ▸ huntouched, fun htracked => hsame.trans (hlogged htracked)⟩

theorem executeAlterUpdateStatement_wp (hsound : Sound accepts db.core) (io : CommitIo) (u : Update)
    (limits : QueryResultLimits) (htracked : db.walTracks u.table = false) :
    wp (executeAlterUpdateStatement io u.table u.targetColumn u.value u.predicateColumn u.predicateValue limits)
      (fun result db' => ∃ t t' column, Updates db u t t' column result db')
      (fun e db' => db' = db ∧ db.updateChecks u limits = .error e) db := by
  rw [executeAlterUpdateStatement, wp_bind, wp_read]
  refine checked_wp (getOr_ne_panic _ _) (fun e he => ⟨rfl, ?_⟩) fun t ht => ?_
  · rw [updateChecks, he]
    rfl
  have hfound : db.catalog.tables.lookup (normalize u.table) = some t := getOr_eq_ok.1 ht
  obtain ⟨declared, hconsistent, _⟩ := hsound.good _ _ hfound
  refine checked_wp (alterUpdateReplacements_ne_panic hconsistent u limits) (fun e he => ⟨rfl, ?_⟩)
    fun replacements hreplacements => ?_
  · rw [updateChecks, ht, Exec.ok_bind, he]
    rfl
  obtain ⟨i, d, hi, hd, hvalue, rfl⟩ := alterUpdateReplacements_ok hconsistent hreplacements
  rw [logAlterUpdate, wp_bind, wp_bind, wp_read, htracked]
  exact applyUpdate_wp hsound (.refl db) (fun _ => rfl) hfound hconsistent hi hd hvalue

theorem executeAlterUpdateStatement_wlp (hsound : Sound accepts db.core) (io : CommitIo) (u : Update)
    (limits : QueryResultLimits) (htracked : db.walTracks u.table = true) :
    wlp (executeAlterUpdateStatement io u.table u.targetColumn u.value u.predicateColumn u.predicateValue limits)
      (fun result db' => ∃ t t' column, Updates db u t t' column result db') (fun _ db' => Untouched db db') db := by
  refine wlp_bind.2 (wlp_read.2 (wlp_bind.2 (wlp_call.2 ⟨fun t ht => ?_, fun _ _ => .refl db⟩)))
  refine wlp_bind.2 (wlp_call.2 ⟨fun replacements hreplacements => ?_, fun _ _ => .refl db⟩)
  have hfound : db.catalog.tables.lookup (normalize u.table) = some t := getOr_eq_ok.1 ht
  obtain ⟨declared, hconsistent, _⟩ := hsound.good _ _ hfound
  obtain ⟨i, d, hi, hd, hvalue, rfl⟩ := alterUpdateReplacements_ok hconsistent hreplacements
  refine wlp_bind.2 (wlp_mono (quiet_logAlterUpdate io u.table _) (fun _ db₁ huntouched => ?_) fun _ _ he => he)
  exact wlp_of_wp (applyUpdate_wp hsound huntouched (fun hnot => absurd (htracked.symm.trans hnot) Bool.noConfusion) hfound hconsistent hi hd
    hvalue)

end

/-! ## Main result -/

section
variable {queries : Queries} {io : CommitIo} {limits : QueryResultLimits} {statement : Statement}

theorem executeStatement_deletion {table : String} {predicate : Predicate}
    (h : deletion statement = some (table, predicate)) (db : Database) :
    executeStatementWithLimits queries io statement limits db = executeDeleteStatement table predicate limits db := by
  cases statement with
  | delete | deleteComparison | deleteConjunction | deleteNullness =>
    obtain ⟨rfl, rfl⟩ := Prod.mk.inj (Option.some.inj h)
    rfl
  | _ => cases h

theorem executeStatement_update {u : Update} (h : update statement = some u) (db : Database) :
    executeStatementWithLimits queries io statement limits db =
      executeAlterUpdateStatement io u.table u.targetColumn u.value u.predicateColumn u.predicateValue
        { limits with maxBytes := db.queryResultLimits.maxBytes } db := by
  cases statement with
  | alterUpdate | alterUpdateTyped | alterUpdateOwned =>
    obtain rfl := Option.some.inj h
    rfl
  | _ => cases h

end

/-- **UPDATE and DELETE are exact.** A `DELETE` on any reachable database either fails one of its checks and
changes nothing, or leaves the rows of which its predicate is not true. An update gives its value to the target
column of the rows of which its predicate is true, and to nothing else; if it fails, the tables are as before. -/
theorem mutations_exact {db : Database} (h : Reachable db) (queries : Queries) (io : CommitIo)
    (limits : QueryResultLimits) (statement : Statement) :
    (∀ table predicate, deletion statement = some (table, predicate) →
      wp (executeStatementWithLimits queries io statement limits)
        (fun result db' => ∃ t t', Deletes db table predicate t t' result db')
        (fun e db' => db' = db ∧ db.deleteChecks table predicate limits = .error e) db) ∧
    ∀ u, update statement = some u →
      wlp (executeStatementWithLimits queries io statement limits)
        (fun result db' => ∃ t t' column, Updates db u t t' column result db') (fun _ db' => Untouched db db') db ∧
      (db.walTracks u.table = false →
        wp (executeStatementWithLimits queries io statement limits)
          (fun result db' => ∃ t t' column, Updates db u t t' column result db')
          (fun e db' => db' = db ∧
            db.updateChecks u { limits with maxBytes := db.queryResultLimits.maxBytes } = .error e) db) := by
  refine ⟨fun table predicate hdeletion => ?_, fun u hupdate => ?_⟩
  · unfold wp
    rw [executeStatement_deletion hdeletion]
    exact executeDeleteStatement_wp h.sound table predicate limits
  · have huntracked : db.walTracks u.table = false →
        wp (executeStatementWithLimits queries io statement limits)
          (fun result db' => ∃ t t' column, Updates db u t t' column result db')
          (fun e db' => db' = db ∧
            db.updateChecks u { limits with maxBytes := db.queryResultLimits.maxBytes } = .error e) db := by
      intro htracked
      unfold wp
      rw [executeStatement_update hupdate]
      exact executeAlterUpdateStatement_wp h.sound io u _ htracked
    refine ⟨?_, huntracked⟩
    cases htracked : db.walTracks u.table with
    | false => exact wlp_mono (wlp_of_wp (huntracked htracked)) (fun _ _ h => h) fun _ _ he => he.1 ▸ .refl db
    | true =>
      unfold wlp
      rw [executeStatement_update hupdate]
      exact executeAlterUpdateStatement_wlp h.sound io u _ htracked

def deleteSample : Method Database Error StatementResult :=
  executeStatementWithLimits noQueries .success (.delete "items" "id" (.int64 2)) .default

def updateSample : Method Database Error StatementResult :=
  executeStatementWithLimits noQueries .success (.alterUpdate "items" "size" 5 "id" 2) .default

def rowsOf (db : Database) (table : String) : Option (List (List Value)) :=
  (db.catalog.found (normalize table)).bind Table.rows

theorem mutationSamples_outcome : (runStatements .new).bind (fun outcome =>
    (deleteSample outcome.2).bind fun deleted => (updateSample outcome.2).map fun updated =>
      ((deleted.1.toOption, rowsOf deleted.2 "items"), (updated.1.toOption, rowsOf updated.2 "items"))) =
    some ((some (.command "DELETE" 2), some [[.int64 1, .string "longer", .int64 10, .null .int64],
        [.int64 3, .string "def", .int64 30, .null .int64]]),
      (some (.command "ALTER TABLE" 2), some [[.int64 1, .string "longer", .int64 10, .null .int64],
        [.int64 2, .string "bc", .int64 5, .null .int64], [.int64 3, .string "def", .int64 30, .null .int64],
        [.int64 2, .string "g", .int64 5, .null .int64]])) := by
  decide +kernel

theorem rowsOf_update {db db' : Database} {table : String} {t' : Table}
    (h : db'.catalog.found = Function.update db.catalog.found (normalize table) (some t')) :
    rowsOf db' table = t'.rows := by
  rw [rowsOf, h, Function.update_self, Option.bind_some]

/-- Two of four rows go and the others keep their order; two of four rows get a new value and nothing else. -/
theorem mutations_exact_sample : ∃ outcome db deleted db₁ updated db₂, runStatements .new = some (outcome, db) ∧
    deleteSample db = some (.ok deleted, db₁) ∧ updateSample db = some (.ok updated, db₂) ∧
    (∃ t t', Deletes db "items" (comparisonPredicate "id" .equal (.int64 2)) t t' deleted db₁ ∧
      t'.rows = some [[.int64 1, .string "longer", .int64 10, .null .int64],
        [.int64 3, .string "def", .int64 30, .null .int64]]) ∧
    ∃ t t' column, Updates db ⟨"items", "size", .literal (.int64 5), "id", .literal (.int64 2)⟩ t t' column updated db₂ ∧
      t'.rows = some [[.int64 1, .string "longer", .int64 10, .null .int64],
        [.int64 2, .string "bc", .int64 5, .null .int64], [.int64 3, .string "def", .int64 30, .null .int64],
        [.int64 2, .string "g", .int64 5, .null .int64]] := by
  obtain ⟨⟨outcome, db⟩, hrun, hsamples⟩ := Option.bind_eq_some_iff.1 mutationSamples_outcome
  obtain ⟨⟨deleted, db₁⟩, hdelete, hsamples⟩ := Option.bind_eq_some_iff.1 hsamples
  obtain ⟨⟨updated, db₂⟩, hupdate, hsamples⟩ := Option.map_eq_some_iff.1 hsamples
  obtain ⟨hdeleted, hupdated⟩ := Prod.mk.inj hsamples
  obtain ⟨hdeleted, hleft⟩ := Prod.mk.inj hdeleted
  obtain ⟨hupdated, hchanged⟩ := Prod.mk.inj hupdated
  have hexact := fun statement => mutations_exact (.statements .new hrun) noQueries .success .default statement
  cases deleted with
  | error => cases hdeleted
  | ok deleted =>
    cases updated with
    | error => cases hupdated
    | ok updated =>
      obtain ⟨t₁, t₁', hdeletes⟩ := (wp_iff.1 ((hexact (.delete "items" "id" (.int64 2))).1 _ _ rfl)).2.1 _ _ hdelete
      obtain ⟨t₂, t₂', column, hupdates⟩ :=
        (wlp_iff.1 ((hexact (.alterUpdate "items" "size" 5 "id" 2)).2 _ rfl).1).1 _ _ hupdate
      exact ⟨outcome, db, deleted, db₁, updated, db₂, hrun, hdelete, hupdate,
        ⟨t₁, t₁', hdeletes, (rowsOf_update hdeletes.others).symm.trans hleft⟩,
        t₂, t₂', column, hupdates, (rowsOf_update hupdates.others).symm.trans hchanged⟩

end Database

end RustHouse.Batch
