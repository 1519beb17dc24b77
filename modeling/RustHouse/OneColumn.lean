import RustHouse.BoundedHeap
import RustHouse.Snapshot
import Mathlib.Data.Prod.Lex

/-!
# Queries of one column

The bounded operators over a nullable `Int64` column (scans, the stable order with
a limit, the scalar aggregates) and the statements that run on them. Operators
hand rows to each other as positions in the column.
-/

namespace RustHouse.OneColumn

open Checked Exec

/-! ## Scans -/

inductive ComparisonOperator where
  | eq | ne | lt | le | gt | ge
  deriving DecidableEq, Repr

def ComparisonOperator.matches (operator : ComparisonOperator) (left right : Int64) : Bool :=
  match operator with
  | .eq => left = right
  | .ne => left ≠ right
  | .lt => left < right
  | .le => left ≤ right
  | .gt => left > right
  | .ge => left ≥ right

inductive NullPredicate where
  | isNull | isNotNull
  deriving DecidableEq, Repr

def NullPredicate.matches (predicate : NullPredicate) (value : Option Int64) : Bool :=
  match predicate with
  | .isNull => value.isNone
  | .isNotNull => value.isSome

structure ScanLimits where
  maxInputRows : Nat
  maxResultRows : Nat
  deriving DecidableEq, Repr

inductive ScanError where
  | inputLimitExceeded (rows maxRows : Nat)
  | resultLimitExceeded (rows maxRows : Nat)
  deriving DecidableEq, Repr

def scanRow (limits : ScanLimits) (accepts : Option Int64 → Bool) (matchingRows : List Nat)
    (row : Option Int64 × Nat) : Exec ScanError (List Nat) :=
  if accepts row.1 then do
    rejectIf (matchingRows.length = limits.maxResultRows)
      (.resultLimitExceeded (saturatingAdd matchingRows.length 1) limits.maxResultRows)
    .ok (matchingRows ++ [row.2])
  else .ok matchingRows

def scanMatchingRows (values : List (Option Int64)) (limits : ScanLimits) (accepts : Option Int64 → Bool) :
    Exec ScanError (List Nat) := do
  rejectIf (values.length > limits.maxInputRows) (.inputLimitExceeded values.length limits.maxInputRows)
  values.zipIdx.foldlM (scanRow limits accepts) []

def scanNullableI64 (values : List (Option Int64)) (operator : ComparisonOperator) (comparisonValue : Int64)
    (limits : ScanLimits) : Exec ScanError (List Nat) :=
  scanMatchingRows values limits fun value => value.any (operator.matches · comparisonValue)

def scanNullableI64Nullness (values : List (Option Int64)) (predicate : NullPredicate) (limits : ScanLimits) :
    Exec ScanError (List Nat) :=
  scanMatchingRows values limits predicate.matches

/-! ## Ordering -/

inductive OrderDirection where
  | asc | desc
  deriving DecidableEq, Repr

inductive NullOrder where
  | first | last
  deriving DecidableEq, Repr

structure OrderLimits where
  maxInputRows : Nat
  maxLimit : Nat
  deriving DecidableEq, Repr

inductive OrderError where
  | inputLimitExceeded (rows maxRows : Nat)
  | limitExceeded (limit maxLimit : Nat)
  deriving DecidableEq, Repr

@[ext] structure OrderKey where
  nullRank : Nat
  valueRank : UInt64
  sourceIndex : Nat
  deriving DecidableEq, Repr

namespace OrderKey

/-- Flipping the sign bit maps signed order onto unsigned order. -/
def ascendingRank (value : Int64) : UInt64 := value.toUInt64 ^^^ ((1 : UInt64) <<< 63)

def new (value : Option Int64) (sourceIndex : Nat) (direction : OrderDirection) (nullOrder : NullOrder) : OrderKey where
  nullRank :=
    match value, nullOrder with
    | none, .first | some _, .last => 0
    | some _, .first | none, .last => 1
  valueRank :=
    match value with
    | none => 0
    | some value =>
      match direction with
      | .asc => ascendingRank value
      | .desc => ~~~ascendingRank value
  sourceIndex

def fields (key : OrderKey) : Nat ×ₗ Nat ×ₗ Nat := toLex (key.nullRank, toLex (key.valueRank.toNat, key.sourceIndex))

theorem fields_injective : Function.Injective fields := by
  intro a b h
  simp only [fields, EmbeddingLike.apply_eq_iff_eq, Prod.mk.injEq] at h
  exact OrderKey.ext h.1 (UInt64.toNat_inj.1 h.2.1) h.2.2

instance : LinearOrder OrderKey := LinearOrder.lift' fields fields_injective

end OrderKey

def orderNullableI64 (values : List (Option Int64)) (direction : OrderDirection) (nullOrder : NullOrder) (limit : Nat)
    (limits : OrderLimits) : Exec OrderError (List Nat) := do
  rejectIf (values.length > limits.maxInputRows) (.inputLimitExceeded values.length limits.maxInputRows)
  rejectIf (limit > limits.maxLimit) (.limitExceeded limit limits.maxLimit)
  if limit = 0 ∨ values.isEmpty then .ok []
  else
    let retainedRows := min limit values.length
    let topRows := BoundedHeap.smallest retainedRows
      (values.zipIdx.map fun row => OrderKey.new row.1 row.2 direction nullOrder)
    .ok (topRows.map (·.sourceIndex))

/-! ## Aggregates -/

inductive RowSelection where
  | all
  | indices (rows : List Nat)
  deriving DecidableEq, Repr

def RowSelection.rowCount (selection : RowSelection) (inputRows : Nat) : Nat :=
  match selection with
  | .all => inputRows
  | .indices rows => rows.length

structure AggregateLimits where
  maxInputRows : Nat
  maxSelectedRows : Nat
  deriving DecidableEq, Repr

structure NullableI64Counts where
  countStar : Nat
  countColumn : Nat
  deriving DecidableEq, Repr

structure NullableI64Aggregates where
  countStar : Nat
  countColumn : Nat
  sum : Option Int64
  deriving DecidableEq, Repr

inductive AggregateError where
  | inputLimitExceeded (rows maxRows : Nat)
  | selectionLimitExceeded (rows maxRows : Nat)
  | selectionIndexOutOfBounds (selectionPosition rowIndex inputRows : Nat)
  | selectionNotStrictlyIncreasing (selectionPosition previousRowIndex rowIndex : Nat)
  | sumOverflow (sum : Int)
  deriving DecidableEq, Repr

def validatePrevious (selectionPosition rowIndex : Nat) : Option Nat → Exec AggregateError Unit
  | some previousRowIndex =>
    rejectIf (rowIndex ≤ previousRowIndex)
      (.selectionNotStrictlyIncreasing selectionPosition previousRowIndex rowIndex)
  | none => .ok ()

def validateSelectionFrom (inputRows : Nat) : Nat → Option Nat → List Nat → Exec AggregateError Unit
  | _, _, [] => .ok ()
  | selectionPosition, previous, rowIndex :: rest => do
    rejectIf (rowIndex ≥ inputRows) (.selectionIndexOutOfBounds selectionPosition rowIndex inputRows)
    validatePrevious selectionPosition rowIndex previous
    validateSelectionFrom inputRows (selectionPosition + 1) (some rowIndex) rest

def validateSelection (inputRows : Nat) : RowSelection → Exec AggregateError Unit
  | .all => .ok ()
  | .indices rows => validateSelectionFrom inputRows 0 none rows

def validateAggregateInput (inputRows : Nat) (selection : RowSelection) (limits : AggregateLimits) :
    Exec AggregateError Nat := do
  rejectIf (inputRows > limits.maxInputRows) (.inputLimitExceeded inputRows limits.maxInputRows)
  let selectedRows := selection.rowCount inputRows
  rejectIf (selectedRows > limits.maxSelectedRows) (.selectionLimitExceeded selectedRows limits.maxSelectedRows)
  validateSelection inputRows selection
  .ok selectedRows

def valuesAt {ε : Type} (values : List (Option Int64)) (rows : List Nat) : Exec ε (List (Option Int64)) :=
  orPanic (rows.mapM fun rowIndex => values[rowIndex]?)

def selectedValues {ε : Type} (values : List (Option Int64)) : RowSelection → Exec ε (List (Option Int64))
  | .all => .ok values
  | .indices indices => valuesAt values indices

def countNullableI64 (values : List (Option Int64)) (selection : RowSelection) (limits : AggregateLimits) :
    Exec AggregateError NullableI64Counts := do
  let selectedRows ← validateAggregateInput values.length selection limits
  let selected ← selectedValues values selection
  .ok { countStar := selectedRows, countColumn := (selected.filter Option.isSome).length }

def minNullableI64 (values : List (Option Int64)) (selection : RowSelection) (limits : AggregateLimits) :
    Exec AggregateError (Option Int64) := do
  let _ ← validateAggregateInput values.length selection limits
  let selected ← selectedValues values selection
  .ok selected.reduceOption.min?

def tryInt64 (n : Int) : Option Int64 :=
  if Int64.minValue.toInt ≤ n ∧ n ≤ Int64.maxValue.toInt then some (Int64.ofInt n) else none

-- The 128-bit sum of fewer than `2 ^ 64` values is exact.
def aggregateStep (counted : Nat × Int) (value : Int64) : Nat × Int := (counted.1 + 1, counted.2 + value.toInt)

def finalSum (countColumn : Nat) (sum : Int) : Exec AggregateError (Option Int64) :=
  if countColumn = 0 then .ok none
  else do
    let sum ← getOr (tryInt64 sum) (.sumOverflow sum)
    .ok (some sum)

def aggregateValues (values : List (Option Int64)) (countStar : Nat) : Exec AggregateError NullableI64Aggregates := do
  let counted := values.reduceOption.foldl aggregateStep (0, 0)
  let sum ← finalSum counted.1 counted.2
  .ok { countStar, countColumn := counted.1, sum }

def aggregateNullableI64 (values : List (Option Int64)) (selection : RowSelection) (limits : AggregateLimits) :
    Exec AggregateError NullableI64Aggregates := do
  let selectedRows ← validateAggregateInput values.length selection limits
  let selected ← selectedValues values selection
  aggregateValues selected selectedRows

/-! ## Statements -/

structure ComparisonPredicate where
  columnName : String
  operator : ComparisonOperator
  value : Int64
  deriving DecidableEq, Repr

structure NullnessPredicate where
  columnName : String
  predicate : NullPredicate
  deriving DecidableEq, Repr

inductive SelectPredicate where
  | comparison (predicate : ComparisonPredicate)
  | nullness (predicate : NullnessPredicate)
  deriving DecidableEq, Repr

def SelectPredicate.columnName : SelectPredicate → String
  | .comparison predicate => predicate.columnName
  | .nullness predicate => predicate.columnName

structure OrderByClause where
  columnName : String
  direction : OrderDirection
  nullOrder : NullOrder
  deriving DecidableEq, Repr

structure SelectStatement where
  columnName : String
  tableName : String
  predicate : Option SelectPredicate
  orderBy : Option OrderByClause
  limit : Option Nat
  deriving DecidableEq, Repr

inductive ScalarCountArgument where
  | star
  | column (columnName : String)
  deriving DecidableEq, Repr

def ScalarCountArgument.columnName : ScalarCountArgument → Option String
  | .star => none
  | .column columnName => some columnName

structure ScalarCountStatement where
  argument : ScalarCountArgument
  tableName : String
  predicate : Option ComparisonPredicate
  deriving DecidableEq, Repr

structure ScalarSumStatement where
  columnName : String
  tableName : String
  predicate : Option ComparisonPredicate
  deriving DecidableEq, Repr

structure ScalarMinStatement where
  columnName : String
  tableName : String
  deriving DecidableEq, Repr

/-! ## Execution -/

inductive SelectExecutionError where
  | unknownTable (name : String)
  | unknownColumn (name : String)
  | scan (error : ScanError)
  | order (error : OrderError)
  | aggregate (error : AggregateError)
  deriving DecidableEq, Repr

section
variable (expectedTableName : String) (table : Int64Table)

def checkTable (name : String) : Exec SelectExecutionError Unit :=
  rejectIf (name ≠ expectedTableName) (.unknownTable name)

def checkColumn (name : String) : Exec SelectExecutionError Unit :=
  rejectIf (name ≠ table.schema.column.name) (.unknownColumn name)

/-- The check of a column that a statement may leave out. -/
def checkColumnOf : Option String → Exec SelectExecutionError Unit
  | some name => checkColumn table name
  | none => .ok ()

def comparedRows (values : List (Option Int64)) (predicate : Option ComparisonPredicate) (scanLimits : ScanLimits) :
    Exec SelectExecutionError RowSelection :=
  match predicate with
  | some predicate => do
    let matchingRows ← mapError .scan (scanNullableI64 values predicate.operator predicate.value scanLimits)
    .ok (.indices matchingRows)
  | none => .ok .all

def executeScalarCountWithLimits (statement : ScalarCountStatement) (scanLimits : ScanLimits)
    (aggregateLimits : AggregateLimits) : Exec SelectExecutionError Nat := do
  checkTable expectedTableName statement.tableName
  checkColumnOf table statement.argument.columnName
  checkColumnOf table (statement.predicate.map (·.columnName))
  let selection ← comparedRows table.values statement.predicate scanLimits
  let counts ← mapError .aggregate (countNullableI64 table.values selection aggregateLimits)
  .ok (if statement.argument.columnName.isSome then counts.countColumn else counts.countStar)

def executeScalarSumWithLimits (statement : ScalarSumStatement) (scanLimits : ScanLimits)
    (aggregateLimits : AggregateLimits) : Exec SelectExecutionError (Option Int64) := do
  checkTable expectedTableName statement.tableName
  checkColumn table statement.columnName
  checkColumnOf table (statement.predicate.map (·.columnName))
  let selection ← comparedRows table.values statement.predicate scanLimits
  let aggregates ← mapError .aggregate (aggregateNullableI64 table.values selection aggregateLimits)
  .ok aggregates.sum

def executeScalarMin (statement : ScalarMinStatement) (limits : AggregateLimits) :
    Exec SelectExecutionError (Option Int64) := do
  checkTable expectedTableName statement.tableName
  checkColumn table statement.columnName
  mapError .aggregate (minNullableI64 table.values .all limits)

def scanSelectPredicate (values : List (Option Int64)) (predicate : SelectPredicate) (limits : ScanLimits) :
    Exec ScanError (List Nat) :=
  match predicate with
  | .comparison predicate => scanNullableI64 values predicate.operator predicate.value limits
  | .nullness predicate => scanNullableI64Nullness values predicate.predicate limits

/-- What an ordered statement orders: the column, or a copy of its matching values. -/
def orderInput (values : List (Option Int64)) (predicate : Option SelectPredicate) (scanLimits : ScanLimits) :
    Exec SelectExecutionError (List (Option Int64)) :=
  match predicate with
  | some predicate => do
    let matchingRows ← mapError .scan (scanSelectPredicate values predicate scanLimits)
    valuesAt values matchingRows
  | none => .ok values

def executeOrdered (orderBy : OrderByClause) (predicate : Option SelectPredicate) (limit : Nat)
    (scanLimits : ScanLimits) (orderLimits : OrderLimits) : Exec SelectExecutionError (List (Option Int64)) := do
  checkColumn table orderBy.columnName
  let input ← orderInput table.values predicate scanLimits
  let orderedRows ← mapError .order
    (orderNullableI64 input orderBy.direction orderBy.nullOrder limit orderLimits)
  valuesAt input orderedRows

def executeUnordered (predicate : Option SelectPredicate) (limit : Nat) (scanLimits : ScanLimits) :
    Exec SelectExecutionError (List (Option Int64)) :=
  match predicate with
  | none => .ok (table.values.take (min limit table.values.length))
  | some predicate => do
    let matchingRows ← mapError .scan (scanSelectPredicate table.values predicate scanLimits)
    valuesAt table.values (matchingRows.take limit)

def executeSelectWithOrderLimits (statement : SelectStatement) (scanLimits : ScanLimits) (orderLimits : OrderLimits) :
    Exec SelectExecutionError (List (Option Int64)) := do
  checkTable expectedTableName statement.tableName
  checkColumn table statement.columnName
  let limit := statement.limit.getD table.values.length
  checkColumnOf table (statement.predicate.map (·.columnName))
  match statement.orderBy with
  | some orderBy => executeOrdered table orderBy statement.predicate limit scanLimits orderLimits
  | none => executeUnordered table statement.predicate limit scanLimits

def executeSelectWithLimits (statement : SelectStatement) (scanLimits : ScanLimits) :
    Exec SelectExecutionError (List (Option Int64)) :=
  let rows := table.values.length
  executeSelectWithOrderLimits expectedTableName table statement scanLimits ⟨rows, statement.limit.getD rows⟩

def executeSelect (statement : SelectStatement) : Exec SelectExecutionError (List (Option Int64)) :=
  let rows := table.values.length
  executeSelectWithLimits expectedTableName table statement ⟨rows, rows⟩

end

end RustHouse.OneColumn
