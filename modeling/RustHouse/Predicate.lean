import RustHouse.Table
import RustHouse.ValueOrder

/-!
# WHERE predicates

A predicate as it is written, the tree that the parser makes of it, and the
form without negations that the engine evaluates row by row.
-/

namespace RustHouse.Batch

open Exec Words

/-! ## Syntax -/

inductive ComparisonOperator where
  | equal | notEqual | less | lessOrEqual | greater | greaterOrEqual
  deriving DecidableEq, Repr

inductive Operand where
  | column (name : String)
  /-- The column of an `IN` list, shared by its comparisons. -/
  | sharedColumn (name : String)
  | literal (value : Value)
  deriving DecidableEq

inductive Predicate where
  | comparison (left : Operand) (operator : ComparisonOperator) (right : Operand)
  | isNull (column : String)
  | isNotNull (column : String)
  | likePrefix (column start : String)
  | likeSuffix (column ending : String)
  | likeContains (column substring : String)
  | not (predicate : Predicate)
  | and (left right : Predicate)
  | or (left right : Predicate)
  deriving DecidableEq

inductive Condition where
  | comparison (left : Operand) (operator : ComparisonOperator) (right : Operand)
  | isNull (column : String) (negated : Bool)
  | inList (column : String) (literals : List Value) (negated : Bool)
  | between (column : String) (lower upper : Value) (negated : Bool)
  | like (column pattern : String) (negated : Bool)
  | not (condition : Condition)
  | and (left right : Condition)
  | or (left right : Condition)

/-! ## Lowering -/

/-- A balanced tree of equalities; a list without literals is unreachable. -/
def lowerInPredicate (column : String) (literals : List Value) : Option Predicate :=
  match literals with
  | [] => none
  | [literal] => some (.comparison (.sharedColumn column) .equal (.literal literal))
  | first :: second :: rest => do
    let left ← lowerInPredicate column ((first :: second :: rest).take ((rest.length + 2) / 2))
    let right ← lowerInPredicate column ((first :: second :: rest).drop ((rest.length + 2) / 2))
    some (.or left right)
termination_by literals.length
decreasing_by
  · simp only [List.length_take, List.length_cons]; omega
  · simp only [List.length_drop, List.length_cons]; omega

/-- The form of a pattern with its wildcards: at the end, at the start, or at both ends. -/
def lowerLikePattern (column pattern : String) : Option Predicate :=
  let characters := pattern.toList
  let startsWithWildcard : Bool := characters.head? = some '%'
  let endsWithWildcard : Bool := characters.getLast? = some '%'
  match characters.count '%', startsWithWildcard, endsWithWildcard with
  | 1, _, true => some (.likePrefix column (.ofList characters.dropLast))
  | 1, true, false => some (.likeSuffix column (.ofList characters.tail))
  | 2, true, true => some (.likeContains column (.ofList characters.dropLast.tail))
  | _, _, _ => none

def lowerBetween (column : String) (lower upper : Value) : Predicate :=
  .and (.comparison (.column column) .greaterOrEqual (.literal lower))
    (.comparison (.column column) .lessOrEqual (.literal upper))

def negateIf (negated : Bool) (predicate : Predicate) : Predicate :=
  if negated then .not predicate else predicate

/-- What the parser makes of a predicate; an empty list or another pattern is refused. -/
def Condition.lower : Condition → Option Predicate
  | comparison left operator right => some (.comparison left operator right)
  | isNull column negated => some (if negated then .isNotNull column else .isNull column)
  | inList column literals negated => (lowerInPredicate column literals).map (negateIf negated)
  | between column lower upper negated => some (negateIf negated (lowerBetween column lower upper))
  | like column pattern negated => (lowerLikePattern column pattern).map (negateIf negated)
  | not condition => condition.lower.map .not
  | and left right => left.lower.bind fun left => right.lower.map fun right => .and left right
  | or left right => left.lower.bind fun left => right.lower.map fun right => .or left right

/-! ## Compilation -/

inductive CompiledOperand where
  | column (index : Nat) (dataType : DataType)
  | literal (value : Value)
  deriving DecidableEq

inductive CompiledPredicate where
  | comparison (left : CompiledOperand) (operator : ComparisonOperator) (right : CompiledOperand)
  | nullness (column : Nat) (isNull : Bool)
  | likePrefix (column : Nat) (start : String) (negated : Bool)
  | likeSuffix (column : Nat) (ending : String) (negated : Bool)
  | likeContains (column : Nat) (substring : String) (negated : Bool)
  | and (left right : CompiledPredicate)
  | or (left right : CompiledPredicate)
  deriving DecidableEq

def CompiledOperand.dataType : CompiledOperand → DataType
  | column _ dataType => dataType
  | literal value => value.dataType

def invertComparison : ComparisonOperator → ComparisonOperator
  | .equal => .notEqual
  | .notEqual => .equal
  | .less => .greaterOrEqual
  | .lessOrEqual => .greater
  | .greater => .lessOrEqual
  | .greaterOrEqual => .less

def validatePredicateLiteralValue : Value → Exec Error Unit
  | .null _ => .error (.invalidQuery "WHERE comparisons do not support NULL literals")
  | .float64 value =>
    rejectIf (¬ value.isFinite) (.invalidQuery "WHERE comparison Float64 literals must be finite")
  | _ => .ok ()

def comparable (left right : DataType) : Bool :=
  left = right || (left = .int64 && right = .float64) || (left = .float64 && right = .int64)

def compileColumn (t : Table) (name : String) : Exec Error CompiledOperand := do
  let index ← t.columnIndex name
  let field ← orPanic t.schema[index]?
  .ok (.column index field.dataType)

def compileOperand (t : Table) : Operand → Exec Error CompiledOperand
  | .column name => compileColumn t name
  | .sharedColumn name => compileColumn t name
  | .literal value => do
    validatePredicateLiteralValue value
    .ok (.literal value)

/-- The position of a column that `LIKE` can match. -/
def compileLikeColumn (t : Table) (column : String) : Exec Error Nat := do
  let columnIndex ← t.columnIndex column
  let field ← orPanic t.schema[columnIndex]?
  rejectIf (field.dataType ≠ .string)
    (.typeMismatch s!"WHERE LIKE column '{column}'" DataType.string.asStr field.dataType.asStr)
  .ok columnIndex

def compilePredicateWithPolarity (t : Table) (negated : Bool) : Predicate → Exec Error CompiledPredicate
  | .comparison left operator right => do
    let left ← compileOperand t left
    let right ← compileOperand t right
    rejectIf (¬ comparable left.dataType right.dataType)
      (.typeMismatch "WHERE comparison" left.dataType.asStr right.dataType.asStr)
    .ok (.comparison left (if negated then invertComparison operator else operator) right)
  | .isNull column => do
    let columnIndex ← t.columnIndex column
    .ok (.nullness columnIndex (true != negated))
  | .isNotNull column => do
    let columnIndex ← t.columnIndex column
    .ok (.nullness columnIndex (false != negated))
  | .likePrefix column start => do
    let columnIndex ← compileLikeColumn t column
    .ok (.likePrefix columnIndex start negated)
  | .likeSuffix column ending => do
    let columnIndex ← compileLikeColumn t column
    .ok (.likeSuffix columnIndex ending negated)
  | .likeContains column substring => do
    let columnIndex ← compileLikeColumn t column
    .ok (.likeContains columnIndex substring negated)
  | .not predicate => compilePredicateWithPolarity t (!negated) predicate
  | .and left right => do
    let left ← compilePredicateWithPolarity t negated left
    let right ← compilePredicateWithPolarity t negated right
    .ok (if negated then .or left right else .and left right)
  | .or left right => do
    let left ← compilePredicateWithPolarity t negated left
    let right ← compilePredicateWithPolarity t negated right
    .ok (if negated then .and left right else .or left right)

def compilePredicate (t : Table) (predicate : Predicate) : Exec Error CompiledPredicate :=
  compilePredicateWithPolarity t false predicate

/-! ## Evaluation -/

def Column.value (row : Nat) : Column → Option Value
  | int64 values => values[row]?.map .int64
  | nullableInt64 values => values[row]?.map fun value => value.elim (.null .int64) .int64
  | float64 values => values[row]?.map .float64
  | bool values => values[row]?.map .bool
  | string values => values[row]?.map .string

def Table.valueAt (t : Table) (column row : Nat) : Option Value := t.columns[column]?.bind (Column.value row)

/-- The text in a row of a column of texts. -/
def stringAt (t : Table) (source row : Nat) : Option String :=
  match t.columns[source]? with
  | some (.string values) => values[row]?
  | _ => none

def CompiledOperand.value (t : Table) (row : Nat) : CompiledOperand → Option Value
  | column index _ => t.valueAt index row
  | literal value => some value

def Value.isNull : Value → Bool
  | null _ => true
  | _ => false

/-- Whether values that compare in some way satisfy an operator. -/
def ComparisonOperator.accepts : ComparisonOperator → Ordering → Bool
  | equal, comparison => comparison = .eq
  | notEqual, comparison => comparison ≠ .eq
  | less, comparison => comparison = .lt
  | lessOrEqual, comparison => comparison ≠ .gt
  | greater, comparison => comparison = .gt
  | greaterOrEqual, comparison => comparison ≠ .lt

def startsWith (s start : String) : Bool := start.toList.isPrefixOf s.toList

def endsWith (s ending : String) : Bool := ending.toList.isSuffixOf s.toList

def containsString (s substring : String) : Bool :=
  s.toList.tails.any substring.toList.isPrefixOf

namespace CompiledPredicate

def evaluate (t : Table) (row : Nat) : CompiledPredicate → Option Bool
  | comparison left operator right => do
    let left ← left.value t row
    let right ← right.value t row
    some ((left.sqlCmp right).elim false operator.accepts)
  | nullness column isNull => do some ((← t.valueAt column row).isNull == isNull)
  | likePrefix column start negated => do some (startsWith (← stringAt t column row) start != negated)
  | likeSuffix column ending negated => do some (endsWith (← stringAt t column row) ending != negated)
  | likeContains column substring negated => do some (containsString (← stringAt t column row) substring != negated)
  | and left right => do if ← left.evaluate t row then right.evaluate t row else some false
  | or left right => do if ← left.evaluate t row then some true else right.evaluate t row

end CompiledPredicate

end RustHouse.Batch
