import RustHouse.DatabaseStatements
import RustHouse.SqlSelect

/-!
# Resolution of SELECT

What the names of a `SELECT` refer to, before a row is read: the columns behind
its projections, the aggregates and their arguments, the groups, and the outputs
that `HAVING` and `ORDER BY` mention.
-/

namespace RustHouse.Batch

open Checked Exec Words

/-! ## Shapes -/

def SelectItem.isUnaliasedColumn : SelectItem → Bool
  | column _ none => true
  | _ => false

def validateDistinctShape (select : Select) : Exec Error Unit :=
  if ¬ select.distinct then .ok ()
  else
    let unaliasedColumns : Bool := select.items ≠ [] ∧ select.items.all SelectItem.isUnaliasedColumn
    rejectIf (¬ unaliasedColumns ∨ select.groupBy ≠ [] ∨ select.having.isSome)
      (.invalidQuery "SELECT DISTINCT supports one or more unaliased columns, an optional WHERE predicate, optional ordering by projected physical columns, and optional LIMIT <count> [OFFSET <offset>] or LIMIT <offset>, <count> pagination")

def validateRowNumberShape (select : Select) : Exec Error Unit :=
  match rowNumberShapeMessage select with
  | some message => .error (.invalidQuery message)
  | none => .ok ()

def validateOffsetShape (select : Select) : Exec Error Unit :=
  if select.offset.isNone then .ok ()
  else do
    rejectIf select.limit.isNone (.invalidQuery "OFFSET requires LIMIT <count>")
    rejectIf (select.items.any SelectItem.isRowNumber)
      (.invalidQuery "OFFSET is not supported for ROW_NUMBER projections")

/-- How many rows are selected before the offset drops some. -/
def checkedSelectionLimit (limit offset : Option Nat) : Exec Error (Option Nat) :=
  match limit with
  | none => .ok none
  | some limit =>
    getOr ((checkedAdd limit (offset.getD 0)).map some) (.numericOverflow "LIMIT + OFFSET selection bound")

/-! ## Resolved projections -/

inductive ResolvedItem where
  | column (source : Nat) (groupPosition : Option Nat)
  | int64Subtract (source : Nat) (literal : Int64)
  | ifNullInt64 (source : Nat) (fallback : Int64) (groupPosition : Option Nat)
  | isNull (source : Nat) (groupPosition : Option Nat)
  | isNotNull (source : Nat) (groupPosition : Option Nat)
  | castNullableInt64ToInt64 (source : Nat) (groupPosition : Option Nat)
  | castInt64ToFloat64 (source : Nat)
  | castBoolToFloat64 (source : Nat)
  | castStringToFloat64 (source : Nat)
  | castFloat64ToInt64 (source : Nat)
  | castBoolToInt64 (source : Nat)
  | castStringToInt64 (source : Nat)
  | castInt64ToBool (source : Nat)
  | castFloat64ToBool (source : Nat)
  | castStringToBool (source : Nat)
  | castInt64ToString (source : Nat)
  | castFloat64ToString (source : Nat)
  | castBoolToString (source : Nat)
  | toString (source : Nat) (inputType : DataType)
  | stringLength (source : Nat)
  | stringLengthUtf8 (source : Nat)
  | stringEmpty (source : Nat)
  | stringLower (source : Nat)
  | stringUpper (source : Nat)
  | int64Abs (source : Nat)
  | float64Abs (source : Nat)
  | float64Round (source : Nat)
  | float64Floor (source : Nat)
  | float64Ceil (source : Nat)
  | rowNumber
  | aggregate (state : Nat)
  deriving DecidableEq

structure AggregateSpec where
  function : AggregateFunction
  argument : Option Nat
  inputType : Option DataType
  deriving DecidableEq

def aggregateOutputType : AggregateFunction → (inputType : Option DataType) → Option DataType
  | .count, _ | .countIf, _ => some .int64
  | .avg, _ => some .float64
  | .sum, inputType | .min, inputType | .max, inputType => inputType

def validateAggregate (function : AggregateFunction) (inputType : Option DataType) : Exec Error Unit := do
  let actual := inputType.elim "*" DataType.asStr
  rejectIf (function = .countIf ∧ inputType ≠ some .bool)
    (.typeMismatch s!"{function.name} argument" DataType.bool.asStr actual)
  rejectIf ((function = .sum ∨ function = .avg) ∧ inputType ≠ some .int64 ∧ inputType ≠ some .float64)
    (.typeMismatch s!"{function.name} argument" "Int64 or Float64" actual)

/-- What the items of a `SELECT` come to. -/
structure ResolvedItems where
  items : List ResolvedItem
  resultColumns : List ResultColumn
  aggregateSpecs : List AggregateSpec
  deriving DecidableEq

def ResolvedItems.one (item : ResolvedItem) (resultColumn : ResultColumn) : ResolvedItems := ⟨[item], [resultColumn], []⟩

/-! ## Items -/

section
variable (t : Table)

def columnIsNullableInt64 (column : Nat) : Exec Error Bool := do
  let physical ← orPanic t.columns[column]?
  .ok physical.isNullableInt64

def rejectNullableOperation (column : Nat) (operation : String) : Exec Error Unit := do
  let nullable ← columnIsNullableInt64 t column
  let field ← orPanic t.schema[column]?
  rejectIf nullable (.unsupportedNullableOperation t.name field.name operation)

variable (hasAggregate : Bool) (groupColumns : List Nat)

/-- Whether the query forms groups. -/
def isGrouped : Bool := hasAggregate || groupColumns ≠ []

/-- The place of a column among the groups, which it needs in a grouped query. -/
def groupPositionOf (name : String) (source : Nat) : Exec Error (Option Nat) :=
  let groupPosition := groupColumns.idxOf? source
  if isGrouped hasAggregate groupColumns ∧ groupPosition.isNone then
    .error (.invalidQuery s!"column '{name}' must appear in GROUP BY")
  else .ok groupPosition

def rejectGrouped (function : String) : Exec Error Unit :=
  rejectIf (isGrouped hasAggregate groupColumns)
    (.invalidQuery s!"{function} projections are only supported in ungrouped SELECT queries")

/-- `*`: every column of the table, each of which a grouped query has to group by. -/
def resolveWildcard : (source : Nat) → List ColumnDef → Exec Error ResolvedItems
  | _, [] => .ok ⟨[], [], []⟩
  | source, field :: fields => do
    let groupPosition := groupColumns.idxOf? source
    rejectIf (groupColumns ≠ [] ∧ groupPosition.isNone)
      (.invalidQuery s!"column '{field.name}' must appear in GROUP BY")
    let rest ← resolveWildcard (source + 1) fields
    .ok ⟨.column source groupPosition :: rest.items, ⟨field.name, field.dataType⟩ :: rest.resultColumns, []⟩

/-- A projection that a grouped query may only derive from a group. -/
def resolveGroupable (name : String) (aliasName : Option String) (source : Nat) (item : Option Nat → ResolvedItem)
    (defaultName : String → String) (dataType : DataType) : Exec Error ResolvedItems := do
  let groupPosition ← groupPositionOf hasAggregate groupColumns name source
  let field ← orPanic t.schema[source]?
  .ok (.one (item groupPosition) ⟨aliasName.getD (defaultName field.name), dataType⟩)

/-- A function of one column of one type that a grouped query does not have. -/
def resolveScalar (function name : String) (aliasName : Option String) (argumentType : DataType)
    (item : Nat → ResolvedItem) (dataType : DataType) : Exec Error ResolvedItems := do
  let source ← t.columnIndex name
  let field ← orPanic t.schema[source]?
  rejectIf (field.dataType ≠ argumentType)
    (.typeMismatch s!"{function} argument '{name}'" argumentType.asStr field.dataType.asStr)
  rejectGrouped hasAggregate groupColumns function
  .ok (.one (item source) ⟨aliasName.getD s!"{function}({field.name})", dataType⟩)

def castItem (actual targetType : DataType) (nullable : Bool) (source : Nat) (groupPosition : Option Nat) :
    Option ResolvedItem :=
  match actual, targetType with
  | .int64, .int64 => if nullable then some (.castNullableInt64ToInt64 source groupPosition) else none
  | .int64, .float64 => some (.castInt64ToFloat64 source)
  | .bool, .float64 => some (.castBoolToFloat64 source)
  | .string, .float64 => some (.castStringToFloat64 source)
  | .float64, .int64 => some (.castFloat64ToInt64 source)
  | .bool, .int64 => some (.castBoolToInt64 source)
  | .string, .int64 => some (.castStringToInt64 source)
  | .int64, .bool => some (.castInt64ToBool source)
  | .float64, .bool => some (.castFloat64ToBool source)
  | .string, .bool => some (.castStringToBool source)
  | .int64, .string => some (.castInt64ToString source)
  | .float64, .string => some (.castFloat64ToString source)
  | .bool, .string => some (.castBoolToString source)
  | _, _ => none

def castArgumentTypes : (targetType : DataType) → String
  | .float64 => "Int64, Bool, or String"
  | .bool => "Int64, Float64, or String"
  | .int64 => "Float64, Bool, or String"
  | .string => "Int64, Float64, or Bool"

/-- Only the cast of a nullable group key has a place in a grouped query. -/
def validateGroupedCast (name : String) (item : ResolvedItem) : Exec Error Unit :=
  if ¬ isGrouped hasAggregate groupColumns then .ok ()
  else
    match item with
    | .castNullableInt64ToInt64 _ (some _) => .ok ()
    | .castNullableInt64ToInt64 _ none => .error (.invalidQuery s!"column '{name}' must appear in GROUP BY")
    | _ => .error (.invalidQuery "CAST projections are only supported in ungrouped SELECT queries")

def resolveCast (name : String) (targetType : DataType) (aliasName : Option String) : Exec Error ResolvedItems := do
  let source ← t.columnIndex name
  let field ← orPanic t.schema[source]?
  let nullable ← columnIsNullableInt64 t source
  let item ← getOr (castItem field.dataType targetType nullable source (groupColumns.idxOf? source))
    (.typeMismatch s!"CAST argument '{name}'" (castArgumentTypes targetType) field.dataType.asStr)
  validateGroupedCast hasAggregate groupColumns name item
  .ok (.one item ⟨aliasName.getD s!"CAST({field.name} AS {targetType.asStr})", targetType⟩)

def absItem (source : Nat) : (actual : DataType) → Option ResolvedItem
  | .int64 => some (.int64Abs source)
  | .float64 => some (.float64Abs source)
  | _ => none

def resolveAbs (name : String) (aliasName : Option String) : Exec Error ResolvedItems := do
  let source ← t.columnIndex name
  let field ← orPanic t.schema[source]?
  let item ← getOr (absItem source field.dataType)
    (.typeMismatch s!"ABS argument '{name}'" "Int64 or Float64" field.dataType.asStr)
  rejectGrouped hasAggregate groupColumns "ABS"
  .ok (.one item ⟨aliasName.getD s!"ABS({field.name})", field.dataType⟩)

def resolveAggregateArgument (function : AggregateFunction) :
    AggregateArgument → Exec Error (Option (Nat × DataType) × String)
  | .empty => do
    rejectIf (function ≠ .count) (.invalidQuery s!"{function.name}() is not supported; use a column argument")
    .ok (none, "")
  | .wildcard => do
    rejectIf (function ≠ .count) (.invalidQuery s!"{function.name}(*) is not supported; use a column argument")
    .ok (none, "*")
  | .column name => do
    let index ← t.columnIndex name
    let field ← orPanic t.schema[index]?
    .ok (some (index, field.dataType), field.name)

/-- All aggregates but `countIf` take nullable integers. -/
def validateNullableArgument (function : AggregateFunction) : Option (Nat × DataType) → Exec Error Unit
  | none => .ok ()
  | some (argument, _) => do
    let nullable ← columnIsNullableInt64 t argument
    if function ≠ .countIf ∧ nullable then .ok () else rejectNullableOperation t argument function.name

def resolveAggregate (state : Nat) (function : AggregateFunction) (argument : AggregateArgument)
    (aliasName : Option String) : Exec Error ResolvedItems := do
  let (argument, argumentName) ← resolveAggregateArgument t function argument
  let inputType := argument.map (·.2)
  validateAggregate function inputType
  validateNullableArgument t function argument
  let dataType ← orPanic (aggregateOutputType function inputType)
  .ok ⟨[.aggregate state], [⟨aliasName.getD s!"{function.name}({argumentName})", dataType⟩],
    [⟨function, argument.map (·.1), inputType⟩]⟩

def resolveSelectItem (state : Nat) : SelectItem → Exec Error ResolvedItems
  | .wildcard => resolveWildcard groupColumns 0 t.schema
  | .column name aliasName => do
    let source ← t.columnIndex name
    let field ← orPanic t.schema[source]?
    resolveGroupable t hasAggregate groupColumns name aliasName source (.column source) id field.dataType
  | .int64Subtract name literal aliasName => do
    let source ← t.columnIndex name
    let field ← orPanic t.schema[source]?
    rejectIf (field.dataType ≠ .int64)
      (.typeMismatch s!"Int64 subtraction argument '{name}'" DataType.int64.asStr field.dataType.asStr)
    rejectGrouped hasAggregate groupColumns "Int64 subtraction"
    .ok (.one (.int64Subtract source literal) ⟨aliasName.getD (int64SubtractionName field.name literal), .int64⟩)
  | .ifNullInt64 name fallback aliasName => do
    let source ← t.columnIndex name
    let physical ← orPanic t.columns[source]?
    rejectIf (¬ physical.isNullableInt64)
      (.typeMismatch s!"ifNull first argument '{name}'" "Nullable(Int64)" physical.metadataTypeName)
    resolveGroupable t hasAggregate groupColumns name aliasName source (.ifNullInt64 source fallback)
      (ifNullInt64Name · fallback) .int64
  | .isNull name aliasName => do
    let source ← t.columnIndex name
    resolveGroupable t hasAggregate groupColumns name aliasName source (.isNull source) isNullName .bool
  | .isNotNull name aliasName => do
    let source ← t.columnIndex name
    resolveGroupable t hasAggregate groupColumns name aliasName source (.isNotNull source) isNotNullName .bool
  | .cast name targetType aliasName => resolveCast t hasAggregate groupColumns name targetType aliasName
  | .toString name aliasName => do
    let source ← t.columnIndex name
    rejectGrouped hasAggregate groupColumns "toString"
    let field ← orPanic t.schema[source]?
    .ok (.one (.toString source field.dataType) ⟨aliasName.getD s!"toString({field.name})", .string⟩)
  | .length name aliasName =>
    resolveScalar t hasAggregate groupColumns "LENGTH" name aliasName .string .stringLength .int64
  | .lengthUtf8 name aliasName =>
    resolveScalar t hasAggregate groupColumns "lengthUTF8" name aliasName .string .stringLengthUtf8 .int64
  | .empty name aliasName =>
    resolveScalar t hasAggregate groupColumns "empty" name aliasName .string .stringEmpty .int64
  | .lower name aliasName =>
    resolveScalar t hasAggregate groupColumns "LOWER" name aliasName .string .stringLower .string
  | .upper name aliasName =>
    resolveScalar t hasAggregate groupColumns "UPPER" name aliasName .string .stringUpper .string
  | .abs name aliasName => resolveAbs t hasAggregate groupColumns name aliasName
  | .round name aliasName =>
    resolveScalar t hasAggregate groupColumns "ROUND" name aliasName .float64 .float64Round .float64
  | .floor name aliasName =>
    resolveScalar t hasAggregate groupColumns "FLOOR" name aliasName .float64 .float64Floor .float64
  | .ceil name aliasName =>
    resolveScalar t hasAggregate groupColumns "CEIL" name aliasName .float64 .float64Ceil .float64
  | .rowNumber _ aliasName => .ok (.one .rowNumber ⟨aliasName.getD "ROW_NUMBER()", .int64⟩)
  | .aggregate function argument aliasName => resolveAggregate t state function argument aliasName

def resolveItemsFrom (state : Nat) : List SelectItem → Exec Error ResolvedItems
  | [] => .ok ⟨[], [], []⟩
  | item :: requested => do
    let first ← resolveSelectItem t hasAggregate groupColumns state item
    let rest ← resolveItemsFrom (state + first.aggregateSpecs.length) requested
    .ok ⟨first.items ++ rest.items, first.resultColumns ++ rest.resultColumns,
      first.aggregateSpecs ++ rest.aggregateSpecs⟩

end

def SelectItem.isWildcard : SelectItem → Bool
  | wildcard => true
  | _ => false

def resolveSelectItems (t : Table) (requested : List SelectItem) (groupColumns : List Nat) :
    Exec Error ResolvedItems := do
  let hasAggregate := requested.any SelectItem.isAggregate
  rejectIf (hasAggregate ∧ requested.any SelectItem.isWildcard)
    (.invalidQuery "'*' projection cannot be combined with aggregates")
  resolveItemsFrom t hasAggregate groupColumns 0 requested

/-! ## Groups -/

section
variable (t : Table)

/-- The columns of `DISTINCT`; its shape was validated before. -/
def resolveDistinctColumns (columns : List Nat) : List SelectItem → Exec Error (List Nat)
  | [] => .ok columns
  | .column name none :: items => do
    let column ← t.columnIndex name
    rejectIf (column ∈ columns) (.invalidQuery s!"DISTINCT column '{name}' is listed more than once")
    resolveDistinctColumns (columns ++ [column]) items
  | _ :: _ => .panic

/-- `text.split_once(" AS ")`. -/
def splitAtAs : List Char → Option (List Char × List Char)
  | [] => none
  | c :: text =>
    if " AS ".toList.isPrefixOf (c :: text) then some ([], (c :: text).drop 4)
    else (splitAtAs text).map fun (before, behind) => (c :: before, behind)

/-- The column and the type of a key of the form that the parser gives to a cast. -/
def groupByCast (expression : String) : Option (String × String) :=
  let characters := expression.toList
  if "CAST(".toList.isPrefixOf characters ∧ (characters.drop 5).getLast? = some ')' then
    (splitAtAs (characters.drop 5).dropLast).map fun (name, targetType) => (.ofList name, .ofList targetType)
  else none

/-- One key: the name that stands in errors, and the column. -/
def resolveGroupKey (expression : String) : Exec Error (String × Nat) :=
  match groupByCast expression with
  | some (name, targetType) => do
    let column ← t.columnIndex name
    let nullable ← columnIsNullableInt64 t column
    rejectIf (DataType.parse targetType ≠ some .int64 ∨ ¬ nullable)
      (.invalidQuery "GROUP BY CAST only supports CAST(Nullable(Int64) AS Int64)")
    .ok (name, column)
  | none => do
    let column ← t.columnIndex expression
    .ok (expression, column)

def resolveGroupColumns (columns : List Nat) : (expressions : List String) → Exec Error (List Nat)
  | [] => .ok columns
  | expression :: expressions => do
    let (name, column) ← resolveGroupKey t expression
    rejectIf (column ∈ columns) (.invalidQuery s!"GROUP BY column '{name}' is listed more than once")
    resolveGroupColumns (columns ++ [column]) expressions

end

/-! ## HAVING -/

inductive ResolvedHavingPredicate where
  | comparison (operator : ComparisonOperator) (value : Value)
  | isNull
  | isNotNull
  deriving DecidableEq

structure ResolvedHaving where
  state : Nat
  predicate : ResolvedHavingPredicate
  deriving DecidableEq

def outputsNamed (names : List String) (name : String) : List Nat :=
  (names.zipIdx.filter fun (other, _) => eqIgnoreAsciiCase other name).map (·.2)

def havingRequirement : HavingPredicate → String
  | .comparison .. => "a projected numeric aggregate"
  | _ => "a projected aggregate"

def validateHavingThreshold : Value → Exec Error Unit
  | .int64 _ => .ok ()
  | .float64 value => rejectIf (¬ value.isFinite) (.invalidQuery "HAVING comparison Float64 thresholds must be finite")
  | .null _ => .error (.invalidQuery "HAVING comparisons do not support NULL thresholds")
  | value => .error (.typeMismatch "HAVING comparison threshold" "Int64 or Float64" value.dataType.asStr)

def resolveHavingPredicate (aliasName : String) (spec : AggregateSpec) :
    HavingPredicate → Exec Error ResolvedHavingPredicate
  | .comparison operator value => do
    let dataType ← orPanic (aggregateOutputType spec.function spec.inputType)
    rejectIf (dataType ≠ .int64 ∧ dataType ≠ .float64)
      (.invalidQuery s!"HAVING alias '{aliasName}' must reference a projected numeric aggregate")
    validateHavingThreshold value
    .ok (.comparison operator value)
  | .isNull => .ok .isNull
  | .isNotNull => .ok .isNotNull

def havingOutput (columnNames : List String) (aliasName : String) : Exec Error Nat :=
  match outputsNamed columnNames aliasName with
  | [output] => .ok output
  | [] => .error (.invalidQuery s!"HAVING alias '{aliasName}' is not in the SELECT output")
  | _ => .error (.invalidQuery s!"HAVING alias '{aliasName}' is ambiguous")

def resolveHaving (resolved : ResolvedItems) (requested : Having) : Exec Error ResolvedHaving := do
  let output ← havingOutput (resolved.resultColumns.map (·.name)) requested.aliasName
  let item ← orPanic resolved.items[output]?
  match item with
  | .aggregate state => do
    let spec ← orPanic resolved.aggregateSpecs[state]?
    let predicate ← resolveHavingPredicate requested.aliasName spec requested.predicate
    .ok ⟨state, predicate⟩
  | _ => .error (.invalidQuery
      s!"HAVING alias '{requested.aliasName}' must reference {havingRequirement requested.predicate}")

/-! ## Orderings -/

structure ResolvedOrder where
  output : Nat
  descending : Bool
  deriving DecidableEq

def resolvedExpressionName (t : Table) (aggregateSpecs : List AggregateSpec) : ResolvedItem → Option String
  | .column source _ => nameAt source
  | .int64Subtract source literal => (nameAt source).map (int64SubtractionName · literal)
  | .ifNullInt64 source fallback _ => (nameAt source).map (ifNullInt64Name · fallback)
  | .isNull source _ => (nameAt source).map isNullName
  | .isNotNull source _ => (nameAt source).map isNotNullName
  | .castInt64ToFloat64 source | .castBoolToFloat64 source | .castStringToFloat64 source => castName source .float64
  | .castNullableInt64ToInt64 source _ | .castFloat64ToInt64 source | .castBoolToInt64 source
  | .castStringToInt64 source => castName source .int64
  | .castInt64ToBool source | .castFloat64ToBool source | .castStringToBool source => castName source .bool
  | .castInt64ToString source | .castFloat64ToString source | .castBoolToString source => castName source .string
  | .toString source _ => callName "toString" source
  | .stringLength source => callName "LENGTH" source
  | .stringLengthUtf8 source => callName "lengthUTF8" source
  | .stringEmpty source => callName "empty" source
  | .stringLower source => callName "LOWER" source
  | .stringUpper source => callName "UPPER" source
  | .int64Abs source | .float64Abs source => callName "ABS" source
  | .float64Round source => callName "ROUND" source
  | .float64Floor source => callName "FLOOR" source
  | .float64Ceil source => callName "CEIL" source
  | .rowNumber => some "ROW_NUMBER()"
  | .aggregate state => do
    let spec ← aggregateSpecs[state]?
    let argument ← spec.argument.elim (some "*") nameAt
    some s!"{spec.function.name}({argument})"
where
  nameAt (source : Nat) : Option String := t.schema[source]?.map (·.name)
  castName (source : Nat) (targetType : DataType) : Option String :=
    (nameAt source).map fun name => s!"CAST({name} AS {targetType.asStr})"
  callName (function : String) (source : Nat) : Option String := (nameAt source).map fun name => s!"{function}({name})"

/-- The output that one key orders by. -/
def resolveOrder (columnNames expressionNames : List String) (order : OrderBy) : Exec Error ResolvedOrder :=
  let outputMatches := outputsNamed columnNames order.name
  match if outputMatches = [] then outputsNamed expressionNames order.name else outputMatches with
  | [output] => .ok ⟨output, order.descending⟩
  | [] => .error (.invalidQuery s!"ORDER BY column or alias '{order.name}' is not in the SELECT output")
  | _ => .error (.invalidQuery s!"ORDER BY name '{order.name}' is ambiguous")

def resolveOrders (columnNames expressionNames : List String) : List OrderBy → Exec Error (List ResolvedOrder)
  | [] => .ok []
  | order :: requested => do
    let first ← resolveOrder columnNames expressionNames order
    let rest ← resolveOrders columnNames expressionNames requested
    .ok (first :: rest)

def resolveOrdering (t : Table) (resolved : ResolvedItems) (requested : List OrderBy) :
    Exec Error (List ResolvedOrder) :=
  if requested = [] then .ok []
  else do
    let expressionNames ← orPanic (resolved.items.mapM (resolvedExpressionName t resolved.aggregateSpecs))
    resolveOrders (resolved.resultColumns.map (·.name)) expressionNames requested

/-! ## Windows -/

structure ResolvedWindowOrder where
  source : Nat
  descending : Bool
  deriving DecidableEq

def rowNumberOrders (items : List SelectItem) : List (Option OrderBy) :=
  items.filterMap fun
    | .rowNumber orderBy _ => some orderBy
    | _ => none

def sameWindowOrder : Option OrderBy → Option OrderBy → Bool
  | none, none => true
  | some left, some right => left.descending == right.descending && eqIgnoreAsciiCase left.name right.name
  | _, _ => false

def resolveWindowOrder (t : Table) (order : OrderBy) : Exec Error ResolvedWindowOrder := do
  let source ← t.columnIndex order.name
  let field ← orPanic t.schema[source]?
  rejectIf (field.dataType ≠ .int64)
    (.typeMismatch s!"ROW_NUMBER ORDER BY column '{order.name}'" DataType.int64.asStr field.dataType.asStr)
  .ok ⟨source, order.descending⟩

def resolveRowNumberOrdering (t : Table) (items : List SelectItem) : Exec Error (Option ResolvedWindowOrder) :=
  match rowNumberOrders items with
  | [] => .ok none
  | first :: orders => do
    rejectIf (orders.any fun order => ¬ sameWindowOrder first order)
      (.invalidQuery "all ROW_NUMBER projections must use the same window ordering")
    match first with
    | none => .ok none
    | some order => do
      let ordering ← resolveWindowOrder t order
      .ok (some ordering)

end RustHouse.Batch
