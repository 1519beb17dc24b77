import RustHouse.OrderedReduction
import RustHouse.ScalarFunctions
import RustHouse.SelectItems
import RustHouse.UnionJoin
import RustHouse.UnstableSort

/-!
# Rows of an ungrouped SELECT

How a projection is evaluated in a row, how rows are ordered by projections that
are not evaluated yet, and what the result will retain before it is built.
-/

namespace RustHouse.Batch

open Checked Exec Words
open OrderedReduction (collect)

/-! ## Values of columns -/

section
variable (t : Table)

def cmpAt (source left right : Nat) : Option Ordering := do
  let left ← t.valueAt source left
  let right ← t.valueAt source right
  some (left.cmp right)

def float64At (source row : Nat) : Option F64 :=
  match t.columns[source]? with
  | some (.float64 values) => values[row]?
  | _ => none

def boolAt (source row : Nat) : Option Bool :=
  match t.columns[source]? with
  | some (.bool values) => values[row]?
  | _ => none

def isNullAt (source row : Nat) : Option Bool :=
  (t.valueAt source row).map fun value => value = .null .int64

def ifNullInt64At (source row : Nat) (fallback : Int64) : Option Int64 := (t.valueAt source row).bind (ifNull fallback)

def int64ToFloat64At (source row : Nat) : Option Value := do
  match ← t.valueAt source row with
  | .int64 value => some (.float64 (.ofInt64 value))
  | .null .int64 => some (.null .float64)
  | _ => none

def int64ToBoolAt (source row : Nat) : Option Value := do
  match ← t.valueAt source row with
  | .int64 value => some (.bool (value ≠ 0))
  | .null .int64 => some (.null .bool)
  | _ => none

variable (float : FloatText)

def stringifyValue (source row : Nat) : Option Value := do
  match ← t.valueAt source row with
  | .null _ => some (.null .string)
  | .int64 value => (renderInt64 value).map .string
  | .float64 value => (renderFloat64 float value).map .string
  | .bool value => some (.string (renderBool value))
  | .string value => some (.string value)

def stringifiedLen (source row : Nat) : Option Nat := do
  match ← t.valueAt source row with
  | .null _ => some 0
  | .int64 value => some (int64Len value)
  | .float64 value => (renderFloat64 float value).map stringLen
  | .bool value => some (stringLen (renderBool value))
  | .string value => some (stringLen value)

def stringifiedCmp (source left right : Nat) : Option Ordering := do
  match ← t.valueAt source left, ← t.valueAt source right with
  | .null _, .null _ => some .eq
  | .null _, _ => some .lt
  | _, .null _ => some .gt
  | .int64 left, .int64 right => int64Cmp left right
  | .float64 left, .float64 right => float64Cmp float left right
  | .bool left, .bool right => some (compare (renderBool left) (renderBool right))
  | .string left, .string right => some (compare left right)
  | _, _ => none

end

/-! ## Projection -/

def checkedRowNumber (zeroBased : Nat) : Exec Error Int64 := getOr (tryInt64 (zeroBased + 1)) (.numericOverflow "ROW_NUMBER result")

def rowNumberValue (zeroBased : Nat) : Exec Error Value := do
  let value ← checkedRowNumber zeroBased
  .ok (.int64 value)

def validateRowNumberCount (rowCount : Nat) : Exec Error Unit :=
  if rowCount > 0 then do
    let _ ← checkedRowNumber (rowCount - 1)
    .ok ()
  else .ok ()

section
variable (float : FloatText) (t : Table)

def ResolvedItem.value (rowNumber row : Nat) : ResolvedItem → Exec Error Value
  | .column source _ | .castNullableInt64ToInt64 source _ => orPanic (t.valueAt source row)
  | .int64Subtract source literal => orPanic (t.valueAt source row) >>= checkedSubtract literal
  | .ifNullInt64 source fallback _ => orPanic ((ifNullInt64At t source row fallback).map .int64)
  | .isNull source _ => orPanic ((isNullAt t source row).map .bool)
  | .isNotNull source _ => orPanic ((isNullAt t source row).map fun null => .bool !null)
  | .castInt64ToFloat64 source => orPanic (int64ToFloat64At t source row)
  | .castBoolToFloat64 source =>
    orPanic ((boolAt t source row).map fun value => .float64 (if value then .one else .zero))
  | .castStringToFloat64 source => do
    let text ← orPanic (stringAt t source row)
    let value ← checkedStringToFloat64 float text
    .ok (.float64 value)
  | .castFloat64ToInt64 source => do
    let number ← orPanic (float64At t source row)
    let value ← checkedFloat64ToInt64 number
    .ok (.int64 value)
  | .castBoolToInt64 source => orPanic ((boolAt t source row).map fun value => .int64 (if value then 1 else 0))
  | .castStringToInt64 source => do
    let text ← orPanic (stringAt t source row)
    let value ← checkedStringToInt64 text
    .ok (.int64 value)
  | .castInt64ToBool source => orPanic (int64ToBoolAt t source row)
  | .castFloat64ToBool source => orPanic ((float64At t source row).map fun value => .bool value.isNonzero)
  | .castStringToBool source => do
    let text ← orPanic (stringAt t source row)
    let value ← checkedStringToBool text
    .ok (.bool value)
  | .castInt64ToString source | .castFloat64ToString source | .castBoolToString source | .toString source _ =>
    orPanic (stringifyValue t float source row)
  | .stringLength source => do
    let text ← orPanic (stringAt t source row)
    let length ← stringLengthToI64 (stringLen text)
    .ok (.int64 length)
  | .stringLengthUtf8 source => do
    let text ← orPanic (stringAt t source row)
    let length ← stringLengthUtf8ToI64 text
    .ok (.int64 length)
  | .stringEmpty source => orPanic ((stringAt t source row).map fun text => .int64 (if text = "" then 1 else 0))
  | .stringLower source => orPanic ((stringAt t source row).map fun text => .string (toAsciiLowercase text))
  | .stringUpper source => orPanic ((stringAt t source row).map fun text => .string (toAsciiUppercase text))
  | .int64Abs source => orPanic (t.valueAt source row) >>= checkedAbs
  | .float64Abs source => orPanic ((float64At t source row).map fun value => .float64 value.abs)
  | .float64Round source => orPanic ((float64At t source row).map fun value => .float64 value.round)
  | .float64Floor source => orPanic ((float64At t source row).map fun value => .float64 value.floor)
  | .float64Ceil source => orPanic ((float64At t source row).map fun value => .float64 value.ceil)
  | .rowNumber => rowNumberValue rowNumber
  | .aggregate _ => .panic

def executeProjectionRow (items : List ResolvedItem) (rowNumber row : Nat) : Exec Error (List Value) :=
  collect (items.map (ResolvedItem.value float t rowNumber row))

def executeProjection (rows : List Nat) (items : List ResolvedItem) : Exec Error (List (List Value)) :=
  collect (rows.zipIdx.map fun (row, rowNumber) => executeProjectionRow float t items rowNumber row)

end

/-! ## Bounded sorting -/

/-- The comparisons between elements are all defined; one that is not is a panic. -/
def allComparable {α : Type} (compare : α → α → Option Ordering) : List α → Bool
  | [] => true
  | a :: values => values.all (fun b => (compare a b).isSome && (compare b a).isSome) && allComparable compare values

def sortAndLimitBy {α : Type} (sorts : UnstableSort) (values : List α) (limit : Option Nat)
    (compare : α → α → Option Ordering) : Option (List α) :=
  if limit = some 0 then some []
  else if ¬ allComparable compare values then none
  else
    let order := fun left right => (compare left right).getD .eq
    match limit.filter (· < values.length) with
    | some limit => some (sorts.sort order ((sorts.selectNth order limit values).take limit))
    | none => some (sorts.sort order values)

/-! ## Ordering of rows -/

section
variable (float : FloatText) (t : Table)

def ResolvedItem.compare (left right : Nat) : ResolvedItem → Option Ordering
  -- Subtracting one constant is monotonic, also where it overflows.
  | .column source _ | .int64Subtract source _ | .castNullableInt64ToInt64 source _ => cmpAt t source left right
  | .ifNullInt64 source fallback _ => do
    let left ← ifNullInt64At t source left fallback
    let right ← ifNullInt64At t source right fallback
    some (Ord.compare left.toInt right.toInt)
  | .isNull source _ => do some (Ord.compare (← isNullAt t source left) (← isNullAt t source right))
  | .isNotNull source _ => do some (Ord.compare (!(← isNullAt t source left)) (!(← isNullAt t source right)))
  | .castInt64ToFloat64 source => do some ((← int64ToFloat64At t source left).cmp (← int64ToFloat64At t source right))
  | .castBoolToFloat64 source | .castBoolToInt64 source => do
    some (Ord.compare (← boolAt t source left) (← boolAt t source right))
  | .castStringToFloat64 source => do
    some ((orderingStringToFloat64 float (← stringAt t source left)).floatCmp
      (orderingStringToFloat64 float (← stringAt t source right)))
  | .castFloat64ToInt64 source => do some ((← float64At t source left).trunc.floatCmp (← float64At t source right).trunc)
  | .castStringToInt64 source => do decimalTextCmp (← stringAt t source left) (← stringAt t source right)
  | .castInt64ToBool source => do some ((← int64ToBoolAt t source left).cmp (← int64ToBoolAt t source right))
  | .castFloat64ToBool source => do
    some (Ord.compare (← float64At t source left).isNonzero (← float64At t source right).isNonzero)
  | .castStringToBool source => do
    some (Ord.compare (← boolText (← stringAt t source left)) (← boolText (← stringAt t source right)))
  | .castInt64ToString source | .castFloat64ToString source | .castBoolToString source | .toString source _ =>
    stringifiedCmp t float source left right
  | .stringLength source => do
    some (Ord.compare (stringLen (← stringAt t source left)) (stringLen (← stringAt t source right)))
  | .stringLengthUtf8 source => do
    some (Ord.compare (← stringAt t source left).toList.length (← stringAt t source right).toList.length)
  | .stringEmpty source => do
    some (Ord.compare (decide ((← stringAt t source left) = "")) (decide ((← stringAt t source right) = "")))
  | .stringLower source => do
    some (Ord.compare (toAsciiLowercase (← stringAt t source left)) (toAsciiLowercase (← stringAt t source right)))
  | .stringUpper source => do
    some (Ord.compare (toAsciiUppercase (← stringAt t source left)) (toAsciiUppercase (← stringAt t source right)))
  | .int64Abs source => do absCmp (← t.valueAt source left) (← t.valueAt source right)
  | .float64Abs source => do some ((← float64At t source left).abs.floatCmp (← float64At t source right).abs)
  | .float64Round source => do some ((← float64At t source left).round.floatCmp (← float64At t source right).round)
  | .float64Floor source => do some ((← float64At t source left).floor.floatCmp (← float64At t source right).floor)
  | .float64Ceil source => do some ((← float64At t source left).ceil.floatCmp (← float64At t source right).ceil)
  | .rowNumber | .aggregate _ => none

def descendingIf (descending : Bool) (comparison : Ordering) : Ordering :=
  if descending then comparison.swap else comparison

/-- The first key that tells two apart, or else what tells them apart without keys. -/
def compareOutputs (compareItem : ResolvedItem → Option Ordering) (tie : Option Ordering) (items : List ResolvedItem) :
    List ResolvedOrder → Option Ordering
  | [] => tie
  | order :: ordering => do
    let item ← items[order.output]?
    let comparison ← compareItem item
    if comparison ≠ .eq then some (descendingIf order.descending comparison)
    else compareOutputs compareItem tie items ordering

/-- Rows by their keys, and else by their positions. -/
def compareRows (items : List ResolvedItem) (ordering : List ResolvedOrder) (left right : Nat) : Option Ordering :=
  compareOutputs (ResolvedItem.compare float t left right) (some (Ord.compare left right)) items ordering

def validateOrderingText (row : Nat) : ResolvedItem → Exec Error Unit
  | .castStringToInt64 source => do
    let text ← orPanic (stringAt t source row)
    validateStringToInt64Syntax text
  | .castStringToFloat64 source => do
    let text ← orPanic (stringAt t source row)
    validateStringToFloat64Syntax text
  | .castStringToBool source => do
    let text ← orPanic (stringAt t source row)
    let _ ← checkedStringToBool text
    .ok ()
  | _ => .ok ()

def validateOrderingTexts (rows : List Nat) (items : List ResolvedItem) (ordering : List ResolvedOrder) :
    Exec Error Unit :=
  forEach (fun order => do
    let item ← orPanic items[order.output]?
    forEach (fun row => validateOrderingText t row item) rows) ordering

def lengthUtf8OrderingCacheEntryBytes : Nat := 16

def stringToFloat64OrderingCacheEntryBytes : Nat := 16

def rowNumberOrderingStateEntryBytes : Nat := 8

/-- The state of an ordering that keeps an entry for every row is charged before it is allocated. -/
def enforceOrderingState (rows entryBytes maxOrderingStateBytes : Nat) : Exec Error Unit :=
  enforceResourceLimit "SELECT ordering state bytes" (saturatingMul rows entryBytes) maxOrderingStateBytes

variable (sorts : UnstableSort)

def orderSourceRowsByLengthUtf8 (rows : List Nat) (source : Nat) (descending : Bool) (limit : Option Nat)
    (maxOrderingStateBytes : Nat) : Exec Error (List Nat) := do
  enforceOrderingState rows.length lengthUtf8OrderingCacheEntryBytes maxOrderingStateBytes
  if limit = some 0 then .ok []
  else do
    let cached ← orPanic (rows.mapM fun row => (stringAt t source row).map fun text => (row, text.toList.length))
    let cached ← orPanic (sortAndLimitBy sorts cached limit fun left right =>
      some ((descendingIf descending (Ord.compare left.2 right.2)).then (Ord.compare left.1 right.1)))
    .ok (cached.map (·.1))

/-- The rows with the numbers of their texts. -/
def cacheStringToFloat64 (source : Nat) (rows : List Nat) : Exec Error (List (Nat × F64)) :=
  collect (rows.map fun row => do
    let text ← orPanic (stringAt t source row)
    validateStringToFloat64Syntax text
    .ok (row, orderingStringToFloat64 float text))

def orderSourceRowsByStringToFloat64 (rows : List Nat) (source : Nat) (descending : Bool) (limit : Option Nat)
    (maxOrderingStateBytes : Nat) : Exec Error (List Nat) := do
  enforceOrderingState rows.length stringToFloat64OrderingCacheEntryBytes maxOrderingStateBytes
  if limit = some 0 then .ok []
  else do
    let cached ← cacheStringToFloat64 float t source rows
    let cached ← orPanic (sortAndLimitBy sorts cached limit fun left right =>
      some ((descendingIf descending (left.2.floatCmp right.2)).then (Ord.compare left.1 right.1)))
    .ok (cached.map (·.1))

/-- Rows by any keys, none of which is kept. -/
def orderSourceRowsByItems (rows : List Nat) (items : List ResolvedItem) (ordering : List ResolvedOrder)
    (limit : Option Nat) : Exec Error (List Nat) :=
  if limit = some 0 then .ok []
  else do
    validateOrderingTexts t rows items ordering
    orPanic (sortAndLimitBy sorts rows limit (compareRows float t items ordering))

def orderSourceRows (rows : List Nat) (items : List ResolvedItem) (ordering : List ResolvedOrder) (limit : Option Nat)
    (maxOrderingStateBytes : Nat) : Exec Error (List Nat) :=
  match ordering with
  | [] => .ok (limit.elim rows rows.take)
  | [order] => do
    let item ← orPanic items[order.output]?
    match item with
    | .stringLengthUtf8 source =>
      orderSourceRowsByLengthUtf8 t sorts rows source order.descending limit maxOrderingStateBytes
    | .castStringToFloat64 source =>
      orderSourceRowsByStringToFloat64 float t sorts rows source order.descending limit maxOrderingStateBytes
    | _ => orderSourceRowsByItems float t sorts rows items ordering limit
  | _ => orderSourceRowsByItems float t sorts rows items ordering limit

def orderWindowRows (rows : List Nat) (ordering : ResolvedWindowOrder) (limit : Option Nat) : Option (List Nat) :=
  sortAndLimitBy sorts rows limit fun left right => do
    let comparison ← cmpAt t ordering.source left right
    some ((descendingIf ordering.descending comparison).then (Ord.compare left right))

end

def applyOffset (rows : List Nat) (offset : Nat) : List Nat := rows.drop offset

/-! ## Admission -/

def validateSelectResultShape (rowCount columnCount : Nat) (columns : List ResultColumn) (limits : QueryResultLimits)
    (resultPrefix : Option SelectResultPrefix) : Exec Error Nat := do
  let combinedRowCount := resultPrefix.elim rowCount fun first => saturatingAdd first.rowCount rowCount
  let outputColumns := resultPrefix.elim columns fun first => first.columns
  let shapeBytes ← validateResultShape combinedRowCount columnCount outputColumns limits selectResultResources
  let bytes := saturatingAdd shapeBytes (resultPrefix.elim 0 fun first => first.stringBytes)
  enforceResourceLimit selectResultResources.bytes bytes limits.maxBytes
  .ok bytes

section
variable (float : FloatText) (t : Table)

/-- The bytes that an item is charged for beyond its cell, if it can be charged for any. -/
def ResolvedItem.stringBytes (row : Nat) : ResolvedItem → Option (Option Nat)
  | .column source _ | .stringLower source | .stringUpper source | .toString source .string =>
    (t.valueAt source row).map fun
      | .string value => some (stringLen value)
      | _ => none
  | .castInt64ToString source | .castFloat64ToString source | .castBoolToString source | .toString source _ =>
    (stringifiedLen t float source row).map some
  | .aggregate _ => none
  | _ => some none

/-- The running total of bytes, checked at every text. -/
def chargeBytes (maxBytes bytes : Nat) : List (Option (Option Nat)) → Exec Error Nat
  | [] => .ok bytes
  | none :: _ => .panic
  | some none :: charges => chargeBytes maxBytes bytes charges
  | some (some length) :: charges => do
    let bytes := saturatingAdd bytes length
    enforceResourceLimit "SELECT result bytes" bytes maxBytes
    chargeBytes maxBytes bytes charges

def validateProjectionResultLimits (rows : List Nat) (items : List ResolvedItem) (columns : List ResultColumn)
    (limits : QueryResultLimits) (resultPrefix : Option SelectResultPrefix) : Exec Error Unit := do
  let bytes ← validateSelectResultShape rows.length items.length columns limits resultPrefix
  let _ ← chargeBytes limits.maxBytes bytes (rows.flatMap fun row => items.map (ResolvedItem.stringBytes float t row))
  .ok ()

end

end RustHouse.Batch
