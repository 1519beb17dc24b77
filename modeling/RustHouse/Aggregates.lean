import RustHouse.AggregateScheduler
import RustHouse.ValueCmp

/-!
# Aggregates over matching rows

The reducers for single aggregates. Each scans the rows of a lane into a partial
result and merges partial results in the order of the lanes, with checked
arithmetic. `values[row]` panics for a row outside the column.
-/

namespace RustHouse.Batch

open Checked Exec OrderedReduction

def checkedAddSigned (bits : Nat) (a b : Int) : Option Int :=
  if -2 ^ (bits - 1) ≤ a + b ∧ a + b < 2 ^ (bits - 1) then some (a + b) else none

/-! ## Counts -/

/-- The scans of `count` and `countIf` over all rows. -/
def countStep (operation : String) (total : Int) (counted : Bool) : Exec Error Int :=
  if counted then getOr (checkedAddSigned 64 total 1) (.numericOverflow operation) else .ok total

def countMerge (operation : String) (total count : Int) : Exec Error Int :=
  getOr (checkedAddSigned 64 total count) (.numericOverflow operation)

def nullableInt64CountChunk (values : List (Option Int64)) (matchingRows : List Nat) : Exec Error Int :=
  scanFrom (fun count row => do
    let value ← orPanic values[row]?
    countStep "COUNT" count value.isSome) 0 matchingRows

def reduceNullableInt64CountPartials (partialCounts : List Int) : Exec Error Int :=
  scanFrom (countMerge "COUNT") 0 partialCounts

def reduceGlobalNullableInt64Count (lanes : Lanes) (values : List (Option Int64)) (matchingRows : List Nat) :
    Exec Error Int :=
  runGroupedAggregate lanes matchingRows (nullableInt64CountChunk values) reduceNullableInt64CountPartials

def countIfChunk (values : List Bool) (matchingRows : List Nat) : Exec Error Int :=
  scanFrom (fun count row => do
    let value ← orPanic values[row]?
    countStep "countIf" count value) 0 matchingRows

def reduceCountIfCounts (partialCounts : List Int) : Exec Error Int :=
  scanFrom (countMerge "countIf") 0 partialCounts

/-- The count of `count_global_count_if` over a column of truth values. -/
def reduceGlobalCountIf (lanes : Lanes) (values : List Bool) (matchingRows : List Nat) : Exec Error Int :=
  runGroupedAggregate lanes matchingRows (countIfChunk values) reduceCountIfCounts

/-! ## Sums and averages of integers -/

/-- Both share the exact sum and the number of present values. -/
inductive SumOperation where
  | sum
  | avg
  deriving DecidableEq, Repr

namespace SumOperation

def sumOverflowContext : SumOperation → String
  | sum => "SUM(Int64) exact sum"
  | avg => "AVG(Int64) sum"

def countOverflowContext : SumOperation → String
  | sum => "SUM count"
  | avg => "AVG count"

end SumOperation

namespace GlobalInt64SumAvg

structure Partial where
  sum : Int
  count : Nat
  deriving DecidableEq, Repr

def Partial.default : Partial := ⟨0, 0⟩

def Partial.observe (operation : SumOperation) (total : Partial) (value : Int64) : Exec Error Partial := do
  let sum ← getOr (checkedAddSigned 128 total.sum value.toInt) (.numericOverflow operation.sumOverflowContext)
  let count ← getOr (checkedAdd total.count 1) (.numericOverflow operation.countOverflowContext)
  .ok ⟨sum, count⟩

def Partial.merge (operation : SumOperation) (total part : Partial) : Exec Error Partial := do
  let sum ← getOr (checkedAddSigned 128 total.sum part.sum) (.numericOverflow operation.sumOverflowContext)
  let count ← getOr (checkedAdd total.count part.count) (.numericOverflow operation.countOverflowContext)
  .ok ⟨sum, count⟩

def scanInt64Chunk (operation : SumOperation) (values : List Int64) (matchingRows : List Nat) : Exec Error Partial :=
  scanFrom (fun total row => do
    let value ← orPanic values[row]?
    total.observe operation value) .default matchingRows

def scanNullableInt64Chunk (operation : SumOperation) (values : List (Option Int64)) (matchingRows : List Nat) :
    Exec Error Partial :=
  scanFrom (fun total row => do
    let value ← orPanic values[row]?
    match value with
    | some value => total.observe operation value
    | none => .ok total) .default matchingRows

def reduceOrdered (operation : SumOperation) (partials : List Partial) : Exec Error Partial :=
  scanFrom (Partial.merge operation) .default partials

def reduceInt64 (lanes : Lanes) (operation : SumOperation) (values : List Int64) (matchingRows : List Nat) :
    Exec Error Partial :=
  runGroupedAggregate lanes matchingRows (scanInt64Chunk operation values) (reduceOrdered operation)

def reduceNullableInt64 (lanes : Lanes) (operation : SumOperation) (values : List (Option Int64))
    (matchingRows : List Nat) : Exec Error Partial :=
  runGroupedAggregate lanes matchingRows (scanNullableInt64Chunk operation values) (reduceOrdered operation)

end GlobalInt64SumAvg

/-! ## Extremes -/

def firstFloat64Minimum (left right : F64) : F64 := if right.floatCmp left = .lt then right else left

def firstFloat64Maximum (left right : F64) : F64 := if right.floatCmp left = .gt then right else left

def firstInt64Minimum (left right : Int64) : Int64 := if right < left then right else left

def firstInt64Maximum (left right : Int64) : Int64 := if right > left then right else left

namespace GlobalScalarExtremum

variable {T E : Type}

def reducePartials (compare : E → E → E) : Option E → Option E → Option E
  | some left, some right => some (compare left right)
  | some value, none | none, some value => some value
  | none, none => none

/-- `filter_map(map).reduce(compare)`. -/
def scalarChunk (values : List T) (map : T → Option E) (compare : E → E → E) (matchingRows : List Nat) :
    Exec Error (Option E) :=
  scanFrom (fun extremum row => do
    let value ← orPanic values[row]?
    .ok (reducePartials compare extremum (map value))) none matchingRows

/-- The partial results are merged into that of the first lane. -/
def reduceOrdered (compare : E → E → E) : List (Option E) → Exec Error (Option E)
  | [] => .ok none
  | extremum :: partials => scanFrom (fun extremum part => .ok (reducePartials compare extremum part)) extremum partials

def reduceScalar (lanes : Lanes) (values : List T) (map : T → Option E) (compare : E → E → E) (matchingRows : List Nat) :
    Exec Error (Option E) :=
  runGroupedAggregate lanes matchingRows (scalarChunk values map compare) (reduceOrdered compare)

section
variable (lanes : Lanes)

def minInt64 (values : List Int64) := reduceScalar lanes values some min

def maxInt64 (values : List Int64) := reduceScalar lanes values some max

def minNullableInt64 (values : List (Option Int64)) := reduceScalar lanes values id min

def maxNullableInt64 (values : List (Option Int64)) := reduceScalar lanes values id max

def minFloat64 (values : List F64) := reduceScalar lanes values some firstFloat64Minimum

def maxFloat64 (values : List F64) := reduceScalar lanes values some firstFloat64Maximum

end

end GlobalScalarExtremum

/-! ## Counts grouped by truth value -/

namespace GroupedBoolCount

inductive Operation where
  | count
  | countIf
  deriving DecidableEq, Repr

def Operation.name : Operation → String
  | .count => "COUNT"
  | .countIf => "countIf"

structure Partial where
  falseRows : Int
  trueRows : Int
  falseCount : Int
  trueCount : Int
  firstSeen : Option Bool
  deriving DecidableEq, Repr

namespace Partial

def default : Partial := ⟨0, 0, 0, 0, none⟩

def rowCount (total : Partial) (group : Bool) : Int := if group then total.trueRows else total.falseRows

def count (total : Partial) (group : Bool) : Int := if group then total.trueCount else total.falseCount

def setRows (total : Partial) (group : Bool) (rows : Int) : Partial :=
  if group then { total with trueRows := rows } else { total with falseRows := rows }

def setCount (total : Partial) (group : Bool) (count : Int) : Partial :=
  if group then { total with trueCount := count } else { total with falseCount := count }

def observe (operation : Operation) (total : Partial) (group counted : Bool) : Exec Error Partial := do
  let total := { total with firstSeen := some (total.firstSeen.getD group) }
  let rows ← getOr (checkedAddSigned 64 (total.rowCount group) 1) (.numericOverflow operation.name)
  let total := total.setRows group rows
  if counted then
    let count ← getOr (checkedAddSigned 64 (total.count group) 1) (.numericOverflow operation.name)
    .ok (total.setCount group count)
  else .ok total

def merge (operation : Operation) (total part : Partial) : Exec Error Partial := do
  let falseRows ← getOr (checkedAddSigned 64 total.falseRows part.falseRows) (.numericOverflow operation.name)
  let trueRows ← getOr (checkedAddSigned 64 total.trueRows part.trueRows) (.numericOverflow operation.name)
  let falseCount ← getOr (checkedAddSigned 64 total.falseCount part.falseCount) (.numericOverflow operation.name)
  let trueCount ← getOr (checkedAddSigned 64 total.trueCount part.trueCount) (.numericOverflow operation.name)
  .ok ⟨falseRows, trueRows, falseCount, trueCount, total.firstSeen <|> part.firstSeen⟩

end Partial

def scan (operation : Operation) (groupValues : List Bool) (counted : Nat → Option Bool) (matchingRows : List Nat) :
    Exec Error Partial :=
  scanFrom (fun total row => do
    let group ← orPanic groupValues[row]?
    let counted ← orPanic (counted row)
    total.observe operation group counted) .default matchingRows

def reduceOrdered (operation : Operation) (partials : List Partial) : Exec Error Partial :=
  scanFrom (Partial.merge operation) .default partials

section
variable (lanes : Lanes) (groupValues : List Bool)

def reduceWithChunk (operation : Operation) (counted : Nat → Option Bool) (matchingRows : List Nat) :
    Exec Error Partial :=
  runGroupedAggregate lanes matchingRows (scan operation groupValues counted) (reduceOrdered operation)

def reduceRows := reduceWithChunk lanes groupValues .count fun _ => some true

def reduceNullableInt64 (countValues : List (Option Int64)) :=
  reduceWithChunk lanes groupValues .count fun row => countValues[row]?.map Option.isSome

def reduceCountIf (countValues : List Bool) := reduceWithChunk lanes groupValues .countIf fun row => countValues[row]?

end

end GroupedBoolCount

/-! ## Sums and averages grouped by truth value -/

namespace GroupedBoolSumAvg

structure Partial where
  falseGroup : GlobalInt64SumAvg.Partial
  trueGroup : GlobalInt64SumAvg.Partial
  firstSeen : Option Bool
  deriving DecidableEq, Repr

namespace Partial

def default : Partial := ⟨.default, .default, none⟩

def group (total : Partial) (value : Bool) : GlobalInt64SumAvg.Partial :=
  if value then total.trueGroup else total.falseGroup

def setGroup (total : Partial) (value : Bool) (group : GlobalInt64SumAvg.Partial) : Partial :=
  if value then { total with trueGroup := group } else { total with falseGroup := group }

def present (total : Partial) (value : Bool) : Bool := 0 < (total.group value).count

def observe (operation : SumOperation) (total : Partial) (group : Bool) (value : Int64) : Exec Error Partial := do
  let total := { total with firstSeen := some (total.firstSeen.getD group) }
  let sums ← (total.group group).observe operation value
  .ok (total.setGroup group sums)

def merge (operation : SumOperation) (total part : Partial) : Exec Error Partial := do
  let falseGroup ← total.falseGroup.merge operation part.falseGroup
  let trueGroup ← total.trueGroup.merge operation part.trueGroup
  .ok ⟨falseGroup, trueGroup, total.firstSeen <|> part.firstSeen⟩

end Partial

def scanChunk (operation : SumOperation) (groupValues : List Bool) (sumValues : List Int64) (matchingRows : List Nat) :
    Exec Error Partial :=
  scanFrom (fun total row => do
    let group ← orPanic groupValues[row]?
    let value ← orPanic sumValues[row]?
    total.observe operation group value) .default matchingRows

def reduceOrdered (operation : SumOperation) (partials : List Partial) : Exec Error Partial :=
  scanFrom (Partial.merge operation) .default partials

def reduce (lanes : Lanes) (operation : SumOperation) (groupValues : List Bool) (sumValues : List Int64)
    (matchingRows : List Nat) : Exec Error Partial :=
  runGroupedAggregate lanes matchingRows (scanChunk operation groupValues sumValues) (reduceOrdered operation)

end GroupedBoolSumAvg

/-! ## Extremes grouped by truth value -/

namespace GroupedBoolExtremum

variable {T : Type}

/-- The partial result of `grouped_bool_min` and of `grouped_bool_max`, which differ in the choice between two values. -/
structure Partial (T : Type) where
  falseExtremum : Option T
  trueExtremum : Option T
  firstSeen : Option Bool
  deriving DecidableEq, Repr

namespace Partial

def default : Partial T := ⟨none, none, none⟩

def slot (total : Partial T) (group : Bool) : Option T := if group then total.trueExtremum else total.falseExtremum

def setSlot (total : Partial T) (group : Bool) (slot : Option T) : Partial T :=
  if group then { total with trueExtremum := slot } else { total with falseExtremum := slot }

def present (total : Partial T) (group : Bool) : Bool := (total.slot group).isSome

def observe (choose : T → T → T) (total : Partial T) (group : Bool) (value : T) : Partial T :=
  let total := { total with firstSeen := some (total.firstSeen.getD group) }
  total.setSlot group (some (match total.slot group with
    | none => value
    | some current => choose current value))

/-- The extremes of a later part; a group that it has is observed as one value. -/
def merge (choose : T → T → T) (total part : Partial T) : Partial T :=
  let total := { total with firstSeen := total.firstSeen <|> part.firstSeen }
  let total := part.falseExtremum.elim total fun extremum => total.observe choose false extremum
  part.trueExtremum.elim total fun extremum => total.observe choose true extremum

end Partial

def scanChunk (choose : T → T → T) (groupValues : List Bool) (values : List T) (matchingRows : List Nat) :
    Exec Error (Partial T) :=
  scanFrom (fun total row => do
    let group ← orPanic groupValues[row]?
    let value ← orPanic values[row]?
    .ok (total.observe choose group value)) .default matchingRows

def reduceOrdered (choose : T → T → T) (partials : List (Partial T)) : Exec Error (Partial T) :=
  scanFrom (fun total part => .ok (total.merge choose part)) .default partials

def reduceWithChunk (lanes : Lanes) (choose : T → T → T) (groupValues : List Bool) (values : List T)
    (matchingRows : List Nat) : Exec Error (Partial T) :=
  runGroupedAggregate lanes matchingRows (scanChunk choose groupValues values) (reduceOrdered choose)

section
variable (lanes : Lanes)

def minInt64 := reduceWithChunk lanes firstInt64Minimum

def minFloat64 := reduceWithChunk lanes firstFloat64Minimum

def maxInt64 := reduceWithChunk lanes firstInt64Maximum

def maxFloat64 := reduceWithChunk lanes firstFloat64Maximum

end

end GroupedBoolExtremum

end RustHouse.Batch
