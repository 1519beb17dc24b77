import RustHouse.Grouping

/-!
# Grouped execution

Rows are taken one by one into the states of their groups. A query with one
aggregate by a truth value, and most queries with one group, have routes of
their own, which reduce a column in parallel.
-/

namespace RustHouse.Batch

open Checked Exec Words
open OrderedReduction (collect)

/-! ## Routes by a truth value -/

/-- The limits on the groups of a route, which are known when it is done. -/
def enforceGroupedBoolLimits (groupCount : Nat) (limits : QueryResultLimits) : Exec Error Unit :=
  enforceGroupLimits groupCount groupCount limits

def groupedBoolData (firstSeen : Option Bool) (present : Bool → Bool) (finished : Bool → Exec Error Value)
    (limits : QueryResultLimits) : Exec Error GroupedData := do
  enforceGroupedBoolLimits ((if present false then 1 else 0) + if present true then 1 else 0) limits
  match firstSeen with
  | none => .ok ⟨[], [[]]⟩
  | some first => do
    let groups := if present !first then [first, !first] else [first]
    let values ← collect (groups.map finished)
    .ok ⟨groups.map fun group => .one (.bool group), [values]⟩

def columnAt (t : Table) (index : Nat) : Exec Error Column := orPanic t.columns[index]?

section
variable (lanes : Lanes) (t : Table) (matchingRows : List Nat)

/-- The counts of a single count over groups by a truth value, if it has this route. -/
def groupedBoolCounts (groupValues : List Bool) (spec : AggregateSpec) :
    Exec Error (Option GroupedBoolCount.Partial) :=
  match spec.function, spec.argument, spec.inputType with
  | .count, none, none => do
    let counts ← GroupedBoolCount.reduceRows lanes groupValues matchingRows
    .ok (some counts)
  | .count, some argument, some inputType => do
    match ← columnAt t argument with
    | .nullableInt64 countValues =>
      if inputType = .int64 then
        let counts ← GroupedBoolCount.reduceNullableInt64 lanes groupValues countValues matchingRows
        .ok (some counts)
      else .ok none
    | column =>
      -- Every row contributes, and the argument is not read.
      if column.dataType = inputType then
        let counts ← GroupedBoolCount.reduceRows lanes groupValues matchingRows
        .ok (some counts)
      else .ok none
  | .countIf, some argument, some .bool => do
    match ← columnAt t argument with
    | .bool countValues => do
      let counts ← GroupedBoolCount.reduceCountIf lanes groupValues countValues matchingRows
      .ok (some counts)
    | _ => .ok none
  | _, _, _ => .ok none

/-- A route for one group column that holds truth values, and one aggregate. -/
def groupedBoolRoute (groupColumns : List Nat) (specs : List AggregateSpec) (accepts : AggregateSpec → Bool)
    (route : List Bool → AggregateSpec → Exec Error (Option GroupedData)) : Exec Error (Option GroupedData) :=
  match groupColumns, specs with
  | [groupColumn], [spec] =>
    if accepts spec then do
      match ← columnAt t groupColumn with
      | .bool groupValues => route groupValues spec
      | _ => .ok none
    else .ok none
  | _, _ => .ok none

variable (limits : QueryResultLimits) (groupColumns : List Nat) (specs : List AggregateSpec)

def executeGroupedBoolCount : Exec Error (Option GroupedData) :=
  groupedBoolRoute t groupColumns specs (fun spec => spec.function = .count || spec.function = .countIf)
    fun groupValues spec => do
      match ← groupedBoolCounts lanes t matchingRows groupValues spec with
      | none => .ok none
      | some counts =>
        let data ← groupedBoolData counts.firstSeen (fun group => 0 < counts.rowCount group)
          (fun group => .ok (.int64 (Int64.ofInt (counts.count group)))) limits
        .ok (some data)

def executeGroupedBoolSumOrAvg (arithmetic : FloatArithmetic) : Exec Error (Option GroupedData) :=
  groupedBoolRoute t groupColumns specs
    (fun spec => (spec.function = .sum || spec.function = .avg) && spec.inputType = some .int64)
    fun groupValues spec =>
      match spec.argument with
      | none => .ok none
      | some valueColumn => do
        match ← columnAt t valueColumn with
        | .int64 values => do
          let operation := if spec.function = .sum then .sum else .avg
          let sums ← GroupedBoolSumAvg.reduce lanes operation groupValues values matchingRows
          let finished (group : Bool) :=
            let total := sums.group group
            let state := if spec.function = .sum then .sumInt total.sum total.count else .avgInt total.sum total.count
            AggregateState.finish spec arithmetic state
          let data ← groupedBoolData sums.firstSeen sums.present finished limits
          .ok (some data)
        | _ => .ok none

def finishGroupedBoolExtremum {T : Type} (intoValue : T → Value) (extremes : GroupedBoolExtremum.Partial T) :
    Exec Error (Option GroupedData) := do
  let data ← groupedBoolData extremes.firstSeen extremes.present
    (fun group => orPanic ((extremes.slot group).map intoValue)) limits
  .ok (some data)

/-- The route of `MIN` and `MAX`, which differ in the choice between two values. -/
def executeGroupedBoolExtremum (function : AggregateFunction) (chooseInt64 : Int64 → Int64 → Int64)
    (chooseFloat64 : F64 → F64 → F64) : Exec Error (Option GroupedData) :=
  groupedBoolRoute t groupColumns specs
    (fun spec => spec.function = function && (spec.inputType = some .int64 || spec.inputType = some .float64))
    fun groupValues spec =>
      match spec.argument with
      | none => .ok none
      | some valueColumn => do
        match ← columnAt t valueColumn with
        | .int64 values => do
          let extremes ← GroupedBoolExtremum.reduceWithChunk lanes chooseInt64 groupValues values matchingRows
          finishGroupedBoolExtremum limits .int64 extremes
        | .float64 values => do
          let extremes ← GroupedBoolExtremum.reduceWithChunk lanes chooseFloat64 groupValues values matchingRows
          finishGroupedBoolExtremum limits .float64 extremes
        | _ => .ok none

def executeGroupedBoolMin : Exec Error (Option GroupedData) :=
  executeGroupedBoolExtremum lanes t matchingRows limits groupColumns specs .min firstInt64Minimum firstFloat64Minimum

def executeGroupedBoolMax : Exec Error (Option GroupedData) :=
  executeGroupedBoolExtremum lanes t matchingRows limits groupColumns specs .max firstInt64Maximum firstFloat64Maximum

end

def firstRoute : List (Exec Error (Option GroupedData)) → Exec Error (Option GroupedData)
  | [] => .ok none
  | route :: routes => do
    let grouped ← route
    if grouped.isSome then .ok grouped else firstRoute routes

/-! ## Routes of one group -/

inductive PairedGlobalCountSource where
  | matchedRows
  | aggregatePresentValues
  deriving DecidableEq

structure PairedGlobalCountAggregate where
  countState : Nat
  aggregateState : Nat
  function : AggregateFunction
  inputType : DataType
  countSource : PairedGlobalCountSource
  deriving DecidableEq

def AggregateFunction.isSumOrAvg : AggregateFunction → Bool
  | sum | avg => true
  | _ => false

def AggregateFunction.isExtremum : AggregateFunction → Bool
  | min | max => true
  | _ => false

/-- What can be computed beside a count. -/
def AggregateSpec.isPairable (spec : AggregateSpec) : Bool :=
  ((spec.function.isSumOrAvg || spec.function.isExtremum) && spec.inputType = some .int64) ||
    (spec.function.isExtremum && spec.inputType = some .float64)

def pairedCountSource (countArgument : Option Nat) (spec : AggregateSpec) (nullableInt64 : Bool) :
    Option PairedGlobalCountSource :=
  match countArgument with
  | none => some .matchedRows
  | some countArgument =>
    if spec.function.isSumOrAvg ∧ nullableInt64 ∧ some countArgument = spec.argument then some .aggregatePresentValues
    else none

section
variable (t : Table)

def pairedGlobalCountAggregate (specs : List AggregateSpec) : Exec Error (Option PairedGlobalCountAggregate) :=
  if specs.length ≠ 2 then .ok none
  else
    match specs.findIdx? fun spec => spec.function = .count, specs.findIdx? AggregateSpec.isPairable with
    | some countState, some aggregateState => do
      let countSpec ← orPanic specs[countState]?
      let spec ← orPanic specs[aggregateState]?
      let inputType ← orPanic spec.inputType
      let argument ← orPanic spec.argument
      let nullableInt64 ← columnIsNullableInt64 t argument
      if nullableInt64 ∧ ¬ (spec.function.isSumOrAvg ∨ spec.function.isExtremum) then .ok none
      else
        match pairedCountSource countSpec.argument spec nullableInt64 with
        | some countSource =>
          .ok (if countState ≠ aggregateState then
            some ⟨countState, aggregateState, spec.function, inputType, countSource⟩ else none)
        | none => .ok none
    | _, _ => .ok none

def aggregateArgumentIsPhysicalInt64 (spec : AggregateSpec) : Exec Error Bool :=
  match spec.argument with
  | none => .ok false
  | some argument => do
    let column ← columnAt t argument
    .ok (column.dataType = .int64)

def isSole (specs : List AggregateSpec) (function : AggregateFunction) (inputType : DataType) : Bool :=
  match specs with
  | [spec] => spec.function = function && spec.inputType = some inputType
  | _ => false

/-- A single aggregate of integers, whether they can be NULL or not. -/
def isSoleInt64 (specs : List AggregateSpec) (function : AggregateFunction) : Exec Error Bool :=
  match specs with
  | [spec] =>
    if spec.function = function ∧ spec.inputType = some .int64 then aggregateArgumentIsPhysicalInt64 t spec
    else .ok false
  | _ => .ok false

def isSoleNullableInt64Count (specs : List AggregateSpec) : Exec Error Bool :=
  match specs with
  | [⟨.count, some argument, some .int64⟩] => columnIsNullableInt64 t argument
  | _ => .ok false

structure GlobalRoutes where
  soleNullableInt64Count : Bool
  soleSumInt : Bool
  soleAvgInt : Bool
  soleMinInt : Bool
  soleMinFloat : Bool
  soleMaxInt : Bool
  soleMaxFloat : Bool
  paired : Option PairedGlobalCountAggregate
  deriving DecidableEq

def globalRoutes (specs : List AggregateSpec) : Exec Error GlobalRoutes := do
  let soleSumInt ← isSoleInt64 t specs .sum
  let soleAvgInt ← isSoleInt64 t specs .avg
  let soleNullableInt64Count ← isSoleNullableInt64Count t specs
  let soleMinInt ← isSoleInt64 t specs .min
  let soleMaxInt ← isSoleInt64 t specs .max
  let paired ← pairedGlobalCountAggregate t specs
  .ok {
    soleNullableInt64Count, soleSumInt, soleAvgInt, soleMinInt, soleMinFloat := isSole specs .min .float64, soleMaxInt,
    soleMaxFloat := isSole specs .max .float64, paired }

/-- Whether the row loop leaves the state of an aggregate alone. -/
def GlobalRoutes.skips (routes : GlobalRoutes) (spec : AggregateSpec) : Bool :=
  spec.function = .countIf || routes.soleNullableInt64Count || routes.soleSumInt || routes.soleAvgInt ||
    routes.soleMinInt || routes.soleMinFloat || routes.soleMaxInt || routes.soleMaxFloat || routes.paired.isSome

variable (lanes : Lanes) (matchingRows : List Nat) (spec : AggregateSpec)

def countGlobalNullableInt64 : Exec Error Int := do
  let argument ← orPanic spec.argument
  match ← columnAt t argument with
  | .nullableInt64 values => reduceGlobalNullableInt64Count lanes values matchingRows
  | _ => .panic

def countGlobalCountIf : Exec Error Int := do
  let argument ← orPanic spec.argument
  match ← columnAt t argument with
  | .bool values => reduceGlobalCountIf lanes values matchingRows
  | _ => .panic

def globalInt64SumPartial : Exec Error GlobalInt64SumAvg.Partial := do
  let argument ← orPanic spec.argument
  let operation := if spec.function = .sum then .sum else .avg
  match ← columnAt t argument with
  | .int64 values => GlobalInt64SumAvg.reduceInt64 lanes operation values matchingRows
  | .nullableInt64 values => GlobalInt64SumAvg.reduceNullableInt64 lanes operation values matchingRows
  | _ => .panic

def finalizeInt64SumAndCount (total : GlobalInt64SumAvg.Partial) (function : AggregateFunction) :
    Exec Error AggregateState :=
  match function with
  | .sum => .ok (.sumInt total.sum total.count)
  | .avg => .ok (.avgInt total.sum total.count)
  | _ => .panic

def sumOrAvgGlobalInt64 : Exec Error AggregateState := do
  let total ← globalInt64SumPartial t lanes matchingRows spec
  finalizeInt64SumAndCount total spec.function

def minGlobalInt64 : Exec Error AggregateState := do
  let argument ← orPanic spec.argument
  match ← columnAt t argument with
  | .int64 values => do
    let minimum ← GlobalScalarExtremum.minInt64 lanes values matchingRows
    .ok (.min (minimum.map .int64))
  | .nullableInt64 values => do
    let minimum ← GlobalScalarExtremum.minNullableInt64 lanes values matchingRows
    .ok (.min (minimum.map .int64))
  | _ => .panic

def minGlobalFloat64 : Exec Error AggregateState := do
  let argument ← orPanic spec.argument
  match ← columnAt t argument with
  | .float64 values => do
    let minimum ← GlobalScalarExtremum.minFloat64 lanes values matchingRows
    .ok (.min (minimum.map .float64))
  | _ => .panic

def maxGlobalInt64 : Exec Error AggregateState := do
  let argument ← orPanic spec.argument
  match ← columnAt t argument with
  | .int64 values => do
    let maximum ← GlobalScalarExtremum.maxInt64 lanes values matchingRows
    .ok (.max (maximum.map .int64))
  | .nullableInt64 values => do
    let maximum ← GlobalScalarExtremum.maxNullableInt64 lanes values matchingRows
    .ok (.max (maximum.map .int64))
  | _ => .panic

def maxGlobalFloat64 : Exec Error AggregateState := do
  let argument ← orPanic spec.argument
  match ← columnAt t argument with
  | .float64 values => do
    let maximum ← GlobalScalarExtremum.maxFloat64 lanes values matchingRows
    .ok (.max (maximum.map .float64))
  | _ => .panic

/-- The aggregate of a pair, and how many values it had where it counted them. -/
def pairedAggregate (function : AggregateFunction) (inputType : DataType) :
    Exec Error (AggregateState × Option Nat) :=
  match function, inputType with
  | .sum, .int64 | .avg, .int64 => do
    let total ← globalInt64SumPartial t lanes matchingRows spec
    let state ← finalizeInt64SumAndCount total function
    .ok (state, some total.count)
  | .min, .int64 => do
    let state ← minGlobalInt64 t lanes matchingRows spec
    .ok (state, none)
  | .min, .float64 => do
    let state ← minGlobalFloat64 t lanes matchingRows spec
    .ok (state, none)
  | .max, .int64 => do
    let state ← maxGlobalInt64 t lanes matchingRows spec
    .ok (state, none)
  | .max, .float64 => do
    let state ← maxGlobalFloat64 t lanes matchingRows spec
    .ok (state, none)
  | _, _ => .panic

/-- `i64::try_from`. -/
def checkedCount (count : Nat) : Exec Error Int :=
  getOr ((tryInt64 count).map Int64.toInt) (.numericOverflow "COUNT")

def pairedCount (source : PairedGlobalCountSource) (presentCount : Option Nat) : Exec Error Int :=
  match source with
  | .matchedRows => checkedCount matchingRows.length
  | .aggregatePresentValues => do
    let presentCount ← orPanic presentCount
    checkedCount presentCount

def globalState (routes : GlobalRoutes) : Exec Error AggregateState :=
  if routes.soleNullableInt64Count then do
    let count ← countGlobalNullableInt64 t lanes matchingRows spec
    .ok (.count count)
  else if spec.function = .countIf then do
    let count ← countGlobalCountIf t lanes matchingRows spec
    .ok (.count count)
  else if routes.soleSumInt ∨ routes.soleAvgInt then sumOrAvgGlobalInt64 t lanes matchingRows spec
  else if routes.soleMinInt then minGlobalInt64 t lanes matchingRows spec
  else if routes.soleMinFloat then minGlobalFloat64 t lanes matchingRows spec
  else if routes.soleMaxInt then maxGlobalInt64 t lanes matchingRows spec
  else if routes.soleMaxFloat then maxGlobalFloat64 t lanes matchingRows spec
  else .ok (.new spec)

end

def globalStates (t : Table) (lanes : Nat → Lanes) (matchingRows : List Nat) (specs : List AggregateSpec)
    (routes : GlobalRoutes) : Exec Error (List AggregateState) :=
  match routes.paired with
  | some paired => do
    let spec ← orPanic specs[paired.aggregateState]?
    let (aggregate, presentCount) ←
      pairedAggregate t (lanes paired.aggregateState) matchingRows spec paired.function paired.inputType
    let count ← pairedCount matchingRows paired.countSource presentCount
    let states := specs.map AggregateState.new
    .ok ((states.set paired.countState (.count count)).set paired.aggregateState aggregate)
  | none => collect (specs.zipIdx.map fun (spec, index) => globalState t (lanes index) matchingRows spec routes)

/-! ## The row loop -/

structure GroupScan where
  groups : GroupIndex
  groupCount : Nat
  groupKeyCells : Nat
  groupKeyBytes : Nat
  probe : List Value
  /-- For every aggregate, its states in the groups. -/
  states : List (List AggregateState)
  aggregateStateBytes : Nat

section
variable (hasher : Bytes → UInt64) (arithmetic : FloatArithmetic) (t : Table) (groupColumns : List Nat)
  (specs : List AggregateSpec) (limits : QueryResultLimits) (skips : AggregateSpec → Bool)

def GroupScan.group (scan : GroupScan) (row : Nat) : Exec Error (Nat × GroupScan) := do
  let (existing, probe) ← scan.groups.find hasher t groupColumns row scan.probe
  match existing with
  | some group => .ok (group, { scan with probe })
  | none => do
    let nextGroupCount := saturatingAdd scan.groupCount 1
    enforceResourceLimit "SELECT groups" nextGroupCount limits.maxGroups
    let nextKeyCells := saturatingAdd scan.groupKeyCells groupColumns.length
    enforceResourceLimit "SELECT group key cells" nextKeyCells limits.maxGroupKeyCells
    let keyBytes := saturatingMul groupColumns.length estimatedGroupKeyCellBytes
    let nextKeyBytes := saturatingAdd scan.groupKeyBytes keyBytes
    enforceResourceLimit "SELECT group key bytes" nextKeyBytes limits.maxGroupKeyBytes
    let groups ← scan.groups.insert hasher t groupColumns row scan.groupCount probe
    .ok (scan.groupCount, {
      scan with
      groups, probe
      groupCount := nextGroupCount
      groupKeyCells := nextKeyCells
      groupKeyBytes := nextKeyBytes
      states := scan.states.zipWith (fun states spec => states ++ [.new spec]) specs })

def updateGroup (row group : Nat) (spec : AggregateSpec) (states : List AggregateState) (aggregateStateBytes : Nat) :
    Exec Error (List AggregateState × Nat) :=
  if skips spec then .ok (states, aggregateStateBytes)
  else do
    let state ← orPanic states[group]?
    let (state, bytes) ← state.update spec t row arithmetic aggregateStateBytes limits.maxAggregateStateBytes
    .ok (states.set group state, bytes)

def updateStates (row group : Nat) (aggregateStateBytes : Nat) :
    List (List AggregateState) → List AggregateSpec → Exec Error (List (List AggregateState) × Nat)
  | states :: rest, spec :: specs => do
    let (states, bytes) ← updateGroup arithmetic t limits skips row group spec states aggregateStateBytes
    let (rest, bytes) ← updateStates row group bytes rest specs
    .ok (states :: rest, bytes)
  | _, _ => .ok ([], aggregateStateBytes)

def GroupScan.step (scan : GroupScan) (row : Nat) : Exec Error GroupScan := do
  let (group, scan) ← scan.group hasher t groupColumns specs limits row
  let (states, aggregateStateBytes) ←
    updateStates arithmetic t limits skips row group scan.aggregateStateBytes scan.states specs
  .ok { scan with states, aggregateStateBytes }

/-- The groups of the rows, from states that may be those of a route. -/
def scanGroups (scan : GroupScan) (matchingRows : List Nat) : Exec Error GroupedData := do
  let scan ← OrderedReduction.scanFrom
    (GroupScan.step hasher arithmetic t groupColumns specs limits skips) scan matchingRows
  let keys ← scan.groups.intoKeys scan.groupCount
  let aggregates ← collect (scan.states.zipWith
    (fun states spec => collect (states.map (AggregateState.finish spec arithmetic))) specs)
  .ok { keys, aggregates }

end

/-! ## Execution -/

/-- How many groups the states are allocated for. -/
def plannedGroupCount (matchingRows groupColumns : List Nat) (limits : QueryResultLimits) : Exec Error Nat :=
  if groupColumns = [] then do
    enforceResourceLimit "SELECT groups" 1 limits.maxGroups
    .ok 1
  else .ok (min matchingRows.length limits.maxGroups)

def enforceAggregateStates (plannedGroupCount specCount : Nat) (limits : QueryResultLimits) : Exec Error Nat := do
  let plannedStateCells := saturatingMul plannedGroupCount specCount
  enforceResourceLimit "SELECT aggregate state cells" plannedStateCells limits.maxAggregateStateCells
  let bytes := saturatingAdd (saturatingMul plannedStateCells sizeOfAggregateState)
    (saturatingMul specCount sizeOfAggregateStates)
  enforceResourceLimit "SELECT aggregate state bytes" bytes limits.maxAggregateStateBytes
  .ok bytes

def probeKeyCells (matchingRows groupColumns : List Nat) : Nat :=
  if groupColumns.length > 2 ∧ matchingRows ≠ [] then groupColumns.length else 0

def enforceFirstGroup (matchingRows groupColumns : List Nat) (limits : QueryResultLimits) : Exec Error Unit :=
  if groupColumns ≠ [] ∧ matchingRows ≠ [] then do
    let probeCells := probeKeyCells matchingRows groupColumns
    enforceResourceLimit "SELECT groups" 1 limits.maxGroups
    enforceResourceLimit "SELECT group key cells" (saturatingAdd probeCells groupColumns.length) limits.maxGroupKeyCells
    enforceResourceLimit "SELECT group key bytes"
      (saturatingAdd (saturatingMul probeCells estimatedGroupKeyCellBytes)
        (saturatingMul groupColumns.length estimatedGroupKeyCellBytes)) limits.maxGroupKeyBytes
  else .ok ()

/-- The scan before its first row. -/
def GroupScan.start (matchingRows groupColumns : List Nat) (states : List (List AggregateState))
    (aggregateStateBytes : Nat) : GroupScan where
  groups := .new groupColumns.length
  groupCount := if groupColumns = [] then 1 else 0
  groupKeyCells := probeKeyCells matchingRows groupColumns
  groupKeyBytes := saturatingMul (probeKeyCells matchingRows groupColumns) estimatedGroupKeyCellBytes
  probe := []
  states
  aggregateStateBytes

section
variable (hasher : Bytes → UInt64) (arithmetic : FloatArithmetic) (lanes : Nat → Lanes) (t : Table)
  (matchingRows groupColumns : List Nat) (specs : List AggregateSpec) (limits : QueryResultLimits)

def executeGrouped : Exec Error GroupedData := do
  let planned ← plannedGroupCount matchingRows groupColumns limits
  let aggregateStateBytes ← enforceAggregateStates planned specs.length limits
  enforceFirstGroup matchingRows groupColumns limits
  let grouped ← firstRoute [
    executeGroupedBoolCount (lanes 0) t matchingRows limits groupColumns specs,
    executeGroupedBoolSumOrAvg (lanes 0) t matchingRows limits groupColumns specs arithmetic,
    executeGroupedBoolMin (lanes 0) t matchingRows limits groupColumns specs,
    executeGroupedBoolMax (lanes 0) t matchingRows limits groupColumns specs]
  match grouped with
  | some grouped => .ok grouped
  | none =>
    if groupColumns = [] then do
      let routes ← globalRoutes t specs
      let states ← globalStates t lanes matchingRows specs routes
      scanGroups hasher arithmetic t groupColumns specs limits routes.skips
        (.start matchingRows groupColumns (states.map fun state => [state]) aggregateStateBytes) matchingRows
    else
      scanGroups hasher arithmetic t groupColumns specs limits (fun _ => false)
        (.start matchingRows groupColumns (specs.map fun _ => []) aggregateStateBytes) matchingRows

end

end RustHouse.Batch
