import RustHouse.Aggregates
import RustHouse.SelectRows

/-!
# Groups

The index from keys to groups, the state of an aggregate in a group, and what is
made of the finished groups: values, an order, and a charge.
-/

namespace RustHouse.Batch

open Checked Exec Words

/-! ## Keys -/

inductive GroupKey where
  | empty
  | one (value : Value)
  | multiple (values : List Value)
  deriving DecidableEq

namespace GroupKey

def value : GroupKey → (position : Nat) → Option Value
  | empty, _ => none
  | one value, position => if position = 0 then some value else none
  | multiple values, position => values[position]?

def cmp : GroupKey → GroupKey → Option Ordering
  | empty, empty => some .eq
  | one left, one right => some (left.cmp right)
  | multiple left, multiple right => some (List.compareLex Value.cmp left right)
  | _, _ => none

end GroupKey

section
variable {κ : Type} (hasher : Bytes → UInt64) (hashBytes : κ → Bytes) (eq : κ → κ → Bool)

/-- A map finds a key that has the hash of a stored one and is equal to it. -/
def mapGet (entries : List (κ × Nat)) (key : κ) : Option Nat :=
  (entries.find? fun stored => hasher (hashBytes stored.1) = hasher (hashBytes key) && eq stored.1 key).map (·.2)

/-- A key that is there keeps its place with a new value. -/
def mapInsert (entries : List (κ × Nat)) (key : κ) (value : Nat) : List (κ × Nat) :=
  if (mapGet hasher hashBytes eq entries key).isSome then
    entries.map fun stored =>
      if hasher (hashBytes stored.1) = hasher (hashBytes key) && eq stored.1 key then (stored.1, value) else stored
  else entries ++ [(key, value)]

end

inductive GroupIndex where
  | global
  | one (groups : List (Value × Nat))
  | multiple (groups : List (List Value × Nat))
  deriving DecidableEq

def keyAt (t : Table) (columns : List Nat) (row : Nat) : Exec Error (List Value) :=
  orPanic (columns.mapM fun column => t.valueAt column row)

namespace GroupIndex

def new : (columnCount : Nat) → GroupIndex
  | 0 => global
  | 1 => one []
  | _ => multiple []

section
variable (hasher : Bytes → UInt64) (t : Table) (columns : List Nat) (row : Nat)

def find (probe : List Value) : GroupIndex → Exec Error (Option Nat × List Value)
  | global => .ok (some 0, probe)
  | one groups => do
    let column ← orPanic columns[0]?
    let key ← orPanic (t.valueAt column row)
    .ok (mapGet hasher Value.hashBytes Value.eq groups key, probe)
  | multiple groups =>
    if columns.length = 2 then do
      let key ← keyAt t columns row
      .ok (mapGet hasher sliceHashBytes sliceEq groups key, probe)
    else do
      let probe ← keyAt t columns row
      .ok (mapGet hasher sliceHashBytes sliceEq groups probe, probe)

def insert (group : Nat) (probe : List Value) : GroupIndex → Exec Error GroupIndex
  | global => .panic
  | one groups => do
    let column ← orPanic columns[0]?
    let key ← orPanic (t.valueAt column row)
    .ok (one (mapInsert hasher Value.hashBytes Value.eq groups key group))
  | multiple groups =>
    if columns.length = 2 then do
      let key ← keyAt t columns row
      .ok (multiple (mapInsert hasher sliceHashBytes sliceEq groups key group))
    else .ok (multiple (mapInsert hasher sliceHashBytes sliceEq groups probe group))

end

def placeKeys (ordered : List (Option GroupKey)) : List (GroupKey × Nat) → Option (List (Option GroupKey))
  | [] => some ordered
  | (key, group) :: entries => if group < ordered.length then placeKeys (ordered.set group (some key)) entries else none

def entries : GroupIndex → List (GroupKey × Nat)
  | global => [(.empty, 0)]
  | one groups => groups.map fun (key, group) => (.one key, group)
  | multiple groups => groups.map fun (key, group) => (.multiple key, group)

def intoKeys (groupCount : Nat) (groups : GroupIndex) : Exec Error (List GroupKey) := do
  let ordered ← orPanic (placeKeys (List.replicate groupCount none) groups.entries)
  orPanic (ordered.mapM id)

end GroupIndex

/-! ## Aggregate states -/

structure FloatArithmetic where
  add : F64 → F64 → F64
  sub : F64 → F64 → F64
  mul : F64 → F64 → F64
  div : F64 → F64 → F64

structure ScaledFloatSum where
  scale : F64
  normalizedSum : F64
  correction : F64
  deriving DecidableEq

def F64.gt (x y : F64) : Bool := x.partialCmp y = some .gt

def F64.ge (x y : F64) : Bool := x.partialCmp y = some .gt || x.partialCmp y = some .eq

def F64.ofNat (n : Nat) : F64 := ⟨UInt64.ofNat (Binary64.ofNat n)⟩

/-- `sum as f64` of a wide integer. -/
def F64.ofInt (n : Int) : F64 := ⟨UInt64.ofNat (Binary64.ofInt n)⟩

/-- `value.clamp(-1.0, 1.0)`. -/
def F64.clampUnit (x : F64) : F64 :=
  let negOne : F64 := ⟨0xbff0000000000000⟩
  if negOne.gt x then negOne else if x.gt .one then .one else x

namespace ScaledFloatSum

def default : ScaledFloatSum := ⟨.zero, .zero, .zero⟩

variable (arithmetic : FloatArithmetic)

/-- The scale that takes in a magnitude, with what was summed so far. -/
def rescale (total : ScaledFloatSum) (magnitude : F64) : ScaledFloatSum :=
  if magnitude.gt total.scale then
    if total.scale.isNonzero then
      let ratio := arithmetic.div total.scale magnitude
      ⟨magnitude, arithmetic.mul total.normalizedSum ratio, arithmetic.mul total.correction ratio⟩
    else { total with scale := magnitude }
  else total

def add (total : ScaledFloatSum) (value : F64) : ScaledFloatSum :=
  let total := total.rescale arithmetic value.abs
  if ¬ total.scale.isNonzero then total
  else
    let normalized := arithmetic.div value total.scale
    let next := arithmetic.add total.normalizedSum normalized
    let lost :=
      if total.normalizedSum.abs.ge normalized.abs then
        arithmetic.add (arithmetic.sub total.normalizedSum next) normalized
      else arithmetic.add (arithmetic.sub normalized next) total.normalizedSum
    ⟨total.scale, next, arithmetic.add total.correction lost⟩

def normalizedTotal (total : ScaledFloatSum) : F64 := arithmetic.add total.normalizedSum total.correction

def total (sum : ScaledFloatSum) : F64 := arithmetic.mul (sum.normalizedTotal arithmetic) sum.scale

def mean (sum : ScaledFloatSum) (count : Nat) : F64 :=
  arithmetic.mul (arithmetic.div (sum.normalizedTotal arithmetic) (.ofNat count)).clampUnit sum.scale

end ScaledFloatSum

inductive AggregateState where
  | count (count : Int)
  | sumInt (sum : Int) (count : Nat)
  | sumFloat (sum : ScaledFloatSum) (count : Nat)
  | min (current : Option Value)
  | max (current : Option Value)
  | avgInt (sum : Int) (count : Nat)
  | avgFloat (sum : ScaledFloatSum) (count : Nat)
  deriving DecidableEq

def sizeOfAggregateState : Nat := 48

/-- `size_of::<Vec<AggregateState>>()`. -/
def sizeOfAggregateStates : Nat := 24

def replaceExtreme (current : Option Value) (candidate : Value) (aggregateStateBytes maxAggregateStateBytes : Nat) :
    Exec Error (Option Value × Nat) := do
  let previousStringBytes := current.elim 0 Value.stringBytes
  let nextBytes := saturatingAdd (aggregateStateBytes - previousStringBytes) candidate.stringBytes
  enforceResourceLimit "SELECT aggregate state bytes" nextBytes maxAggregateStateBytes
  .ok (some candidate, nextBytes)

namespace AggregateState

def new (spec : AggregateSpec) : AggregateState :=
  match spec.function with
  | .count | .countIf => count 0
  | .sum => if spec.inputType = some .int64 then sumInt 0 0 else sumFloat .default 0
  | .min => min none
  | .max => max none
  | .avg => if spec.inputType = some .int64 then avgInt 0 0 else avgFloat .default 0

section
variable (spec : AggregateSpec) (t : Table) (row : Nat)

def argumentValue : Exec Error Value := do
  let argument ← orPanic spec.argument
  orPanic (t.valueAt argument row)

/-- Whether the row counts. -/
def shouldCount : Exec Error Bool :=
  match spec.function with
  | .count =>
    if spec.argument.isNone then .ok true
    else do
      let value ← argumentValue spec t row
      .ok !value.isNull
  | .countIf => do
    let argument ← orPanic spec.argument
    orPanic (boolAt t argument row)
  | _ => .panic

/-- The integer of the argument, unless it is NULL. -/
def int64Argument : Exec Error (Option Int64) := do
  let argument ← orPanic spec.argument
  let column ← orPanic t.columns[argument]?
  match column with
  | .int64 values => do
    let value ← orPanic values[row]?
    .ok (some value)
  | .nullableInt64 values => orPanic values[row]?
  | _ => .panic

def float64Argument : Exec Error F64 := do
  let argument ← orPanic spec.argument
  orPanic (float64At t argument row)

def updateIntSum (operation : SumOperation) (sum : Int) (terms : Nat) : Exec Error (Int × Nat) := do
  let value ← int64Argument spec t row
  match value with
  | none => .ok (sum, terms)
  | some value => do
    let total ← GlobalInt64SumAvg.Partial.observe operation ⟨sum, terms⟩ value
    .ok (total.sum, total.count)

def updateFloatSum (arithmetic : FloatArithmetic) (operation : SumOperation) (sum : ScaledFloatSum) (terms : Nat) :
    Exec Error (ScaledFloatSum × Nat) := do
  let value ← float64Argument spec t row
  let terms ← getOr (checkedAdd terms 1) (.numericOverflow operation.countOverflowContext)
  .ok (sum.add arithmetic value, terms)

def updateExtreme (side : Ordering) (current : Option Value) (aggregateStateBytes maxAggregateStateBytes : Nat) :
    Exec Error (Option Value × Nat) := do
  let candidate ← argumentValue spec t row
  if ¬ candidate.isNull ∧ current.all (fun existing => candidate.cmp existing = side) then
    replaceExtreme current candidate aggregateStateBytes maxAggregateStateBytes
  else .ok (current, aggregateStateBytes)

def update (arithmetic : FloatArithmetic) (aggregateStateBytes maxAggregateStateBytes : Nat) :
    AggregateState → Exec Error (AggregateState × Nat)
  | .count total => do
    let counted ← shouldCount spec t row
    if counted then
      let total ← getOr (checkedAddSigned 64 total 1) (.numericOverflow spec.function.name)
      .ok (.count total, aggregateStateBytes)
    else .ok (.count total, aggregateStateBytes)
  | .sumInt sum terms => do
    let (sum, terms) ← updateIntSum spec t row .sum sum terms
    .ok (.sumInt sum terms, aggregateStateBytes)
  | .sumFloat sum terms => do
    let (sum, terms) ← updateFloatSum spec t row arithmetic .sum sum terms
    .ok (.sumFloat sum terms, aggregateStateBytes)
  | .min current => do
    let (current, bytes) ← updateExtreme spec t row .lt current aggregateStateBytes maxAggregateStateBytes
    .ok (.min current, bytes)
  | .max current => do
    let (current, bytes) ← updateExtreme spec t row .gt current aggregateStateBytes maxAggregateStateBytes
    .ok (.max current, bytes)
  | .avgInt sum terms => do
    let (sum, terms) ← updateIntSum spec t row .avg sum terms
    .ok (.avgInt sum terms, aggregateStateBytes)
  | .avgFloat sum terms => do
    let (sum, terms) ← updateFloatSum spec t row arithmetic .avg sum terms
    .ok (.avgFloat sum terms, aggregateStateBytes)

/-- The value of a state; only an extreme without a value needs the type of its argument. -/
def finish (arithmetic : FloatArithmetic) : AggregateState → Exec Error Value
  | .count total => .ok (.int64 (Int64.ofInt total))
  | .sumInt sum terms =>
    if terms = 0 then .ok (.null .int64)
    else getOr ((tryInt64 sum).map .int64) (.numericOverflow "SUM(Int64)")
  | .sumFloat sum terms =>
    if terms = 0 then .ok (.null .float64)
    else do
      let value := sum.total arithmetic
      rejectIf (¬ value.isFinite) (.numericOverflow "SUM(Float64)")
      .ok (.float64 value)
  | .min (some value) | .max (some value) => .ok value
  | .min none | .max none => do
    let inputType ← orPanic spec.inputType
    .ok (.null inputType)
  | .avgInt sum terms =>
    .ok (if terms > 0 then .float64 (arithmetic.div (.ofInt sum) (.ofNat terms)) else .null .float64)
  | .avgFloat sum terms => .ok (if terms > 0 then .float64 (sum.mean arithmetic terms) else .null .float64)

end

end AggregateState

/-! ## Finished groups -/

structure GroupedData where
  keys : List GroupKey
  aggregates : List (List Value)
  deriving DecidableEq

namespace GroupedData

def len (data : GroupedData) : Nat := data.keys.length

def keyValue (data : GroupedData) (group position : Nat) : Option Value := data.keys[group]?.bind (·.value position)

def aggregateValue (data : GroupedData) (state group : Nat) : Option Value := data.aggregates[state]?.bind (·[group]?)

end GroupedData

section
variable (data : GroupedData)

/-- The value of an item in a group; a grouped query has only items that are derived from its groups. -/
def ResolvedItem.groupedValue (group : Nat) : ResolvedItem → Option Value
  | .column _ (some position) | .castNullableInt64ToInt64 _ (some position) => data.keyValue group position
  | .ifNullInt64 _ fallback (some position) => do
    let value ← (← data.keyValue group position) |> Batch.ifNull fallback
    some (.int64 value)
  | .isNull _ (some position) => (data.keyValue group position).map fun value => .bool value.isNull
  | .isNotNull _ (some position) => (data.keyValue group position).map fun value => .bool !value.isNull
  | .aggregate state => data.aggregateValue state group
  | _ => none

def GroupedData.project (selected : List Nat) (items : List ResolvedItem) : Option (List (List Value)) :=
  selected.mapM fun group => items.mapM (ResolvedItem.groupedValue data group)

def ResolvedItem.groupedCompare (left right : Nat) : ResolvedItem → Option Ordering
  | .column _ (some position) | .castNullableInt64ToInt64 _ (some position) => do
    some ((← data.keyValue left position).cmp (← data.keyValue right position))
  | .ifNullInt64 _ fallback (some position) => do
    let left ← Batch.ifNull fallback (← data.keyValue left position)
    let right ← Batch.ifNull fallback (← data.keyValue right position)
    some (Ord.compare left.toInt right.toInt)
  | .isNull _ (some position) => do
    some (Ord.compare (← data.keyValue left position).isNull (← data.keyValue right position).isNull)
  | .isNotNull _ (some position) => do
    some (Ord.compare (!(← data.keyValue left position).isNull) (!(← data.keyValue right position).isNull))
  | .aggregate state => do some ((← data.aggregateValue state left).cmp (← data.aggregateValue state right))
  | _ => none

/-- Groups by their outputs, and else by their keys. -/
def compareGroups (items : List ResolvedItem) (ordering : List ResolvedOrder) (left right : Nat) : Option Ordering :=
  let tie := do (← data.keys[left]?).cmp (← data.keys[right]?)
  compareOutputs (ResolvedItem.groupedCompare data left right) tie items ordering

def orderGroupedRows (sorts : UnstableSort) (groups : List Nat) (items : List ResolvedItem)
    (ordering : List ResolvedOrder) (limit : Option Nat) : Option (List Nat) :=
  sortAndLimitBy sorts groups limit (compareGroups data items ordering)

/-- What an item of a group is charged for beyond its cell. -/
def ResolvedItem.groupedStringBytes (group : Nat) : ResolvedItem → Option (Option Nat)
  | .column _ (some position) => (data.keyValue group position).map fun value => some value.stringBytes
  | .ifNullInt64 _ _ (some _) | .isNull _ (some _) | .isNotNull _ (some _) | .castNullableInt64ToInt64 _ (some _) =>
    some (some 0)
  | .aggregate state => (data.aggregateValue state group).map fun value => some value.stringBytes
  | _ => none

def validateGroupedResultLimits (groups : List Nat) (items : List ResolvedItem) (columns : List ResultColumn)
    (limits : QueryResultLimits) (resultPrefix : Option SelectResultPrefix) : Exec Error Unit := do
  let bytes ← validateSelectResultShape groups.length items.length columns limits resultPrefix
  let _ ← chargeBytes limits.maxBytes bytes
    (groups.flatMap fun group => items.map (ResolvedItem.groupedStringBytes data group))
  .ok ()

/-- Whether `HAVING` keeps a group; a comparison with NULL does not. -/
def ResolvedHaving.evaluate (having : ResolvedHaving) (group : Nat) : Option Bool := do
  let aggregate ← data.aggregateValue having.state group
  match having.predicate with
  | .comparison operator value => some ((aggregate.sqlCmp value).elim false operator.accepts)
  | .isNull => some aggregate.isNull
  | .isNotNull => some !aggregate.isNull

end

end RustHouse.Batch
