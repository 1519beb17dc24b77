import RustHouse.Predicate

/-!
# Metadata pruning

A comparison of one integer column with a literal, or a range of such, becomes
a filter on the bounds of range partitions and on the summaries of index
blocks, and only the rows that these leave are evaluated.
-/

namespace RustHouse.Batch

open Checked Exec Words

/-! ## Filters -/

inductive Int64Filter where
  | equal (value : Int64)
  | less (value : Int64)
  | lessOrEqual (value : Int64)
  | greater (value : Int64)
  | greaterOrEqual (value : Int64)
  | inclusiveRange (lower upper : Int64)
  deriving DecidableEq

def reverseComparison : ComparisonOperator → ComparisonOperator
  | .equal => .equal
  | .notEqual => .notEqual
  | .less => .greater
  | .lessOrEqual => .greaterOrEqual
  | .greater => .less
  | .greaterOrEqual => .lessOrEqual

/-- `value.checked_add(1)`. -/
def checkedSucc (value : Int64) : Option Int64 := if value = Int64.maxValue then none else some (value + 1)

/-- `value.checked_sub(1)`. -/
def checkedPred (value : Int64) : Option Int64 := if value = Int64.minValue then none else some (value - 1)

def emptyInt64Range : Int64Filter := .inclusiveRange Int64.maxValue Int64.minValue

def normalizedInt64Range (lower : Int64) (lowerStrict : Bool) (upper : Int64) (upperStrict : Bool) : Int64Filter :=
  match if lowerStrict then checkedSucc lower else some lower with
  | none => emptyInt64Range
  | some lower =>
    match if upperStrict then checkedPred upper else some upper with
    | none => emptyInt64Range
    | some upper => .inclusiveRange lower upper

namespace CompiledPredicate

def comparisonFilter (value : Int64) : ComparisonOperator → Option Int64Filter
  | .equal => some (.equal value)
  | .less => some (.less value)
  | .lessOrEqual => some (.lessOrEqual value)
  | .greater => some (.greater value)
  | .greaterOrEqual => some (.greaterOrEqual value)
  | .notEqual => none

def int64Filter : CompiledPredicate → Option (Nat × Int64Filter)
  | comparison (.column index .int64) operator (.literal (.int64 value)) =>
    (comparisonFilter value operator).map fun filter => (index, filter)
  | comparison (.literal (.int64 value)) operator (.column index .int64) =>
    (comparisonFilter value (reverseComparison operator)).map fun filter => (index, filter)
  | _ => none

def int64RangeFilter : CompiledPredicate → Option (Nat × Int64Filter)
  | and first second => do
    let (firstColumn, firstFilter) ← first.int64Filter
    let (secondColumn, secondFilter) ← second.int64Filter
    let (lowerColumn, lower, lowerStrict, upperColumn, upper, upperStrict) ←
      match firstFilter, secondFilter with
      | .greaterOrEqual lower, .lessOrEqual upper => some (firstColumn, lower, false, secondColumn, upper, false)
      | .lessOrEqual upper, .greaterOrEqual lower => some (secondColumn, lower, false, firstColumn, upper, false)
      | .greater lower, .lessOrEqual upper => some (firstColumn, lower, true, secondColumn, upper, false)
      | .lessOrEqual upper, .greater lower => some (secondColumn, lower, true, firstColumn, upper, false)
      | .greaterOrEqual lower, .less upper => some (firstColumn, lower, false, secondColumn, upper, true)
      | .less upper, .greaterOrEqual lower => some (secondColumn, lower, false, firstColumn, upper, true)
      | .greater lower, .less upper => some (firstColumn, lower, true, secondColumn, upper, true)
      | .less upper, .greater lower => some (secondColumn, lower, true, firstColumn, upper, true)
      | _, _ => none
    if lowerColumn ≠ upperColumn then none
    else some (lowerColumn, normalizedInt64Range lower lowerStrict upper upperStrict)
  | _ => none

def int64PartitionFilter (predicate : CompiledPredicate) : Option (Nat × Int64Filter) :=
  predicate.int64Filter.or predicate.int64RangeFilter

def int64IndexFilter (predicate : CompiledPredicate) : Option (Nat × Int64Filter) := predicate.int64PartitionFilter

def int64Nullness : CompiledPredicate → Option (Nat × Bool)
  | nullness column isNull => some (column, isNull)
  | _ => none

end CompiledPredicate

/-! ## Partitions -/

def Int64Filter.mayMatch (lowerBound upperBound : Int64) : Int64Filter → Bool
  | equal value => lowerBound ≤ value && value ≤ upperBound
  | less value => lowerBound < value
  | lessOrEqual value => lowerBound ≤ value
  | greater value => upperBound > value
  | greaterOrEqual value => upperBound ≥ value
  | inclusiveRange lower upper => lower ≤ upper && upperBound ≥ lower && lowerBound ≤ upper

/-- A range of rows, from the first to before the last. -/
abbrev RowRange := Nat × Nat

/-- The rows of the partitions that may match, with what lies between. -/
def Table.int64RangePartitionRows (t : Table) (columnIndex : Nat) (filter : Int64Filter) : Option RowRange := do
  let set ← t.int64RangePartitions
  if set.columnIndex ≠ columnIndex then none
  else match set.partitions.filter fun partition => filter.mayMatch partition.lowerBound partition.upperBound with
    | [] => some (0, 0)
    | first :: selected => some (first.rowStart, (selected.getLast?.getD first).rowEnd)

/-! ## Index blocks -/

structure Int64MinMaxIndexScan where
  ranges : List RowRange
  scannedBlocks : Nat
  prunedBlocks : Nat
  deriving DecidableEq

def blockMayMatch (filter : Int64Filter) (block : Int64MinMaxBlockMetadata) : Bool :=
  match block.min, block.max with
  | some min, some max => filter.mayMatch min max
  | _, _ => false

def blockMayMatchNullness (isNull : Bool) (block : Int64MinMaxBlockMetadata) : Bool :=
  if isNull then block.nullCount ≠ 0 else block.nullCount < block.rowCount

def blockHasValidLayout (indexedRows blockRows : Nat) (block : Int64MinMaxBlockMetadata) (position : Nat) : Bool :=
  let firstRow := saturatingMul position blockRows
  let expectedRows := min (indexedRows - firstRow) blockRows
  block.firstRow = firstRow && block.rowCount = expectedRows && block.nullCount ≤ block.rowCount &&
    block.min.isSome == block.max.isSome &&
    (if block.min.isSome then block.nullCount < block.rowCount else block.nullCount = block.rowCount) &&
    (match block.min, block.max with
      | some min, some max => min ≤ max
      | _, _ => true)

def indexHasValidLayout (index : Int64MinMaxIndex) : Bool :=
  index.blocks.length = Table.divCeil index.indexedRows index.limits.blockRows &&
    index.blocks.zipIdx.all fun (block, position) =>
      blockHasValidLayout index.indexedRows index.limits.blockRows block position

def scanBlocks (sourceRows : RowRange) (mayMatch : Int64MinMaxBlockMetadata → Bool) (scan : Int64MinMaxIndexScan) :
    List Int64MinMaxBlockMetadata → Int64MinMaxIndexScan
  | [] => scan
  | block :: blocks =>
    let start := max block.firstRow sourceRows.1
    let stop := min (saturatingAdd block.firstRow block.rowCount) sourceRows.2
    let scan :=
      if start ≥ stop then scan
      else if mayMatch block then
        { scan with scannedBlocks := saturatingAdd scan.scannedBlocks 1, ranges := scan.ranges ++ [(start, stop)] }
      else { scan with prunedBlocks := saturatingAdd scan.prunedBlocks 1 }
    scanBlocks sourceRows mayMatch scan blocks

def Table.int64MinMaxIndexScanWith (t : Table) (column : Nat) (sourceRows : RowRange)
    (mayMatch : Int64MinMaxBlockMetadata → Bool) : Option Int64MinMaxIndexScan := do
  let index ← t.int64MinMaxIndex
  if index.column ≠ column ∨ index.sourceGeneration ≠ t.mutationGeneration ∨ index.indexedRows ≠ t.rowCount ∨
      index.limits.blockRows = 0 ∨ ¬ indexHasValidLayout index then none
  else some (scanBlocks sourceRows mayMatch ⟨[], 0, 0⟩ index.blocks)

def Table.int64MinMaxIndexScan (t : Table) (column : Nat) (filter : Int64Filter) (sourceRows : RowRange) :
    Option Int64MinMaxIndexScan :=
  t.int64MinMaxIndexScanWith column sourceRows (blockMayMatch filter)

def Table.int64MinMaxNullnessIndexScan (t : Table) (column : Nat) (isNull : Bool) (sourceRows : RowRange) :
    Option Int64MinMaxIndexScan :=
  t.int64MinMaxIndexScanWith column sourceRows (blockMayMatchNullness isNull)

/-! ## Selection -/

def compileWhere (t : Table) : Option Predicate → Exec Error (Option CompiledPredicate)
  | none => .ok none
  | some predicate => do
    let predicate ← compilePredicate t predicate
    .ok (some predicate)

def sourceRows (t : Table) (predicate : Option CompiledPredicate) : RowRange :=
  ((predicate.bind CompiledPredicate.int64PartitionFilter).bind fun (column, filter) =>
    t.int64RangePartitionRows column filter).getD (0, t.rowCount)

/-- The ranges of rows to evaluate. -/
def candidateRanges (t : Table) (predicate : Option CompiledPredicate) : List RowRange :=
  let source := sourceRows t predicate
  let indexedScan := ((predicate.bind CompiledPredicate.int64IndexFilter).bind fun (column, filter) =>
      t.int64MinMaxIndexScan column filter source).or
    ((predicate.bind CompiledPredicate.int64Nullness).bind fun (column, isNull) =>
      t.int64MinMaxNullnessIndexScan column isNull source)
  match indexedScan with
  | some scan => scan.ranges
  | none => [source]

def candidateRows (ranges : List RowRange) : List Nat :=
  ranges.flatMap fun range => List.range' range.1 (range.2 - range.1)

def filterRows (t : Table) (predicate : Option CompiledPredicate) : List Nat → Option (List Nat)
  | [] => some []
  | row :: rows => do
    let keeps ← predicate.elim (some true) (CompiledPredicate.evaluate t row)
    let rest ← filterRows t predicate rows
    some (if keeps then row :: rest else rest)

def matchingRows (t : Table) (predicate : Option CompiledPredicate) : Option (List Nat) :=
  filterRows t predicate (candidateRows (candidateRanges t predicate))

/-- The same selection by a scan of every row. -/
def fullScan (t : Table) (predicate : Option CompiledPredicate) : Option (List Nat) :=
  filterRows t predicate (List.range t.rowCount)

end RustHouse.Batch
