import RustHouse.Column
import RustHouse.Method

/-!
# Typed batch tables

A table keeps one typed vector for each field of its schema, and beside them a
row count, a total of the bytes of its values, and metadata about its `Int64`
columns. The byte total has 128 bits, which no table in memory can exhaust, so
it is a natural number here.
-/

namespace RustHouse.Batch

open Checked Exec Words

/-! ## Limits, schemas and indexes -/

structure Int64MinMaxIndexLimits where
  blockRows : Nat
  maxBlocks : Nat
  /-- Maximum bytes of block metadata. -/
  maxBytes : Nat
  deriving DecidableEq, Repr

/-- One inclusive range and the rows assigned to it. -/
structure Int64RangePartition where
  lowerBound : Int64
  upperBound : Int64
  values : List Int64
  deriving DecidableEq

structure Int64RangePartitionLimits where
  maxPartitions : Nat
  maxRows : Nat
  maxBytes : Nat
  deriving DecidableEq, Repr

/-- The summary of one block of rows; `min` and `max` are those of its present values. -/
structure Int64MinMaxBlockMetadata where
  firstRow : Nat
  rowCount : Nat
  min : Option Int64
  max : Option Int64
  nullCount : Nat
  deriving DecidableEq

structure Int64MinMaxIndexInfo where
  column : String
  blockRows : Nat
  blockCount : Nat
  indexedRows : Nat
  retainedBytes : Nat
  deriving DecidableEq, Repr

inductive Int64MinMaxIndexRejection where
  | zeroBlockRows
  | slotOccupied (table : String)
  | blockLimitExceeded (required max : Nat)
  | byteLimitExceeded (required max : Nat)
  deriving DecidableEq, Repr

inductive Int64MinMaxIndexAdmission where
  | created (info : Int64MinMaxIndexInfo)
  | rejected (rejection : Int64MinMaxIndexRejection)
  deriving DecidableEq, Repr

structure Int64MinMaxIndex where
  column : Nat
  limits : Int64MinMaxIndexLimits
  indexedRows : Nat
  sourceGeneration : UInt64
  blocks : List Int64MinMaxBlockMetadata
  deriving DecidableEq

inductive Int64RangePartitionError where
  | partitionLimitExceeded (partitions maxPartitions : Nat)
  | rowLimitExceeded (rows maxRows : Nat)
  | byteLimitExceeded (bytes maxBytes : Nat)
  | invalidRange (partitionIndex : Nat) (lowerBound upperBound : Int64)
  | outOfOrder (partitionIndex : Nat) (previousLowerBound lowerBound : Int64)
  | overlap (partitionIndex : Nat) (previousUpperBound lowerBound : Int64)
  | valueOutOfRange (partitionIndex valueIndex : Nat) (value lowerBound upperBound : Int64)
  | table (error : Error)
  deriving DecidableEq

structure Int64RangePartitionMetadata where
  lowerBound : Int64
  upperBound : Int64
  rowStart : Nat
  rowEnd : Nat
  deriving DecidableEq

structure Int64RangePartitionSet where
  columnIndex : Nat
  partitions : List Int64RangePartitionMetadata
  deriving DecidableEq

structure TableLimits where
  maxRows : Nat
  maxColumns : Nat
  /-- Maximum `rows * columns`. -/
  maxCells : Nat
  deriving DecidableEq, Repr

def TableLimits.default : TableLimits := ⟨1000000, 1024, 4000000⟩

structure ColumnDef where
  name : String
  dataType : DataType
  deriving DecidableEq, Repr

def isSqlIdentifierStart (character : Char) : Bool := character.isAlpha || character == '_'

def isSqlIdentifierContinue (character : Char) : Bool := character.isAlphanum || character == '_'

def isValidSqlIdentifier (identifier : String) : Bool :=
  match identifier.toList with
  | [] => false
  | first :: rest => isSqlIdentifierStart first && rest.all isSqlIdentifierContinue

def validateSqlIdentifier (identifier context : String) : Exec Error Unit :=
  rejectIf (¬ isValidSqlIdentifier identifier) (.invalidIdentifier identifier context)

def validateTableName (name : String) : Exec Error Unit := validateSqlIdentifier name "table name"

def eqIgnoreAsciiCase (a b : String) : Bool := toAsciiLowercase a == toAsciiLowercase b

def isReservedColumnName (name : String) : Bool := eqIgnoreAsciiCase name "TRUE" || eqIgnoreAsciiCase name "FALSE"

def validateColumnName (name : String) : Exec Error Unit := do
  validateSqlIdentifier name "column name"
  rejectIf (isReservedColumnName name) (.reservedIdentifier name "column name")

/-- Validated INSERT input; without indexes, every row has all the fields in schema order. -/
structure PreparedInsertRows where
  rows : List (List Value)
  /-- Input position to physical schema position. -/
  schemaIndexes : Option (List Nat)
  deriving DecidableEq

/-- The values when the target is one physical `Int64` column. -/
def PreparedInsertRows.int64Values (prepared : PreparedInsertRows) : Option (List (Option Int64)) :=
  prepared.rows.mapM fun
    | [.int64 value] => some (some value)
    | [.null .int64] => some none
    | _ => none

structure Table where
  name : String
  schema : List ColumnDef
  columns : List Column
  rowCount : Nat
  retainedValueBytes : Nat
  limits : TableLimits
  mutationGeneration : UInt64
  int64MinMaxIndex : Option Int64MinMaxIndex
  int64RangePartitions : Option Int64RangePartitionSet
  deriving DecidableEq

namespace Table

/-! ## Construction -/

def validateFields (columnNames : List String) : List ColumnDef → Exec Error Unit
  | [] => .ok ()
  | field :: schema => do
    validateColumnName field.name
    let columnName := toAsciiLowercase field.name
    rejectIf (columnName ∈ columnNames) (.duplicateColumn field.name)
    validateFields (columnName :: columnNames) schema

def withLimits (name : String) (schema : List ColumnDef) (limits : TableLimits) : Exec Error Table := do
  validateTableName name
  rejectIf (schema = []) (.invalidQuery "a table must contain at least one column")
  rejectIf (schema.length > limits.maxColumns)
    (.resourceLimitExceeded "table columns" schema.length limits.maxColumns)
  validateFields [] schema
  .ok ⟨name, schema, schema.map fun field => Column.new field.dataType, 0, 0, limits, 0, none, none⟩

def new (name : String) (schema : List ColumnDef) : Exec Error Table := withLimits name schema .default

def withRowCap (name : String) (schema : List ColumnDef) (rowCap : Nat) : Exec Error Table :=
  withLimits name schema { TableLimits.default with maxRows := rowCap }

def validateRowCapacity (t : Table) (incomingRows : Nat) : Exec Error Unit := do
  rejectIf (incomingRows > t.limits.maxRows - t.rowCount)
    (.resourceLimitExceeded "table rows" (saturatingAdd t.rowCount incomingRows) t.limits.maxRows)
  let rowCount := saturatingAdd t.rowCount incomingRows
  let cellCount := saturatingMul rowCount t.schema.length
  rejectIf (cellCount > t.limits.maxCells) (.resourceLimitExceeded "table cells" cellCount t.limits.maxCells)

def withInt64Values (name columnName : String) (values : List Int64) (limits : TableLimits) : Exec Error Table := do
  let table ← withLimits name [⟨columnName, .int64⟩] limits
  table.validateRowCapacity values.length
  .ok { table with
    rowCount := values.length, retainedValueBytes := values.length * 8, columns := [.int64 values] }

def withNullableInt64Values (name columnName : String) (values : List (Option Int64)) (limits : TableLimits) :
    Exec Error Table := do
  let table ← withLimits name [⟨columnName, .int64⟩] limits
  table.validateRowCapacity values.length
  .ok { table with
    rowCount := values.length, retainedValueBytes := values.length * 9, columns := [.nullableInt64 values] }

def validatePartitions (partitionIndex : Nat) (previous : Option Int64RangePartition) :
    List Int64RangePartition → Exec Int64RangePartitionError Unit
  | [] => .ok ()
  | partition :: partitions => do
    rejectIf (partition.lowerBound > partition.upperBound)
      (.invalidRange partitionIndex partition.lowerBound partition.upperBound)
    match previous with
    | some previous =>
      rejectIf (partition.lowerBound < previous.lowerBound)
        (.outOfOrder partitionIndex previous.lowerBound partition.lowerBound)
      rejectIf (partition.lowerBound ≤ previous.upperBound)
        (.overlap partitionIndex previous.upperBound partition.lowerBound)
    | none => .ok ()
    match partition.values.zipIdx.find? fun (value, _) =>
      value < partition.lowerBound || value > partition.upperBound with
    | some (value, valueIndex) =>
      .error (.valueOutOfRange partitionIndex valueIndex value partition.lowerBound partition.upperBound)
    | none => .ok ()
    validatePartitions (partitionIndex + 1) (some partition) partitions

/-- Where each partition lies in the concatenation of all. -/
def partitionMetadata (rowStart : Nat) : List Int64RangePartition → List Int64RangePartitionMetadata
  | [] => []
  | partition :: partitions =>
    let rowEnd := rowStart + partition.values.length
    ⟨partition.lowerBound, partition.upperBound, rowStart, rowEnd⟩ :: partitionMetadata rowEnd partitions

def withInt64RangePartitions (name columnName : String) (partitions : List Int64RangePartition)
    (partitionLimits : Int64RangePartitionLimits) (tableLimits : TableLimits) :
    Exec Int64RangePartitionError Table := do
  rejectIf (partitions.length > partitionLimits.maxPartitions)
    (.partitionLimitExceeded partitions.length partitionLimits.maxPartitions)
  let rows := (partitions.map fun partition => partition.values.length).foldl saturatingAdd 0
  rejectIf (rows > partitionLimits.maxRows) (.rowLimitExceeded rows partitionLimits.maxRows)
  let exactBytes := rows * 8
  rejectIf (exactBytes > partitionLimits.maxBytes)
    (.byteLimitExceeded (min exactBytes usizeMax) partitionLimits.maxBytes)
  validatePartitions 0 none partitions
  let table ← mapError .table (withLimits name [⟨columnName, .int64⟩] tableLimits)
  mapError .table (table.validateRowCapacity rows)
  let values := partitions.flatMap Int64RangePartition.values
  -- A vector never grows beyond `isizeMax` bytes.
  if values.length * 8 > isizeMax then .panic else
  .ok { table with
    rowCount := rows, retainedValueBytes := exactBytes, columns := [.int64 values]
    int64RangePartitions := some ⟨0, partitionMetadata 0 partitions⟩ }

/-! ## Lookup and indexes -/

def retainedCellCount (t : Table) : Nat := saturatingMul t.rowCount t.schema.length

def columnIndex (t : Table) (name : String) : Exec Error Nat :=
  getOr (t.schema.findIdx? fun field => eqIgnoreAsciiCase field.name name) (.columnNotFound t.name name)

def setName (t : Table) (name : String) : Table := { t with name }

def sizeOfInt64MinMaxBlockMetadata : Nat := 56

def int64MinMaxIndexInfo (t : Table) : Option Int64MinMaxIndexInfo := do
  let index ← t.int64MinMaxIndex
  let column ← t.schema[index.column]?
  some ⟨column.name, index.limits.blockRows, index.blocks.length, index.indexedRows,
    saturatingMul index.blocks.length sizeOfInt64MinMaxBlockMetadata⟩

def summarizeNullableInt64Block (firstRow : Nat) (values : List (Option Int64)) : Int64MinMaxBlockMetadata :=
  values.foldl (fun block value =>
    match value with
    | some value => { block with
        rowCount := saturatingAdd block.rowCount 1
        min := some (block.min.elim value fun current => Min.min current value)
        max := some (block.max.elim value fun current => Max.max current value) }
    | none => { block with
        rowCount := saturatingAdd block.rowCount 1, nullCount := saturatingAdd block.nullCount 1 })
    ⟨firstRow, 0, none, none, 0⟩

/-- The number of blocks that it takes to hold some rows. -/
def divCeil (rows blockRows : Nat) : Nat := (rows + (blockRows - 1)) / blockRows

def summarizeChunks (blockRows : Nat) (values : List (Option Int64)) : List Int64MinMaxBlockMetadata :=
  (List.range (divCeil values.length blockRows)).map fun blockNumber =>
    summarizeNullableInt64Block (saturatingMul blockNumber blockRows)
      ((values.drop (blockNumber * blockRows)).take blockRows)

def summarizeColumn (blockRows : Nat) : Column → Option (List Int64MinMaxBlockMetadata)
  | .int64 values => some (summarizeChunks blockRows (values.map some))
  | .nullableInt64 values => some (summarizeChunks blockRows values)
  | _ => none

/-- The index of a column of integers; another column, or blocks without rows, panic. -/
def buildInt64MinMaxIndex (t : Table) (column : Nat) (limits : Int64MinMaxIndexLimits) :
    Exec Int64MinMaxIndexRejection Int64MinMaxIndex :=
  if limits.blockRows = 0 then .panic else do
  let requiredBlocks := divCeil t.rowCount limits.blockRows
  rejectIf (requiredBlocks > limits.maxBlocks) (.blockLimitExceeded requiredBlocks limits.maxBlocks)
  let requiredBytes := saturatingMul requiredBlocks sizeOfInt64MinMaxBlockMetadata
  rejectIf (requiredBytes > limits.maxBytes) (.byteLimitExceeded requiredBytes limits.maxBytes)
  let blocks ← orPanic (t.columns[column]?.bind (summarizeColumn limits.blockRows))
  .ok ⟨column, limits, t.rowCount, t.mutationGeneration, blocks⟩

def tryCreateInt64MinMaxIndex (column : String) (limits : Int64MinMaxIndexLimits) :
    Method Table Error Int64MinMaxIndexAdmission := do
  let t ← .read
  let column ← .call (t.columnIndex column)
  let field ← .call (orPanic t.schema[column]?)
  .call (rejectIf (field.dataType ≠ .int64)
    (.typeMismatch s!"sparse min-max index column '{t.name}.{field.name}'" DataType.int64.asStr field.dataType.asStr))
  if limits.blockRows = 0 then return .rejected .zeroBlockRows
  match t.buildInt64MinMaxIndex column limits with
  | .ok index =>
    let t := { t with int64MinMaxIndex := some index }
    .write t
    let info ← .call (orPanic t.int64MinMaxIndexInfo)
    return .created info
  | .error rejection => return .rejected rejection
  | .panic => .call .panic

def dropInt64MinMaxIndex : Method Table Error Bool := do
  let t ← .read
  .write { t with int64MinMaxIndex := none }
  return t.int64MinMaxIndex.isSome

/-- The values changed: partitions are forgotten, and an index is built again if it still fits. -/
def markValuesMutated : Method Table Error Unit := do
  let t ← .read
  let t := { t with int64RangePartitions := none, mutationGeneration := t.mutationGeneration + 1 }
  match t.int64MinMaxIndex with
  | none => .write t
  | some previous =>
    let t := { t with int64MinMaxIndex := none }
    match t.buildInt64MinMaxIndex previous.column previous.limits with
    | .ok index => .write { t with int64MinMaxIndex := some index }
    | .error _ => .write t
    | .panic => .call .panic

end Table

end RustHouse.Batch
