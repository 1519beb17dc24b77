import RustHouse.DatabaseStatements
import RustHouse.ValueCmp
import RustHouse.TableRows

/-!
# UNION DISTINCT and CROSS JOIN

The two operations on whole results. Rows that are equal to an earlier one are
found with a set of keys, of one of three shapes, and its hash function. A
product is built row by row, up to the limit of the query.
-/

namespace RustHouse.Batch

open Checked Exec Words

/-! ## Hashing -/

def canonicalFloatBits (x : F64) : UInt64 := if x.partialCmp .zero = some .eq then 0 else x.bits

namespace Value

/-- `PartialEq::eq`. -/
def eq (left right : Value) : Bool := left.cmp right = .eq

/-- What `Hash::hash` feeds to a hasher. -/
def hashBytes : Value → Bytes
  | null dataType => 0 :: sizeBytes dataType.index
  | int64 value => 1 :: i64Bytes value
  | float64 value => 2 :: u64Bytes (canonicalFloatBits value)
  | bool value => [3, if value then 1 else 0]
  | string value => 4 :: utf8 value ++ [0xff]

end Value

def sliceEq (left right : List Value) : Bool :=
  left.length = right.length && (left.zip right).all fun (left, right) => left.eq right

def sliceHashBytes (values : List Value) : Bytes := sizeBytes values.length ++ values.flatMap Value.hashBytes

section
variable (hasher : Bytes → UInt64)

def setContains {κ : Type} (hashBytes : κ → Bytes) (eq : κ → κ → Bool) (keys : List κ) (key : κ) : Bool :=
  keys.any fun stored => hasher (hashBytes stored) = hasher (hashBytes key) && eq stored key

def setInsert {κ : Type} (hashBytes : κ → Bytes) (eq : κ → κ → Bool) (keys : List κ) (key : κ) : List κ :=
  if setContains hasher hashBytes eq keys key then keys else keys ++ [key]

end

/-! ## Keys of rows -/

inductive UnionDistinctKeys where
  | empty (present : Bool)
  | one (keys : List Value)
  | multiple (keys : List (List Value))

namespace UnionDistinctKeys

def new : (columnCount : Nat) → UnionDistinctKeys
  | 0 => empty false
  | 1 => one []
  | _ => multiple []

section
variable (hasher : Bytes → UInt64)

def pairKey (row : List Value) : Exec Error (List Value) := do
  let first ← orPanic row[0]?
  let second ← orPanic row[1]?
  .ok [first, second]

/-- Whether a row has been seen, and the probe that it leaves behind. -/
def contains (row probe : List Value) : UnionDistinctKeys → Exec Error (Bool × List Value)
  | empty present => .ok (present, probe)
  | one keys => do
    let value ← orPanic row[0]?
    .ok (setContains hasher Value.hashBytes Value.eq keys value, probe)
  | multiple keys =>
    if row.length = 2 then do
      let key ← pairKey row
      .ok (setContains hasher sliceHashBytes sliceEq keys key, probe)
    else .ok (setContains hasher sliceHashBytes sliceEq keys row, row)

def insert (row probe : List Value) : UnionDistinctKeys → Exec Error UnionDistinctKeys
  | empty _ => .ok (empty true)
  | one keys => do
    let value ← orPanic row[0]?
    .ok (one (setInsert hasher Value.hashBytes Value.eq keys value))
  | multiple keys =>
    if row.length = 2 then do
      let key ← pairKey row
      .ok (multiple (setInsert hasher sliceHashBytes sliceEq keys key))
    else .ok (multiple (setInsert hasher sliceHashBytes sliceEq keys probe))

end

end UnionDistinctKeys

/-! ## UNION DISTINCT -/

def estimatedGroupKeyCellBytes : Nat := 24

def enforceGroupLimits (groups keyCells : Nat) (limits : QueryResultLimits) : Exec Error Unit := do
  enforceResourceLimit "SELECT groups" groups limits.maxGroups
  enforceResourceLimit "SELECT group key cells" keyCells limits.maxGroupKeyCells
  enforceResourceLimit "SELECT group key bytes" (saturatingMul keyCells estimatedGroupKeyCellBytes) limits.maxGroupKeyBytes

def retainRows (hasher : Bytes → UInt64) (limits : QueryResultLimits) (columnCount : Nat) (keys : UnionDistinctKeys)
    (probe : List Value) (groupCount groupKeyCells : Nat) : List (List Value) → Exec Error (List Bool)
  | [] => .ok []
  | row :: rows => do
    let (present, probe) ← keys.contains hasher row probe
    if present then do
      let retained ← retainRows hasher limits columnCount keys probe groupCount groupKeyCells rows
      .ok (false :: retained)
    else do
      let nextGroupCount := saturatingAdd groupCount 1
      let nextKeyCells := saturatingAdd groupKeyCells columnCount
      enforceGroupLimits nextGroupCount nextKeyCells limits
      let keys ← keys.insert hasher row probe
      let retained ← retainRows hasher limits columnCount keys probe nextGroupCount nextKeyCells rows
      .ok (true :: retained)

def unionDistinctRetainedRows (hasher : Bytes → UInt64) (rows : List (List Value)) (columnCount probeKeyCells : Nat)
    (limits : QueryResultLimits) : Exec Error (List Bool) :=
  retainRows hasher limits columnCount (.new columnCount) [] 0 probeKeyCells rows

/-- `rows.retain`, with one flag for every row. -/
def retain {α : Type} : List α → List Bool → Exec Error (List α)
  | [], _ => .ok []
  | _ :: _, [] => .panic
  | row :: rows, keep :: retained => do
    let rows ← retain rows retained
    .ok (if keep then row :: rows else rows)

def deduplicateUnionRows (hasher : Bytes → UInt64) (rows : List (List Value)) (columnCount : Nat)
    (limits : QueryResultLimits) : Exec Error (List (List Value)) :=
  if rows.isEmpty then .ok rows
  else do
    let probeKeyCells := if columnCount > 2 then columnCount else 0
    let firstKeyCells := saturatingAdd probeKeyCells columnCount
    enforceGroupLimits 1 firstKeyCells limits
    let retained ← unionDistinctRetainedRows hasher rows columnCount probeKeyCells limits
    retain rows retained

/-- What the right operand of a UNION is charged with, and the schema that it has to have. -/
structure SelectResultPrefix where
  columns : List ResultColumn
  rowCount : Nat
  stringBytes : Nat
  operation : String

def Value.stringBytes : Value → Nat
  | .string value => stringLen value
  | _ => 0

def SelectResultPrefix.fromResult (result : QueryResult) (operation : String) : SelectResultPrefix where
  columns := result.columns
  rowCount := result.rows.length
  stringBytes := (result.rows.flatten.map Value.stringBytes).foldl saturatingAdd 0
  operation

def validateUnionTypes (operation : String) : (index : Nat) → List (ResultColumn × ResultColumn) → Exec Error Unit
  | _, [] => .ok ()
  | index, (left, right) :: columns => do
    rejectIf (left.dataType ≠ right.dataType)
      (.typeMismatch s!"{operation} column {index + 1}" left.dataType.asStr right.dataType.asStr)
    validateUnionTypes operation (index + 1) columns

def validateUnionSchema (operation : String) (left right : List ResultColumn) : Exec Error Unit := do
  rejectIf (left.length ≠ right.length)
    (if operation = "UNION DISTINCT" then .unionDistinctColumnCountMismatch left.length right.length
      else .unionColumnCountMismatch left.length right.length)
  validateUnionTypes operation 0 (left.zip right)

section
variable (executeSelect : Select → Option SelectResultPrefix → Exec Error QueryResult)

/-- The rows of both operands. How one of them is evaluated, behind what the other one returned, is a parameter. -/
def executeUnionOperands (left right : Select) (operation : String) : Exec Error QueryResult := do
  let leftResult ← executeSelect left none
  let rightResult ← executeSelect right (some (.fromResult leftResult operation))
  .ok { leftResult with rows := leftResult.rows ++ rightResult.rows }

def executeUnionDistinct (hasher : Bytes → UInt64) (left right : Select) (limits : QueryResultLimits) :
    Exec Error QueryResult := do
  let result ← executeUnionOperands executeSelect left right "UNION DISTINCT"
  let rows ← deduplicateUnionRows hasher result.rows result.columns.length limits
  .ok { result with rows }

end

/-! ## CROSS JOIN -/

def limitedCartesianRowCount (leftRows rightRows : Nat) : (limit : Option Nat) → Exec Error Nat
  | some limit => .ok ((checkedMul leftRows rightRows).elim limit fun rows => min rows limit)
  | none => getOr (checkedMul leftRows rightRows) (.numericOverflow "CROSS JOIN row count")

def selectResultResources : QueryResultResources :=
  ⟨"SELECT result rows", "SELECT result values", "SELECT result bytes"⟩

def validateResultShape (rowCount columnCount : Nat) (columns : List ResultColumn) (limits : QueryResultLimits)
    (resources : QueryResultResources) : Exec Error Nat :=
  validateResultShapeParts rowCount columnCount columns.length
    ((columns.map fun column => stringLen column.name).foldl saturatingAdd 0) limits resources

def stringBytesAt (t : Table) (row : Nat) : Exec Error Nat := do
  let values ← orPanic (t.rowValues row)
  .ok ((values.map Value.stringBytes).foldl saturatingAdd 0)

def addStringBytes (t : Table) (weight : Nat) (bytes : Nat) : (rows : List Nat) → Exec Error Nat
  | [] => .ok bytes
  | row :: rows => do
    let here ← stringBytesAt t row
    addStringBytes t weight (saturatingAdd bytes (saturatingMul here weight)) rows

def crossJoinStringBytes (left right : Table) (rowCount : Nat) : Exec Error Nat :=
  if rowCount = 0 then .ok 0
  else do
    let rightRows := right.rowCount
    let completeLeftRows := rowCount / rightRows
    let partialRightRows := rowCount % rightRows
    let bytes ← addStringBytes left rightRows 0 (List.range completeLeftRows)
    let bytes ←
      if partialRightRows > 0 then addStringBytes left partialRightRows bytes [completeLeftRows] else .ok bytes
    let bytes ←
      if completeLeftRows > 0 then do
        let rightBytes ← addStringBytes right 1 0 (List.range rightRows)
        .ok (saturatingAdd bytes (saturatingMul rightBytes completeLeftRows))
      else .ok bytes
    addStringBytes right 1 bytes (List.range partialRightRows)

def validateCrossJoinResultLimits (left right : Table) (rowCount : Nat) (columns : List ResultColumn)
    (limits : QueryResultLimits) : Exec Error Unit := do
  let bytes ← validateResultShape rowCount columns.length columns limits selectResultResources
  let stringBytes ← crossJoinStringBytes left right rowCount
  enforceResourceLimit selectResultResources.bytes (saturatingAdd bytes stringBytes) limits.maxBytes

/-- The pairs of one row on the left, behind the rows before; the loop ends when there are enough of them. -/
def joinRightRows (left right : Table) (rowCount leftRow : Nat) (rows : List (List Value)) :
    (rightRows : List Nat) → Exec Error (List (List Value) × Bool)
  | [] => .ok (rows, false)
  | rightRow :: rightRows =>
    if rows.length = rowCount then .ok (rows, true)
    else do
      let leftValues ← orPanic (left.rowValues leftRow)
      let rightValues ← orPanic (right.rowValues rightRow)
      joinRightRows left right rowCount leftRow (rows ++ [leftValues ++ rightValues]) rightRows

def joinLeftRows (left right : Table) (rowCount : Nat) (rows : List (List Value)) :
    (leftRows : List Nat) → Exec Error (List (List Value))
  | [] => .ok rows
  | leftRow :: leftRows => do
    let (rows, stopped) ← joinRightRows left right rowCount leftRow rows (List.range right.rowCount)
    if stopped then .ok rows else joinLeftRows left right rowCount rows leftRows

def ColumnDef.resultColumn (field : ColumnDef) : ResultColumn := ⟨field.name, field.dataType⟩

def executeCrossJoin (catalog : Catalog) (crossJoin : CrossJoin) (limits : QueryResultLimits) :
    Exec Error QueryResult := do
  let left ← catalog.table crossJoin.leftTable
  let right ← catalog.table crossJoin.rightTable
  enforceScanLimit left limits "SELECT scanned rows"
  enforceScanLimit right limits "SELECT scanned rows"
  let columns := (left.schema ++ right.schema).map ColumnDef.resultColumn
  let rowCount ← limitedCartesianRowCount left.rowCount right.rowCount crossJoin.limit
  validateCrossJoinResultLimits left right rowCount columns limits
  let rows ← joinLeftRows left right rowCount [] (List.range left.rowCount)
  .ok { columns, rows }

end RustHouse.Batch
