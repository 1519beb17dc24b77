import RustHouse.Table

/-!
# Mutations of a table

Each mutation checks all of its input before it touches the first column.
-/

namespace RustHouse.Batch

open Checked Exec Words

namespace Table

/-! ## Validation of rows -/

def validateValue (t : Table) (column : Nat) (field : ColumnDef) : Value → Exec Error Unit
  | .null dataType => do
    let physical ← orPanic t.columns[column]?
    rejectIf (¬ (physical.isNullableInt64 ∧ dataType = .int64))
      (.typeMismatch s!"column '{t.name}.{field.name}'" field.dataType.asStr "NULL")
  | .float64 number => do
    rejectIf (field.dataType ≠ .float64)
      (.typeMismatch s!"column '{t.name}.{field.name}'" field.dataType.asStr DataType.float64.asStr)
    rejectIf (¬ number.isFinite)
      (.invalidQuery s!"column '{t.name}.{field.name}' cannot store a non-finite Float64")
  | value =>
    rejectIf (field.dataType ≠ value.dataType)
      (.typeMismatch s!"column '{t.name}.{field.name}'" field.dataType.asStr value.dataType.asStr)

def validateValues (t : Table) (column : Nat) : List ColumnDef → List Value → Exec Error Unit
  | field :: schema, value :: row => do
    t.validateValue column field value
    t.validateValues (column + 1) schema row
  | _, _ => .ok ()

def validateRow (t : Table) (row : List Value) : Exec Error Unit := do
  rejectIf (row.length ≠ t.schema.length) (.rowLength t.name t.schema.length row.length)
  t.validateValues 0 t.schema row

/-! ## Preparation of INSERT input -/

/-- The schema position of each lower-cased name, the last one first. -/
def schemaIndexesByName (t : Table) : List (String × Nat) :=
  (t.schema.zipIdx.map fun (field, index) => (toAsciiLowercase field.name, index)).reverse

def resolveInsertColumns (t : Table) (schemaIndexes : List Nat) : List String → Exec Error (List Nat)
  | [] => .ok schemaIndexes
  | name :: names => do
    let schemaIndex ← getOr (t.schemaIndexesByName.lookup (toAsciiLowercase name)) (.columnNotFound t.name name)
    rejectIf (schemaIndex ∈ schemaIndexes) (.duplicateColumn name)
    t.resolveInsertColumns (schemaIndexes ++ [schemaIndex]) names

/-- Which input field each schema position gets; a position outside the schema panics. -/
def inputIndexesBySchema (inputIndex : Nat) (indexes : List (Option Nat)) : List Nat → Option (List (Option Nat))
  | [] => some indexes
  | schemaIndex :: schemaIndexes => do
    let indexes ← setIndex indexes schemaIndex (some inputIndex)
    inputIndexesBySchema (inputIndex + 1) indexes schemaIndexes

def validateProjected (t : Table) (row : List Value) (column : Nat) :
    List ColumnDef → List (Option Nat) → Exec Error Unit
  | field :: schema, some inputIndex :: indexes => do
    let value ← orPanic row[inputIndex]?
    t.validateValue column field value
    t.validateProjected row (column + 1) schema indexes
  | _ :: schema, none :: indexes => t.validateProjected row (column + 1) schema indexes
  | _, _ => .ok ()

def prepareProjectedRowsWithCapacity (t : Table) (schemaIndexes : List Nat) (rows : List (List Value))
    (capacityRows : Nat) : Exec Error PreparedInsertRows := do
  let indexes ← orPanic (inputIndexesBySchema 0 (List.replicate t.schema.length none) schemaIndexes)
  forEach (fun row => rejectIf (row.length ≠ schemaIndexes.length)
    (.rowLength t.name schemaIndexes.length row.length)) rows
  t.validateRowCapacity capacityRows
  forEach (fun row => t.validateProjected row 0 t.schema indexes) rows
  .ok ⟨rows, if schemaIndexes = List.range t.schema.length then none else some schemaIndexes⟩

def prepareProjectedRows (t : Table) (schemaIndexes : List Nat) (rows : List (List Value)) :
    Exec Error PreparedInsertRows :=
  t.prepareProjectedRowsWithCapacity schemaIndexes rows rows.length

def prepareInsertRows (t : Table) (insertColumns : Option (List String)) (rows : List (List Value))
    (capacityRows : Nat) : Exec Error PreparedInsertRows := do
  match insertColumns with
  | none =>
    t.validateRowCapacity capacityRows
    forEach t.validateRow rows
    .ok ⟨rows, none⟩
  | some insertColumns =>
    if insertColumns = [] then
      let first ← orPanic t.schema[0]?
      .error (.missingInsertColumn t.name first.name)
    else
      let schemaIndexes ← t.resolveInsertColumns [] insertColumns
      forEach (fun row => rejectIf (row.length ≠ insertColumns.length)
        (.rowLength t.name insertColumns.length row.length)) rows
      t.prepareProjectedRowsWithCapacity schemaIndexes rows capacityRows

/-! ## Insertion -/

def pushRow (addedValueBytes : Nat) : List Column → List Value → Option (List Column × Nat)
  | column :: columns, value :: row => do
    let (column, bytes) ← column.push value
    let (columns, addedValueBytes) ← pushRow (addedValueBytes + bytes) columns row
    some (column :: columns, addedValueBytes)
  | columns, _ => some (columns, addedValueBytes)

def appendValidatedRow (row : List Value) : Method Table Error Unit := do
  let t ← .read
  let (columns, addedValueBytes) ← .call (orPanic (pushRow 0 t.columns row))
  .write { t with
    columns, rowCount := t.rowCount + 1, retainedValueBytes := t.retainedValueBytes + addedValueBytes }

def appendEach : List (List Value) → Method Table Error Unit
  | [] => pure ()
  | row :: rows => do
    appendValidatedRow row
    appendEach rows

def appendValidatedRows (rows : List (List Value)) : Method Table Error Unit := do
  appendEach rows
  if rows ≠ [] then markValuesMutated

def insertRow (row : List Value) : Method Table Error Unit := do
  let t ← .read
  .call (t.validateRowCapacity 1)
  .call (t.validateRow row)
  appendValidatedRow row
  markValuesMutated

def insertRows (rows : List (List Value)) : Method Table Error Unit := do
  let t ← .read
  .call (t.validateRowCapacity rows.length)
  .call (forEach t.validateRow rows)
  appendValidatedRows rows

def defaultValue : Column → Value
  | .nullableInt64 _ => .null .int64
  | .int64 _ => .int64 0
  | .float64 _ => .float64 .zero
  | .bool _ => .bool false
  | .string _ => .string ""

def assignValues (row : List Value) : List Value → List Nat → Option (List Value)
  | value :: source, schemaIndex :: schemaIndexes => do
    let row ← setIndex row schemaIndex value
    assignValues row source schemaIndexes
  | _, _ => some row

def appendDefaulted (schemaIndexes : List Nat) : List (List Value) → Method Table Error Unit
  | [] => pure ()
  | source :: rows => do
    let t ← .read
    let defaults := (t.schema.zip t.columns).map fun (_, column) => defaultValue column
    let row ← .call (orPanic (assignValues defaults source schemaIndexes))
    appendValidatedRow row
    appendDefaulted schemaIndexes rows

def appendPreparedInsertRows (prepared : PreparedInsertRows) : Method Table Error Unit :=
  match prepared.schemaIndexes with
  | none => appendValidatedRows prepared.rows
  | some schemaIndexes => do
    appendDefaulted schemaIndexes prepared.rows
    if prepared.rows ≠ [] then markValuesMutated

/-! ## Replacement and deletion -/

def replaceColumnValues (column : String) (replacements : List (Nat × Value)) : Method Table Error Nat := do
  let t ← .read
  let columnIndex ← .call (t.columnIndex column)
  .call (validateRowSelection (replacements.map Prod.fst) t.rowCount)
  let field ← .call (orPanic t.schema[columnIndex]?)
  .call (forEach (fun (_, value) => t.validateValue columnIndex field value) replacements)
  let column ← .call (orPanic t.columns[columnIndex]?)
  let (column, removedValueBytes, addedValueBytes) ← .call (orPanic (column.replaceValues 0 0 replacements))
  .write { t with
    columns := t.columns.set columnIndex column
    retainedValueBytes := t.retainedValueBytes - removedValueBytes + addedValueBytes }
  if replacements.length ≠ 0 then markValuesMutated
  return replacements.length

/-- Every column without the rows at the given indexes, and the bytes removed. -/
def deleteFromColumns (rowIndexes : List Nat) (deletedValueBytes : Nat) : List Column → Option (List Column × Nat)
  | [] => some ([], deletedValueBytes)
  | column :: columns => do
    let (column, bytes) ← column.deleteRows rowIndexes
    let (columns, deletedValueBytes) ← deleteFromColumns rowIndexes (deletedValueBytes + bytes) columns
    some (column :: columns, deletedValueBytes)

def deleteRows (rowIndexes : List Nat) : Method Table Error Nat := do
  let t ← .read
  .call (validateRowSelection rowIndexes t.rowCount)
  if rowIndexes = [] then return 0
  let (columns, deletedValueBytes) ← .call (orPanic (deleteFromColumns rowIndexes 0 t.columns))
  .write { t with
    columns, rowCount := t.rowCount - rowIndexes.length
    retainedValueBytes := t.retainedValueBytes - deletedValueBytes }
  markValuesMutated
  return rowIndexes.length

def truncate : Method Table Error Nat := do
  let t ← .read
  .write { t with columns := t.columns.map Column.clear, rowCount := 0, retainedValueBytes := 0 }
  if t.rowCount ≠ 0 then markValuesMutated
  return t.rowCount

/-! ## Columns -/

def renameColumn (source destination : String) : Method Table Error Unit := do
  let t ← .read
  let sourceIndex ← .call (t.columnIndex source)
  .call (validateColumnName destination)
  .call (rejectIf (t.schema.zipIdx.any fun (field, index) =>
    index ≠ sourceIndex && eqIgnoreAsciiCase field.name destination) (.duplicateColumn destination))
  .write { t with
    schema := t.schema.modify sourceIndex fun field => { field with name := destination }
    int64RangePartitions := none }

def validateAddColumn (t : Table) (field : ColumnDef) : Exec Error Unit := do
  validateColumnName field.name
  rejectIf (t.schema.any fun existing => eqIgnoreAsciiCase existing.name field.name) (.duplicateColumn field.name)
  -- The length of a vector is far from the largest size, so that this sum never saturates.
  let columnCount := t.schema.length + 1
  rejectIf (columnCount > t.limits.maxColumns)
    (.resourceLimitExceeded "table columns" columnCount t.limits.maxColumns)
  let cellCount := saturatingMul t.rowCount columnCount
  rejectIf (cellCount > t.limits.maxCells) (.resourceLimitExceeded "table cells" cellCount t.limits.maxCells)

def publishAddedColumn (field : ColumnDef) (column : Column) : Method Table Error Unit := do
  let t ← .read
  .write { t with
    schema := t.schema ++ [field], columns := t.columns ++ [column]
    retainedValueBytes := t.retainedValueBytes + column.retainedValueBytesExact }
  markValuesMutated

def addColumn (field : ColumnDef) : Method Table Error Unit := do
  let t ← .read
  .call (t.validateAddColumn field)
  publishAddedColumn field (match field.dataType with
    | .int64 => .int64 (List.replicate t.rowCount 0)
    | .float64 => .float64 (List.replicate t.rowCount .zero)
    | .bool => .bool (List.replicate t.rowCount false)
    | .string => .string (List.replicate t.rowCount ""))

def addNullableInt64Column (name : String) : Method Table Error Unit := do
  let field : ColumnDef := ⟨name, .int64⟩
  let t ← .read
  .call (t.validateAddColumn field)
  publishAddedColumn field (.nullableInt64 (List.replicate t.rowCount none))

def dropColumn (column : String) : Method Table Error Unit := do
  let t ← .read
  let columnIndex ← .call (t.columnIndex column)
  .call (rejectIf (t.schema.length = 1) (.invalidQuery s!"cannot drop the only column from table '{t.name}'"))
  let removedColumn ← .call (orPanic t.columns[columnIndex]?)
  .write { t with
    schema := t.schema.eraseIdx columnIndex, columns := t.columns.eraseIdx columnIndex
    retainedValueBytes := t.retainedValueBytes - removedColumn.retainedValueBytesExact
    int64MinMaxIndex := none, int64RangePartitions := none, mutationGeneration := t.mutationGeneration + 1 }

end Table

end RustHouse.Batch
