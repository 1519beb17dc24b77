import RustHouse.Catalog
import RustHouse.Format
import RustHouse.Sql

/-!
# SHOW CREATE TABLE

The statements that create a table again: one `CREATE TABLE` with at most two
nullable columns at its end, and an `ALTER TABLE` for each column that it
leaves out.
-/

namespace RustHouse.Batch

open Checked Exec Words

/-! ## Limits of results -/

/-- Limits of scans, results, orderings and groups. -/
structure QueryResultLimits where
  maxScanRows : Nat
  maxRows : Nat
  maxValues : Nat
  maxBytes : Nat
  maxOrderingStateBytes : Nat
  maxGroups : Nat
  maxGroupKeyCells : Nat
  maxGroupKeyBytes : Nat
  maxAggregateStateCells : Nat
  maxAggregateStateBytes : Nat
  deriving DecidableEq

def QueryResultLimits.default : QueryResultLimits where
  maxScanRows := 1000000
  maxRows := 10000
  maxValues := 250000
  maxBytes := 16 * 1024 * 1024
  maxOrderingStateBytes := 16 * 1024 * 1024
  maxGroups := 100000
  maxGroupKeyCells := 500000
  maxGroupKeyBytes := 32 * 1024 * 1024
  maxAggregateStateCells := 500000
  maxAggregateStateBytes := 32 * 1024 * 1024

/-- The names that the limits of one kind of result have in errors. -/
structure QueryResultResources where
  rows : String
  values : String
  bytes : String

def showCreateTableResultResources : QueryResultResources :=
  ⟨"SHOW CREATE TABLE result rows", "SHOW CREATE TABLE result values", "SHOW CREATE TABLE result bytes"⟩

def sizeOfResultColumn : Nat := 32
def sizeOfRow : Nat := 24
def sizeOfValue : Nat := 24

def enforceResourceLimit (resource : String) (actual max : Nat) : Exec Error Unit :=
  rejectIf (actual > max) (.resourceLimitExceeded resource actual max)

def validateResultShapeParts (rowCount valuesPerRow resultColumnCount resultColumnNameBytes : Nat)
    (limits : QueryResultLimits) (resources : QueryResultResources) : Exec Error Nat := do
  enforceResourceLimit resources.rows rowCount limits.maxRows
  let valueCount := saturatingMul rowCount valuesPerRow
  enforceResourceLimit resources.values valueCount limits.maxValues
  let columnBytes := saturatingAdd (saturatingMul resultColumnCount sizeOfResultColumn) resultColumnNameBytes
  let bytes := saturatingAdd (saturatingAdd columnBytes (saturatingMul rowCount sizeOfRow))
    (saturatingMul valueCount sizeOfValue)
  enforceResourceLimit resources.bytes bytes limits.maxBytes
  .ok bytes

/-! ## How many columns the first statement creates -/

def Column.metadataTypeName : Column → String
  | nullableInt64 _ => "Nullable(Int64)"
  | column => column.dataType.asStr

def showCreateColumnCount (t : Table) : Nat :=
  match t.columns.findIdx? Column.isNullableInt64 with
  | none => t.schema.length
  | some firstNullable =>
    let nullableSuffix := t.columns.drop firstNullable
    let supportedNullableShape := nullableSuffix.length ≤ 2 && nullableSuffix.all Column.isNullableInt64
    if supportedNullableShape ∧ t.schema.length ≤ defaultMaxAstListItems then t.schema.length
    else max firstNullable 1

/-- How many statements it would take with one more column. -/
def showCreateStatementCountAfterAddition (t : Table) (addedNullable : Bool) : Nat :=
  -- As for the limits of columns, these sums of lengths never saturate.
  let resultingColumns := t.schema.length + 1
  match (t.columns.findIdx? Column.isNullableInt64).or (if addedNullable then some t.schema.length else none) with
  | none => 1
  | some firstNullable =>
    let nullableSuffixLen := resultingColumns - firstNullable
    let existingSuffixIsNullable := (t.columns.drop (min firstNullable t.schema.length)).all Column.isNullableInt64
    let resultingSuffixIsNullable := existingSuffixIsNullable && addedNullable
    let supportedNullableShape := nullableSuffixLen ≤ 2 && resultingSuffixIsNullable
    if supportedNullableShape ∧ resultingColumns ≤ defaultMaxAstListItems then 1
    else 1 + resultingColumns - max firstNullable 1

/-- A column is only added to a table that one batch can still create again. -/
def validateShowCreateAddition (t : Table) (field : ColumnDef) (addedNullable : Bool) : Exec Error Unit := do
  let statements := showCreateStatementCountAfterAddition t addedNullable
  if statements ≤ defaultMaxBatchStatements then .ok () else
  t.validateAddColumn field
  .error (.resourceLimitExceeded "nullable SHOW CREATE statements" statements defaultMaxBatchStatements)

/-! ## The text -/

/-- A column with its type, as both statements write it. -/
def fieldDdl (field : ColumnDef × Column) : String := field.1.name ++ " " ++ field.2.metadataTypeName

def alterDdl (table : String) (field : ColumnDef × Column) : String :=
  "; ALTER TABLE " ++ table ++ " ADD COLUMN " ++ fieldDdl field

def createTableDdl (t : Table) : String :=
  let createColumns := showCreateColumnCount t
  let fields := t.schema.zip t.columns
  "CREATE TABLE " ++ t.name ++ " (" ++ ", ".intercalate ((fields.take createColumns).map fieldDdl) ++ ")" ++
    if createColumns ≠ t.schema.length then String.join ((fields.drop createColumns).map (alterDdl t.name)) else ""

/-- The announced length of the text. -/
def createTableDdlLen (t : Table) : Nat :=
  let createColumns := showCreateColumnCount t
  let fields := t.schema.zip t.columns
  let fieldsBytes := ((fields.take createColumns).map fun field =>
    saturatingAdd (saturatingAdd (stringLen field.1.name) 1) (stringLen field.2.metadataTypeName)).foldl saturatingAdd 0
  let delimiters := saturatingMul (createColumns - 1) 2
  let alterBytes :=
    if createColumns ≠ t.schema.length then
      ((fields.drop createColumns).map fun field =>
        saturatingAdd (saturatingAdd (saturatingAdd (saturatingAdd (saturatingAdd (stringLen "; ALTER TABLE ")
          (stringLen t.name)) (stringLen " ADD COLUMN ")) (stringLen field.1.name)) 1)
          (stringLen field.2.metadataTypeName)).foldl saturatingAdd 0
    else 0
  saturatingAdd (saturatingAdd (saturatingAdd (saturatingAdd (saturatingAdd (saturatingAdd (stringLen "CREATE TABLE ")
    (stringLen t.name)) (stringLen " (")) fieldsBytes) delimiters) (stringLen ")")) alterBytes

/-- `String::with_capacity` of a length, filled with a text; no string is longer than `isizeMax`. -/
def stringWithCapacity (capacity : Nat) (text : String) : Exec Error String :=
  if capacity > isizeMax then .panic else .ok text

def executeShowCreateTable (c : Catalog) (name : String) (limits : QueryResultLimits) : Exec Error QueryResult := do
  let table ← c.table name
  let ddlBytes := createTableDdlLen table
  let fixedBytes ← validateResultShapeParts 1 1 1 (stringLen "statement") limits showCreateTableResultResources
  let bytes := saturatingAdd fixedBytes ddlBytes
  enforceResourceLimit showCreateTableResultResources.bytes bytes limits.maxBytes
  let ddl ← stringWithCapacity ddlBytes (createTableDdl table)
  .ok ⟨[⟨"statement", .string⟩], [[.string ddl]]⟩

end RustHouse.Batch
