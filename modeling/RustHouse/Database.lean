import RustHouse.Csv
import RustHouse.Predicate
import RustHouse.ShowCreate
import RustHouse.Snapshot
import RustHouse.Tsv

/-!
# The database

A catalog of tables with running totals of their columns, rows and bytes, the
limits of new tables and of queries, and the write-ahead logs that are
attached. A table is only changed through the database, which moves the totals
when it is done, whether or not the change succeeded.
-/

namespace RustHouse.Batch

open Checked Exec Words KeyedTotals

/-! ## Measurements -/

structure TableMeasurements where
  columnCount : Nat
  retainedRowCount : Nat
  retainedValueBytes : Nat
  deriving DecidableEq

namespace TableMeasurements

def read (t : Table) : TableMeasurements := ⟨t.schema.length, t.rowCount, t.retainedValueBytes⟩

def empty (columnCount : Nat) : TableMeasurements := ⟨columnCount, 0, 0⟩

end TableMeasurements

/-- Totals of 128 bits, which no tables in memory can exhaust, so natural numbers here. -/
structure DatabaseMeasurements where
  columnCount : Nat
  retainedRowCount : Nat
  retainedValueBytes : Nat
  deriving DecidableEq

namespace DatabaseMeasurements

def zero : DatabaseMeasurements := ⟨0, 0, 0⟩

def add (m : DatabaseMeasurements) (table : TableMeasurements) : DatabaseMeasurements where
  columnCount := m.columnCount + table.columnCount
  retainedRowCount := m.retainedRowCount + table.retainedRowCount
  retainedValueBytes := m.retainedValueBytes + table.retainedValueBytes

/-- What is left without a table; a total below the table's own saturates at zero. -/
def subtract (m : DatabaseMeasurements) (table : TableMeasurements) : DatabaseMeasurements where
  columnCount := m.columnCount - table.columnCount
  retainedRowCount := m.retainedRowCount - table.retainedRowCount
  retainedValueBytes := m.retainedValueBytes - table.retainedValueBytes

def replace (m : DatabaseMeasurements) (before after : TableMeasurements) : DatabaseMeasurements :=
  (m.subtract before).add after

def addTotals (m totals : DatabaseMeasurements) : DatabaseMeasurements where
  columnCount := m.columnCount + totals.columnCount
  retainedRowCount := m.retainedRowCount + totals.retainedRowCount
  retainedValueBytes := m.retainedValueBytes + totals.retainedValueBytes

end DatabaseMeasurements

/-! ## Databases -/

structure Database where
  catalog : Catalog
  measurements : DatabaseMeasurements
  queryResultLimits : QueryResultLimits
  tableLimits : TableLimits
  globalAggregateWorkerCap : Nat
  int64WriteAheadLog : Option ActiveInt64WriteAheadLogs

def defaultGlobalAggregateWorkerCap : Nat := 16

namespace Database

def new : Database := ⟨.new, .zero, .default, .default, defaultGlobalAggregateWorkerCap, none⟩

def withQueryResultLimits (queryResultLimits : QueryResultLimits) : Database := { new with queryResultLimits }

def withGlobalAggregateWorkerCap (globalAggregateWorkerCap : Nat) : Database := { new with globalAggregateWorkerCap }

def withMaxRowsPerTable (maxRows : Nat) : Database := { new with tableLimits := { TableLimits.default with maxRows } }

def withTableLimits (tableLimits : TableLimits) : Database := { new with tableLimits }

/-- The tables, columns, rows and bytes that are reported. -/
def retainedMetrics (db : Database) : Nat × Nat × Nat × Nat :=
  (db.catalog.tableCount, min db.measurements.columnCount usizeMax, min db.measurements.retainedRowCount usizeMax,
    min db.measurements.retainedValueBytes usizeMax)

/-! ## Parts of a database -/

section
variable {ε α : Type}

def onCatalog (m : Method Catalog ε α) : Method Database ε α :=
  .zoom Database.catalog (fun catalog db => { db with catalog }) m

def measure (f : DatabaseMeasurements → DatabaseMeasurements) : Method Database ε Unit :=
  .modify fun db => { db with measurements := f db.measurements }

/-- A method of a table; when it is done the totals move by what it changed, even if it failed. -/
def tableMut (name : String) (m : Method Table Error α) : Method Database Error α := fun db =>
  match db.catalog.tables.lookup (normalize name) with
  | none => some (.error (.tableNotFound name), db)
  | some table => (m table).map fun (result, table') =>
    (result, { db with
      catalog := ⟨db.catalog.tables.replace (normalize name) table'⟩
      measurements := db.measurements.replace (.read table) (.read table') })

end

/-- A complete table becomes part of the catalog and of the totals. -/
def registerTable (table : Table) : Method Database Error Unit := do
  let measurements := TableMeasurements.read table
  onCatalog (Catalog.registerTable table)
  measure (·.add measurements)

/-! ## Logged mutations -/

def walTracks (db : Database) (tableName : String) : Bool := db.int64WriteAheadLog.any fun logs => logs.tracks tableName

/-- Logs a mutation of a table that is tracked; a failed commit still leaves its mark on the log. -/
def logInt64 (io : CommitIo) (tableName : String) (mutation : WalMutation) : Method Database Error Unit := fun db =>
  match db.int64WriteAheadLog.filter fun logs => logs.tracks tableName with
  | none => some (.ok (), db)
  | some logs => (logs.log io tableName mutation).map fun (logs, result) =>
    (result.mapError .writeAheadLog, { db with int64WriteAheadLog := some logs })

def logInt64Append (io : CommitIo) (tableName : String) (values : List (Option Int64)) : Method Database Error Unit :=
  logInt64 io tableName (.append values)

def logInt64Truncate (io : CommitIo) (tableName : String) : Method Database Error Unit := logInt64 io tableName .truncate

def logInt64Replacements (io : CommitIo) (tableName : String) (replacements : List (Nat × Option Int64)) :
    Method Database Error Unit :=
  logInt64 io tableName (.replace replacements)

def rejectUnloggedWalMutation (db : Database) (tableName mutation : String) : Exec Error Unit :=
  rejectIf (db.walTracks tableName)
    (.invalidQuery s!"{mutation} is not supported while table '{tableName}' has an active Int64 WAL")

/-- Logs prepared rows; a tracked table has one `Int64` column, and other rows panic. -/
def logPreparedInt64Append (io : CommitIo) (tableName : String) (rows : PreparedInsertRows) :
    Method Database Error Unit := do
  let db ← .read
  if db.walTracks tableName then
    let values ← .call (orPanic rows.int64Values)
    logInt64Append io tableName values

/-! ## Creation -/

def createNullableInt64TableWithLimits (tableName columnName : String) (values : List (Option Int64))
    (limits : TableLimits) : Method Database Error Unit := do
  let table ← .call (Table.withNullableInt64Values tableName columnName values limits)
  registerTable table

def createNullableInt64Table (tableName columnName : String) (values : List (Option Int64)) :
    Method Database Error Unit := do
  let db ← .read
  createNullableInt64TableWithLimits tableName columnName values db.tableLimits

def addNullableInt64Columns : List String → Method Table Error Unit
  | [] => pure ()
  | column :: columns => do
    Table.addNullableInt64Column column
    addNullableInt64Columns columns

/-- A table with nullable columns behind the others, or with at least two of them and no others. -/
def stageTable (name : String) (columns : List ColumnDef) (nullableColumns : List String) (limits : TableLimits) :
    Exec Error Table :=
  if columns = [] then
    match nullableColumns with
    | first :: second :: rest => do
      let table ← Table.withNullableInt64Values name first [] limits
      let table ← (Table.addNullableInt64Column second).applied table
      (addNullableInt64Columns rest).applied table
    | _ => .error (.invalidQuery "a table must contain at least one column")
  else do
    let table ← Table.withLimits name columns limits
    (addNullableInt64Columns nullableColumns).applied table

def createTableWithTrailingNullableInt64 (name : String) (columns : List ColumnDef) (nullableColumns : List String)
    (ifNotExists : Bool) : Method Database Error Unit := do
  let db ← .read
  if db.catalog.tableExists name then
    if ifNotExists then return () else .call (.error (.tableAlreadyExists name))
  else
    let table ← .call (stageTable name columns nullableColumns db.tableLimits)
    registerTable table

def defaultMaxInt64RangePartitions : Nat := 1024
def defaultMaxInt64RangePartitionRows : Nat := 1000000
def defaultMaxInt64RangePartitionBytes : Nat := defaultMaxInt64RangePartitionRows * 8

def createInt64RangePartitionedTableWithLimits (tableName columnName : String) (partitions : List Int64RangePartition)
    (partitionLimits : Int64RangePartitionLimits) : Method Database Int64RangePartitionError Unit := do
  let db ← .read
  .call (rejectIf (db.catalog.tableExists tableName) (.table (.tableAlreadyExists tableName)))
  let table ← .call
    (Table.withInt64RangePartitions tableName columnName partitions partitionLimits db.tableLimits)
  .mapError .table (registerTable table)

def createInt64RangePartitionedTable (tableName columnName : String) (partitions : List Int64RangePartition) :
    Method Database Int64RangePartitionError Unit := do
  let db ← .read
  let maxRows := min db.tableLimits.maxRows defaultMaxInt64RangePartitionRows
  createInt64RangePartitionedTableWithLimits tableName columnName partitions
    ⟨defaultMaxInt64RangePartitions, maxRows, min (saturatingMul maxRows 8) defaultMaxInt64RangePartitionBytes⟩

/-! ## Rows -/

def expectNullableInt64Table (t : Table) (operation : String) : Exec Error Unit :=
  match t.columns with
  | [.nullableInt64 _] => .ok ()
  | _ => do
    let first ← orPanic t.schema[0]?
    .error (.typeMismatch s!"nullable Int64 {operation} table '{t.name}'" "Nullable(Int64)" first.dataType.asStr)

def nullableValue (value : Option Int64) : Value := value.elim (.null .int64) .int64

def appendNullableInt64Values (io : CommitIo) (tableName : String) (values : List (Option Int64)) :
    Method Database Error Unit := do
  let db ← .read
  let table ← .call (db.catalog.table tableName)
  .call (expectNullableInt64Table table "append")
  .call (table.validateRowCapacity values.length)
  logInt64Append io tableName values
  tableMut tableName (Table.appendValidatedRows (values.map fun value => [nullableValue value]))

def replaceNullableInt64Values (io : CommitIo) (tableName : String) (replacements : List (Nat × Option Int64)) :
    Method Database Error Nat := do
  let db ← .read
  let table ← .call (db.catalog.table tableName)
  .call (expectNullableInt64Table table "replacement")
  let first ← .call (orPanic table.schema[0]?)
  .call (validateRowSelection (replacements.map Prod.fst) table.rowCount)
  logInt64Replacements io tableName replacements
  tableMut tableName (Table.replaceColumnValues first.name
    (replacements.map fun (row, value) => (row, nullableValue value)))

/-! ## The sparse index -/

def createInt64MinMaxIndex (table column : String) (limits : Int64MinMaxIndexLimits) :
    Method Database Error Int64MinMaxIndexAdmission := do
  let db ← .read
  let target ← .call (db.catalog.table table)
  let columnIndex ← .call (target.columnIndex column)
  let field ← .call (orPanic target.schema[columnIndex]?)
  .call (rejectIf (field.dataType ≠ .int64)
    (.typeMismatch s!"sparse min-max index column '{target.name}.{field.name}'" DataType.int64.asStr
      field.dataType.asStr))
  match db.catalog.int64MinMaxIndexOwner.filter fun owner => ¬ eqIgnoreAsciiCase owner table with
  | some owner => return .rejected (.slotOccupied owner)
  | none => tableMut table (Table.tryCreateInt64MinMaxIndex column limits)

def dropInt64MinMaxIndex (table : String) : Method Database Error Bool := tableMut table Table.dropInt64MinMaxIndex

/-! ## Snapshots -/

/-- A failure of a restore; opening or decoding a file fails in a way of its own. -/
inductive DatabaseSnapshotRestoreError (δ : Type) where
  | snapshot (error : δ)
  | recovery (primary backup : δ)
  | table (error : Error)

inductive Int64TablePayloadFileRecoverySource where
  | primary | backup
  deriving DecidableEq

section
variable {δ : Type}

open DatabaseSnapshotRestoreError

/-- A decoded table under a name, within the limits of the database and its own row cap. -/
def prepareDecodedInt64Table (db : Database) (tableName : String) (restored : Int64Table) : Exec Error Table := do
  rejectIf (restored.rowCap.toNat > db.tableLimits.maxRows)
    (.resourceLimitExceeded "table row cap" restored.rowCap.toNat db.tableLimits.maxRows)
  let restoredLimits := { db.tableLimits with maxRows := restored.rowCap.toNat }
  let column := restored.schema.column
  if column.nullable then Table.withNullableInt64Values tableName column.name restored.values restoredLimits
  else do
    let values ← orPanic (restored.values.mapM id)
    Table.withInt64Values tableName column.name values restoredLimits

def registerReopenedInt64Table (tableName : String) (restored : Int64Table) :
    Method Database (DatabaseSnapshotRestoreError δ) Unit := do
  let db ← .read
  let table ← .call (mapError .table (db.prepareDecodedInt64Table tableName restored))
  .mapError .table (registerTable table)

/-- A new table from what opening and decoding a file came to. -/
def restoreInt64TableFromFile (tableName : String) (restored : Exec (DatabaseSnapshotRestoreError δ) Int64Table) :
    Method Database (DatabaseSnapshotRestoreError δ) Unit := do
  let db ← .read
  .call (rejectIf (db.catalog.tableExists tableName) (.table (.tableAlreadyExists tableName)))
  let restored ← .call restored
  registerReopenedInt64Table tableName restored

/-- The same from the rows of an RLE file under the schema that the caller gives. -/
def restoreInt64TableRleFromFile (tableName : String) (restored : Exec (DatabaseSnapshotRestoreError δ) Int64Table) :
    Method Database (DatabaseSnapshotRestoreError δ) Unit :=
  restoreInt64TableFromFile tableName restored

def restoreInt64TableFromFileWithBackup (tableName : String)
    (recovered : Exec (DatabaseSnapshotRestoreError δ) (Int64Table × Int64TablePayloadFileRecoverySource)) :
    Method Database (DatabaseSnapshotRestoreError δ) Int64TablePayloadFileRecoverySource := do
  let db ← .read
  .call (rejectIf (db.catalog.tableExists tableName) (.table (.tableAlreadyExists tableName)))
  let (restored, source) ← .call recovered
  registerReopenedInt64Table tableName restored
  return source

def replaceRestoredInt64Table (tableName displayName : String) (restored : Int64Table) :
    Method Database (DatabaseSnapshotRestoreError δ) Unit := do
  let db ← .read
  let replacement ← .call (mapError .table (db.prepareDecodedInt64Table displayName restored))
  let previous ← .mapError .table (onCatalog (Catalog.replaceTable tableName replacement))
  measure (·.replace (.read previous) (.read replacement))

def replaceInt64TableFromFileWithBackup (tableName : String)
    (recovered : Exec (DatabaseSnapshotRestoreError δ) (Int64Table × Int64TablePayloadFileRecoverySource)) :
    Method Database (DatabaseSnapshotRestoreError δ) Int64TablePayloadFileRecoverySource := do
  let db ← .read
  .call (mapError .table (db.rejectUnloggedWalMutation tableName "snapshot table replacement"))
  let target ← .call (mapError .table (db.catalog.table tableName))
  let (restored, source) ← .call recovered
  replaceRestoredInt64Table tableName target.name restored
  return source

def replaceInt64TableFromFile (tableName : String) (restored : Exec (DatabaseSnapshotRestoreError δ) Int64Table) :
    Method Database (DatabaseSnapshotRestoreError δ) Unit := do
  let db ← .read
  .call (mapError .table (db.rejectUnloggedWalMutation tableName "snapshot table replacement"))
  let target ← .call (mapError .table (db.catalog.table tableName))
  let restored ← .call restored
  replaceRestoredInt64Table tableName target.name restored

/-- One named file of a set, with what opening and decoding it comes to. -/
structure DatabaseSnapshotRestoreEntry (δ : Type) where
  tableName : String
  restored : Exec (DatabaseSnapshotRestoreError δ) Int64Table

inductive DatabaseSnapshotSetRestoreError (δ : Type) where
  | entryLimitExceeded (entryIndex : Nat) (tableName : String) (entries maxEntries : Nat)
  | entry (entryIndex : Nat) (tableName : String) (error : DatabaseSnapshotRestoreError δ)

def validateEntryNames (db : Database) (incomingNames : List String) (entryIndex : Nat) :
    List (DatabaseSnapshotRestoreEntry δ) → Exec (DatabaseSnapshotSetRestoreError δ) Unit
  | [] => .ok ()
  | entry :: entries => do
    let normalized := toAsciiLowercase entry.tableName
    mapError (fun error => .entry entryIndex entry.tableName (.table error)) do
      validateTableName entry.tableName
      rejectIf (db.catalog.tableExists entry.tableName ∨ normalized ∈ incomingNames)
        (.tableAlreadyExists entry.tableName)
    db.validateEntryNames (normalized :: incomingNames) (entryIndex + 1) entries

def stageEntries (db : Database) (entryIndex : Nat) :
    List (DatabaseSnapshotRestoreEntry δ) → Exec (DatabaseSnapshotSetRestoreError δ) (List Table)
  | [] => .ok []
  | entry :: entries => do
    let table ← mapError (.entry entryIndex entry.tableName) do
      let restored ← entry.restored
      mapError .table (db.prepareDecodedInt64Table entry.tableName restored)
    let tables ← db.stageEntries (entryIndex + 1) entries
    .ok (table :: tables)

/-- The name of an entry that the catalog rejected; an index outside the entries panics. -/
def rejectedEntry (entries : List (DatabaseSnapshotRestoreEntry δ)) (entryIndex : Nat) (error : Error) :
    Exec (DatabaseSnapshotSetRestoreError δ) Unit := do
  let entry ← orPanic entries[entryIndex]?
  .error (.entry entryIndex entry.tableName (.table error))

def restoreInt64TablesFromFiles (entries : List (DatabaseSnapshotRestoreEntry δ)) (maxEntries : Nat) :
    Method Database (DatabaseSnapshotSetRestoreError δ) Unit := do
  let db ← .read
  if entries.length > maxEntries then
    let rejected ← .call (orPanic entries[maxEntries]?)
    .call (.error (.entryLimitExceeded maxEntries rejected.tableName entries.length maxEntries))
  else
    .call (db.validateEntryNames [] 0 entries)
    let staged ← .call (db.stageEntries 0 entries)
    let stagedMeasurements := (staged.map TableMeasurements.read).foldl DatabaseMeasurements.add .zero
    match ← .attempt (onCatalog (Catalog.registerTables staged)) with
    | .error (entryIndex, rejection) => .call (rejectedEntry entries entryIndex rejection)
    | .ok () => measure (·.addTotals stagedMeasurements)

end

/-! ## Ingestion -/

section
variable {ε : Type}

/-- Parses all of an input for a table, logs the rows if they have to be, and appends them. -/
def ingest (database : Error → ε) (parseRows : Table → Exec ε PreparedInsertRows) (logged : PreparedInsertRows → Bool)
    (io : CommitIo) (table : String) : Method Database ε Nat := do
  let db ← .read
  let target ← .call (mapError database (db.catalog.table table))
  let rows ← .call (parseRows target)
  if logged rows then .mapError database (logPreparedInt64Append io table rows)
  .mapError database (tableMut table (Table.appendPreparedInsertRows rows))
  return rows.rows.length

variable (float : FloatText)

def ingestCsv (io : CommitIo) (table : String) (input : Bytes) (limits : CsvIngestLimits) :
    Method Database CsvIngestError Nat :=
  ingest .database (fun t => Csv.parseRowsWithoutNames float t input limits) (fun _ => true) io table

def ingestCsvWithNames (io : CommitIo) (table : String) (input : Bytes) (limits : CsvIngestLimits) :
    Method Database CsvIngestError Nat :=
  ingest .database (fun t => Csv.parseRowsWithNames float t input limits) (fun _ => true) io table

def ingestTsv (io : CommitIo) (table : String) (input : Bytes) (limits : TsvIngestLimits) :
    Method Database TsvIngestError Nat :=
  ingest .database (fun t => Tsv.parseRowsWithoutNames float t input limits) (fun _ => true) io table

def ingestTsvWithNames (io : CommitIo) (table : String) (input : Bytes) (limits : TsvIngestLimits) :
    Method Database TsvIngestError Nat :=
  ingest .database (fun t => Tsv.parseRowsWithNames float t input limits) (fun _ => true) io table

/-- The values that reading JSON lines for a table comes to; without any, nothing is logged. -/
def ingestJsonCompactEachRow (database : Error → ε) (readValues : Table → Exec ε (List Value)) (io : CommitIo)
    (table : String) : Method Database ε Nat :=
  ingest database
    (fun t => do
      let values ← readValues t
      mapError database (t.prepareProjectedRows [0] (values.map fun value => [value])))
    (fun rows => rows.rows.length ≠ 0) io table

end

end Database

end RustHouse.Batch
