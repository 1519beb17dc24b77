import RustHouse.Database

/-!
# Attached logs and recovery

A database can log the tables of one integer column that it has, and a new
database is built from what logs recover.
-/

namespace RustHouse.Batch

open Checked Exec Words

/-! ## Failures -/

inductive DatabaseInt64WalEnableError where
  | alreadyEnabled
  | table (error : Error)
  | unsupportedColumnCount (table : String) (columnCount : Nat)
  | unsupportedColumnType (column : String) (dataType : DataType)
  | writeAheadLog (error : Int64WriteAheadLogError)

inductive DatabaseInt64WalRegistryEnableError where
  | alreadyEnabled
  | table (table : String) (error : Error)
  | unsupportedColumnCount (table : String) (columnCount : Nat)
  | unsupportedColumnType (column : String) (dataType : DataType)
  | registry (error : Int64WriteAheadLogRegistryError)

inductive DatabaseInt64WalRecoveryError where
  | writeAheadLog (error : Int64WriteAheadLogError)
  | table (error : Error)

inductive DatabaseInt64WalRegistryRecoveryError where
  | registry (error : Int64WriteAheadLogRegistryError)
  | table (table : String) (error : Error)

/-! ## Bootstraps -/

def TableLimits.toSizes (limits : TableLimits) : UInt64 × UInt64 × UInt64 :=
  (.ofNat limits.maxRows, .ofNat limits.maxColumns, .ofNat limits.maxCells)

def TableLimits.ofSizes (sizes : UInt64 × UInt64 × UInt64) : TableLimits :=
  ⟨sizes.1.toNat, sizes.2.1.toNat, sizes.2.2.toNat⟩

def queryLimitsToArray (limits : QueryResultLimits) : List.Vector UInt64 queryLimitFieldCount :=
  ⟨[limits.maxScanRows, limits.maxRows, limits.maxValues, limits.maxBytes, limits.maxOrderingStateBytes,
    limits.maxGroups, limits.maxGroupKeyCells, limits.maxGroupKeyBytes, limits.maxAggregateStateCells,
    limits.maxAggregateStateBytes].map UInt64.ofNat, rfl⟩

def queryLimitsFromArray (limits : List.Vector UInt64 queryLimitFieldCount) : QueryResultLimits where
  maxScanRows := (limits.get ⟨0, by decide⟩).toNat
  maxRows := (limits.get ⟨1, by decide⟩).toNat
  maxValues := (limits.get ⟨2, by decide⟩).toNat
  maxBytes := (limits.get ⟨3, by decide⟩).toNat
  maxOrderingStateBytes := (limits.get ⟨4, by decide⟩).toNat
  maxGroups := (limits.get ⟨5, by decide⟩).toNat
  maxGroupKeyCells := (limits.get ⟨6, by decide⟩).toNat
  maxGroupKeyBytes := (limits.get ⟨7, by decide⟩).toNat
  maxAggregateStateCells := (limits.get ⟨8, by decide⟩).toNat
  maxAggregateStateBytes := (limits.get ⟨9, by decide⟩).toNat

/-- Whether a column of integers is nullable, and its rows; another column is unreachable. -/
def Column.int64Rows : Column → Option (Bool × List (Option Int64))
  | int64 values => some (false, values.map some)
  | nullableInt64 values => some (true, values)
  | _ => none

namespace Database

def walBootstrap (db : Database) (t : Table) (column : ColumnDef) (rows : Bool × List (Option Int64)) :
    Int64WalBootstrap where
  tableName := t.name
  columnName := column.name
  tableLimits := t.limits.toSizes
  databaseTableLimits := db.tableLimits.toSizes
  queryLimits := queryLimitsToArray db.queryResultLimits
  workerCap := .ofNat db.globalAggregateWorkerCap
  nullable := rows.1
  values := rows.2

/-- The only column of a table that can be logged; the errors of the two calls differ in their type only. -/
def loggedColumn {ε : Type} (columnCount : String → Nat → ε) (columnType : String → DataType → ε) (t : Table) :
    Exec ε ColumnDef := do
  rejectIf (t.schema.length ≠ 1) (columnCount t.name t.schema.length)
  let column ← orPanic t.schema[0]?
  rejectIf (column.dataType ≠ .int64) (columnType column.name column.dataType)
  .ok column

def bootstrapOf {ε : Type} (db : Database) (columnCount : String → Nat → ε) (columnType : String → DataType → ε)
    (t : Table) : Exec ε Int64WalBootstrap := do
  let column ← loggedColumn columnCount columnType t
  let rows ← orPanic (t.columns[0]?.bind Column.int64Rows)
  .ok (db.walBootstrap t column rows)

/-! ## Logs -/

def enableInt64WriteAheadLog (io : Int64WriteAheadLog.CreateIo) (tableName : String)
    (limits : Int64WriteAheadLogLimits) : Method Database DatabaseInt64WalEnableError Unit := do
  let db ← .read
  .call (rejectIf db.int64WriteAheadLog.isSome .alreadyEnabled)
  let table ← .call (mapError .table (db.catalog.table tableName))
  let bootstrap ← .call (db.bootstrapOf .unsupportedColumnCount .unsupportedColumnType table)
  match ← .call (orPanic (Int64WriteAheadLog.createInDirectory io bootstrap limits)) with
  | .error failure => .call (.error (.writeAheadLog failure))
  | .ok writeAheadLog => .write { db with int64WriteAheadLog := some (.single writeAheadLog) }

def registryBootstraps (db : Database) : List String → Exec DatabaseInt64WalRegistryEnableError (List Int64WalBootstrap)
  | [] => .ok []
  | requested :: names => do
    let table ← mapError (.table requested) (db.catalog.table requested)
    let bootstrap ← db.bootstrapOf .unsupportedColumnCount .unsupportedColumnType table
    let bootstraps ← db.registryBootstraps names
    .ok (bootstrap :: bootstraps)

/-- The registry of the bootstraps; more than fit an address space cannot be in memory. -/
def openRegistry (io : CreateRegistryIo) (bootstraps : List Int64WalBootstrap)
    (limits : Int64WriteAheadLogRegistryLimits) :
    Option (Except Int64WriteAheadLogRegistryError Int64WriteAheadLogRegistry) :=
  if h : (bootstraps.map Int64WalBootstrap.memoryBytes).sum ≤ usizeMax then createRegistry io ⟨bootstraps, h⟩ limits
  else none

def enableInt64WriteAheadLogRegistry (io : CreateRegistryIo) (tableNames : List String)
    (limits : Int64WriteAheadLogRegistryLimits) : Method Database DatabaseInt64WalRegistryEnableError Unit := do
  let db ← .read
  .call (rejectIf db.int64WriteAheadLog.isSome .alreadyEnabled)
  match validateRegistryTableCount tableNames.length limits with
  | .error failure => .call (.error (.registry failure))
  | .ok () =>
    let bootstraps ← .call (db.registryBootstraps tableNames)
    match ← .call (orPanic (openRegistry io bootstraps limits)) with
    | .error failure => .call (.error (.registry failure))
    | .ok registry => .write { db with int64WriteAheadLog := some (.registry registry) }

/-- Whether logs were attached; their files stay as they are. -/
def disableInt64WriteAheadLog : Method Database Empty Bool := do
  let db ← .read
  .write { db with int64WriteAheadLog := none }
  return db.int64WriteAheadLog.isSome

def setGlobalAggregateWorkerCap (globalAggregateWorkerCap : Nat) : Method Database Empty Nat := do
  let db ← .read
  .write { db with globalAggregateWorkerCap }
  return db.globalAggregateWorkerCap

/-! ## Recovery -/

/-- The table of a recovered bootstrap; a missing value where none can be panics. -/
def recoveredTable (bootstrap : Int64WalBootstrap) : Exec Error Table :=
  let limits := TableLimits.ofSizes bootstrap.tableLimits
  if bootstrap.nullable then
    Table.withNullableInt64Values bootstrap.tableName bootstrap.columnName bootstrap.values limits
  else do
    let values ← orPanic (bootstrap.values.mapM id)
    Table.withInt64Values bootstrap.tableName bootstrap.columnName values limits

def ofBootstrap (bootstrap : Int64WalBootstrap) (catalog : Catalog) (measurements : DatabaseMeasurements) : Database where
  catalog
  measurements
  queryResultLimits := queryLimitsFromArray bootstrap.queryLimits
  tableLimits := .ofSizes bootstrap.databaseTableLimits
  globalAggregateWorkerCap := bootstrap.workerCap.toNat
  int64WriteAheadLog := none

def recoverInt64WriteAheadLog (recovered : Exec Int64WriteAheadLogError Int64WalBootstrap) :
    Exec DatabaseInt64WalRecoveryError Database := do
  let bootstrap ← mapError .writeAheadLog recovered
  let table ← mapError .table (recoveredTable bootstrap)
  rejectIf (bootstrap.workerCap = 0) (.table (.invalidQuery "Int64 WAL aggregate worker cap must be nonzero"))
  mapError .table ((registerTable table).applied (ofBootstrap bootstrap .new .zero))

def recoveredTables : List Int64WalBootstrap → Exec DatabaseInt64WalRegistryRecoveryError (List Table)
  | [] => .ok []
  | bootstrap :: bootstraps => do
    let table ← mapError (.table bootstrap.tableName) (recoveredTable bootstrap)
    let tables ← recoveredTables bootstraps
    .ok (table :: tables)

def recoverInt64WriteAheadLogRegistry
    (recovered : Exec Int64WriteAheadLogRegistryError (List Int64WalBootstrap)) :
    Exec DatabaseInt64WalRegistryRecoveryError Database := do
  let bootstraps ← mapError .registry recovered
  let first ← orPanic bootstraps.head?
  let tables ← recoveredTables bootstraps
  let measurements := (tables.map TableMeasurements.read).foldl DatabaseMeasurements.add .zero
  let catalog ← mapError (fun rejected => .table s!"registry member {rejected.1}" rejected.2)
    ((Catalog.registerTables tables).applied .new)
  .ok (ofBootstrap first catalog measurements)

end Database

end RustHouse.Batch
