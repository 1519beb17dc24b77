import RustHouse.DatabaseStatements

/-!
# The shared database

A database behind a lock. An operation that does not block parses its input,
tries the lock, and only then touches the database.
-/

namespace RustHouse.Batch

open Checked Exec Words KeyedTotals

/-- What an attempt to take the lock comes to. -/
inductive TryLock where
  | acquired | wouldBlock | poisoned
  deriving DecidableEq, Repr

inductive SharedDatabaseError where
  | sql (error : Error)
  | csvIngest (error : CsvIngestError)
  | tsvIngest (error : TsvIngestError)
  | queryStatementCount (statements : Nat)
  | readOnlyStatementRequired (statement : String)
  | databaseBusy
  | lockPoisoned

namespace SharedDatabase

def tryLock : TryLock → Exec SharedDatabaseError Unit
  | .acquired => .ok ()
  | .wouldBlock => .error .databaseBusy
  | .poisoned => .error .lockPoisoned

def isReadLockAvailable (lock : TryLock) : Bool := lock = .acquired

section
variable (float : FloatText) (io : CommitIo) (lock : TryLock)

/-! ## Mutations -/

def tryExecuteInsertBatch (input : String) : Method Database SharedDatabaseError (List StatementResult) := do
  let statements ← .call (mapError .sql (parse float input))
  .call (tryLock lock)
  .mapError .sql (Database.executeInsertStatements io statements)

def tryIngestCsv (table : String) (input : Bytes) (limits : CsvIngestLimits) :
    Method Database SharedDatabaseError Nat := do
  .call (tryLock lock)
  .mapError .csvIngest (Database.ingestCsv float io table input limits)

def tryIngestCsvWithNames (table : String) (input : Bytes) (limits : CsvIngestLimits) :
    Method Database SharedDatabaseError Nat := do
  .call (tryLock lock)
  .mapError .csvIngest (Database.ingestCsvWithNames float io table input limits)

def tryIngestTsv (table : String) (input : Bytes) (limits : TsvIngestLimits) :
    Method Database SharedDatabaseError Nat := do
  .call (tryLock lock)
  .mapError .tsvIngest (Database.ingestTsv float io table input limits)

def tryIngestTsvWithNames (table : String) (input : Bytes) (limits : TsvIngestLimits) :
    Method Database SharedDatabaseError Nat := do
  .call (tryLock lock)
  .mapError .tsvIngest (Database.ingestTsvWithNames float io table input limits)

/-! ## Queries -/

/-- `sql::parse_allow_empty` -/
def parseAllowEmpty (input : String) : Exec Error (List Statement) :=
  match Parse.parseScript float predicateFrames true (.new input .default) with
  | none => .panic
  | some (.ok statements, _) => .ok statements
  | some (.error syntaxError, _) => .error syntaxError

def isReadOnly : Statement → Bool
  | .literalSelect .. | .versionSelect .. | .currentDatabaseSelect .. | .systemDatabases | .systemTables
  | .systemColumns | .systemMetrics | .systemSettings | .systemFunctions | .select .. | .crossJoin .. | .unionAll ..
  | .unionDistinct .. | .showDatabases | .showSettings | .showFunctions | .showTables | .showCreateTable ..
  | .describeTable .. | .existsTable .. => true
  | _ => false

def parseQueryStatement (input : String) : Exec SharedDatabaseError Statement := do
  let statements ← mapError .sql (parseAllowEmpty float input)
  match statements with
  | [statement] => do
    rejectIf (isReadOnly statement = false) (.readOnlyStatementRequired (statementName statement))
    .ok statement
  | statements => .error (.queryStatementCount statements.length)

end

/-- Limits that a caller requests; zero leaves a configured limit in place. -/
structure ParameterizedQueryLimits where
  maxResultBytes : Nat
  maxResultRows : Nat
  maxResultValues : Nat
  maxScanRows : Nat
  maxGroups : Nat
  maxGroupKeyCells : Nat
  maxGroupKeyBytes : Nat
  maxOrderingStateBytes : Nat
  maxAggregateStateCells : Nat
  maxAggregateStateBytes : Nat
  maxThreads : Nat

def tightened (configured requested : Nat) : Nat := if requested = 0 then configured else min configured requested

def queryLimits (configured : QueryResultLimits) (requested : ParameterizedQueryLimits) : QueryResultLimits where
  maxScanRows := tightened configured.maxScanRows requested.maxScanRows
  maxRows := tightened configured.maxRows requested.maxResultRows
  maxValues := tightened configured.maxValues requested.maxResultValues
  maxBytes := min configured.maxBytes requested.maxResultBytes
  maxOrderingStateBytes := tightened configured.maxOrderingStateBytes requested.maxOrderingStateBytes
  maxGroups := tightened configured.maxGroups requested.maxGroups
  maxGroupKeyCells := tightened configured.maxGroupKeyCells requested.maxGroupKeyCells
  maxGroupKeyBytes := tightened configured.maxGroupKeyBytes requested.maxGroupKeyBytes
  maxAggregateStateCells := tightened configured.maxAggregateStateCells requested.maxAggregateStateCells
  maxAggregateStateBytes := tightened configured.maxAggregateStateBytes requested.maxAggregateStateBytes

def requestError (isTightened : Bool) (maxResultBytes : Nat) : Error → Error
  | .resourceLimitExceeded resource actual max =>
    if resource ∈ Database.resultByteResources ∧ isTightened then .resultLimitExceeded actual maxResultBytes
    else .resourceLimitExceeded resource actual max
  | other => other

section
variable (float : FloatText) (queries : Nat → Queries) (lock : TryLock)

/-- How queries are answered may depend on the requested number of threads. -/
def executeQueryStatementWithParameterizedLimits (db : Database) (statement : Statement)
    (requested : ParameterizedQueryLimits) : Exec Error QueryResult := do
  let isTightened := requested.maxResultBytes < db.queryResultLimits.maxBytes
  let result ← mapError (requestError isTightened requested.maxResultBytes)
    (db.executeQueryStatementWithLimits (queries requested.maxThreads) statement
      (queryLimits db.queryResultLimits requested))
  let retainedBytes := result.estimatedRetainedBytes
  rejectIf (retainedBytes > requested.maxResultBytes) (.resultLimitExceeded retainedBytes requested.maxResultBytes)
  .ok result

def executeQueryStatementWithResultLimit (db : Database) (statement : Statement) (maxResultBytes : Nat) :
    Exec Error QueryResult :=
  executeQueryStatementWithParameterizedLimits queries db statement
    ⟨maxResultBytes, db.queryResultLimits.maxRows, 0, 0, 0, 0, 0, 0, 0, 0, 0⟩

def tryQuery (db : Database) (input : String) : Exec SharedDatabaseError QueryResult := do
  let statement ← parseQueryStatement float input
  tryLock lock
  mapError .sql (executeQueryStatementWithResultLimit queries db statement Database.defaultMaxRetainedResultBytes)

def tryQueryWithParameterizedWorkloadLimits (db : Database) (input : String) (requested : ParameterizedQueryLimits) :
    Exec SharedDatabaseError QueryResult := do
  let statement ← parseQueryStatement float input
  tryLock lock
  mapError .sql (executeQueryStatementWithParameterizedLimits queries db statement
    { requested with
      maxResultBytes := tightened Database.defaultMaxRetainedResultBytes requested.maxResultBytes })

end

/-! ## Metrics -/

def usizeDecimalLenFrom (digits value : Nat) : Nat := if value ≥ 10 then usizeDecimalLenFrom (digits + 1) (value / 10) else digits
termination_by value
decreasing_by omega

def usizeDecimalLen (value : Nat) : Nat := usizeDecimalLenFrom 1 value

structure DatabaseMetrics where
  tableCount : Nat
  columnCount : Nat
  retainedRowCount : Nat
  retainedValueBytes : Nat
  deriving DecidableEq, Repr

/-- What the counters of the sparse index have counted. -/
structure IndexPruningMetrics where
  scannedBlocks : Nat
  prunedBlocks : Nat
  deriving DecidableEq, Repr

structure DatabaseMetricsWithTables where
  totals : DatabaseMetrics
  globalAggregateWorkerCap : Nat
  indexPruning : IndexPruningMetrics
  tables : List (String × Nat × Nat)
  deriving DecidableEq, Repr

inductive DatabaseMetricsSnapshot where
  | available (metrics : DatabaseMetricsWithTables)
  | responseLimitExceeded
  | unavailable
  deriving DecidableEq, Repr

/-- The tables by name, in the order of the catalog's keys. -/
def tableMetrics (c : Catalog) : List (String × Nat × Nat) :=
  (c.tables.entries.mergeSort fun left right => left.1 ≤ right.1).map fun entry =>
    (entry.2.name, entry.2.rowCount, entry.2.retainedValueBytes)

/-- The bytes of the names and of the decimal numbers of some tables. -/
def variableBytes (tables : List (String × Nat × Nat)) : Nat × Nat × Nat :=
  tables.foldl (fun (nameBytes, rowCountBytes, retainedByteCountBytes) (name, rowCount, retainedValueBytes) =>
    (saturatingAdd nameBytes (stringLen name), saturatingAdd rowCountBytes (usizeDecimalLen rowCount),
      saturatingAdd retainedByteCountBytes (usizeDecimalLen retainedValueBytes))) (0, 0, 0)

/-- In the arbitrary order of the hash map. -/
def tableMetricVariableBytes (c : Catalog) : Nat × Nat × Nat :=
  variableBytes (c.tables.entries.map fun entry => (entry.2.name, entry.2.rowCount, entry.2.retainedValueBytes))

def metricsSnapshotWithTables (lock : TryLock) (indexPruning : IndexPruningMetrics) (db : Database)
    (responseFits : DatabaseMetrics → Nat → IndexPruningMetrics → Nat × Nat × Nat → Bool) : DatabaseMetricsSnapshot :=
  if lock ≠ .acquired then .unavailable
  else
    let (tableCount, columnCount, retainedRowCount, retainedValueBytes) := db.retainedMetrics
    let totals : DatabaseMetrics := ⟨tableCount, columnCount, retainedRowCount, retainedValueBytes⟩
    if ¬ responseFits totals db.globalAggregateWorkerCap indexPruning (tableMetricVariableBytes db.catalog) then .responseLimitExceeded
    else .available ⟨totals, db.globalAggregateWorkerCap, indexPruning, tableMetrics db.catalog⟩

end SharedDatabase

end RustHouse.Batch
