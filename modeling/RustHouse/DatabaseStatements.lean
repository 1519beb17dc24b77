import RustHouse.Database
import RustHouse.Pruning
import RustHouse.SqlStatement

/-!
# Execution of statements

Statements that change the database, one at a time, in a script, or as one
batch of `INSERT`s that applies as a whole. What a query returns depends on the
database and does not change it.
-/

namespace RustHouse.Batch

open Checked Exec Words KeyedTotals

/-! ## Results -/

def QueryResult.estimatedRetainedBytes (result : QueryResult) : Nat :=
  let fixed := saturatingAdd (saturatingAdd (saturatingMul result.columns.length sizeOfResultColumn)
    ((result.columns.map fun column => stringLen column.name).foldl saturatingAdd 0))
    (saturatingMul result.rows.length sizeOfRow)
  result.rows.foldl (fun bytes row => row.foldl (fun bytes value =>
    match value with
    | .string value => saturatingAdd bytes (stringLen value)
    | _ => bytes) (saturatingAdd bytes (saturatingMul row.length sizeOfValue))) fixed

inductive StatementResult where
  | command (tag : String) (affectedRows : Nat)
  | query (result : QueryResult)
  deriving DecidableEq

def StatementResult.estimatedRetainedBytes : StatementResult → Nat
  | command _ _ => 0
  | query result => result.estimatedRetainedBytes

/-- The first word or words of a statement. -/
def statementName : Statement → String
  | .createTable .. | .createTableIfNotExists .. | .createNullableInt64Table .. | .createNullableInt64TableIfNotExists ..
  | .createTableWithTrailingNullableInt64 .. | .createTableWithTrailingNullableInt64IfNotExists ..
  | .createTableWithTwoTrailingNullableInt64 .. | .createTableWithTwoTrailingNullableInt64IfNotExists .. =>
    "CREATE TABLE"
  | .dropTable .. | .dropTableIfExists .. => "DROP TABLE"
  | .renameTable .. => "RENAME TABLE"
  | .renameColumn .. | .addColumn .. | .addColumnIfNotExists .. | .addNullableInt64Column ..
  | .addNullableInt64ColumnIfNotExists .. | .dropColumn .. | .alterUpdate .. | .alterUpdateTyped ..
  | .alterUpdateOwned .. => "ALTER TABLE"
  | .truncateTable .. => "TRUNCATE TABLE"
  | .delete .. | .deleteComparison .. | .deleteConjunction .. | .deleteNullness .. => "DELETE"
  | .insert .. | .insertWithColumns .. => "INSERT"
  | .literalSelect .. | .versionSelect .. | .currentDatabaseSelect .. | .systemDatabases | .systemTables
  | .systemColumns | .systemMetrics | .systemSettings | .systemFunctions | .select .. | .crossJoin .. | .unionAll ..
  | .unionDistinct .. => "SELECT"
  | .showDatabases => "SHOW DATABASES"
  | .showSettings => "SHOW SETTINGS"
  | .showFunctions => "SHOW FUNCTIONS"
  | .showTables => "SHOW TABLES"
  | .showCreateTable .. => "SHOW CREATE TABLE"
  | .describeTable .. => "DESCRIBE TABLE"
  | .existsTable .. => "EXISTS TABLE"

/-! ## Predicates of DELETE and UPDATE -/

def comparisonPredicate (column : String) (operator : ComparisonOperator) (literal : Value) : Predicate :=
  .comparison (.column column) operator (.literal literal)

def deleteComparisonPredicate (comparison : DeleteComparisonPredicate) : Predicate :=
  comparisonPredicate comparison.column comparison.operator comparison.literal

def enforceScanLimit (t : Table) (limits : QueryResultLimits) (resource : String) : Exec Error Unit :=
  enforceResourceLimit resource t.rowCount limits.maxScanRows

namespace AlterUpdateLiteral

def dataType : AlterUpdateLiteral → DataType
  | int64 _ => .int64
  | float64 _ => .float64
  | bool _ => .bool

def value : AlterUpdateLiteral → Value
  | int64 value => .int64 value
  | float64 value => .float64 value
  | bool value => .bool value

end AlterUpdateLiteral

namespace AlterUpdateValue

def dataType : AlterUpdateValue → DataType
  | literal value => value.dataType
  | string _ => .string
  | null => .int64

def value : AlterUpdateValue → Value
  | literal value => value.value
  | string value => .string value
  | null => .null .int64

/-- A floating-point literal that is infinite or not a number. -/
def isNonFinite : AlterUpdateValue → Bool
  | literal (.float64 value) => !value.isFinite
  | _ => false

end AlterUpdateValue

/-- Whether a row has the value of a literal; the types were compared before. -/
def alterUpdateMatches (column : Column) (literal : AlterUpdateValue) (row : Nat) : Option Bool :=
  match column, literal with
  | .int64 values, .literal (.int64 value) => values[row]?.map (· = value)
  | .nullableInt64 values, .literal (.int64 value) => values[row]?.map (· = some value)
  | .float64 values, .literal (.float64 value) => values[row]?.map (·.partialCmp value = some .eq)
  | .bool values, .literal (.bool value) => values[row]?.map (· = value)
  | .string values, .string value => values[row]?.map (· = value)
  | _, _ => none

def selectRows (test : Nat → Option Bool) : List Nat → Option (List Nat)
  | [] => some []
  | row :: rows => do
    let selected ← test row
    let rows ← selectRows test rows
    some (if selected then row :: rows else rows)

def enforceAlterUpdateReplacementBytes (stringBytes matchCount max : Nat) : Exec Error Unit :=
  -- The product is one of 128 bits.
  let actual := stringBytes * matchCount
  rejectIf (actual > max)
    (.resourceLimitExceeded "ALTER TABLE UPDATE replacement String bytes" (min actual usizeMax) max)

def validateAlterUpdateType (t : Table) (column : String) (index : Nat) (literal : AlterUpdateValue) (role : String) :
    Exec Error Unit := do
  let field ← orPanic t.schema[index]?
  rejectIf (field.dataType ≠ literal.dataType)
    (.typeMismatch s!"ALTER TABLE UPDATE {role} column '{t.name}.{column}'" literal.dataType.asStr field.dataType.asStr)

def validateAlterUpdateFinite (literal : AlterUpdateValue) (role : String) : Exec Error Unit :=
  rejectIf literal.isNonFinite (.invalidQuery s!"ALTER TABLE UPDATE {role} Float64 literal must be finite")

/-- `NULL` is only assigned to a nullable column. -/
def validateAlterUpdateNull (t : Table) (column : String) (index : Nat) (value : AlterUpdateValue) : Exec Error Unit :=
  if value = .null then do
    let physical ← orPanic t.columns[index]?
    let field ← orPanic t.schema[index]?
    rejectIf (¬ physical.isNullableInt64)
      (.typeMismatch s!"ALTER TABLE UPDATE target column '{t.name}.{column}'" field.dataType.asStr "NULL")
  else .ok ()

def alterUpdateReplacements (t : Table) (targetColumn : String) (value : AlterUpdateValue) (predicateColumn : String)
    (predicateValue : AlterUpdateValue) (limits : QueryResultLimits) : Exec Error (List (Nat × Value)) := do
  let targetIndex ← t.columnIndex targetColumn
  let predicateIndex ← t.columnIndex predicateColumn
  rejectIf (predicateValue = .null) (.invalidQuery "ALTER TABLE UPDATE WHERE comparison does not accept NULL")
  validateAlterUpdateNull t targetColumn targetIndex value
  validateAlterUpdateType t targetColumn targetIndex value "target"
  validateAlterUpdateType t predicateColumn predicateIndex predicateValue "WHERE"
  validateAlterUpdateFinite value "assignment"
  validateAlterUpdateFinite predicateValue "WHERE"
  enforceScanLimit t limits "ALTER TABLE UPDATE scanned rows"
  let predicateValues ← orPanic t.columns[predicateIndex]?
  let rows ← orPanic (selectRows (alterUpdateMatches predicateValues predicateValue) (List.range t.rowCount))
  match value with
  | .string text => enforceAlterUpdateReplacementBytes (stringLen text) rows.length limits.maxBytes
  | _ => .ok ()
  .ok (rows.map fun row => (row, value.value))

/-- The replacements of a logged table; a tracked table has one `Int64` column, and other values panic. -/
def walReplacements (replacements : List (Nat × Value)) : Option (List (Nat × Option Int64)) :=
  replacements.mapM fun
    | (row, .int64 value) => some (row, some value)
    | (row, .null .int64) => some (row, none)
    | _ => none

abbrev Queries := Database → Statement → QueryResultLimits → Exec Error QueryResult

namespace Database

variable (queries : Queries)

def executeQueryStatementWithLimits (db : Database) (statement : Statement) (limits : QueryResultLimits) :
    Exec Error QueryResult :=
  match statement with
  | .showCreateTable name => executeShowCreateTable db.catalog name limits
  | .literalSelect .. | .versionSelect .. | .currentDatabaseSelect .. | .systemDatabases | .systemTables
  | .systemColumns | .systemMetrics | .systemSettings | .systemFunctions | .select .. | .crossJoin .. | .unionAll ..
  | .unionDistinct .. | .showDatabases | .showSettings | .showFunctions | .showTables | .describeTable ..
  | .existsTable .. => queries db statement limits
  | _ => .error (.invalidQuery
      "read-only execution accepts only SELECT, SHOW DATABASES, SHOW SETTINGS, SHOW FUNCTIONS, SHOW TABLES, SHOW CREATE TABLE, DESCRIBE TABLE, or EXISTS TABLE")

def expectTable (name : String) : Method Database Error Unit := do
  let db ← .read
  let _ ← .call (orPanic (db.catalog.tables.lookup (normalize name)))

/-! ## Columns -/

def executeAddColumnStatement (table : String) (column : ColumnDef) : Method Database Error StatementResult := do
  let db ← .read
  .call (db.rejectUnloggedWalMutation table "ALTER TABLE ADD COLUMN")
  let existing ← .call (db.catalog.table table)
  .call (validateShowCreateAddition existing column false)
  tableMut table (Table.addColumn column)
  return .command "ALTER TABLE" 0

def executeAddNullableInt64ColumnStatement (table column : String) : Method Database Error StatementResult := do
  let db ← .read
  .call (db.rejectUnloggedWalMutation table "ALTER TABLE ADD COLUMN")
  let existing ← .call (db.catalog.table table)
  .call (validateShowCreateAddition existing ⟨column, .int64⟩ true)
  tableMut table (Table.addNullableInt64Column column)
  return .command "ALTER TABLE" 0

def executeUnlessColumnExists (table column : String) (add : Method Database Error StatementResult) :
    Method Database Error StatementResult := do
  let db ← .read
  let existing ← .call (db.catalog.table table)
  if existing.schema.any fun field => eqIgnoreAsciiCase field.name column then return .command "ALTER TABLE" 0
  else add

/-! ## Rows -/

def executeInsertStatement (io : CommitIo) (table : String) (columns : Option (List String))
    (rows : List (List Value)) : Method Database Error StatementResult := do
  let db ← .read
  let target ← .call (db.catalog.table table)
  let prepared ← .call (target.prepareInsertRows columns rows rows.length)
  logPreparedInt64Append io table prepared
  tableMut table (Table.appendPreparedInsertRows prepared)
  return .command "INSERT" prepared.rows.length

def executeDeleteStatement (table : String) (predicate : Predicate) (limits : QueryResultLimits) :
    Method Database Error StatementResult := do
  let db ← .read
  .call (db.rejectUnloggedWalMutation table "DELETE")
  let target ← .call (db.catalog.table table)
  let predicate ← .call (compilePredicate target predicate)
  .call (enforceScanLimit target limits "DELETE scanned rows")
  let rowIndexes ← .call (orPanic (fullScan target (some predicate)))
  expectTable table
  let affectedRows ← tableMut table (Table.deleteRows rowIndexes)
  return .command "DELETE" affectedRows

def logAlterUpdate (io : CommitIo) (table : String) (replacements : List (Nat × Value)) :
    Method Database Error Unit := do
  let db ← .read
  if db.walTracks table then
    let replacements ← .call (orPanic (walReplacements replacements))
    logInt64Replacements io table replacements

def executeAlterUpdateStatement (io : CommitIo) (table targetColumn : String) (value : AlterUpdateValue)
    (predicateColumn : String) (predicateValue : AlterUpdateValue) (limits : QueryResultLimits) :
    Method Database Error StatementResult := do
  let db ← .read
  let target ← .call (db.catalog.table table)
  let replacements ← .call (alterUpdateReplacements target targetColumn value predicateColumn predicateValue limits)
  logAlterUpdate io table replacements
  expectTable table
  let affectedRows ← tableMut table (Table.replaceColumnValues targetColumn replacements)
  return .command "ALTER TABLE" affectedRows

def executeTruncateStatement (io : CommitIo) (table : String) : Method Database Error StatementResult := do
  let db ← .read
  let _ ← .call (db.catalog.table table)
  logInt64Truncate io table
  let affectedRows ← tableMut table Table.truncate
  return .command "TRUNCATE TABLE" affectedRows

/-! ## Tables -/

def executeCreateStatement (name : String) (columns : List ColumnDef) : Method Database Error StatementResult := do
  let db ← .read
  let measurements := TableMeasurements.empty columns.length
  onCatalog (Catalog.createTableWithLimits name columns db.tableLimits)
  measure (·.add measurements)
  return .command "CREATE TABLE" 0

def executeCreateIfNotExistsStatement (name : String) (columns : List ColumnDef) :
    Method Database Error StatementResult := do
  let db ← .read
  let measurements := TableMeasurements.empty columns.length
  let created ← onCatalog (Catalog.createTableIfNotExistsWithLimits name columns db.tableLimits)
  if created then measure (·.add measurements)
  return .command "CREATE TABLE" 0

def executeCreateNullableIfNotExistsStatement (name column : String) : Method Database Error StatementResult := do
  let db ← .read
  unless db.catalog.tableExists name do createNullableInt64Table name column []
  return .command "CREATE TABLE" 0

def executeDropStatement (name : String) : Method Database Error StatementResult := do
  let db ← .read
  .call (db.rejectUnloggedWalMutation name "DROP TABLE")
  let target ← .call (db.catalog.table name)
  onCatalog (Catalog.dropTable name)
  measure (·.subtract (.read target))
  return .command "DROP TABLE" 0

def executeDropIfExistsStatement (name : String) : Method Database Error StatementResult := do
  let db ← .read
  .call (db.rejectUnloggedWalMutation name "DROP TABLE")
  let measurements := (db.catalog.tables.lookup (normalize name)).map TableMeasurements.read
  let dropped ← onCatalog (Catalog.dropTableIfExists name)
  if dropped then
    let measurements ← .call (orPanic measurements)
    measure (·.subtract measurements)
  return .command "DROP TABLE" 0

def executeRenameStatement (source destination : String) : Method Database Error StatementResult := do
  let db ← .read
  .call (db.rejectUnloggedWalMutation source "RENAME TABLE")
  onCatalog (Catalog.renameTable source destination)
  return .command "RENAME TABLE" 0

def executeRenameColumnStatement (table source destination : String) : Method Database Error StatementResult := do
  let db ← .read
  .call (db.rejectUnloggedWalMutation table "ALTER TABLE RENAME COLUMN")
  -- A new name changes none of the measurements.
  onCatalog (Catalog.renameColumn table source destination)
  return .command "ALTER TABLE" 0

def executeDropColumnStatement (table column : String) : Method Database Error StatementResult := do
  let db ← .read
  .call (db.rejectUnloggedWalMutation table "ALTER TABLE DROP COLUMN")
  tableMut table (Table.dropColumn column)
  return .command "ALTER TABLE" 0

def executeCreateTrailingStatement (name : String) (columns : List ColumnDef) (nullableColumns : List String)
    (ifNotExists : Bool) : Method Database Error StatementResult := do
  createTableWithTrailingNullableInt64 name columns nullableColumns ifNotExists
  return .command "CREATE TABLE" 0

/-! ## One statement -/

def executeStatementWithLimits (io : CommitIo) (statement : Statement) (limits : QueryResultLimits) :
    Method Database Error StatementResult := do
  let db ← .read
  let alterUpdateLimits := { limits with maxBytes := db.queryResultLimits.maxBytes }
  match statement with
  | .createTable name columns => executeCreateStatement name columns
  | .createTableIfNotExists name columns => executeCreateIfNotExistsStatement name columns
  | .createNullableInt64Table name column =>
    createNullableInt64Table name column []
    return .command "CREATE TABLE" 0
  | .createNullableInt64TableIfNotExists name column => executeCreateNullableIfNotExistsStatement name column
  | .createTableWithTrailingNullableInt64 name columns nullableColumn =>
    executeCreateTrailingStatement name columns [nullableColumn] false
  | .createTableWithTrailingNullableInt64IfNotExists name columns nullableColumn =>
    executeCreateTrailingStatement name columns [nullableColumn] true
  | .createTableWithTwoTrailingNullableInt64 name columns nullableColumns =>
    executeCreateTrailingStatement name columns [nullableColumns.1, nullableColumns.2] false
  | .createTableWithTwoTrailingNullableInt64IfNotExists name columns nullableColumns =>
    executeCreateTrailingStatement name columns [nullableColumns.1, nullableColumns.2] true
  | .dropTable name => executeDropStatement name
  | .dropTableIfExists name => executeDropIfExistsStatement name
  | .renameTable source destination => executeRenameStatement source destination
  | .renameColumn table source destination => executeRenameColumnStatement table source destination
  | .addColumn table column => executeAddColumnStatement table column
  | .addColumnIfNotExists table column =>
    executeUnlessColumnExists table column.name (executeAddColumnStatement table column)
  | .addNullableInt64Column table column => executeAddNullableInt64ColumnStatement table column
  | .addNullableInt64ColumnIfNotExists table column =>
    executeUnlessColumnExists table column (executeAddNullableInt64ColumnStatement table column)
  | .dropColumn table column => executeDropColumnStatement table column
  | .alterUpdate table targetColumn value predicateColumn predicateValue =>
    executeAlterUpdateStatement io table targetColumn (.literal (.int64 value)) predicateColumn
      (.literal (.int64 predicateValue)) alterUpdateLimits
  | .alterUpdateTyped table targetColumn value predicateColumn predicateValue =>
    executeAlterUpdateStatement io table targetColumn (.literal value) predicateColumn (.literal predicateValue)
      alterUpdateLimits
  | .alterUpdateOwned table targetColumn value predicateColumn predicateValue =>
    executeAlterUpdateStatement io table targetColumn value predicateColumn predicateValue alterUpdateLimits
  | .truncateTable name => executeTruncateStatement io name
  | .delete table column literal => executeDeleteStatement table (comparisonPredicate column .equal literal) limits
  | .deleteComparison table column operator literal =>
    executeDeleteStatement table (comparisonPredicate column operator literal) limits
  | .deleteConjunction table first second =>
    executeDeleteStatement table (.and (deleteComparisonPredicate first) (deleteComparisonPredicate second)) limits
  | .deleteNullness table column isNull =>
    executeDeleteStatement table (if isNull then .isNull column else .isNotNull column) limits
  | .insert table rows => executeInsertStatement io table none rows
  | .insertWithColumns table columns rows => executeInsertStatement io table (some columns) rows
  | statement => return .query (← .call (executeQueryStatementWithLimits queries db statement limits))

def executeStatement (io : CommitIo) (statement : Statement) : Method Database Error StatementResult := do
  let db ← .read
  executeStatementWithLimits queries io statement db.queryResultLimits

/-! ## Scripts -/

def resultByteResources : List String :=
  ["SELECT result bytes", "SHOW DATABASES result bytes", "SHOW SETTINGS result bytes", "SHOW FUNCTIONS result bytes",
    "SHOW TABLES result bytes", "SHOW CREATE TABLE result bytes", "DESCRIBE TABLE result bytes",
    "EXISTS TABLE result bytes"]

/-- A result that only the remaining bytes of the script make too large exceeds the limit of the script. -/
def scriptError (tightened : Bool) (retainedBytes maxResultBytes : Nat) : Error → Error
  | .resourceLimitExceeded resource actual max =>
    if resource ∈ resultByteResources ∧ tightened then
      .resultLimitExceeded (saturatingAdd retainedBytes actual) maxResultBytes
    else .resourceLimitExceeded resource actual max
  | other => other

/-- The statements behind others, in order; the answers of the operating system go by position. -/
def executeStatementsFrom (io : Nat → CommitIo) (maxResultBytes : Nat) (index retainedBytes : Nat) :
    List Statement → Method Database Error (List StatementResult)
  | [] => pure []
  | statement :: statements => do
    let db ← .read
    let remainingBytes := maxResultBytes - retainedBytes
    let tightenedResultLimit := remainingBytes < db.queryResultLimits.maxBytes
    let queryLimits := { db.queryResultLimits with maxBytes := min db.queryResultLimits.maxBytes remainingBytes }
    let result ← .mapError (scriptError tightenedResultLimit retainedBytes maxResultBytes)
      (executeStatementWithLimits queries (io index) statement queryLimits)
    let retainedBytes := saturatingAdd retainedBytes result.estimatedRetainedBytes
    .call (rejectIf (retainedBytes > maxResultBytes) (.resultLimitExceeded retainedBytes maxResultBytes))
    let results ← executeStatementsFrom io maxResultBytes (index + 1) retainedBytes statements
    return result :: results

def executeStatementsWithResultLimit (io : Nat → CommitIo) (statements : List Statement) (maxResultBytes : Nat) :
    Method Database Error (List StatementResult) :=
  executeStatementsFrom queries io maxResultBytes 0 0 statements

def defaultMaxRetainedResultBytes : Nat := 64 * 1024 * 1024

section
variable (float : FloatText)

def executeWithResultLimit (io : Nat → CommitIo) (sql : String) (maxResultBytes : Nat) :
    Method Database Error (List StatementResult) := do
  let statements ← .call (parse float sql)
  executeStatementsWithResultLimit queries io statements maxResultBytes

def execute (io : Nat → CommitIo) (sql : String) : Method Database Error (List StatementResult) :=
  executeWithResultLimit queries float io sql defaultMaxRetainedResultBytes

end

/-! ## Batches of INSERT -/

/-- The target, the columns and the rows of an `INSERT`. -/
def insertParts : Statement → Option (String × Option (List String) × List (List Value))
  | .insert table rows => some (table, none, rows)
  | .insertWithColumns table columns rows => some (table, some columns, rows)
  | _ => none

def rejectOtherStatements : List Statement → Exec Error Unit :=
  forEach fun statement =>
    rejectIf (insertParts statement = none) (.insertOnlyStatementRequired (statementName statement))

/-- Prepared rows and the table they are for. -/
abbrev PreparedInsert := String × PreparedInsertRows

def prepareInsertStatements (c : Catalog) (incomingRowsByTable : Map String Nat) :
    List Statement → Exec Error (List PreparedInsert)
  | [] => .ok []
  | statement :: statements => do
    let (table, columns, rows) ← orPanic (insertParts statement)
    let target ← c.table table
    -- The rows of a batch are in memory: their number never saturates.
    let cumulativeRows := (incomingRowsByTable.lookup (toAsciiLowercase table)).getD 0 + rows.length
    let prepared ← target.prepareInsertRows columns rows cumulativeRows
    let rest ← prepareInsertStatements c (incomingRowsByTable.insert (toAsciiLowercase table) cumulativeRows) statements
    .ok ((table, prepared) :: rest)

def walAppend (db : Database) (walTable : Option String) (walValues : List (Option Int64)) :
    List PreparedInsert → Exec Error (Option String × List (Option Int64))
  | [] => .ok (walTable, walValues)
  | (table, rows) :: prepared =>
    if db.walTracks table then do
      rejectIf (walTable.any fun tracked => ¬ eqIgnoreAsciiCase tracked table)
        (.invalidQuery
          "an atomic INSERT batch cannot span multiple independently logged WAL registry tables")
      let values ← orPanic rows.int64Values
      db.walAppend (some (walTable.getD table)) (walValues ++ values) prepared
    else db.walAppend walTable walValues prepared

/-- Logs the rows for the logged table, if there is one. -/
def logInsertStatements (io : CommitIo) (prepared : List PreparedInsert) : Method Database Error Unit := do
  let db ← .read
  match ← .call (db.walAppend none [] prepared) with
  | (some table, values) => logInt64Append io table values
  | (none, _) => return ()

def applyInsertStatements : List PreparedInsert → Method Database Error (List StatementResult)
  | [] => pure []
  | (table, rows) :: prepared => do
    .expect (tableMut table (Table.appendPreparedInsertRows rows))
    let results ← applyInsertStatements prepared
    return .command "INSERT" rows.rows.length :: results

def executeInsertStatements (io : CommitIo) (statements : List Statement) :
    Method Database Error (List StatementResult) := do
  let db ← .read
  .call (rejectOtherStatements statements)
  let prepared ← .call (prepareInsertStatements db.catalog ∅ statements)
  logInsertStatements io prepared
  applyInsertStatements prepared

def executeInsertBatch (float : FloatText) (io : CommitIo) (sql : String) :
    Method Database Error (List StatementResult) := do
  let statements ← .call (parse float sql)
  executeInsertStatements io statements

end Database

end RustHouse.Batch
