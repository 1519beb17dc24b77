import RustHouse.SqlSelect

/-!
# The parser of statements

Every statement checks that it ends at a semicolon or at the end of the input,
and a batch is a sequence of statements between semicolons.
-/

namespace RustHouse.Batch

open Checked

namespace Parse

/-! ## Queries without a table -/

/-- The columns of a system table, by their names. -/
def expectColumns (description : String) : List String → Parse Unit
  | [] => return ()
  | [column] => do
    reserveAstListItem
    expectKeyword column
  | column :: columns => do
    reserveAstListItem
    expectKeyword column
    expect .comma description
    expectColumns description columns

def parseSystemSelect (columns : List String) (separator dot table shape : String) (statement : Statement) :
    Parse Statement := do
  expectColumns separator columns
  expectKeyword "FROM"
  expectKeyword "SYSTEM"
  expect .dot dot
  expectKeyword table
  expectTerminator shape
  return statement

def parseSystemDatabasesSelect : Parse Statement :=
  parseSystemSelect ["NAME"] "" "'.' in system.databases" "DATABASES"
    "system.databases supports exactly SELECT name FROM system.databases with no trailing clauses" .systemDatabases

def parseSystemFunctionsSelect : Parse Statement :=
  parseSystemSelect ["NAME"] "" "'.' in system.functions" "FUNCTIONS"
    "system.functions supports exactly SELECT name FROM system.functions with no trailing clauses" .systemFunctions

def parseSystemSettingsSelect : Parse Statement :=
  parseSystemSelect ["NAME", "VALUE"] "',' between system.settings columns" "'.' in system.settings" "SETTINGS"
    "system.settings supports exactly SELECT name, value FROM system.settings with no trailing clauses"
    .systemSettings

def parseSystemMetricsSelect : Parse Statement :=
  parseSystemSelect ["METRIC", "VALUE"] "',' between system.metrics columns" "'.' in system.metrics" "METRICS"
    "system.metrics supports exactly SELECT metric, value FROM system.metrics with no trailing clauses" .systemMetrics

def parseSystemColumnsSelect : Parse Statement :=
  parseSystemSelect ["DATABASE", "TABLE", "NAME", "TYPE", "POSITION"] "',' between system.columns columns"
    "'.' in system.columns" "COLUMNS"
    "system.columns metadata supports exactly SELECT database, table, name, type, position FROM system.columns with no trailing clauses"
    .systemColumns

def parseSystemTablesSelect : Parse Statement :=
  parseSystemSelect ["DATABASE", "NAME", "ENGINE", "TOTAL_ROWS"] "',' between system.tables columns"
    "'.' in system.tables" "TABLES"
    "system.tables metadata supports exactly SELECT database, name, engine, total_rows FROM system.tables with no trailing clauses"
    .systemTables

def columnTests : List String → List (TokenKind → Bool)
  | [] => []
  | column :: columns => isToken .comma :: isKeyword column :: columnTests columns

/-- Whether a query of a system table starts at the current token. -/
def atSystemSelectStart (first : String) (columns : List String) (table : String) : Parse Bool := do
  let atFirst ← atKeyword first
  let follows ← lookahead (columnTests columns ++
    [isKeyword "FROM", isKeyword "SYSTEM", isToken .dot, isKeyword table])
  return atFirst && follows

def parseVersionSelect : Parse Statement := do
  reserveAstListItem
  expectKeyword "VERSION"
  expect .leftParen "'(' after version"
  expect .rightParen "')' after the empty version argument list"
  let aliasName ← parseAlias
  expectTerminator
    "version() SELECT supports exactly SELECT version() with an optional AS alias and no trailing clauses"
  return .versionSelect aliasName

def parseCurrentDatabaseSelect : Parse Statement := do
  reserveAstListItem
  expectKeyword "CURRENTDATABASE"
  expect .leftParen "'(' after currentDatabase"
  expect .rightParen "')' after the empty currentDatabase argument list"
  let aliasName ← parseAlias
  expectTerminator
    "currentDatabase() SELECT supports exactly SELECT currentDatabase() with an optional AS alias and no trailing clauses"
  return .currentDatabaseSelect aliasName

/-- Whether a call of a function without a table starts at the current token. -/
def atCallStart (name : String) : Parse Bool := do
  let atName ← atKeyword name
  let follows ← lookahead [isToken .leftParen]
  return atName && follows

def parseLiteralSelect (float : FloatText) : Parse Statement := do
  reserveAstListItem
  let value ← parseLiteral float
  let aliasName ← parseAlias
  expectTerminator
    "literal SELECT supports exactly one literal with an optional AS alias and no trailing clauses"
  return .literalSelect value aliasName

def typedNullCastDataType (typeName : String) : Option DataType :=
  if eqIgnoreAsciiCase typeName "INT64" then some .int64
  else if eqIgnoreAsciiCase typeName "FLOAT64" then some .float64
  else if eqIgnoreAsciiCase typeName "BOOL" then some .bool
  else if eqIgnoreAsciiCase typeName "STRING" then some .string
  else none

def parseTypedNullSelect : Parse Statement := do
  reserveAstListItem
  expectKeyword "CAST"
  expect .leftParen "'(' after CAST"
  expectKeyword "NULL"
  expectKeyword "AS"
  let position ← position
  let typeName ← expectIdentifier "target type in typed NULL CAST"
  let dataType ← okOrAt position
    s!"unknown typed NULL CAST target type '{typeName}'; expected Int64, Float64, Bool, or String"
    (typedNullCastDataType typeName)
  expect .rightParen "')' after typed NULL CAST"
  let aliasName ← parseAlias
  expectTerminator
    "typed NULL SELECT supports exactly CAST(NULL AS Int64|Float64|Bool|String) with an optional AS alias and no trailing clauses"
  return .literalSelect (.null dataType) aliasName

def isTypedNullType : TokenKind → Bool
  | .identifier typeName => (typedNullCastDataType typeName).isSome
  | _ => false

/-- What follows `CAST` in a typed `NULL`, without or with an alias. -/
def typedNullTails : List (List (TokenKind → Bool)) :=
  [[isToken .leftParen, isKeyword "NULL", isKeyword "AS", isTypedNullType, isToken .rightParen, isTerminator],
    [isToken .leftParen, isKeyword "NULL", isKeyword "AS", isTypedNullType, isToken .rightParen, isKeyword "AS",
      isIdentifier, isTerminator]]

def atCompleteTypedNullSelect : Parse Bool := do
  let atCast ← atKeyword "CAST"
  let parser ← .read
  return atCast && typedNullTails.any fun tests => nextTokensPass tests parser.lexer

/-! ## SELECT -/

def crossJoinShape : String := "CROSS JOIN supports exactly SELECT * FROM <left> CROSS JOIN <right> [LIMIT n]"

/-- Only the table of a query is given. -/
def isWholeTable (select : Select) : Bool :=
  !select.distinct && select.items = [.wildcard] && select.predicate.isNone && select.groupBy = [] &&
    select.having.isNone && select.orderBy = [] && select.limit.isNone

def parseCrossJoinLimit : Parse (Option Nat) := do
  if ← eatKeyword "LIMIT" then
    let position ← position
    let number ← okOrAt position "expected a non-negative integer after LIMIT" (← takeNumber)
    return some (← parsePaginationValue number position "LIMIT")
  else return none

def parseCrossJoin (left : Select) : Parse Statement := do
  unless isWholeTable left do error crossJoinShape
  expectKeyword "JOIN"
  let rightTable ← expectIdentifier "right table name after CROSS JOIN"
  let limit ← parseCrossJoinLimit
  expectTerminator crossJoinShape
  return .crossJoin ⟨left.table, rightTable, limit⟩

section
variable (float : FloatText)

/-- Whether a `UNION` is distinct. -/
def parseUnionMode : Parse Bool := do
  if ← eatKeyword "ALL" then return false
  else
    expectKeyword "DISTINCT"
    return true

def parseUnion (frames : Nat) (left : Select) : Parse Statement := do
  let distinct ← parseUnionMode
  expectKeyword "SELECT"
  let right ← parseSelect float frames
  let operation := if distinct then "UNION DISTINCT" else "UNION ALL"
  expectTerminator s!"{operation} supports exactly two SELECT operands and no outer clauses"
  return if distinct then .unionDistinct left right else .unionAll left right

def parseTableSelect (frames : Nat) : Parse Statement := do
  let left ← parseSelect float frames
  if ← eatKeyword "CROSS" then parseCrossJoin left
  else if ← eatKeyword "UNION" then parseUnion float frames left
  else return .select left

def parseSelectStatement (frames : Nat) : Parse Statement := do
  if ← atSystemSelectStart "NAME" [] "DATABASES" then parseSystemDatabasesSelect
  else if ← atSystemSelectStart "NAME" [] "FUNCTIONS" then parseSystemFunctionsSelect
  else if ← atSystemSelectStart "NAME" ["VALUE"] "SETTINGS" then parseSystemSettingsSelect
  else if ← atSystemSelectStart "METRIC" ["VALUE"] "METRICS" then parseSystemMetricsSelect
  else if ← atSystemSelectStart "DATABASE" ["TABLE", "NAME", "TYPE", "POSITION"] "COLUMNS" then
    parseSystemColumnsSelect
  else if ← atSystemSelectStart "DATABASE" ["NAME", "ENGINE", "TOTAL_ROWS"] "TABLES" then parseSystemTablesSelect
  else if ← atCallStart "VERSION" then parseVersionSelect
  else if ← atCallStart "CURRENTDATABASE" then parseCurrentDatabaseSelect
  else if ← peekIs tokenCanStartLiteral then parseLiteralSelect float
  else if ← atCompleteTypedNullSelect then parseTypedNullSelect
  else parseTableSelect float frames

end

/-! ## SHOW, DESCRIBE and EXISTS -/

/-- The database that `SHOW TABLES` can name. -/
def parseShownDatabase (qualifier : String) : Parse Unit := do
  let position ← position
  let database ← expectIdentifier s!"database name after {qualifier}"
  unless eqIgnoreAsciiCase database "default" do
    failAt position s!"SHOW TABLES supports only the default database; found '{database}'"

def parseShowTables : Parse Statement := do
  expectKeyword "TABLES"
  if ← eatKeyword "FROM" then parseShownDatabase "FROM"
  else if ← eatKeyword "IN" then parseShownDatabase "IN"
  expectTerminator "unexpected trailing input after SHOW TABLES"
  return .showTables

def complete (message : String) (statement : Statement) : Parse Statement := do
  expectTerminator message
  return statement

def parseShow : Parse Statement := do
  if ← eatKeyword "CREATE" then
    expectKeyword "TABLE"
    let name ← expectIdentifier "table name"
    complete "unexpected trailing input after SHOW CREATE TABLE <name>" (.showCreateTable name)
  else if ← eatKeyword "DATABASES" then complete "unexpected trailing input after SHOW DATABASES" .showDatabases
  else if ← eatKeyword "SETTINGS" then complete "unexpected trailing input after SHOW SETTINGS" .showSettings
  else if ← eatKeyword "FUNCTIONS" then complete "unexpected trailing input after SHOW FUNCTIONS" .showFunctions
  else parseShowTables

def parseTableStatement (statement : String → Statement) (message : String) : Parse Statement := do
  expectKeyword "TABLE"
  let name ← expectIdentifier "table name"
  complete message (statement name)

def parseDescribe : Parse Statement :=
  parseTableStatement .describeTable "unexpected trailing input after DESCRIBE TABLE <name>"

def parseExists : Parse Statement :=
  parseTableStatement .existsTable "unexpected trailing input after EXISTS TABLE <name>"

def parseTruncate : Parse Statement :=
  parseTableStatement .truncateTable "unexpected trailing input after TRUNCATE TABLE"

/-! ## CREATE, DROP, RENAME -/

/-- `IF` is read back as a name unless the keyword follows it. -/
def parseIf (keyword : String) (rest : Parse Unit) : Parse Bool := do
  if ← atKeyword "IF" then
    let saved ← .read
    advance
    if ← eatKeyword keyword then
      rest
      return true
    else
      .modify fun parser => { parser with lexer := saved.lexer, current := saved.current }
      return false
  else return false

def parseIfNotExists : Parse Bool := parseIf "NOT" (expectKeyword "EXISTS")

def parseIfExists : Parse Bool := parseIf "EXISTS" (return ())

def parseColumnName : Parse String := do
  let name ← expectIdentifier "column name"
  if isReservedColumnName name then fail (.reservedIdentifier name "column name")
  return name

/-- The rest of `Nullable(Int64)`. -/
def parseNullableType : Parse Unit := do
  expect .leftParen "'(' after Nullable"
  let nestedPosition ← position
  let nestedType ← expectIdentifier "type inside Nullable"
  unless eqIgnoreAsciiCase nestedType "Int64" do
    failAt nestedPosition s!"unsupported nullable type '{nestedType}'; expected Int64"
  expect .rightParen "')' after Nullable(Int64)"

def columnDataType (position : Nat) (typeName : String) : Parse DataType :=
  okOrAt position
    s!"unknown type '{typeName}'; expected Int64, Float64, Bool, String, or Nullable(Int64)" (DataType.parse typeName)

/-- The columns of a `CREATE TABLE` so far: those that are not nullable, then those that are. -/
structure CreatedColumns where
  columns : List ColumnDef
  nullable : List String

def parseCreatedColumn (created : CreatedColumns) : Parse CreatedColumns := do
  reserveAstListItem
  let name ← parseColumnName
  let position ← position
  let typeName ← expectIdentifier "column type"
  if eqIgnoreAsciiCase typeName "Nullable" then
    parseNullableType
    return { created with nullable := created.nullable ++ [name] }
  else
    unless created.nullable = [] do
      error "Nullable(Int64) columns must form the final one- or two-column suffix"
    let dataType ← columnDataType position typeName
    return { created with columns := created.columns ++ [⟨name, dataType⟩] }

def parseNextColumn (created : CreatedColumns) : Parse CreatedColumns := do
  if created.nullable.length = 2 then error "CREATE TABLE supports at most two final Nullable(Int64) columns"
  parseCreatedColumn created

def parseEngine : Parse Unit := do
  if ← eatKeyword "ENGINE" then
    expect .equal "'=' after ENGINE"
    let position ← position
    let engine ← expectIdentifier "table engine after ENGINE ="
    unless eqIgnoreAsciiCase engine "Memory" do
      failAt position s!"unsupported table engine '{engine}'; expected Memory"

def createStatement (name : String) (ifNotExists : Bool) (created : CreatedColumns) : Statement :=
  match created.nullable with
  | [first, second] =>
    if ifNotExists then
      .createTableWithTwoTrailingNullableInt64IfNotExists name created.columns (first, second)
    else .createTableWithTwoTrailingNullableInt64 name created.columns (first, second)
  | [column] =>
    if created.columns = [] then
      if ifNotExists then .createNullableInt64TableIfNotExists name column else .createNullableInt64Table name column
    else if ifNotExists then .createTableWithTrailingNullableInt64IfNotExists name created.columns column
    else .createTableWithTrailingNullableInt64 name created.columns column
  | _ => if ifNotExists then .createTableIfNotExists name created.columns else .createTable name created.columns

def parseCreate : Parse Statement := do
  expectKeyword "TABLE"
  let ifNotExists ← parseIfNotExists
  let name ← expectIdentifier "table name"
  expect .leftParen "'(' after table name"
  let first ← parseCreatedColumn ⟨[], []⟩
  let created ← whileEat (isToken .comma) parseNextColumn first
  expect .rightParen "')' after column definitions"
  parseEngine
  complete "unexpected trailing input after CREATE TABLE" (createStatement name ifNotExists created)

def parseDrop : Parse Statement := do
  expectKeyword "TABLE"
  let ifExists ← parseIfExists
  let name ← expectIdentifier "table name"
  complete "unexpected trailing input after DROP TABLE" (if ifExists then .dropTableIfExists name else .dropTable name)

def parseRename : Parse Statement := do
  expectKeyword "TABLE"
  let source ← expectIdentifier "source table name"
  expectKeyword "TO"
  let destination ← expectIdentifier "destination table name"
  complete "unexpected trailing input after RENAME TABLE" (.renameTable source destination)

/-! ## DELETE -/

section
variable (float : FloatText)

def parseDeleteComparisonAfterColumn (column : String) : Parse DeleteComparisonPredicate := do
  let operator ← parseComparisonOperator
  let literal ← parseLiteral float
  recordPredicateNode
  return ⟨column, operator, literal⟩

def parseDeleteComparison : Parse DeleteComparisonPredicate := do
  let column ← expectIdentifier "column name"
  parseDeleteComparisonAfterColumn float column

def parseDeleteNullness (table column : String) : Parse Statement := do
  let isNotNull ← eatKeyword "NOT"
  expectKeyword "NULL"
  recordPredicateNode
  complete "DELETE nullness predicate supports exactly one column IS NULL or column IS NOT NULL atom"
    (.deleteNullness table column (!isNotNull))

def deleteStatement (table : String) (first : DeleteComparisonPredicate) : Statement :=
  if first.operator = .equal then .delete table first.column first.literal
  else .deleteComparison table first.column first.operator first.literal

def parseDeleteComparisons (table column : String) : Parse Statement := do
  let first ← parseDeleteComparisonAfterColumn float column
  if ← eatKeyword "AND" then
    let second ← parseDeleteComparison float
    recordPredicateNode
    complete "DELETE supports at most two comparisons joined by exactly one AND"
      (.deleteConjunction table first second)
  else
    complete "DELETE supports one comparison or two comparisons joined by exactly one AND"
      (deleteStatement table first)

def parseDeleteWhere (table : String) : Parse Statement := do
  expectKeyword "WHERE"
  .modify fun parser => { parser with predicateDepth := 0, predicateNodes := 0 }
  let firstColumn ← expectIdentifier "column name"
  if ← eatKeyword "IS" then parseDeleteNullness table firstColumn
  else parseDeleteComparisons float table firstColumn

def parseDelete : Parse Statement := do
  expectKeyword "FROM"
  let table ← expectIdentifier "table name"
  parseDeleteWhere float table

/-! ## ALTER -/

def parseAddColumn (table : String) : Parse Statement := do
  expectKeyword "COLUMN"
  let ifNotExists ← parseIfNotExists
  let name ← parseColumnName
  let position ← position
  let typeName ← expectIdentifier "column type"
  if eqIgnoreAsciiCase typeName "Nullable" then
    parseNullableType
    complete "unexpected trailing input after ALTER TABLE ADD COLUMN"
      (if ifNotExists then .addNullableInt64ColumnIfNotExists table name else .addNullableInt64Column table name)
  else
    let dataType ← columnDataType position typeName
    complete "unexpected trailing input after ALTER TABLE ADD COLUMN"
      (if ifNotExists then .addColumnIfNotExists table ⟨name, dataType⟩ else .addColumn table ⟨name, dataType⟩)

def parseRenameColumn (table : String) : Parse Statement := do
  expectKeyword "COLUMN"
  let source ← expectIdentifier "source column name"
  expectKeyword "TO"
  let destination ← expectIdentifier "destination column name"
  complete "unexpected trailing input after ALTER TABLE RENAME COLUMN" (.renameColumn table source destination)

def alterUpdateStatement (table targetColumn : String) (value : AlterUpdateValue) (predicateColumn : String)
    (predicateValue : AlterUpdateValue) : Statement :=
  match value, predicateValue with
  | .literal (.int64 value), .literal (.int64 predicateValue) =>
    .alterUpdate table targetColumn value predicateColumn predicateValue
  | .literal value, .literal predicateValue =>
    .alterUpdateTyped table targetColumn value predicateColumn predicateValue
  | value, predicateValue => .alterUpdateOwned table targetColumn value predicateColumn predicateValue

def parseAssignedValue : Parse AlterUpdateValue := do
  if ← eatKeyword "NULL" then return .null else parseAlterUpdateLiteral float "ALTER TABLE UPDATE assignment"

def parseAlterUpdate (table : String) : Parse Statement := do
  let targetColumn ← expectIdentifier "target column name"
  expect .equal "'=' after ALTER TABLE UPDATE target column"
  let value ← parseAssignedValue float
  expectKeyword "WHERE"
  let predicateColumn ← expectIdentifier "WHERE column name"
  expect .equal "'=' after ALTER TABLE UPDATE WHERE column"
  let predicateValue ← parseAlterUpdateLiteral float "ALTER TABLE UPDATE WHERE comparison"
  complete "unexpected trailing input after ALTER TABLE UPDATE"
    (alterUpdateStatement table targetColumn value predicateColumn predicateValue)

def parseDropColumn (table : String) : Parse Statement := do
  expectKeyword "DROP"
  expectKeyword "COLUMN"
  let column ← expectIdentifier "column name"
  complete "unexpected trailing input after ALTER TABLE DROP COLUMN" (.dropColumn table column)

def parseAlter : Parse Statement := do
  expectKeyword "TABLE"
  let table ← expectIdentifier "table name"
  if ← eatKeyword "ADD" then parseAddColumn table
  else if ← eatKeyword "RENAME" then parseRenameColumn table
  else if ← eatKeyword "UPDATE" then parseAlterUpdate float table
  else if ← eatKeyword "DELETE" then parseDeleteWhere float table
  else parseDropColumn table

/-! ## INSERT -/

def parseInsertColumns : Parse (Option (List String)) := do
  if ← eat .leftParen then
    let columns ← commaSeparated (reserved (expectIdentifier "column name in INSERT column list"))
    expect .rightParen "')' after INSERT column list"
    return some columns
  else return none

def parseInsertValue : Parse Value := do
  checkInsertValue
  let value ← parseInsertLiteral float
  countInsertValue
  return value

def parseRowValues : Parse (List Value) := do
  if ← peekIs (isToken .rightParen) then return [] else commaSeparated (parseInsertValue float)

def parseInsertRow : Parse (List Value) := do
  checkInsertRow
  expect .leftParen "'(' before row values"
  let row ← parseRowValues float
  expect .rightParen "')' after row values"
  countInsertRow
  return row

def insertStatement (table : String) (rows : List (List Value)) : Option (List String) → Statement
  | some columns => .insertWithColumns table columns rows
  | none => .insert table rows

def parseInsert : Parse Statement := do
  expectKeyword "INTO"
  let table ← expectIdentifier "table name"
  let columns ← parseInsertColumns
  expectKeyword "VALUES"
  let rows ← commaSeparated (parseInsertRow float)
  return insertStatement table rows columns

/-! ## Batches -/

def parseStatement (frames : Nat) : Parse Statement := do
  if ← eatKeyword "CREATE" then parseCreate
  else if ← eatKeyword "ALTER" then parseAlter float
  else if ← eatKeyword "DROP" then parseDrop
  else if ← eatKeyword "RENAME" then parseRename
  else if ← eatKeyword "TRUNCATE" then parseTruncate
  else if ← eatKeyword "DELETE" then parseDelete float
  else if ← eatKeyword "INSERT" then parseInsert float
  else if ← eatKeyword "SELECT" then parseSelectStatement float frames
  else if ← eatKeyword "SHOW" then parseShow
  else if ← eatKeyword "DESCRIBE" then parseDescribe
  else if ← eatKeyword "EXISTS" then parseExists
  else
    error
      "expected CREATE, ALTER, DROP, RENAME, TRUNCATE, DELETE, INSERT, SELECT, SHOW, DESCRIBE, or EXISTS"

def skipSemicolons : Parse Unit := whileEat (isToken .semicolon) (fun _ => return ()) ()

def checkStatementLimit (statements : Nat) : Parse Unit := do
  let parser ← .read
  if statements ≥ parser.limits.maxStatements then
    fail (.statementLimitExceeded (saturatingAdd statements 1) parser.limits.maxStatements)

/-- A statement, and the semicolons or the end of the input behind it. -/
def parseBatchStatement (frames : Nat) (statements : List Statement) : Parse (List Statement) := do
  checkStatementLimit statements.length
  let statement ← parseStatement float frames
  unless ← peekIs isTerminator do error "expected ';' between statements"
  skipSemicolons
  return statements ++ [statement]

def parseStatements (frames : Nat) : Nat → List Statement → Parse (List Statement)
  | 0, _ => fun _ => none
  | fuel + 1, statements => do
    if ← peekIs (isToken .endOfInput) then return statements
    else parseStatements frames fuel (← parseBatchStatement float frames statements)

def parseScript (frames : Nat) (allowEmpty : Bool) : Parse (List Statement) := do
  skipSemicolons
  let statements ← parseStatements float frames ((← .read).lexer.rest.length + 2) []
  if statements = [] ∧ ¬ allowEmpty then error "expected a SQL statement"
  return statements

end

end Parse

/-- The most calls of the predicate productions, and of the lowering of an `IN` list, in one another. -/
def predicateFrames : Nat := 4 * (maxPredicateDepth + 1) + maxPredicateNodes

/-- `parse_with_limits`, with so many frames for the productions of predicates. -/
def parseInFrames (float : FloatText) (frames : Nat) (input : String) (limits : BatchSqlLimits) :
    Exec Error (List Statement) :=
  match Parse.parseScript float frames false (.new input limits) with
  | none => .panic
  | some (.ok statements, _) => .ok statements
  | some (.error error, _) => .error error

def parseWithLimits (float : FloatText) (input : String) (limits : BatchSqlLimits) : Exec Error (List Statement) :=
  parseInFrames float predicateFrames input limits

def parse (float : FloatText) (input : String) : Exec Error (List Statement) := parseWithLimits float input .default

end RustHouse.Batch
