import RustHouse.Method
import RustHouse.OneColumn
import RustHouse.SqlParser
import RustHouse.TextPositions

/-!
# The parser of one-column statements

A parser without a lexer: it looks at the bytes of a statement at a position that
only moves forward, and slices the statement between positions. Clauses are told
apart by the words ahead. A slice that would split a character panics.
-/

namespace RustHouse.OneColumn

open Exec Scanning TextPositions Words
open Batch (eqIgnoreAsciiCase parseInt64 parseUsize)

structure ParseLimits where
  maxStatementBytes : Nat
  maxIdentifierBytes : Nat
  deriving DecidableEq, Repr

structure ColumnDefinition where
  name : String
  dataType : DataType
  nullable : Bool
  deriving DecidableEq, Repr

structure CreateTableStatement where
  tableName : String
  column : ColumnDefinition
  ifNotExists : Bool
  deriving DecidableEq, Repr

structure InsertStatement where
  tableName : String
  value : Option Int64
  deriving DecidableEq, Repr

/-- An equi-join of two tables, inner or left. -/
structure JoinStatement where
  projectedColumnName : String
  leftTableName : String
  rightTableName : String
  leftColumnName : String
  rightColumnName : String
  deriving DecidableEq, Repr

structure SelectDistinctStatement where
  columnName : String
  tableName : String
  deriving DecidableEq, Repr

inductive ParseError where
  | statementTooLong (bytes maxBytes : Nat)
  | identifierTooLong (offset bytes maxBytes : Nat)
  | unexpectedInput (offset : Nat) (expected : String)
  | invalidInt64 (offset : Nat)
  | int64Overflow (offset : Nat)
  | invalidLimit (offset : Nat)
  | limitOverflow (offset : Nat)
  | extraRows (offset : Nat)
  | trailingInput (offset : Nat)
  deriving DecidableEq, Repr

def ParseError.offset : ParseError → Option Nat
  | statementTooLong .. => none
  | identifierTooLong offset .. | unexpectedInput offset _ | invalidInt64 offset | int64Overflow offset
  | invalidLimit offset | limitOverflow offset | extraRows offset | trailingInput offset => some offset

/-! ## Bytes -/

def isAsciiWhitespace (byte : UInt8) : Bool :=
  byte = ' '.toUInt8 || byte = '\t'.toUInt8 || byte = '\n'.toUInt8 || byte = '\x0C'.toUInt8 || byte = '\r'.toUInt8

def isAsciiDigit (byte : UInt8) : Bool := '0'.toUInt8 ≤ byte && byte ≤ '9'.toUInt8

def isAsciiAlphabetic (byte : UInt8) : Bool :=
  'A'.toUInt8 ≤ byte && byte ≤ 'Z'.toUInt8 || 'a'.toUInt8 ≤ byte && byte ≤ 'z'.toUInt8

def isIdentifierStart (byte : UInt8) : Bool := isAsciiAlphabetic byte || byte = '_'.toUInt8

def isIdentifierContinue (byte : UInt8) : Bool := isAsciiAlphabetic byte || isAsciiDigit byte || byte = '_'.toUInt8

def isComparisonOperatorByte (byte : UInt8) : Bool :=
  byte = '='.toUInt8 || byte = '!'.toUInt8 || byte = '<'.toUInt8 || byte = '>'.toUInt8

def isSign (byte : UInt8) : Bool := byte = '+'.toUInt8 || byte = '-'.toUInt8

/-- What ends a number that a clause ends with. -/
def isTerminator (byte : UInt8) : Bool := isAsciiWhitespace byte || byte = ';'.toUInt8

/-! ## Words -/

/-- A parser of a statement, on the position it has come to. -/
abbrev Parse (α : Type) := Method Nat ParseError α

section
variable (input : String)

def peek : Parse (Option UInt8) := do
  let position ← Method.read
  return (utf8 input)[position]?

def unexpected {α : Type} (expected : String) : Parse α := do
  let position ← Method.read
  Method.call (.error (.unexpectedInput position expected))

/-- A loop that moves on over the bytes of a class. -/
def skipWhile (p : UInt8 → Bool) : Parse Unit := Method.modify (runEnd p (utf8 input))

def skipWhitespace : Parse Unit := skipWhile input isAsciiWhitespace

def requireWhitespace (expected : String) : Parse Unit := do
  let start ← Method.read
  skipWhitespace input
  let position ← Method.read
  if position = start then unexpected expected

def expectByte (byte : UInt8) (expected : String) : Parse Unit := do
  if (← peek input) ≠ some byte then unexpected expected
  else Method.modify (· + 1)

def wordEnd (start : Nat) : Option Nat :=
  if (utf8 input)[start]?.any isIdentifierStart then some (runEnd isIdentifierContinue (utf8 input) (start + 1)) else none

/-- Whether the word at a position is the keyword. -/
def keywordAt (start : Nat) (keyword : String) : Exec ParseError Bool :=
  match wordEnd input start with
  | none => .ok false
  | some stop => do
    let word ← strSlice input start stop
    .ok (eqIgnoreAsciiCase word keyword)

def keywordAtPosition (keyword : String) : Parse Bool := do
  let position ← Method.read
  Method.call (keywordAt input position keyword)

def keywordFollowsCurrentWord (keyword : String) : Parse Bool := do
  let position ← Method.read
  match wordEnd input position with
  | none => return false
  | some currentEnd =>
    let nextStart := runEnd isAsciiWhitespace (utf8 input) currentEnd
    if nextStart = currentEnd then return false else Method.call (keywordAt input nextStart keyword)

def expectKeyword (keyword : String) : Parse Unit := do
  let start ← Method.read
  match wordEnd input start with
  | none => unexpected keyword
  | some stop =>
    let word ← Method.call (strSlice input start stop)
    if ¬ eqIgnoreAsciiCase word keyword then unexpected keyword else Method.write stop

def parseIdentifier (maxIdentifierBytes : Nat) : Parse String := do
  let start ← Method.read
  if ¬ (← peek input).any isIdentifierStart then unexpected "identifier"
  else
    Method.modify (· + 1)
    skipWhile input isIdentifierContinue
    let position ← Method.read
    let bytes := position - start
    if bytes > maxIdentifierBytes then Method.call (.error (.identifierTooLong start bytes maxIdentifierBytes))
    else Method.call (strSlice input start position)

/-! ## Numbers and operators -/

/-- The byte at the position is passed over if it is of the class. -/
def skipOneOf (p : UInt8 → Bool) : Parse Unit := do
  if (← peek input).any p then Method.modify (· + 1)

def parseLiteral {α : Type} (start stop : Nat) (parse : String → Option α) (overflow : Nat → ParseError) : Parse α := do
  let literal ← Method.call (strSlice input start stop)
  Method.call (getOr (parse literal) (overflow start))

def parseWhereInt64 : Parse Int64 := do
  let start ← Method.read
  skipOneOf input isSign
  let digitsStart ← Method.read
  skipWhile input isAsciiDigit
  let stop ← Method.read
  if stop = digitsStart then Method.call (.error (.invalidInt64 start))
  else if (← peek input).any fun byte => ¬ isTerminator byte then Method.call (.error (.invalidInt64 stop))
  else parseLiteral input start stop (fun literal => parseInt64 literal.toList) .int64Overflow

def parseLimit : Parse Nat := do
  let start ← Method.read
  skipWhile input fun byte => ¬ isTerminator byte
  let position ← Method.read
  let literal ← Method.call (strSlice input start position)
  if literal = "" ∨ ¬ (utf8 literal).all isAsciiDigit then Method.call (.error (.invalidLimit start))
  else Method.call (getOr (parseUsize literal) (.limitOverflow start))

/-- A number in front of a closing parenthesis, which is only looked at. -/
def parseInt64Literal : Parse Int64 := do
  let start ← Method.read
  skipOneOf input isSign
  let digitsStart ← Method.read
  skipWhile input isAsciiDigit
  let stop ← Method.read
  if stop = digitsStart then Method.call (.error (.invalidInt64 start))
  else
    skipWhitespace input
    let position ← Method.read
    match ← peek input with
    | none => unexpected "')'"
    | some byte =>
      if byte ≠ ')'.toUInt8 then Method.call (.error (.invalidInt64 position))
      else parseLiteral input start stop (fun literal => parseInt64 literal.toList) .int64Overflow

def parseInt64Value : Parse (Option Int64) := do
  if ← keywordAtPosition input "NULL" then
    expectKeyword input "NULL"
    return none
  else
    let value ← parseInt64Literal input
    return some value

def parseNullability : Parse Bool := do
  skipWhitespace input
  if (← peek input) = some ')'.toUInt8 then return true
  else if ← keywordAtPosition input "NULL" then
    expectKeyword input "NULL"
    return true
  else if ← keywordAtPosition input "NOT" then
    expectKeyword input "NOT"
    requireWhitespace input "whitespace after NOT"
    expectKeyword input "NULL"
    return false
  else unexpected "NULL, NOT NULL, or ')'"

/-- The operator that the next two bytes start with, and its length. -/
def comparisonOperatorAt : Option UInt8 → Option UInt8 → Option (ComparisonOperator × Nat)
  | none, _ => none
  | some first, second =>
    if first = '='.toUInt8 then some (.eq, 1)
    else if first = '!'.toUInt8 ∧ second = some '='.toUInt8 then some (.ne, 2)
    else if first = '<'.toUInt8 ∧ second = some '>'.toUInt8 then some (.ne, 2)
    else if first = '<'.toUInt8 ∧ second = some '='.toUInt8 then some (.le, 2)
    else if first = '<'.toUInt8 then some (.lt, 1)
    else if first = '>'.toUInt8 ∧ second = some '='.toUInt8 then some (.ge, 2)
    else if first = '>'.toUInt8 then some (.gt, 1)
    else none

def parseComparisonOperator : Parse ComparisonOperator := do
  let start ← Method.read
  match comparisonOperatorAt (utf8 input)[start]? (utf8 input)[start + 1]? with
  | none => unexpected "comparison operator"
  | some (operator, length) =>
    Method.modify (· + length)
    if (← peek input).any isComparisonOperatorByte then
      Method.write start
      unexpected "comparison operator"
    else return operator

end

/-! ## Clauses -/

section
variable (input : String) (maxIdentifierBytes : Nat)

def keywordBeforeWord (keyword whitespace : String) : Parse Unit := do
  expectKeyword input keyword
  requireWhitespace input whitespace

/-- A byte with whitespace around it. -/
def byteBetween (byte : UInt8) (expected : String) : Parse Unit := do
  skipWhitespace input
  expectByte input byte expected
  skipWhitespace input

/-- `SELECT` where a statement begins. -/
def parseSelectKeyword : Parse Unit := do
  skipWhitespace input
  keywordBeforeWord input "SELECT" "whitespace after SELECT"

/-- `FROM` and the table, behind a word or a closing parenthesis. -/
def parseFromTable : Parse String := do
  requireWhitespace input "whitespace before FROM"
  keywordBeforeWord input "FROM" "whitespace after FROM"
  parseIdentifier input maxIdentifierBytes

def parseOptionalSemicolon : Parse Unit := do
  if (← peek input) = some ';'.toUInt8 then
    Method.modify (· + 1)
    skipWhitespace input

/-- Nothing may be left of the input. -/
def parseEnd : Parse Unit := do
  let position ← Method.read
  if position ≠ (utf8 input).length then Method.call (.error (.trailingInput position))

def parseTerminator : Parse Unit := do
  parseOptionalSemicolon input
  parseEnd input

def parseIfNotExists : Parse Bool := do
  if (← keywordAtPosition input "IF") && (← keywordFollowsCurrentWord input "NOT") then
    keywordBeforeWord input "IF" "whitespace after IF"
    keywordBeforeWord input "NOT" "whitespace after NOT"
    keywordBeforeWord input "EXISTS" "whitespace after EXISTS"
    return true
  else return false

/-- Whether a column of the type that is read is nullable. -/
def parseColumnType : Parse Bool := do
  if ← keywordAtPosition input "Nullable" then
    expectKeyword input "Nullable"
    byteBetween input '('.toUInt8 "'(' after Nullable"
    expectKeyword input "Int64"
    skipWhitespace input
    expectByte input ')'.toUInt8 "')' after Nullable(Int64)"
    return true
  else
    expectKeyword input "Int64"
    parseNullability input

def parseEngine : Parse Unit := do
  if ← keywordAtPosition input "ENGINE" then
    expectKeyword input "ENGINE"
    byteBetween input '='.toUInt8 "'='"
    expectKeyword input "Memory"
    skipWhitespace input

def parseComparison (columnName : String) : Parse ComparisonPredicate := do
  let operator ← parseComparisonOperator input
  skipWhitespace input
  let value ← parseWhereInt64 input
  return { columnName, operator, value }

def parseOptionalComparisonPredicate : Parse (Option ComparisonPredicate) := do
  if ← keywordAtPosition input "WHERE" then
    keywordBeforeWord input "WHERE" "whitespace after WHERE"
    let columnName ← parseIdentifier input maxIdentifierBytes
    skipWhitespace input
    let predicate ← parseComparison input columnName
    skipWhitespace input
    return some predicate
  else return none

def parseOptionalNot : Parse NullPredicate := do
  if ← keywordAtPosition input "NOT" then
    keywordBeforeWord input "NOT" "whitespace after NOT"
    return .isNotNull
  else return .isNull

def parsePredicateOn (columnName : String) : Parse SelectPredicate := do
  if ← keywordAtPosition input "IS" then
    keywordBeforeWord input "IS" "whitespace after IS"
    let predicate ← parseOptionalNot input
    expectKeyword input "NULL"
    return .nullness { columnName, predicate }
  else
    let predicate ← parseComparison input columnName
    return .comparison predicate

def parseOptionalPredicate : Parse (Option SelectPredicate) := do
  if ← keywordAtPosition input "WHERE" then
    keywordBeforeWord input "WHERE" "whitespace after WHERE"
    let columnName ← parseIdentifier input maxIdentifierBytes
    skipWhitespace input
    let predicate ← parsePredicateOn input columnName
    skipWhitespace input
    return some predicate
  else return none

/-- One of two keywords, each with what it stands for. -/
def parseEither {α : Type} (first second expected : String) (a b : α) : Parse α := do
  if ← keywordAtPosition input first then
    expectKeyword input first
    return a
  else if ← keywordAtPosition input second then
    expectKeyword input second
    return b
  else unexpected expected

def parseOptionalOrderBy : Parse (Option OrderByClause) := do
  if ← keywordAtPosition input "ORDER" then
    keywordBeforeWord input "ORDER" "whitespace after ORDER"
    keywordBeforeWord input "BY" "whitespace after BY"
    let columnName ← parseIdentifier input maxIdentifierBytes
    requireWhitespace input "whitespace before ASC or DESC"
    let direction ← parseEither input "ASC" "DESC" "ASC or DESC" OrderDirection.asc .desc
    requireWhitespace input "whitespace before NULLS"
    keywordBeforeWord input "NULLS" "whitespace after NULLS"
    let nullOrder ← parseEither input "FIRST" "LAST" "FIRST or LAST" NullOrder.first .last
    skipWhitespace input
    return some { columnName, direction, nullOrder }
  else return none

def parseOptionalLimit : Parse (Option Nat) := do
  if ← keywordAtPosition input "LIMIT" then
    keywordBeforeWord input "LIMIT" "whitespace after LIMIT"
    let limit ← parseLimit input
    skipWhitespace input
    return some limit
  else return none

/-- A column that is called `FROM` has to be followed by the keyword. -/
def parseProjectedColumn : Parse String := do
  if (← keywordAtPosition input "FROM") && !(← keywordFollowsCurrentWord input "FROM") then unexpected "identifier"
  else parseIdentifier input maxIdentifierBytes

/-- The argument of an aggregate in its parentheses. -/
def parseArgument {α : Type} (argument : Parse α) : Parse α := do
  byteBetween input '('.toUInt8 "'('"
  let a ← argument
  skipWhitespace input
  expectByte input ')'.toUInt8 "')'"
  return a

def parseCountArgument : Parse ScalarCountArgument := do
  if (← peek input) = some '*'.toUInt8 then
    Method.modify (· + 1)
    return .star
  else
    let columnName ← parseIdentifier input maxIdentifierBytes
    return .column columnName

end

/-! ## Statements -/

namespace Parser

section
variable (input : String) (maxIdentifierBytes : Nat)

def parseCreateTable : Parse CreateTableStatement := do
  skipWhitespace input
  keywordBeforeWord input "CREATE" "whitespace after CREATE"
  keywordBeforeWord input "TABLE" "whitespace after TABLE"
  let ifNotExists ← parseIfNotExists input
  let tableName ← parseIdentifier input maxIdentifierBytes
  byteBetween input '('.toUInt8 "'('"
  let columnName ← parseIdentifier input maxIdentifierBytes
  requireWhitespace input "whitespace before Int64 or Nullable(Int64)"
  let nullable ← parseColumnType input
  byteBetween input ')'.toUInt8 "')'"
  parseEngine input
  parseEnd input
  return { tableName, column := { name := columnName, dataType := .int64, nullable }, ifNotExists }

def parseInsert : Parse InsertStatement := do
  skipWhitespace input
  keywordBeforeWord input "INSERT" "whitespace after INSERT"
  keywordBeforeWord input "INTO" "whitespace after INTO"
  let tableName ← parseIdentifier input maxIdentifierBytes
  requireWhitespace input "whitespace before VALUES"
  expectKeyword input "VALUES"
  byteBetween input '('.toUInt8 "'('"
  let value ← parseInt64Value input
  skipWhitespace input
  let position ← Method.read
  match ← peek input with
  | none => unexpected "')'"
  | some byte =>
    if byte ≠ ')'.toUInt8 then Method.call (.error (.invalidInt64 position))
    else
      Method.modify (· + 1)
      skipWhitespace input
      let position ← Method.read
      if (← peek input) = some ','.toUInt8 then Method.call (.error (.extraRows position))
      else
        parseEnd input
        return { tableName, value }

def parseSelect : Parse SelectStatement := do
  parseSelectKeyword input
  let columnName ← parseProjectedColumn input maxIdentifierBytes
  let tableName ← parseFromTable input maxIdentifierBytes
  skipWhitespace input
  let predicate ← parseOptionalPredicate input maxIdentifierBytes
  let orderBy ← parseOptionalOrderBy input maxIdentifierBytes
  let limit ← parseOptionalLimit input
  if orderBy.isSome ∧ limit.isNone then unexpected "LIMIT"
  else
    parseTerminator input
    return { columnName, tableName, predicate, orderBy, limit }

def parseJoin (keyword whitespaceBefore whitespaceAfter : String) : Parse JoinStatement := do
  parseSelectKeyword input
  let projectedColumnName ← parseIdentifier input maxIdentifierBytes
  let leftTableName ← parseFromTable input maxIdentifierBytes
  requireWhitespace input whitespaceBefore
  keywordBeforeWord input keyword whitespaceAfter
  keywordBeforeWord input "JOIN" "whitespace after JOIN"
  let rightTableName ← parseIdentifier input maxIdentifierBytes
  requireWhitespace input "whitespace before ON"
  keywordBeforeWord input "ON" "whitespace after ON"
  let leftColumnName ← parseIdentifier input maxIdentifierBytes
  byteBetween input '='.toUInt8 "'='"
  let rightColumnName ← parseIdentifier input maxIdentifierBytes
  skipWhitespace input
  parseTerminator input
  return { projectedColumnName, leftTableName, rightTableName, leftColumnName, rightColumnName }

def parseInnerJoin : Parse JoinStatement :=
  parseJoin input maxIdentifierBytes "INNER" "whitespace before INNER" "whitespace after INNER"

def parseLeftJoin : Parse JoinStatement :=
  parseJoin input maxIdentifierBytes "LEFT" "whitespace before LEFT" "whitespace after LEFT"

def parseScalarCount : Parse ScalarCountStatement := do
  parseSelectKeyword input
  expectKeyword input "COUNT"
  let argument ← parseArgument input (parseCountArgument input maxIdentifierBytes)
  let tableName ← parseFromTable input maxIdentifierBytes
  skipWhitespace input
  let predicate ← parseOptionalComparisonPredicate input maxIdentifierBytes
  parseTerminator input
  return { argument, tableName, predicate }

def parseScalarSum : Parse ScalarSumStatement := do
  parseSelectKeyword input
  expectKeyword input "SUM"
  let columnName ← parseArgument input (parseIdentifier input maxIdentifierBytes)
  let tableName ← parseFromTable input maxIdentifierBytes
  skipWhitespace input
  let predicate ← parseOptionalComparisonPredicate input maxIdentifierBytes
  parseTerminator input
  return { columnName, tableName, predicate }

def parseScalarMin : Parse ScalarMinStatement := do
  parseSelectKeyword input
  expectKeyword input "MIN"
  let columnName ← parseArgument input (parseIdentifier input maxIdentifierBytes)
  let tableName ← parseFromTable input maxIdentifierBytes
  skipWhitespace input
  parseTerminator input
  return { columnName, tableName }

def parseSelectDistinct : Parse SelectDistinctStatement := do
  parseSelectKeyword input
  keywordBeforeWord input "DISTINCT" "whitespace after DISTINCT"
  let columnName ← parseProjectedColumn input maxIdentifierBytes
  let tableName ← parseFromTable input maxIdentifierBytes
  skipWhitespace input
  parseTerminator input
  return { columnName, tableName }

end

end Parser

def validateStatementLength (input : String) (limits : ParseLimits) : Exec ParseError Unit :=
  rejectIf ((utf8 input).length > limits.maxStatementBytes) (.statementTooLong (utf8 input).length limits.maxStatementBytes)

/-- A parser from the first byte, on a statement within the bound. -/
def parseWith {α : Type} (parser : String → Nat → Parse α) (input : String) (limits : ParseLimits) : Exec ParseError α := do
  validateStatementLength input limits
  match parser input limits.maxIdentifierBytes 0 with
  | none => .panic
  | some (.ok statement, _) => .ok statement
  | some (.error e, _) => .error e

def parseCreateTable : String → ParseLimits → Exec ParseError CreateTableStatement := parseWith Parser.parseCreateTable

def parseInsert : String → ParseLimits → Exec ParseError InsertStatement := parseWith Parser.parseInsert

def parseSelect : String → ParseLimits → Exec ParseError SelectStatement := parseWith Parser.parseSelect

def parseInnerJoin : String → ParseLimits → Exec ParseError JoinStatement := parseWith Parser.parseInnerJoin

def parseLeftJoin : String → ParseLimits → Exec ParseError JoinStatement := parseWith Parser.parseLeftJoin

def parseScalarCount : String → ParseLimits → Exec ParseError ScalarCountStatement := parseWith Parser.parseScalarCount

def parseScalarSum : String → ParseLimits → Exec ParseError ScalarSumStatement := parseWith Parser.parseScalarSum

def parseScalarMin : String → ParseLimits → Exec ParseError ScalarMinStatement := parseWith Parser.parseScalarMin

def parseSelectDistinct : String → ParseLimits → Exec ParseError SelectDistinctStatement := parseWith Parser.parseSelectDistinct

end RustHouse.OneColumn
