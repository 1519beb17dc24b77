import RustHouse.Decimal
import RustHouse.OneColumnParser

/-!
# The grammar of one-column statements

A statement is a sequence of lexemes with whitespace between them. The grammar gives
the sequences that stand for a syntax tree, clause by clause. No keyword is reserved,
so that a word can be an identifier wherever one may stand.
-/

namespace RustHouse.OneColumn

open Scanning Words
open Batch (eqIgnoreAsciiCase)
open Checked (usizeMax)

/-! ## Lexemes -/

def isBlank (c : Char) : Bool := c = ' ' || c = '\t' || c = '\n' || c = '\x0C' || c = '\r'

/-- `[A-Za-z_]`. -/
def isWordStart (c : Char) : Bool := c.isAlpha || c = '_'

/-- `[A-Za-z0-9_]`. -/
def isWordChar (c : Char) : Bool := c.isAlpha || c.isDigit || c = '_'

/-- `[A-Za-z_][A-Za-z0-9_]*`. -/
structure Word where
  head : Char
  tail : List Char
  starts : isWordStart head = true
  continues : ∀ c ∈ tail, isWordChar c = true

def Word.chars (w : Word) : List Char := w.head :: w.tail

def Word.text (w : Word) : String := .ofList w.chars

inductive Symbol where
  | leftParen | rightParen | star | semicolon | eq | bangEq | ltGt | lt | le | gt | ge
  deriving DecidableEq, Repr

def Symbol.chars : Symbol → List Char
  | leftParen => ['(']
  | rightParen => [')']
  | star => ['*']
  | semicolon => [';']
  | eq => ['=']
  | bangEq => ['!', '=']
  | ltGt => ['<', '>']
  | lt => ['<']
  | le => ['<', '=']
  | gt => ['>']
  | ge => ['>', '=']

inductive Lexeme where
  | word (w : Word)
  | number (n : Decimal.Numeral)
  | symbol (s : Symbol)

def Lexeme.chars : Lexeme → List Char
  | word w => w.chars
  | number n => n.chars
  | symbol s => s.chars

/-! ## Spacing -/

/-- What is in front of a lexeme, as far as whitespace may be required between the two. -/
inductive Edge where
  | free | word | paren
  deriving DecidableEq, Repr

def Lexeme.edge : Lexeme → Edge
  | word _ | number _ => .word
  | symbol s => if s = .rightParen then .paren else .free

/-- Between two words or numbers, and between a closing parenthesis and `FROM`. -/
def Edge.NeedsGap : Edge → Lexeme → Prop
  | free, _ => False
  | word, .symbol _ => False
  | word, _ => True
  | paren, .word w => eqIgnoreAsciiCase w.text "FROM" = true
  | paren, _ => False

def Blank (gap : List Char) : Prop := ∀ c ∈ gap, isBlank c = true

/-- A text of the lexemes behind an edge, with whitespace wherever it is wanted. -/
def Written : Edge → List Lexeme → List Char → Prop
  | _, [], text => Blank text
  | edge, l :: ls, text =>
    ∃ gap rest, text = gap ++ (l.chars ++ rest) ∧ Blank gap ∧ (edge.NeedsGap l → gap ≠ []) ∧ Written l.edge ls rest

def Sentence (l : Language Lexeme) (input : String) : Prop := ∃ lexemes ∈ l, Written .free lexemes input.toList

/-! ## Terminals -/

/-- A keyword in any letter case. -/
def keyword (expected : String) : Language Lexeme :=
  {ls | ∃ w : Word, eqIgnoreAsciiCase w.text expected = true ∧ ls = [.word w]}

def identifier (maxIdentifierBytes : Nat) (name : String) : Language Lexeme :=
  {ls | ∃ w : Word, w.text = name ∧ (utf8 name).length ≤ maxIdentifierBytes ∧ ls = [.word w]}

def mark (s : Symbol) : Language Lexeme := {[.symbol s]}

def int64 (value : Int64) : Language Lexeme := {ls | ∃ n : Decimal.Numeral, n.value = value.toInt ∧ ls = [.number n]}

def unsignedInteger (value : Nat) : Language Lexeme :=
  {ls | ∃ n : Decimal.Numeral, n.sign = none ∧ n.value = value ∧ value ≤ usizeMax ∧ ls = [.number n]}

def comparisonOperator : ComparisonOperator → Language Lexeme
  | .eq => mark .eq
  | .ne => mark .bangEq + mark .ltGt
  | .lt => mark .lt
  | .le => mark .le
  | .gt => mark .gt
  | .ge => mark .ge

/-! ## Clauses -/

section
variable (maxIdentifierBytes : Nat)

/-- `[IF NOT EXISTS]`. -/
def ifNotExistsSyntax : Bool → Language Lexeme
  | true => keyword "IF" * keyword "NOT" * keyword "EXISTS"
  | false => 1

/-- `Int64 [NULL | NOT NULL] | Nullable(Int64)`. -/
def columnTypeSyntax : Bool → Language Lexeme
  | true => keyword "Int64" * opt (keyword "NULL") +
      keyword "Nullable" * mark .leftParen * keyword "Int64" * mark .rightParen
  | false => keyword "Int64" * keyword "NOT" * keyword "NULL"

/-- `Int64 | NULL`. -/
def valueSyntax : Option Int64 → Language Lexeme
  | some value => int64 value
  | none => keyword "NULL"

/-- `FROM identifier`. -/
def fromSyntax (tableName : String) : Language Lexeme := keyword "FROM" * identifier maxIdentifierBytes tableName

/-- `identifier (= | != | <> | < | <= | > | >=) Int64`. -/
def comparisonSyntax (predicate : ComparisonPredicate) : Language Lexeme :=
  identifier maxIdentifierBytes predicate.columnName * comparisonOperator predicate.operator * int64 predicate.value

def notSyntax : NullPredicate → Language Lexeme
  | .isNull => 1
  | .isNotNull => keyword "NOT"

/-- `identifier IS [NOT] NULL`. -/
def nullnessSyntax (predicate : NullnessPredicate) : Language Lexeme :=
  identifier maxIdentifierBytes predicate.columnName * keyword "IS" * notSyntax predicate.predicate * keyword "NULL"

def predicateSyntax : SelectPredicate → Language Lexeme
  | .comparison predicate => comparisonSyntax maxIdentifierBytes predicate
  | .nullness predicate => nullnessSyntax maxIdentifierBytes predicate

/-- `[WHERE ...]`. -/
def whereSyntax {α : Type} (syntaxOf : α → Language Lexeme) : Option α → Language Lexeme
  | none => 1
  | some predicate => keyword "WHERE" * syntaxOf predicate

def directionSyntax : OrderDirection → Language Lexeme
  | .asc => keyword "ASC"
  | .desc => keyword "DESC"

def nullOrderSyntax : NullOrder → Language Lexeme
  | .first => keyword "FIRST"
  | .last => keyword "LAST"

/-- `[ORDER BY identifier (ASC | DESC) NULLS (FIRST | LAST)]`. -/
def orderBySyntax : Option OrderByClause → Language Lexeme
  | none => 1
  | some orderBy => keyword "ORDER" * keyword "BY" * identifier maxIdentifierBytes orderBy.columnName *
      directionSyntax orderBy.direction * keyword "NULLS" * nullOrderSyntax orderBy.nullOrder

/-- `[LIMIT unsigned-integer]`. -/
def limitSyntax : Option Nat → Language Lexeme
  | none => 1
  | some limit => keyword "LIMIT" * unsignedInteger limit

/-- `* | identifier`. -/
def countArgumentSyntax : ScalarCountArgument → Language Lexeme
  | .star => mark .star
  | .column columnName => identifier maxIdentifierBytes columnName

def parenthesized (argument : Language Lexeme) : Language Lexeme := mark .leftParen * argument * mark .rightParen

def optionalSemicolon : Language Lexeme := opt (mark .semicolon)

/-! ## Statements -/

/-- `CREATE TABLE [IF NOT EXISTS] identifier (identifier type) [ENGINE = Memory]`. -/
def createTableSyntax (s : CreateTableStatement) : Language Lexeme :=
  keyword "CREATE" * keyword "TABLE" * ifNotExistsSyntax s.ifNotExists * identifier maxIdentifierBytes s.tableName *
    mark .leftParen * identifier maxIdentifierBytes s.column.name * columnTypeSyntax s.column.nullable *
      mark .rightParen * opt (keyword "ENGINE" * mark .eq * keyword "Memory")

/-- `INSERT INTO identifier VALUES (Int64 | NULL)`. -/
def insertSyntax (s : InsertStatement) : Language Lexeme :=
  keyword "INSERT" * keyword "INTO" * identifier maxIdentifierBytes s.tableName * keyword "VALUES" *
    parenthesized (valueSyntax s.value)

/-- `SELECT identifier FROM identifier [WHERE ...] [ORDER BY ...] [LIMIT ...] [;]`, where an order needs a limit. -/
def selectSyntax (s : SelectStatement) : Language Lexeme :=
  {ls | (s.orderBy.isSome → s.limit.isSome) ∧ ls ∈ keyword "SELECT" * identifier maxIdentifierBytes s.columnName *
    fromSyntax maxIdentifierBytes s.tableName * whereSyntax (predicateSyntax maxIdentifierBytes) s.predicate *
      orderBySyntax maxIdentifierBytes s.orderBy * limitSyntax s.limit * optionalSemicolon}

/-- `SELECT identifier FROM identifier ... JOIN identifier ON identifier = identifier [;]`. -/
def joinSyntax (kind : String) (s : JoinStatement) : Language Lexeme :=
  keyword "SELECT" * identifier maxIdentifierBytes s.projectedColumnName * fromSyntax maxIdentifierBytes s.leftTableName *
    keyword kind * keyword "JOIN" * identifier maxIdentifierBytes s.rightTableName * keyword "ON" *
      identifier maxIdentifierBytes s.leftColumnName * mark .eq * identifier maxIdentifierBytes s.rightColumnName *
        optionalSemicolon

/-- `SELECT COUNT(* | identifier) FROM identifier [WHERE ...] [;]`. -/
def scalarCountSyntax (s : ScalarCountStatement) : Language Lexeme :=
  keyword "SELECT" * keyword "COUNT" * parenthesized (countArgumentSyntax maxIdentifierBytes s.argument) *
    fromSyntax maxIdentifierBytes s.tableName * whereSyntax (comparisonSyntax maxIdentifierBytes) s.predicate *
      optionalSemicolon

/-- `SELECT SUM(identifier) FROM identifier [WHERE ...] [;]`. -/
def scalarSumSyntax (s : ScalarSumStatement) : Language Lexeme :=
  keyword "SELECT" * keyword "SUM" * parenthesized (identifier maxIdentifierBytes s.columnName) *
    fromSyntax maxIdentifierBytes s.tableName * whereSyntax (comparisonSyntax maxIdentifierBytes) s.predicate *
      optionalSemicolon

/-- `SELECT MIN(identifier) FROM identifier [;]`. -/
def scalarMinSyntax (s : ScalarMinStatement) : Language Lexeme :=
  keyword "SELECT" * keyword "MIN" * parenthesized (identifier maxIdentifierBytes s.columnName) *
    fromSyntax maxIdentifierBytes s.tableName * optionalSemicolon

/-- `SELECT DISTINCT identifier FROM identifier [;]`. -/
def selectDistinctSyntax (s : SelectDistinctStatement) : Language Lexeme :=
  keyword "SELECT" * keyword "DISTINCT" * identifier maxIdentifierBytes s.columnName *
    fromSyntax maxIdentifierBytes s.tableName * optionalSemicolon

end

/-! ## Trees that stand in a statement -/

def IsIdentifier (maxIdentifierBytes : Nat) (name : String) : Prop :=
  (∃ w : Word, w.text = name) ∧ (utf8 name).length ≤ maxIdentifierBytes

section
variable (maxIdentifierBytes : Nat)

/-- The names are identifiers within the bound. -/
def Named (names : List String) : Prop := ∀ name ∈ names, IsIdentifier maxIdentifierBytes name

def CreateTableStatement.WellFormed (s : CreateTableStatement) : Prop := Named maxIdentifierBytes [s.tableName, s.column.name]

def InsertStatement.WellFormed (s : InsertStatement) : Prop := Named maxIdentifierBytes [s.tableName]

def SelectStatement.WellFormed (s : SelectStatement) : Prop :=
  Named maxIdentifierBytes ([s.columnName, s.tableName] ++ (s.predicate.map (·.columnName)).toList ++
    (s.orderBy.map (·.columnName)).toList) ∧
  (s.orderBy.isSome → s.limit.isSome) ∧ ∀ limit ∈ s.limit, limit ≤ usizeMax

def JoinStatement.WellFormed (s : JoinStatement) : Prop :=
  Named maxIdentifierBytes
    [s.projectedColumnName, s.leftTableName, s.rightTableName, s.leftColumnName, s.rightColumnName]

def ScalarCountStatement.WellFormed (s : ScalarCountStatement) : Prop :=
  Named maxIdentifierBytes (s.argument.columnName.toList ++ [s.tableName] ++ (s.predicate.map (·.columnName)).toList)

def ScalarSumStatement.WellFormed (s : ScalarSumStatement) : Prop :=
  Named maxIdentifierBytes ([s.columnName, s.tableName] ++ (s.predicate.map (·.columnName)).toList)

def ScalarMinStatement.WellFormed (s : ScalarMinStatement) : Prop := Named maxIdentifierBytes [s.columnName, s.tableName]

def SelectDistinctStatement.WellFormed (s : SelectDistinctStatement) : Prop :=
  Named maxIdentifierBytes [s.columnName, s.tableName]

end

end RustHouse.OneColumn
