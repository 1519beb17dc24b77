import RustHouse.Predicate

/-!
# SQL statements

What the parser of the batch engine returns. The atoms of a `WHERE` tree are
those of the predicates that the engine compiles.
-/

namespace RustHouse.Batch

def defaultMaxBatchStatements : Nat := 4096

def defaultMaxInsertRows : Nat := 100000

def defaultMaxInsertValues : Nat := 1000000

def defaultMaxAstListItems : Nat := 100000

/-- Allocation limits applied while a batch is parsed. -/
structure BatchSqlLimits where
  maxStatements : Nat
  maxInsertRows : Nat
  maxInsertValues : Nat
  maxAstListItems : Nat
  deriving DecidableEq, Repr

def BatchSqlLimits.default : BatchSqlLimits :=
  ⟨defaultMaxBatchStatements, defaultMaxInsertRows, defaultMaxInsertValues, defaultMaxAstListItems⟩

/-! ## Parts of queries -/

inductive AggregateFunction where
  | count | countIf | sum | min | max | avg
  deriving DecidableEq, Repr

inductive AggregateArgument where
  | empty
  | wildcard
  | column (name : String)
  deriving DecidableEq, Repr

structure OrderBy where
  name : String
  descending : Bool
  deriving DecidableEq, Repr

inductive SelectItem where
  | wildcard
  | column (name : String) (aliasName : Option String)
  | int64Subtract (name : String) (literal : Int64) (aliasName : Option String)
  | ifNullInt64 (name : String) (fallback : Int64) (aliasName : Option String)
  | isNull (name : String) (aliasName : Option String)
  | isNotNull (name : String) (aliasName : Option String)
  | cast (name : String) (targetType : DataType) (aliasName : Option String)
  | toString (name : String) (aliasName : Option String)
  | length (name : String) (aliasName : Option String)
  | lengthUtf8 (name : String) (aliasName : Option String)
  | empty (name : String) (aliasName : Option String)
  | lower (name : String) (aliasName : Option String)
  | upper (name : String) (aliasName : Option String)
  | abs (name : String) (aliasName : Option String)
  | round (name : String) (aliasName : Option String)
  | floor (name : String) (aliasName : Option String)
  | ceil (name : String) (aliasName : Option String)
  | rowNumber (orderBy : Option OrderBy) (aliasName : Option String)
  | aggregate (function : AggregateFunction) (argument : AggregateArgument) (aliasName : Option String)
  deriving DecidableEq

inductive HavingPredicate where
  | comparison (operator : ComparisonOperator) (value : Value)
  | isNull
  | isNotNull
  deriving DecidableEq

structure Having where
  aliasName : String
  predicate : HavingPredicate
  deriving DecidableEq

structure Select where
  distinct : Bool
  items : List SelectItem
  table : String
  predicate : Option Predicate
  groupBy : List String
  having : Option Having
  orderBy : List OrderBy
  limit : Option Nat
  offset : Option Nat
  deriving DecidableEq

/-- `SELECT * FROM <left> CROSS JOIN <right> [LIMIT n]`. -/
structure CrossJoin where
  leftTable : String
  rightTable : String
  limit : Option Nat
  deriving DecidableEq

/-- A numeric or Boolean literal of `ALTER TABLE UPDATE`. -/
inductive AlterUpdateLiteral where
  | int64 (value : Int64)
  | float64 (value : F64)
  | bool (value : Bool)
  deriving DecidableEq

inductive AlterUpdateValue where
  | literal (value : AlterUpdateLiteral)
  | string (value : String)
  | null
  deriving DecidableEq

/-- One comparison of a column in a `DELETE`. -/
structure DeleteComparisonPredicate where
  column : String
  operator : ComparisonOperator
  literal : Value
  deriving DecidableEq

/-! ## Statements -/

inductive Statement where
  | createTable (name : String) (columns : List ColumnDef)
  | createTableIfNotExists (name : String) (columns : List ColumnDef)
  | createNullableInt64Table (name column : String)
  | createNullableInt64TableIfNotExists (name column : String)
  | createTableWithTrailingNullableInt64 (name : String) (columns : List ColumnDef) (nullableColumn : String)
  | createTableWithTrailingNullableInt64IfNotExists (name : String) (columns : List ColumnDef)
      (nullableColumn : String)
  | createTableWithTwoTrailingNullableInt64 (name : String) (columns : List ColumnDef)
      (nullableColumns : String × String)
  | createTableWithTwoTrailingNullableInt64IfNotExists (name : String) (columns : List ColumnDef)
      (nullableColumns : String × String)
  | dropTable (name : String)
  | dropTableIfExists (name : String)
  | renameTable (source destination : String)
  | renameColumn (table source destination : String)
  | addColumn (table : String) (column : ColumnDef)
  | addColumnIfNotExists (table : String) (column : ColumnDef)
  | addNullableInt64Column (table column : String)
  | addNullableInt64ColumnIfNotExists (table column : String)
  | dropColumn (table column : String)
  | alterUpdate (table targetColumn : String) (value : Int64) (predicateColumn : String) (predicateValue : Int64)
  | alterUpdateTyped (table targetColumn : String) (value : AlterUpdateLiteral) (predicateColumn : String)
      (predicateValue : AlterUpdateLiteral)
  | alterUpdateOwned (table targetColumn : String) (value : AlterUpdateValue) (predicateColumn : String)
      (predicateValue : AlterUpdateValue)
  | truncateTable (name : String)
  | delete (table column : String) (literal : Value)
  | deleteComparison (table column : String) (operator : ComparisonOperator) (literal : Value)
  | deleteConjunction (table : String) (first second : DeleteComparisonPredicate)
  | deleteNullness (table column : String) (isNull : Bool)
  | insert (table : String) (rows : List (List Value))
  | insertWithColumns (table : String) (columns : List String) (rows : List (List Value))
  | literalSelect (value : Value) (aliasName : Option String)
  | versionSelect (aliasName : Option String)
  | currentDatabaseSelect (aliasName : Option String)
  | systemDatabases
  | systemTables
  | systemColumns
  | systemMetrics
  | systemSettings
  | systemFunctions
  | select (select : Select)
  | crossJoin (join : CrossJoin)
  | unionAll (left right : Select)
  | unionDistinct (left right : Select)
  | showDatabases
  | showSettings
  | showFunctions
  | showTables
  | showCreateTable (name : String)
  | describeTable (name : String)
  | existsTable (name : String)

/-! ## Names of expressions -/

def int64SubtractionName (column : String) (literal : Int64) : String := s!"{column} - {literal.toInt}"

def ifNullInt64Name (column : String) (fallback : Int64) : String := s!"ifNull({column}, {fallback.toInt})"

def isNullName (column : String) : String := s!"isNull({column})"

def isNotNullName (column : String) : String := s!"isNotNull({column})"

end RustHouse.Batch
