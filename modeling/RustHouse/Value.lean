import RustHouse.Registry

/-!
# Batch values

The scalar values of the batch engine, and the errors of its storage, parsers
and queries. A `Float64` is its bit pattern.
-/

namespace RustHouse.Batch

open Words

inductive DataType where
  | int64 | float64 | bool | string
  deriving DecidableEq, Repr

def DataType.asStr : DataType → String
  | int64 => "Int64"
  | float64 => "Float64"
  | bool => "Bool"
  | string => "String"

/-- A 64-bit floating-point number, by its bits. -/
structure F64 where
  bits : UInt64
  deriving DecidableEq, Repr

def F64.isFinite (x : F64) : Bool := (x.bits >>> 52) &&& 0x7ff != 0x7ff

def F64.zero : F64 := ⟨0⟩

inductive Value where
  | null (dataType : DataType)
  | int64 (value : Int64)
  | float64 (value : F64)
  | bool (value : Bool)
  | string (value : String)
  deriving DecidableEq

def Value.dataType : Value → DataType
  | null dataType => dataType
  | int64 _ => .int64
  | float64 _ => .float64
  | bool _ => .bool
  | string _ => .string

inductive Error where
  | sql (position : Nat) (message : String)
  | tableAlreadyExists (table : String)
  | tableNotFound (table : String)
  | duplicateColumn (column : String)
  | reservedIdentifier (identifier context : String)
  | invalidIdentifier (identifier context : String)
  | columnNotFound (table column : String)
  | missingInsertColumn (table column : String)
  | rowLength (table : String) (expected actual : Nat)
  | selectionIndexOutOfBounds (selectionPosition rowIndex inputRows : Nat)
  | selectionNotStrictlyIncreasing (selectionPosition previousRowIndex rowIndex : Nat)
  | typeMismatch (context expected actual : String)
  | invalidCast (sourceType targetType : DataType)
  | unionColumnCountMismatch (left right : Nat)
  | unionDistinctColumnCountMismatch (left right : Nat)
  | unsupportedNullableOperation (table column operation : String)
  | invalidQuery (message : String)
  | numericOverflow (operation : String)
  | insertOnlyStatementRequired (statement : String)
  | statementLimitExceeded (statements maxStatements : Nat)
  | resultLimitExceeded (bytes maxBytes : Nat)
  | resourceLimitExceeded (resource : String) (actual max : Nat)
  | writeAheadLog (error : Int64WriteAheadLogCommitError)
  deriving DecidableEq, Repr

end RustHouse.Batch
