import Mathlib.Algebra.GroupWithZero.Nat
import RustHouse.Exec
import RustHouse.Value

/-!
# Typed columns

A physical column is one vector of one type. Its mutations report by how many
bytes they change the values it retains.
-/

namespace RustHouse.Batch

open Checked Exec Words

/-- A physical column: one vector of one type. -/
inductive Column where
  | int64 (values : List Int64)
  | nullableInt64 (values : List (Option Int64))
  | float64 (values : List F64)
  | bool (values : List Bool)
  | string (values : List String)
  deriving DecidableEq

def compactDeletedRows {α : Type} (rowIndexes : List Nat) (sourceRow deletionPosition : Nat) : List α → List α
  | [] => []
  | value :: values =>
    if rowIndexes[deletionPosition]? = some sourceRow then
      compactDeletedRows rowIndexes (sourceRow + 1) (deletionPosition + 1) values
    else value :: compactDeletedRows rowIndexes (sourceRow + 1) deletionPosition values

/-- `values[rowIndex] = value`. -/
def setIndex {α : Type} (values : List α) (rowIndex : Nat) (value : α) : Option (List α) :=
  if rowIndex < values.length then some (values.set rowIndex value) else none

/-- The UTF-8 length of a string. -/
def stringLen (s : String) : Nat := (utf8 s).length

namespace Column

def new : DataType → Column
  | .int64 => .int64 []
  | .float64 => .float64 []
  | .bool => .bool []
  | .string => .string []

def dataType : Column → DataType
  | int64 _ | nullableInt64 _ => .int64
  | float64 _ => .float64
  | bool _ => .bool
  | string _ => .string

def len : Column → Nat
  | int64 values => values.length
  | nullableInt64 values => values.length
  | float64 values => values.length
  | bool values => values.length
  | string values => values.length

def retainedValueBytesExact : Column → Nat
  | int64 values => values.length * 8
  | nullableInt64 values => values.length * 9
  | float64 values => values.length * 8
  | bool values => values.length
  | string values => (values.map stringLen).sum

def isNullableInt64 : Column → Bool
  | nullableInt64 _ => true
  | _ => false

/-- The column with a value at its end, and the bytes added; a value of another type is unreachable. -/
def push : Column → Value → Option (Column × Nat)
  | int64 values, .int64 value => some (int64 (values ++ [value]), 8)
  | nullableInt64 values, .int64 value => some (nullableInt64 (values ++ [some value]), 9)
  | nullableInt64 values, .null .int64 => some (nullableInt64 (values ++ [none]), 9)
  | float64 values, .float64 value => some (float64 (values ++ [value]), 8)
  | bool values, .bool value => some (bool (values ++ [value]), 1)
  | string values, .string value => some (string (values ++ [value]), stringLen value)
  | _, _ => none

def clear : Column → Column
  | int64 _ => int64 []
  | nullableInt64 _ => nullableInt64 []
  | float64 _ => float64 []
  | bool _ => bool []
  | string _ => string []

def deletedValueBytes (rowIndexes : List Nat) : Column → Option Nat
  | int64 _ | float64 _ => some (rowIndexes.length * 8)
  | nullableInt64 _ => some (rowIndexes.length * 9)
  | bool _ => some rowIndexes.length
  | string values => (rowIndexes.mapM fun rowIndex => values[rowIndex]?.map stringLen).map List.sum

/-- The column without the rows at the given indexes, and the bytes removed; an index outside it panics. -/
def deleteRows (rowIndexes : List Nat) (column : Column) : Option (Column × Nat) := do
  let deletedValueBytes ← column.deletedValueBytes rowIndexes
  let column := match column with
    | int64 values => int64 (compactDeletedRows rowIndexes 0 0 values)
    | nullableInt64 values => nullableInt64 (compactDeletedRows rowIndexes 0 0 values)
    | float64 values => float64 (compactDeletedRows rowIndexes 0 0 values)
    | bool values => bool (compactDeletedRows rowIndexes 0 0 values)
    | string values => string (compactDeletedRows rowIndexes 0 0 values)
  some (column, deletedValueBytes)

/-- The column with one value replaced, and the bytes removed and added beyond the fixed width. -/
def replaceValue (rowIndex : Nat) : Column → Value → Option (Column × Nat × Nat)
  | int64 values, .int64 value => do some (int64 (← setIndex values rowIndex value), 0, 0)
  | nullableInt64 values, .int64 value => do some (nullableInt64 (← setIndex values rowIndex (some value)), 0, 0)
  | nullableInt64 values, .null .int64 => do some (nullableInt64 (← setIndex values rowIndex none), 0, 0)
  | float64 values, .float64 value => do some (float64 (← setIndex values rowIndex value), 0, 0)
  | bool values, .bool value => do some (bool (← setIndex values rowIndex value), 0, 0)
  | string values, .string value => do
    let previous ← values[rowIndex]?
    some (string (← setIndex values rowIndex value), stringLen previous, stringLen value)
  | _, _ => none

def replaceValues (column : Column) (removed added : Nat) : List (Nat × Value) → Option (Column × Nat × Nat)
  | [] => some (column, removed, added)
  | (rowIndex, value) :: replacements => do
    let (column, removedHere, addedHere) ← column.replaceValue rowIndex value
    column.replaceValues (removed + removedHere) (added + addedHere) replacements

end Column

/-! ## Row selections -/

def validateRowSelectionFrom (inputRows : Nat) : (position : Nat) → (previous : Option Nat) → List Nat → Exec Error Unit
  | _, _, [] => .ok ()
  | position, previous, rowIndex :: rowIndexes => do
    rejectIf (rowIndex ≥ inputRows) (.selectionIndexOutOfBounds position rowIndex inputRows)
    match previous with
    | some previousRowIndex =>
      rejectIf (rowIndex ≤ previousRowIndex) (.selectionNotStrictlyIncreasing position previousRowIndex rowIndex)
    | none => .ok ()
    validateRowSelectionFrom inputRows (position + 1) (some rowIndex) rowIndexes

def validateRowSelection (rowIndexes : List Nat) (inputRows : Nat) : Exec Error Unit :=
  validateRowSelectionFrom inputRows 0 none rowIndexes

end RustHouse.Batch
