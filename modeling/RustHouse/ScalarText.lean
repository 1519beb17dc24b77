import RustHouse.Delimited
import RustHouse.Snapshot
import RustHouse.TableMutations

/-!
# Scalars as text

How values are written in the text formats, and what ingestion reads back. The
text of floating-point numbers is that of the language's library, a parameter here.
-/

namespace RustHouse.Batch

open Delimited Exec Words

/-- How the library writes and reads floating-point numbers. -/
structure FloatText where
  toText : F64 → String
  parse : String → Option F64

/-! ## Writing -/

section
variable (float : FloatText)

def formatFloat (value : F64) : String :=
  let rendered := float.toText value
  if value.isFinite ∧ ¬ rendered.toList.any fun c => c = '.' || c = 'e' || c = 'E' then rendered ++ ".0" else rendered

def Value.asDisplayString : Value → String
  | null _ => "NULL"
  | int64 value => toString value.toInt
  | float64 value => formatFloat float value
  | bool value => if value then "true" else "false"
  | string value => value

/-! ## Reading -/

/-- Whether a number is negative, and its digits. -/
def splitSign : List Char → Bool × List Char
  | [] => (false, [])
  | c :: digits => if c = '-' then (true, digits) else if c = '+' then (false, digits) else (false, c :: digits)

/-- `field.parse::<i64>()`: digits behind an optional sign, of a number within the range. -/
def parseInt64 (field : List Char) : Option Int64 :=
  let (negative, digits) := splitSign field
  if digits = [] ∨ ¬ digits.all Char.isDigit then none
  else
    let magnitude : Int := Nat.ofDigitChars 10 digits 0
    let value := if negative then -magnitude else magnitude
    if Int64.minValue.toInt ≤ value ∧ value ≤ Int64.maxValue.toInt then some (Int64.ofInt value) else none

/-- `field.parse::<bool>()`. -/
def parseBool (field : List Char) : Option Bool :=
  if field = "true".toList then some true else if field = "false".toList then some false else none

def parseScalar (field : List Char) : DataType → Option Value
  | .int64 => (parseInt64 field).map .int64
  | .float64 => do
    let value ← float.parse (.ofList field)
    if value.isFinite then some (.float64 value) else none
  | .bool => (parseBool field).map .bool
  | .string => some (.string (.ofList field))

end

/-- A marked field is NULL in a nullable column; a column that there is not panics. -/
def marksNull {ε : Type} (t : Table) (schemaIndex : Nat) (marked : Bool) : Exec ε Bool :=
  if marked then orPanic (t.columns[schemaIndex]?.map Column.isNullableInt64) else .ok false

/-- The values of the fields of one record, each for its column; columns count from one. -/
def parseFields {ε φ : Type} (parseField : Nat → φ → Nat → Exec ε Value) (schemaIndexes : List Nat) (offset : Nat) :
    List φ → Exec ε (List Value)
  | [] => .ok []
  | field :: fields => do
    let schemaIndex ← orPanic schemaIndexes[offset]?
    let value ← parseField schemaIndex field (offset + 1)
    let row ← parseFields parseField schemaIndexes (offset + 1) fields
    .ok (value :: row)

/-! ## Headers -/

/-- How a format reports what is wrong with a field of its header. -/
structure HeaderErrors (ε : Type) where
  mismatch (column : Nat) (expected : String) : ε
  unknown (column : Nat) (name : String) : ε
  duplicate (column : Nat) (name : String) : ε

def schemaIndexesByExactName (t : Table) : List (String × Nat) :=
  (t.schema.zipIdx.map fun (field, index) => (field.name, index)).reverse

def resolveHeader {ε : Type} (errors : HeaderErrors ε) (decode : List Char → Nat → Exec ε String) (t : Table)
    (schemaIndexes : List Nat) (offset : Nat) : List (List Char) → Exec ε (List Nat)
  | [] => .ok schemaIndexes
  | field :: fields => do
    let column := offset + 1
    let name ← decode field column
    match (schemaIndexesByExactName t).lookup name with
    | none =>
      match t.schema.find? fun definition => eqIgnoreAsciiCase definition.name name with
      | some definition => .error (errors.mismatch column definition.name)
      | none => .error (errors.unknown column name)
    | some schemaIndex =>
      rejectIf (schemaIndex ∈ schemaIndexes) (errors.duplicate column name)
      resolveHeader errors decode t (schemaIndexes ++ [schemaIndex]) (offset + 1) fields

/-! ## Input -/

/-- The text of an input; what is not UTF-8 is an error with the length of the part that is. -/
def decodeInput {ε : Type} (invalidUtf8 : Nat → ε) (input : Bytes) : Exec ε (List Char) :=
  match fromUtf8 input with
  | some text => .ok text.toList
  | none => .error (invalidUtf8 (utf8Error input).validUpTo)

/-- A line without its ending, which is LF or CRLF; a carriage return elsewhere is an error. -/
def lineContentsOr {ε : Type} (invalidLineEnding : Nat → ε) (rawLine : List Char) (line : Nat) : Exec ε (List Char) :=
  let contents := stripLast '\r' (stripLast '\n' rawLine)
  if '\r' ∈ contents ∨ rawLine.getLast? = some '\r' then .error (invalidLineEnding line) else .ok contents

/-- An ingestion appends what it parses, or changes nothing. -/
def ingestRows {ε : Type} (database : Error → ε) (parseRows : Table → Exec ε PreparedInsertRows) : Method Table ε Nat := do
  let t ← .read
  let prepared ← .call (parseRows t)
  .mapError database (Table.appendPreparedInsertRows prepared)
  return prepared.rows.length

end RustHouse.Batch
