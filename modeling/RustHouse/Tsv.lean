import RustHouse.Format

/-!
# Ingestion of tab-separated text

Lines end in LF or CRLF, and are split into fields before the fields are
decoded. The raw field `\N` is NULL in a nullable column.
-/

namespace RustHouse.Batch

open Checked Delimited Exec Words

/-- Resource bounds of one ingestion; the header is not a data row. -/
structure TsvIngestLimits where
  maxBytes : Nat
  maxRows : Nat
  maxValues : Nat
  deriving DecidableEq, Repr

/-- Lines and columns count from one. -/
inductive TsvIngestError where
  | byteLimitExceeded (bytes maxBytes : Nat)
  | invalidUtf8 (validUpTo : Nat)
  | missingHeader (line : Nat)
  | invalidLineEnding (line : Nat)
  | headerColumnCount (expected actual : Nat)
  | headerMismatch (column : Nat) (expected : String)
  | unknownHeaderColumn (column : Nat) (name : String)
  | duplicateHeaderColumn (column : Nat) (name : String)
  | rowLimitExceeded (line rows maxRows : Nat)
  | valueLimitExceeded (line values maxValues : Nat)
  | wrongColumnCount (line expected actual : Nat)
  | invalidEscape (line column : Nat)
  | invalidValue (line column : Nat) (expected : DataType)
  | database (error : Error)
  deriving DecidableEq

namespace Tsv

/-! ## Lines and fields -/

def lineContents (rawLine : List Char) (line : Nat) : Exec TsvIngestError (List Char) :=
  lineContentsOr .invalidLineEnding rawLine line

def unescape (c : Char) : Option Char :=
  if c = '\\' then some '\\'
  else if c = 't' then some '\t'
  else if c = 'r' then some '\r'
  else if c = 'n' then some '\n'
  else if c = '0' then some '\x00'
  else if c = 'b' then some '\x08'
  else if c = 'f' then some '\x0c'
  else if c = '\'' then some '\''
  else none

/-- The characters of a field; `none` for a backslash without a character that can be escaped. -/
def decodeChars : List Char → Option (List Char)
  | [] => some []
  | [c] => if c = '\\' then none else some [c]
  | c :: escaped :: rest =>
    if c = '\\' then do
      let d ← unescape escaped
      let decoded ← decodeChars rest
      some (d :: decoded)
    else (decodeChars (escaped :: rest)).map (c :: ·)

def decodeField (field : List Char) (line column : Nat) : Exec TsvIngestError String :=
  getOr ((decodeChars field).map .ofList) (.invalidEscape line column)

section
variable (float : FloatText)

def parseValue (field : String) (dataType : DataType) (line column : Nat) : Exec TsvIngestError Value :=
  getOr (parseScalar float field.toList dataType) (.invalidValue line column dataType)

def parseField (t : Table) (line schemaIndex : Nat) (field : List Char) (column : Nat) : Exec TsvIngestError Value := do
  if ← marksNull t schemaIndex (field = "\\N".toList) then .ok (.null .int64)
  else
    let decoded ← decodeField field line column
    let definition ← orPanic t.schema[schemaIndex]?
    parseValue float decoded definition.dataType line column

/-! ## Records -/

/-- The rows of the records behind `rowCount` others. -/
def parseRecords (t : Table) (schemaIndexes : List Nat) (limits : TsvIngestLimits) (line rowCount valueCount : Nat) :
    List (List Char) → Exec TsvIngestError (List (List Value))
  | [] => .ok []
  | rawRecord :: records => do
    let record ← lineContents rawRecord line
    let rowCount := saturatingAdd rowCount 1
    rejectIf (rowCount > limits.maxRows) (.rowLimitExceeded line rowCount limits.maxRows)
    let actualColumns := saturatingAdd (record.count '\t') 1
    let nextValueCount := saturatingAdd valueCount actualColumns
    rejectIf (nextValueCount > limits.maxValues) (.valueLimitExceeded line nextValueCount limits.maxValues)
    rejectIf (actualColumns ≠ schemaIndexes.length) (.wrongColumnCount line schemaIndexes.length actualColumns)
    let row ← parseFields (parseField float t line) schemaIndexes 0 (record.splitOn '\t')
    let rows ← parseRecords t schemaIndexes limits (saturatingAdd line 1) rowCount nextValueCount records
    .ok (row :: rows)

def parseDataRows (t : Table) (input : List Char) (firstLine : Nat) (schemaIndexes : List Nat)
    (limits : TsvIngestLimits) : Exec TsvIngestError PreparedInsertRows := do
  let rows ← parseRecords float t schemaIndexes limits firstLine 0 0 (splitInclusive '\n' input)
  mapError .database (t.prepareProjectedRows schemaIndexes rows)

/-! ## Inputs -/

def headerErrors : HeaderErrors TsvIngestError :=
  ⟨.headerMismatch, .unknownHeaderColumn, .duplicateHeaderColumn⟩

def validateHeader (t : Table) (header : List Char) : Exec TsvIngestError (List Nat) := do
  rejectIf (header = []) (.missingHeader 1)
  let fieldCount := saturatingAdd (header.count '\t') 1
  rejectIf (fieldCount > t.schema.length) (.headerColumnCount t.schema.length fieldCount)
  resolveHeader headerErrors (fun field column => decodeField field 1 column) t [] 0 (header.splitOn '\t')

def parseRowsWithNames (t : Table) (input : Bytes) (limits : TsvIngestLimits) :
    Exec TsvIngestError PreparedInsertRows := do
  rejectIf (input.length > limits.maxBytes) (.byteLimitExceeded input.length limits.maxBytes)
  let input ← decodeInput .invalidUtf8 input
  match splitInclusive '\n' input with
  | [] => .error (.missingHeader 1)
  | rawHeader :: _ =>
    let header ← lineContents rawHeader 1
    let schemaIndexes ← validateHeader t header
    parseDataRows float t (input.drop rawHeader.length) 2 schemaIndexes limits

def parseRowsWithoutNames (t : Table) (input : Bytes) (limits : TsvIngestLimits) :
    Exec TsvIngestError PreparedInsertRows := do
  rejectIf (input.length > limits.maxBytes) (.byteLimitExceeded input.length limits.maxBytes)
  let input ← decodeInput .invalidUtf8 input
  parseDataRows float t input 1 (List.range t.schema.length) limits

end

end Tsv

/-! ## Ingestion -/

section
variable (float : FloatText)

def ingestTsv (input : Bytes) (limits : TsvIngestLimits) : Method Table TsvIngestError Nat :=
  ingestRows .database fun t => Tsv.parseRowsWithoutNames float t input limits

def ingestTsvWithNames (input : Bytes) (limits : TsvIngestLimits) : Method Table TsvIngestError Nat :=
  ingestRows .database fun t => Tsv.parseRowsWithNames float t input limits

end

end RustHouse.Batch
