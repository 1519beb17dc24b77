import RustHouse.Format

/-!
# Ingestion of CSV

A record ends at a line ending outside quotes, and its fields are scanned after
that. The unquoted field `NULL` is NULL in a nullable column.
-/

namespace RustHouse.Batch

open Checked Delimited Exec Words

/-- Resource bounds of one ingestion; the header is not a data row. -/
structure CsvIngestLimits where
  maxBytes : Nat
  maxRows : Nat
  maxValues : Nat
  deriving DecidableEq, Repr

/-- Lines and columns count from one; the line of a record is that on which it begins. -/
inductive CsvIngestError where
  | byteLimitExceeded (bytes maxBytes : Nat)
  | invalidUtf8 (validUpTo : Nat)
  | missingHeader (line : Nat)
  | invalidLineEnding (line : Nat)
  | headerColumnCount (expected actual : Nat)
  | headerMismatch (column : Nat) (expected : String)
  | unknownHeaderColumn (column : Nat) (name : String)
  | duplicateHeaderColumn (column : Nat) (name : String)
  | rowLimitExceeded (line rows maxRows : Nat)
  | valueLimitExceeded (line values maxValues : Nat)
  | wrongColumnCount (line expected actual : Nat)
  | quotingNotSupported (line column : Nat)
  | malformedQuoting (line column : Nat)
  | invalidValue (line column : Nat) (expected : DataType)
  | database (error : Error)
  deriving DecidableEq

namespace Csv

/-! ## Records -/

/-- A record, the input behind it, and the line on which that begins. -/
structure Record where
  record : List Char
  rest : List Char
  nextLine : Nat
  deriving DecidableEq

def Record.cons (c : Char) (r : Record) : Record := { r with record := c :: r.record }

/-- `DataRecords::next` from within a record: quotes open at the start of a field only, and until they
close a line ending is data. -/
def nextRecord (nextLine : Nat) (atFieldStart inQuotes : Bool) : List Char → Exec CsvIngestError Record
  | [] => .ok ⟨[], [], nextLine⟩
  | [c] =>
    if c = '\r' then .error (.invalidLineEnding nextLine)
    else if c = '\n' then
      if inQuotes then .ok ⟨[c], [], saturatingAdd nextLine 1⟩ else .ok ⟨[], [], saturatingAdd nextLine 1⟩
    else .ok ⟨[c], [], nextLine⟩
  | c :: d :: rest =>
    if c = '\r' then
      if d ≠ '\n' then .error (.invalidLineEnding nextLine)
      else if inQuotes then do
        let r ← nextRecord (saturatingAdd nextLine 1) atFieldStart inQuotes rest
        .ok ((r.cons d).cons c)
      else .ok ⟨[], rest, saturatingAdd nextLine 1⟩
    else if c = '\n' then
      if inQuotes then do
        let r ← nextRecord (saturatingAdd nextLine 1) atFieldStart inQuotes (d :: rest)
        .ok (r.cons c)
      else .ok ⟨[], d :: rest, saturatingAdd nextLine 1⟩
    else if c = '"' ∧ inQuotes ∧ d = '"' then do
      let r ← nextRecord nextLine atFieldStart inQuotes rest
      .ok ((r.cons d).cons c)
    else if c = '"' ∧ inQuotes then do
      let r ← nextRecord nextLine atFieldStart false (d :: rest)
      .ok (r.cons c)
    else if c = '"' ∧ atFieldStart then do
      let r ← nextRecord nextLine false true (d :: rest)
      .ok (r.cons c)
    else if c = ',' ∧ ¬ inQuotes then do
      let r ← nextRecord nextLine true inQuotes (d :: rest)
      .ok (r.cons c)
    else do
      let r ← nextRecord nextLine (atFieldStart && inQuotes) inQuotes (d :: rest)
      .ok (r.cons c)

/-! ## Fields -/

/-- The contents of a field behind its opening quote, and what follows the closing one. -/
def scanQuoted : List Char → Option (List Char × List Char)
  | [] => none
  | [c] => if c = '"' then some ([], []) else none
  | c :: d :: rest =>
    if c = '"' then
      if d = '"' then (scanQuoted rest).map fun (contents, rest) => (c :: d :: contents, rest)
      else some ([], d :: rest)
    else (scanQuoted (d :: rest)).map fun (contents, rest) => (c :: contents, rest)

theorem scanQuoted_length {input contents rest : List Char} (h : scanQuoted input = some (contents, rest)) :
    rest.length < input.length := by
  induction input using scanQuoted.induct generalizing contents with
  | case1 => cases h
  | case2 =>
    obtain ⟨_, rfl⟩ := Prod.mk.inj (Option.some.inj h)
    exact Nat.zero_lt_one
  | case3 c hc =>
    rw [scanQuoted, if_neg hc] at h
    cases h
  | case4 rest' ih =>
    rw [scanQuoted, if_pos rfl, if_pos rfl] at h
    obtain ⟨⟨contents', rest''⟩, hrest, heq⟩ := Option.map_eq_some_iff.1 h
    obtain ⟨_, rfl⟩ := Prod.mk.inj heq
    have := ih hrest
    simp only [List.length_cons]
    omega
  | case5 d rest' hd =>
    rw [scanQuoted, if_pos rfl, if_neg hd] at h
    obtain ⟨_, rfl⟩ := Prod.mk.inj (Option.some.inj h)
    exact Nat.lt_succ_self _
  | case6 c d rest' hc ih =>
    rw [scanQuoted, if_neg hc] at h
    obtain ⟨⟨contents', rest''⟩, hrest, heq⟩ := Option.map_eq_some_iff.1 h
    obtain ⟨_, rfl⟩ := Prod.mk.inj heq
    have := ih hrest
    simp only [List.length_cons] at this ⊢
    omega

/-- The fields of a record, each with whether it was quoted; quotes within the contents stay doubled. -/
def scanRecord (line column : Nat) (record : List Char) : Exec CsvIngestError (List (List Char × Bool)) :=
  if record.head? = some '"' then
    match hquoted : scanQuoted record.tail with
    | none => .error (.malformedQuoting line column)
    | some (contents, rest) =>
      match rest, hquoted with
      | [], _ => .ok [(contents, true)]
      | delimiter :: rest, hquoted =>
        if delimiter ≠ ',' then .error (.malformedQuoting line column)
        else do
          let fields ← scanRecord line (saturatingAdd column 1) rest
          .ok ((contents, true) :: fields)
  else
    let field := record.takeWhile (· ≠ ',')
    if '"' ∈ field then .error (.malformedQuoting line column)
    else match hrest : record.dropWhile (· ≠ ',') with
      | [] => .ok [(field, false)]
      | _ :: rest => do
        let fields ← scanRecord line (saturatingAdd column 1) rest
        .ok ((field, false) :: fields)
termination_by record.length
decreasing_by
  · have := scanQuoted_length hquoted
    simp only [List.length_cons, List.length_tail] at this
    omega
  · have hle : (record.dropWhile fun c => decide (c ≠ ',')).length ≤ record.length := (List.dropWhile_suffix _).length_le
    rw [hrest, List.length_cons] at hle
    omega

/-- `field.replace("\"\"", "\"")`. -/
def undouble : List Char → List Char
  | [] => []
  | [c] => [c]
  | c :: d :: rest => if c = '"' ∧ d = '"' then '"' :: undouble rest else c :: undouble (d :: rest)

section
variable (float : FloatText)

def parseValue (field : List Char) (dataType : DataType) (line column : Nat) : Exec CsvIngestError Value :=
  getOr (parseScalar float field dataType) (.invalidValue line column dataType)

def parseField (t : Table) (line schemaIndex : Nat) (field : List Char × Bool) (column : Nat) :
    Exec CsvIngestError Value := do
  let (field, quoted) := field
  let definition ← orPanic t.schema[schemaIndex]?
  if ← marksNull t schemaIndex (!quoted && field = "NULL".toList) then .ok (.null .int64)
  else if quoted then parseValue float (undouble field) definition.dataType line column
  else parseValue float field definition.dataType line column

/-! ## Data rows -/

/-- The rows of the input behind `rowCount` others; each step takes at least one character. -/
def parseRecords (t : Table) (schemaIndexes : List Nat) (limits : CsvIngestLimits) :
    (fuel : Nat) → (line rowCount valueCount : Nat) → List Char → Exec CsvIngestError (List (List Value))
  | 0, _, _, _, input => if input = [] then .ok [] else .panic
  | fuel + 1, line, rowCount, valueCount, input =>
    if input = [] then .ok []
    else do
      let r ← nextRecord line true false input
      let rowCount := saturatingAdd rowCount 1
      rejectIf (rowCount > limits.maxRows) (.rowLimitExceeded line rowCount limits.maxRows)
      let fields ← scanRecord line 1 r.record
      let actualColumns := fields.length
      let nextValueCount := saturatingAdd valueCount actualColumns
      rejectIf (nextValueCount > limits.maxValues) (.valueLimitExceeded line nextValueCount limits.maxValues)
      rejectIf (actualColumns ≠ schemaIndexes.length) (.wrongColumnCount line schemaIndexes.length actualColumns)
      let row ← parseFields (parseField float t line) schemaIndexes 0 fields
      let rows ← parseRecords t schemaIndexes limits fuel r.nextLine rowCount nextValueCount r.rest
      .ok (row :: rows)

def parseDataRows (t : Table) (input : List Char) (firstLine : Nat) (schemaIndexes : List Nat)
    (limits : CsvIngestLimits) : Exec CsvIngestError PreparedInsertRows := do
  let rows ← parseRecords float t schemaIndexes limits input.length firstLine 0 0 input
  mapError .database (t.prepareProjectedRows schemaIndexes rows)

/-! ## Inputs -/

def lineContents (rawLine : List Char) (line : Nat) : Exec CsvIngestError (List Char) :=
  lineContentsOr .invalidLineEnding rawLine line

def headerErrors : HeaderErrors CsvIngestError :=
  ⟨.headerMismatch, .unknownHeaderColumn, .duplicateHeaderColumn⟩

/-- Names in a header are not quoted. -/
def decodeName (field : List Char) (column : Nat) : Exec CsvIngestError String := do
  rejectIf ('"' ∈ field) (.quotingNotSupported 1 column)
  .ok (.ofList field)

def validateHeader (t : Table) (header : List Char) : Exec CsvIngestError (List Nat) := do
  rejectIf (header = []) (.missingHeader 1)
  let actualColumns := saturatingAdd (header.count ',') 1
  rejectIf (actualColumns > t.schema.length) (.headerColumnCount t.schema.length actualColumns)
  resolveHeader headerErrors decodeName t [] 0 (header.splitOn ',')

def parseRowsWithNames (t : Table) (input : Bytes) (limits : CsvIngestLimits) :
    Exec CsvIngestError PreparedInsertRows := do
  rejectIf (input.length > limits.maxBytes) (.byteLimitExceeded input.length limits.maxBytes)
  let input ← decodeInput .invalidUtf8 input
  match splitInclusive '\n' input with
  | [] => .error (.missingHeader 1)
  | rawHeader :: _ =>
    let header ← lineContents rawHeader 1
    let schemaIndexes ← validateHeader t header
    parseDataRows float t (input.drop rawHeader.length) 2 schemaIndexes limits

def parseRowsWithoutNames (t : Table) (input : Bytes) (limits : CsvIngestLimits) :
    Exec CsvIngestError PreparedInsertRows := do
  rejectIf (input.length > limits.maxBytes) (.byteLimitExceeded input.length limits.maxBytes)
  let input ← decodeInput .invalidUtf8 input
  parseDataRows float t input 1 (List.range t.schema.length) limits

end

end Csv

/-! ## Ingestion -/

section
variable (float : FloatText)

def ingestCsv (input : Bytes) (limits : CsvIngestLimits) : Method Table CsvIngestError Nat :=
  ingestRows .database fun t => Csv.parseRowsWithoutNames float t input limits

def ingestCsvWithNames (input : Bytes) (limits : CsvIngestLimits) : Method Table CsvIngestError Nat :=
  ingestRows .database fun t => Csv.parseRowsWithNames float t input limits

end

end RustHouse.Batch
