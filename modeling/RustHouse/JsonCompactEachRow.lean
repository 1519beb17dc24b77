import RustHouse.Format
import RustHouse.FormatStream

/-!
# Ingestion of JSON lines

Each line of an input is one JSON array of one number, or of `null` in a nullable
column. A lexer hands tokens to a machine with a stack of open arrays and objects.
Positions in a line count its bytes.
-/

namespace RustHouse.Batch

open Checked Delimited Exec Words

/-! ## Writing -/

section
variable {σ ε : Type} (sink : Sink σ ε) (float : FloatText)

/-- A value behind a comma, unless it is the first one. -/
def writeJsonElement (element : Value × Nat) : Method σ ε Unit := do
  if element.2 > 0 then sink.writeAll (ascii ",")
  writeJsonValue float sink element.1

def writeJsonArray (row : List Value) : Method σ ε Unit := do
  sink.writeAll (ascii "[")
  row.zipIdx.forM (writeJsonElement sink float)

def writeJsonCompactEachRow (result : QueryResult) : Method σ ε Unit :=
  result.rows.forM fun row => do
    writeJsonArray sink float row
    sink.writeAll (ascii "]\n")

end

/-! ## Limits and errors -/

structure JsonCompactEachRowIngestLimits where
  maxBytes : Nat
  maxRows : Nat
  maxValues : Nat
  deriving DecidableEq, Repr

/-- Lines and columns count from one. -/
inductive JsonCompactEachRowIngestError where
  | byteLimitExceeded (bytes maxBytes : Nat)
  | invalidUtf8 (validUpTo : Nat)
  | unsupportedColumnCount (actual : Nat)
  | unsupportedColumnType (column : String) (actual : DataType)
  | rowLimitExceeded (line rows maxRows : Nat)
  | valueLimitExceeded (line values maxValues : Nat)
  | invalidJson (line column : Nat)
  | wrongColumnCount (line expected actual : Nat)
  | invalidValue (line column : Nat) (expected : DataType)
  | integerOverflow (line column : Nat)
  | nullNotAllowed (line column : Nat)
  | database (error : Error)
  deriving DecidableEq

namespace JsonCompactEachRow

def invalidJson (line zeroBasedColumn : Nat) : JsonCompactEachRowIngestError :=
  .invalidJson line (saturatingAdd zeroBasedColumn 1)

/-! ## Tokens -/

inductive JsonTokenKind where
  | leftBracket | rightBracket | leftBrace | rightBrace | colon | comma | string
  | number (isInteger : Bool)
  | true | false | null
  deriving DecidableEq, Repr

structure JsonToken where
  kind : JsonTokenKind
  start : Nat
  stop : Nat
  deriving DecidableEq, Repr

/-- How many bytes are behind, and what is ahead of them. -/
structure JsonLexer where
  cursor : Nat
  rest : List Char
  deriving DecidableEq, Repr

def isJsonWhitespace (c : Char) : Bool := c == ' ' || c == '\t' || c == '\r'

def isHexDigit (c : Char) : Bool := ('0' ≤ c && c ≤ '9') || ('a' ≤ c && c ≤ 'f') || ('A' ≤ c && c ≤ 'F')

def isSimpleEscape (c : Char) : Bool :=
  c == '"' || c == '\\' || c == '/' || c == 'b' || c == 'f' || c == 'n' || c == 'r' || c == 't'

namespace JsonLexer

/-- The characters of a class that are next, each of one byte. -/
def skip (p : Char → Bool) (lexer : JsonLexer) : JsonLexer :=
  ⟨lexer.cursor + (lexer.rest.takeWhile p).length, lexer.rest.dropWhile p⟩

def skipJsonWhitespace (lexer : JsonLexer) : JsonLexer := lexer.skip isJsonWhitespace

section
variable (line : Nat)

def lexKeyword (keyword : String) (kind : JsonTokenKind) (lexer : JsonLexer) :
    Exec JsonCompactEachRowIngestError (JsonToken × JsonLexer) :=
  if keyword.toList.isPrefixOf lexer.rest then
    let stop := lexer.cursor + keyword.length
    .ok (⟨kind, lexer.cursor, stop⟩, ⟨stop, lexer.rest.drop keyword.length⟩)
  else .error (invalidJson line lexer.cursor)

/-- From within a string to behind its closing quote. -/
def lexStringFrom (cursor : Nat) : List Char → Exec JsonCompactEachRowIngestError JsonLexer
  | [] => .error (invalidJson line cursor)
  | c :: rest =>
    if c = '"' then .ok ⟨cursor + 1, rest⟩
    else if c = '\\' then
      match rest with
      | [] => .error (invalidJson line (cursor + 1))
      | escaped :: rest =>
        if isSimpleEscape escaped then lexStringFrom (cursor + 2) rest
        else if escaped = 'u' then
          match rest with
          | h₁ :: h₂ :: h₃ :: h₄ :: rest =>
            if [h₁, h₂, h₃, h₄].all isHexDigit then lexStringFrom (cursor + 6) rest
            else .error (invalidJson line (cursor + 2))
          | _ => .error (invalidJson line (cursor + 2))
        else .error (invalidJson line (cursor + 1))
    else if c.toNat < 0x20 then .error (invalidJson line cursor)
    else lexStringFrom (cursor + c.utf8Size) rest

def lexString (lexer : JsonLexer) : Exec JsonCompactEachRowIngestError (JsonToken × JsonLexer) := do
  let behind ← lexStringFrom line (lexer.cursor + 1) lexer.rest.tail
  .ok (⟨.string, lexer.cursor, behind.cursor⟩, behind)

def isAsciiDigit (c : Char) : Bool := '0' ≤ c && c ≤ '9'

def lexSign (lexer : JsonLexer) : JsonLexer :=
  match lexer.rest with
  | c :: rest => if c = '-' then ⟨lexer.cursor + 1, rest⟩ else lexer
  | [] => lexer

def lexInteger (lexer : JsonLexer) : Exec JsonCompactEachRowIngestError JsonLexer :=
  match lexer.rest with
  | [] => .error (invalidJson line lexer.cursor)
  | c :: rest =>
    if c = '0' then
      if (rest.head?.any isAsciiDigit) then .error (invalidJson line (lexer.cursor + 1)) else .ok ⟨lexer.cursor + 1, rest⟩
    else if isAsciiDigit c then .ok (skip isAsciiDigit ⟨lexer.cursor + 1, rest⟩)
    else .error (invalidJson line lexer.cursor)

def lexDigits (lexer : JsonLexer) : Exec JsonCompactEachRowIngestError JsonLexer :=
  if lexer.rest.head?.any isAsciiDigit then .ok (lexer.skip isAsciiDigit) else .error (invalidJson line lexer.cursor)

/-- A fraction, if there is one, and whether there is none. -/
def lexFraction (lexer : JsonLexer) : Exec JsonCompactEachRowIngestError (Bool × JsonLexer) :=
  match lexer.rest with
  | c :: rest =>
    if c = '.' then do
      let behind ← lexDigits line ⟨lexer.cursor + 1, rest⟩
      .ok (false, behind)
    else .ok (true, lexer)
  | [] => .ok (true, lexer)

def lexExponentSign (lexer : JsonLexer) : JsonLexer :=
  match lexer.rest with
  | c :: rest => if c = '+' ∨ c = '-' then ⟨lexer.cursor + 1, rest⟩ else lexer
  | [] => lexer

/-- An exponent, if there is one, and whether there is none. -/
def lexExponent (lexer : JsonLexer) : Exec JsonCompactEachRowIngestError (Bool × JsonLexer) :=
  match lexer.rest with
  | c :: rest =>
    if c = 'e' ∨ c = 'E' then do
      let behind ← lexDigits line (lexExponentSign ⟨lexer.cursor + 1, rest⟩)
      .ok (false, behind)
    else .ok (true, lexer)
  | [] => .ok (true, lexer)

def lexNumber (lexer : JsonLexer) : Exec JsonCompactEachRowIngestError (JsonToken × JsonLexer) := do
  let integer ← lexInteger line (lexSign lexer)
  let fraction ← lexFraction line integer
  let exponent ← lexExponent line fraction.2
  .ok (⟨.number (fraction.1 && exponent.1), lexer.cursor, exponent.2.cursor⟩, exponent.2)

def punctuation (c : Char) : Option JsonTokenKind :=
  match c with
  | '[' => some .leftBracket
  | ']' => some .rightBracket
  | '\x7b' => some .leftBrace
  | '\x7d' => some .rightBrace
  | ':' => some .colon
  | ',' => some .comma
  | _ => none

def lexToken (c : Char) (lexer : JsonLexer) : Exec JsonCompactEachRowIngestError (JsonToken × JsonLexer) :=
  match punctuation c with
  | some kind => .ok (⟨kind, lexer.cursor, lexer.cursor + 1⟩, ⟨lexer.cursor + 1, lexer.rest.tail⟩)
  | none =>
    if c = '"' then lexString line lexer
    else if c = '-' ∨ isAsciiDigit c then lexNumber line lexer
    else if c = 't' then lexKeyword line "true" .true lexer
    else if c = 'f' then lexKeyword line "false" .false lexer
    else if c = 'n' then lexKeyword line "null" .null lexer
    else .error (invalidJson line lexer.cursor)

def nextToken (lexer : JsonLexer) : Exec JsonCompactEachRowIngestError (Option JsonToken × JsonLexer) :=
  let lexer := lexer.skipJsonWhitespace
  match lexer.rest with
  | [] => .ok (none, lexer)
  | c :: _ => do
    let (token, behind) ← lexToken line c lexer
    .ok (some token, behind)

end

end JsonLexer

/-! ## Arrays and objects -/

inductive JsonArrayState where
  | valueOrEnd | value | commaOrEnd
  deriving DecidableEq, Repr

inductive JsonObjectState where
  | keyOrEnd | key | colon | value | commaOrEnd
  deriving DecidableEq, Repr

inductive JsonFrame where
  | array (state : JsonArrayState)
  | object (state : JsonObjectState)
  deriving DecidableEq, Repr

inductive ParsedJsonValue where
  | null
  | number (start stop : Nat) (isInteger : Bool)
  | other
  deriving DecidableEq, Repr

structure ParsedJsonArray where
  valueCount : Nat
  firstValue : Option ParsedJsonValue
  deriving DecidableEq, Repr

def parsedValue (token : JsonToken) : ParsedJsonValue :=
  match token.kind with
  | .null => .null
  | .number isInteger => .number token.start token.stop isInteger
  | _ => .other

/-- The innermost frame comes first: a value of the root array has one frame. -/
def recordRootArrayValue (frames : List JsonFrame) (token : JsonToken) (parsed : ParsedJsonArray) : ParsedJsonArray :=
  if frames.length ≠ 1 then parsed
  else ⟨saturatingAdd parsed.valueCount 1, parsed.firstValue <|> some (parsedValue token)⟩

def JsonFrame.afterValue : JsonFrame → JsonFrame
  | .array _ => .array .commaOrEnd
  | .object _ => .object .commaOrEnd

section
variable (line : Nat)

def beginJsonValue (token : JsonToken) (frame : JsonFrame) (outer : List JsonFrame) :
    Exec JsonCompactEachRowIngestError (List JsonFrame) :=
  match token.kind with
  | .leftBracket => .ok (.array .valueOrEnd :: frame.afterValue :: outer)
  | .leftBrace => .ok (.object .keyOrEnd :: frame.afterValue :: outer)
  | .string | .number _ | .true | .false | .null => .ok (frame.afterValue :: outer)
  | _ => .error (invalidJson line token.start)

def stepFrame (token : JsonToken) (frame : JsonFrame) (outer : List JsonFrame) (parsed : ParsedJsonArray) :
    Exec JsonCompactEachRowIngestError (List JsonFrame × ParsedJsonArray) :=
  let unexpected := invalidJson line token.start
  match frame with
  | .array .valueOrEnd =>
    if token.kind = .rightBracket then .ok (outer, parsed)
    else do
      let frames ← beginJsonValue line token frame outer
      .ok (frames, recordRootArrayValue (frame :: outer) token parsed)
  | .array .value => do
    let frames ← beginJsonValue line token frame outer
    .ok (frames, recordRootArrayValue (frame :: outer) token parsed)
  | .array .commaOrEnd =>
    if token.kind = .comma then .ok (.array .value :: outer, parsed)
    else if token.kind = .rightBracket then .ok (outer, parsed)
    else .error unexpected
  | .object .keyOrEnd =>
    if token.kind = .string then .ok (.object .colon :: outer, parsed)
    else if token.kind = .rightBrace then .ok (outer, parsed)
    else .error unexpected
  | .object .key => if token.kind = .string then .ok (.object .colon :: outer, parsed) else .error unexpected
  | .object .colon => if token.kind = .colon then .ok (.object .value :: outer, parsed) else .error unexpected
  | .object .value => do
    let frames ← beginJsonValue line token frame outer
    .ok (frames, parsed)
  | .object .commaOrEnd =>
    if token.kind = .comma then .ok (.object .key :: outer, parsed)
    else if token.kind = .rightBrace then .ok (outer, parsed)
    else .error unexpected

/-- Tokens until the root array is closed. Each is one character at least, so a line has fuel enough. -/
def parseFrames (lineLen : Nat) : (fuel : Nat) → List JsonFrame → ParsedJsonArray → JsonLexer →
    Exec JsonCompactEachRowIngestError (ParsedJsonArray × JsonLexer)
  | _, [], parsed, lexer => .ok (parsed, lexer)
  | 0, _ :: _, _, _ => .panic
  | fuel + 1, frame :: outer, parsed, lexer => do
    match ← lexer.nextToken line with
    | (none, _) => .error (invalidJson line lineLen)
    | (some token, lexer) =>
      let (frames, parsed) ← stepFrame line token frame outer parsed
      parseFrames lineLen fuel frames parsed lexer

def parseArray (lineContents : List Char) : Exec JsonCompactEachRowIngestError ParsedJsonArray := do
  let lineLen := (emit lineContents).length
  match ← JsonLexer.nextToken line ⟨0, lineContents⟩ with
  | (none, _) => .error (invalidJson line 0)
  | (some root, lexer) =>
    rejectIf (root.kind ≠ .leftBracket) (invalidJson line root.start)
    let (parsed, lexer) ← parseFrames line lineLen (lineContents.length + 1) [.array .valueOrEnd] ⟨0, none⟩ lexer
    match ← lexer.nextToken line with
    | (some trailing, _) => .error (invalidJson line trailing.start)
    | (none, _) => .ok parsed

end

/-! ## Values -/

def dropBytes : Nat → List Char → Option (List Char)
  | 0, text => some text
  | _ + 1, [] => none
  | n + 1, c :: text => if c.utf8Size ≤ n + 1 then dropBytes (n + 1 - c.utf8Size) text else none

def takeBytes : Nat → List Char → Option (List Char)
  | 0, _ => some []
  | _ + 1, [] => none
  | n + 1, c :: text => if c.utf8Size ≤ n + 1 then (takeBytes (n + 1 - c.utf8Size) text).map (c :: ·) else none

def byteSlice (text : List Char) (start stop : Nat) : Option (List Char) :=
  if start ≤ stop then (dropBytes start text).bind (takeBytes (stop - start)) else none

section
variable (float : FloatText) (t : Table)

def validateTarget : Exec JsonCompactEachRowIngestError ColumnDef :=
  match t.schema with
  | [column] =>
    if column.dataType = .int64 ∨ column.dataType = .float64 then .ok column
    else .error (.unsupportedColumnType column.name column.dataType)
  | schema => .error (.unsupportedColumnCount schema.length)

def parseInt64Value (line : Nat) (text : List Char) : Exec JsonCompactEachRowIngestError Value :=
  getOr ((parseInt64 text).map .int64) (.integerOverflow line 1)

def parseFloat64Value (line : Nat) (text : List Char) : Exec JsonCompactEachRowIngestError Value := do
  let value ← getOr (float.parse (.ofList text)) (.invalidValue line 1 .float64)
  if value.isFinite then .ok (.float64 value) else .error (.invalidValue line 1 .float64)

def parseValue (physicalLine : List Char) (parsed : ParsedJsonValue) (expected : DataType) (line : Nat) :
    Exec JsonCompactEachRowIngestError Value :=
  match expected, parsed with
  | .int64, .number start stop true => do
    let text ← orPanic (byteSlice physicalLine start stop)
    parseInt64Value line text
  | .int64, .null => do
    let nullable ← orPanic (t.columns[0]?.map Column.isNullableInt64)
    if nullable then .ok (.null .int64) else .error (.nullNotAllowed line 1)
  | .float64, .number start stop _ => do
    let text ← orPanic (byteSlice physicalLine start stop)
    parseFloat64Value float line text
  | .bool, _ | .string, _ => .panic
  | .int64, _ | .float64, _ => .error (.invalidValue line 1 expected)

/-! ## Inputs -/

/-- The values of the lines of an input, with the number of rows and of values before. -/
def parseLines (limits : JsonCompactEachRowIngestLimits) (expected : DataType) (offset rowCount valueCount : Nat) :
    List (List Char) → Exec JsonCompactEachRowIngestError (List Value)
  | [] => .ok []
  | rawLine :: rawLines => do
    let line := saturatingAdd offset 1
    let nextRowCount := saturatingAdd rowCount 1
    rejectIf (nextRowCount > limits.maxRows) (.rowLimitExceeded line nextRowCount limits.maxRows)
    let physicalLine := stripLast '\n' rawLine
    let parsed ← parseArray line physicalLine
    let nextValueCount := saturatingAdd valueCount parsed.valueCount
    rejectIf (nextValueCount > limits.maxValues) (.valueLimitExceeded line nextValueCount limits.maxValues)
    rejectIf (parsed.valueCount ≠ 1) (.wrongColumnCount line 1 parsed.valueCount)
    let firstValue ← orPanic parsed.firstValue
    let value ← parseValue float t physicalLine firstValue expected line
    let values ← parseLines limits expected (offset + 1) (rowCount + 1) nextValueCount rawLines
    .ok (value :: values)

def parseRows (input : Bytes) (limits : JsonCompactEachRowIngestLimits) :
    Exec JsonCompactEachRowIngestError PreparedInsertRows := do
  rejectIf (input.length > limits.maxBytes) (.byteLimitExceeded input.length limits.maxBytes)
  let input ← decodeInput .invalidUtf8 input
  let column ← validateTarget t
  let values ← parseLines float t limits column.dataType 0 0 0 (splitInclusive '\n' input)
  mapError .database (t.prepareProjectedRows [0] (values.map fun value => [value]))

end

end JsonCompactEachRow

def ingestJsonCompactEachRow (float : FloatText) (input : Bytes) (limits : JsonCompactEachRowIngestLimits) :
    Method Table JsonCompactEachRowIngestError Nat :=
  ingestRows .database fun t => JsonCompactEachRow.parseRows float t input limits

end RustHouse.Batch
