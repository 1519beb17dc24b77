import Mathlib.Data.Nat.Size
import RustHouse.Format
import RustHouse.Sink

/-!
# Bounded writers

The writers of human-readable tables and of one JSON object a row. Both compute
the exact size of their output before the first byte is written, and refuse a
result that exceeds a bound.
-/

namespace RustHouse.Batch

open Checked Delimited Exec Words

/-! ## Escapes -/

/-- `char::is_control`. -/
def isControl (c : Char) : Bool := c.toNat < 0x20 || (0x7f ≤ c.toNat && c.toNat < 0xa0)

/-- `(u32::BITS - leading_zeros).div_ceil(4)` -/
def significantHexDigits (c : Char) : Nat := (c.toNat.size + 3) / 4

/-- `{:04x}` -/
def hexText (c : Char) : List Char := (Nat.toDigits 16 c.toNat).leftpad 4 '0'

def tableEscape (c : Char) : Option (List Char) :=
  if c = '\\' then some ['\\', '\\']
  else if c = '\n' then some ['\\', 'n']
  else if c = '\r' then some ['\\', 'r']
  else if c = '\t' then some ['\\', 't']
  else if isControl c then some (['\\', 'u', '\x7b'] ++ hexText c ++ ['\x7d'])
  else none

def jsonEscape (c : Char) : Option (List Char) :=
  if c = '"' then some ['\\', '"']
  else if c = '\\' then some ['\\', '\\']
  else if c = '\x08' then some ['\\', 'b']
  else if c = '\x0c' then some ['\\', 'f']
  else if c = '\n' then some ['\\', 'n']
  else if c = '\r' then some ['\\', 'r']
  else if c = '\t' then some ['\\', 't']
  else if isControl c then some (['\\', 'u'] ++ hexText c)
  else none

section
variable {σ ε : Type} (sink : Sink σ ε)

/-- A text with its escapes: what stands between two of them is written in one piece. -/
def writeEscaped (escape : Char → Option (List Char)) : (unescaped : List Char) → List Char → Method σ ε Unit
  | unescaped, [] => sink.writeAll (emit unescaped)
  | unescaped, c :: text =>
    match escape c with
    | some escaped => do
      sink.writeAll (emit unescaped)
      sink.writeAll (emit escaped)
      writeEscaped escape [] text
    | none => writeEscaped escape (unescaped ++ [c]) text

def writeEscapedTableText (value : String) : Method σ ε Unit := writeEscaped sink tableEscape [] value.toList

def writeJsonString (value : String) : Method σ ε Unit := do
  sink.writeAll (emit ['"'])
  writeEscaped sink jsonEscape [] value.toList
  sink.writeAll (emit ['"'])

end

/-- A failure of a bounded writer. -/
inductive OutputError (ε : Type) where
  | outputLimitExceeded (bytes maxBytes : Nat)
  | write (error : ε)
  deriving DecidableEq

abbrev TableWriteError := OutputError

abbrev JsonEachRowWriteError := OutputError

/-! ## Sizes of tables -/

structure TableTextMetrics where
  characters : Nat
  bytes : Nat
  deriving DecidableEq

def tableCharMetrics (c : Char) : Option (Nat × Nat) :=
  if c = '\\' ∨ c = '\n' ∨ c = '\r' ∨ c = '\t' then some (2, 2)
  else if isControl c then (checkedAdd (max (significantHexDigits c) 4) 4).map fun escapedBytes => (escapedBytes, escapedBytes)
  else some (1, c.utf8Size)

def addMetrics (metrics : TableTextMetrics) (c : Char) : Option TableTextMetrics := do
  let (characters, bytes) ← tableCharMetrics c
  some { characters := ← checkedAdd metrics.characters characters, bytes := ← checkedAdd metrics.bytes bytes }

def tableTextMetrics (value : String) : Option TableTextMetrics := value.toList.foldlM addMetrics ⟨0, 0⟩

def checkedSub (a b : Nat) : Option Nat := if b ≤ a then some (a - b) else none

def tableCellBytes (bytes : Nat) (cell : String × Nat) : Option Nat := do
  let metrics ← tableTextMetrics cell.1
  let padding ← (checkedSub cell.2 metrics.characters).bind (checkedAdd · 1)
  let bytes ← checkedAdd bytes 1
  let bytes ← checkedAdd bytes metrics.bytes
  let bytes ← checkedAdd bytes padding
  checkedAdd bytes 1

def tableRowBytes (values : List String) (widths : List Nat) : Option Nat := do
  let bytes ← (values.zip widths).foldlM tableCellBytes 1
  checkedAdd bytes 1

section
variable (float : FloatText)

def tableValueText (value : Value) : String := value.asDisplayString float

/-- The widths with those of one more row; a row that is shorter panics, and what does not fit a size has none. -/
def widenTable : List Nat → List Value → Exec Unit (List Nat)
  | [], _ => .ok []
  | _ :: _, [] => .panic
  | width :: widths, value :: row => do
    let metrics ← getOr (tableTextMetrics (tableValueText float value)) ()
    let widths ← widenTable widths row
    .ok (max width metrics.characters :: widths)

/-- `error ()` is a width that there is not. -/
def tableWidths (result : QueryResult) : Exec Unit (List Nat) := do
  let metrics ← getOr (result.columns.mapM fun column => tableTextMetrics column.name) ()
  result.rows.foldlM (widenTable float) (metrics.map TableTextMetrics.characters)

def tableRenderedBytes (result : QueryResult) (widths : List Nat) : Option Nat := do
  let borderBytes ← widths.foldlM (fun bytes width => (checkedAdd width 3).bind (checkedAdd bytes)) 1
  let headerBytes ← tableRowBytes (result.columns.map ResultColumn.name) widths
  let bytes ← checkedAdd borderBytes 1
  let bytes ← checkedAdd bytes headerBytes
  let bytes ← checkedAdd bytes borderBytes
  let bytes ← checkedAdd bytes 1
  let bytes ← result.rows.foldlM (fun bytes row =>
    (tableRowBytes (row.map (tableValueText float)) widths).bind (checkedAdd bytes)) bytes
  checkedAdd bytes borderBytes

/-- The widths of a table and the size of the output that it is part of. -/
def tableOutputBytes (result : QueryResult) (prefixBytes suffixBytes : Nat) : Exec Unit (List Nat × Nat) := do
  let widths ← tableWidths float result
  let tableBytes ← getOr (tableRenderedBytes float result widths) ()
  let outputBytes ← getOr ((checkedAdd prefixBytes tableBytes).bind (checkedAdd · suffixBytes)) ()
  .ok (widths, outputBytes)

structure TableLayout where
  widths : List Nat

def TableLayout.new {ε : Type} (result : QueryResult) (prefixBytes suffixBytes maxOutputBytes : Nat) :
    Exec (TableWriteError ε) TableLayout := do
  let (widths, outputBytes) ← mapError (fun () => .outputLimitExceeded (saturatingAdd maxOutputBytes 1) maxOutputBytes)
    (tableOutputBytes float result prefixBytes suffixBytes)
  rejectIf (outputBytes > maxOutputBytes) (.outputLimitExceeded outputBytes maxOutputBytes)
  .ok { widths }

end

/-! ## Writing tables -/

def tableChunk : Nat := 1024

section
variable {σ ε : Type} (sink : Sink σ ε)

def writeRepeated (byte : Char) (count : Nat) : Method σ ε Unit :=
  if tableChunk ≤ count then do
    sink.writeAll (emit (List.replicate tableChunk byte))
    writeRepeated byte (count - tableChunk)
  else sink.writeAll (emit (List.replicate count byte))
termination_by count
decreasing_by
  unfold tableChunk at *
  omega

def writeTableBorder (widths : List Nat) : Method σ ε Unit := do
  sink.writeAll (emit ['+'])
  widths.forM fun width => do
    writeRepeated sink '-' (width + 2)
    sink.writeAll (emit ['+'])

/-- The metrics and the padding of a cell were computed before: what fails there panics here. -/
def writeTableCell (cell : String × Nat) : Method σ ε Unit := do
  let metrics ← .call (orPanic (tableTextMetrics cell.1))
  sink.writeAll (emit [' '])
  writeEscapedTableText sink cell.1
  let padding ← .call (orPanic ((checkedSub cell.2 metrics.characters).bind (checkedAdd · 1)))
  writeRepeated sink ' ' padding
  sink.writeAll (emit ['|'])

/-- The names of the columns or the values of a row. -/
def writeTableCells (values : List String) (widths : List Nat) : Method σ ε Unit := do
  sink.writeAll (emit ['|'])
  (values.zip widths).forM (writeTableCell sink)
  sink.writeAll (emit ['\n'])

variable (float : FloatText)

def writeTableHeader (result : QueryResult) (widths : List Nat) : Method σ ε Unit :=
  writeTableCells sink (result.columns.map ResultColumn.name) widths

def writeTableValues (row : List Value) (widths : List Nat) : Method σ ε Unit :=
  writeTableCells sink (row.map (tableValueText float)) widths

def writeTableWithAffixes (result : QueryResult) (maxOutputBytes : Nat) (before behind : Bytes) :
    Method σ (TableWriteError ε) Unit := do
  let layout ← .call (TableLayout.new float result before.length behind.length maxOutputBytes)
  Method.mapError .write do
    sink.writeAll before
    writeTableBorder sink layout.widths
    sink.writeAll (emit ['\n'])
    writeTableHeader sink result layout.widths
    writeTableBorder sink layout.widths
    sink.writeAll (emit ['\n'])
    result.rows.forM fun row => writeTableValues sink float row layout.widths
    writeTableBorder sink layout.widths
    sink.writeAll behind

def writeTable (result : QueryResult) (maxOutputBytes : Nat) : Method σ (TableWriteError ε) Unit :=
  writeTableWithAffixes sink float result maxOutputBytes [] []

end

/-! ## One JSON object a row -/

def jsonCharBytes (c : Char) : Option Nat :=
  if c = '"' ∨ c = '\\' ∨ c = '\x08' ∨ c = '\x0c' ∨ c = '\n' ∨ c = '\r' ∨ c = '\t' then some 2
  else if isControl c then checkedAdd (max (significantHexDigits c) 4) 2
  else some c.utf8Size

def jsonStringRenderedBytes (value : String) : Option Nat :=
  value.toList.foldlM (fun bytes c => (jsonCharBytes c).bind (checkedAdd bytes)) 2

def memberPrefixBytes (columns : List ResultColumn) : Option (List Nat) :=
  columns.zipIdx.foldlM (fun bytes (column, columnIndex) => do
    let last ← bytes.getLast?
    let next ← checkedAdd last (if columnIndex > 0 then 1 else 0)
    let next ← (jsonStringRenderedBytes column.name).bind (checkedAdd next)
    let next ← checkedAdd next 1
    some (bytes ++ [next])) [0]

section
variable (float : FloatText)

def jsonValueRenderedBytes : Value → Option Nat
  | .null _ => some 4
  | .int64 value => some (toString value.toInt).utf8ByteSize
  | .float64 value => some (formatFloat float value).utf8ByteSize
  | .bool value => some (if value then 4 else 5)
  | .string value => jsonStringRenderedBytes value

def jsonEachRowRenderedBytes (result : QueryResult) : Option Nat := do
  let emittedColumns := (result.rows.map List.length).max?.getD 0
  if emittedColumns > result.columns.length then none
  else
    let _ ← checkedAdd emittedColumns 1
    let memberBytes ← memberPrefixBytes (result.columns.take emittedColumns)
    result.rows.foldlM (fun outputBytes row => do
      let rowBytes ← memberBytes[row.length]?.bind (checkedAdd 3)
      let rowBytes ← row.foldlM (fun bytes value => (jsonValueRenderedBytes float value).bind (checkedAdd bytes)) rowBytes
      checkedAdd outputBytes rowBytes) 0

variable {σ ε : Type} (sink : Sink σ ε)

def writeJsonValue : Value → Method σ ε Unit
  | .null _ => sink.writeAll (emit "null".toList)
  | .int64 value => sink.writeAll (utf8 (toString value.toInt))
  | .float64 value => sink.writeAll (utf8 (formatFloat float value))
  | .bool value => sink.writeAll (emit (if value then "true".toList else "false".toList))
  | .string value => writeJsonString sink value

def writeJsonMember (columns : List ResultColumn) (member : Value × Nat) : Method σ ε Unit := do
  if member.2 > 0 then sink.writeAll (emit [','])
  let column ← .call (orPanic columns[member.2]?)
  writeJsonString sink column.name
  sink.writeAll (emit [':'])
  writeJsonValue float sink member.1

def writeJsonEachRowWithLimit (result : QueryResult) (maxOutputBytes : Nat) : Method σ (JsonEachRowWriteError ε) Unit := do
  let outputBytes ← .call (getOr (jsonEachRowRenderedBytes float result)
    (.outputLimitExceeded (saturatingAdd maxOutputBytes 1) maxOutputBytes))
  .call (rejectIf (outputBytes > maxOutputBytes) (.outputLimitExceeded outputBytes maxOutputBytes))
  Method.mapError .write do
    result.rows.forM fun row => do
      sink.writeAll (emit ['\x7b'])
      row.zipIdx.forM (writeJsonMember float sink result.columns)
      sink.writeAll (emit ['\x7d', '\n'])

end

end RustHouse.Batch
