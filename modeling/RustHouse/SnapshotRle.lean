import RustHouse.Snapshot

/-!
# The run-length snapshot payload

The payload of one nullable `Int64` column as runs of equal rows. The encoder
counts the runs before it writes them; the decoder validates every run before
it reserves storage and expands them.
-/

namespace RustHouse

open Checked Exec Words

inductive NullableI64RlePayloadError where
  | rowLimitExceeded (rowCount maxRows : Nat)
  | runLimitExceeded (runCount maxRuns : Nat)
  | payloadTooLarge (payloadLen maxPayloadLen : Nat)
  | truncated (expectedLen actualLen : Nat)
  | incompatibleMagic (found : Bytes)
  | unsupportedVersion (found supported : UInt16)
  | unknownRunTag (runIndex : Nat) (tag : UInt8)
  | zeroLengthRun (runIndex : Nat)
  | rowCountOverflow (runIndex decodedRows runLength : Nat)
  | rowCountMismatch (declaredRows decodedRows : Nat)
  | decodedRowsAllocationFailed (rowCount : Nat)
  | trailingData (expectedLen actualLen : Nat)
  deriving DecidableEq, Repr

def nullableI64RlePayloadMagic : Bytes := ascii "RHNRLEP\x00"
def nullableI64RlePayloadVersion : UInt16 := 1
def nullableI64RlePayloadHeaderLen : Nat := 8 + 2 + 2 * 8
def nullableI64RleNullRunTag : UInt8 := 0
def nullableI64RleValueRunTag : UInt8 := 1
def nullableI64RleRunHeaderLen : Nat := 1 + 8
def nullableI64RlePayloadVersionOffset : Nat := 8
def nullableI64RlePayloadRowCountOffset : Nat := nullableI64RlePayloadVersionOffset + 2
def nullableI64RlePayloadRunCountOffset : Nat := nullableI64RlePayloadRowCountOffset + 8

structure NullableI64RlePayloadCodec where
  maxRows : UInt64
  maxRuns : UInt64
  maxPayloadLen : UInt64
  deriving DecidableEq, Repr

/-! ## Encoding -/

def countRunsFrom (previous : Option Int64) (runCount valueRunCount : Nat) : List (Option Int64) → Nat × Nat
  | [] => (runCount, valueRunCount)
  | value :: rows =>
    if value ≠ previous then countRunsFrom value (runCount + 1) (valueRunCount + value.isSome.toNat) rows
    else countRunsFrom value runCount valueRunCount rows

def countRuns : List (Option Int64) → Nat × Nat
  | [] => (0, 0)
  | first :: rows => countRunsFrom first 1 first.isSome.toNat rows

def appendNullableI64RleRun (payload : Bytes) (value : Option Int64) (runLength maxRows : Nat) :
    Exec NullableI64RlePayloadError Bytes := do
  let runLength ← getOr (tryU64 runLength) (.rowLimitExceeded usizeMax maxRows)
  match value with
  | none => .ok (payload ++ [nullableI64RleNullRunTag] ++ sizeBytes runLength)
  | some value => .ok (payload ++ [nullableI64RleValueRunTag] ++ sizeBytes runLength ++ i64Bytes value)

/-- Writes the runs of the rows after `runLength` copies of `value`. -/
def appendRunsFrom (maxRows : Nat) (payload : Bytes) (value : Option Int64) (runLength : Nat) :
    List (Option Int64) → Exec NullableI64RlePayloadError Bytes
  | [] => appendNullableI64RleRun payload value runLength maxRows
  | next :: rows =>
    if next = value then appendRunsFrom maxRows payload value (runLength + 1) rows
    else do
      let payload ← appendNullableI64RleRun payload value runLength maxRows
      appendRunsFrom maxRows payload next 1 rows

def appendRuns (maxRows : Nat) (payload : Bytes) : List (Option Int64) → Exec NullableI64RlePayloadError Bytes
  | [] => .ok payload
  | value :: rows => appendRunsFrom maxRows payload value 1 rows

namespace NullableI64RlePayloadCodec

def encodeRows (codec : NullableI64RlePayloadCodec) (rows : List (Option Int64)) :
    Exec NullableI64RlePayloadError ByteSpan := do
  let maxRows := codec.maxRows.toNat
  let maxRuns := codec.maxRuns.toNat
  let maxPayloadLen := codec.maxPayloadLen.toNat
  let rowCount ← getOr (tryU64 rows.length) (.rowLimitExceeded usizeMax maxRows)
  rejectIf (rows.length > maxRows) (.rowLimitExceeded rowCount maxRows)
  let (runCount, valueRunCount) := countRuns rows
  let declaredRuns ← getOr (tryU64 runCount) (.runLimitExceeded usizeMax maxRuns)
  rejectIf (runCount > maxRuns) (.runLimitExceeded declaredRuns maxRuns)
  let payloadLen? := (checkedMul runCount nullableI64RleRunHeaderLen).bind fun runBytes =>
    ((checkedMul valueRunCount 8).bind (checkedAdd runBytes)).bind (checkedAdd nullableI64RlePayloadHeaderLen)
  let payloadLen ← getOr payloadLen? (.payloadTooLarge usizeMax maxPayloadLen)
  rejectIf (payloadLen > maxPayloadLen) (.payloadTooLarge (u64OrMax payloadLen) maxPayloadLen)
  let payload := nullableI64RlePayloadMagic ++ u16Bytes nullableI64RlePayloadVersion ++ sizeBytes rowCount ++
    sizeBytes declaredRuns
  let payload ← appendRuns maxRows payload rows
  ByteSpan.collect payload

def encode (codec : NullableI64RlePayloadCodec) (rows : List (Option Int64)) : Exec NullableI64RlePayloadError ByteSpan :=
  codec.encodeRows rows

end NullableI64RlePayloadCodec

/-! ## Decoding -/

section
variable (payload : ByteSpan)

def rleRunEnd (tag : UInt8) (offset : Nat) : Exec NullableI64RlePayloadError Nat :=
  if tag = nullableI64RleValueRunTag then do
    let valueEnd := saturatingAdd offset 8
    rejectIf (payload.val.length < valueEnd) (.truncated valueEnd payload.val.length)
    .ok valueEnd
  else .ok offset

def validateRleRun (offset runIndex decodedRows : Nat) : Exec NullableI64RlePayloadError (Nat × Nat) := do
  let tagEnd := saturatingAdd offset 1
  let tag ← getOr payload.val[offset]? (.truncated tagEnd payload.val.length)
  rejectIf (tag ≠ nullableI64RleNullRunTag ∧ tag ≠ nullableI64RleValueRunTag) (.unknownRunTag runIndex tag)
  let runLengthEnd := saturatingAdd tagEnd 8
  rejectIf (payload.val.length < runLengthEnd) (.truncated runLengthEnd payload.val.length)
  let runLength := ofLeBytes (← payload.readArray 8 tagEnd)
  rejectIf (runLength = 0) (.zeroLengthRun runIndex)
  let valueEnd ← rleRunEnd payload tag runLengthEnd
  let decodedRows ← getOr (checkedAdd decodedRows runLength) (.rowCountOverflow runIndex decodedRows runLength)
  .ok (decodedRows, valueEnd)

def validateRleRunsFrom (offset runIndex decodedRows : Nat) : Nat → Exec NullableI64RlePayloadError (Nat × Nat)
  | 0 => .ok (decodedRows, offset)
  | runs + 1 => do
    let (decodedRows, offset) ← validateRleRun payload offset runIndex decodedRows
    validateRleRunsFrom offset (runIndex + 1) decodedRows runs

def validateNullableI64RleRuns (runCount : Nat) : Exec NullableI64RlePayloadError (Nat × Nat) :=
  validateRleRunsFrom payload nullableI64RlePayloadHeaderLen 0 0 runCount

/-- Reads the run at an offset in the second pass: nothing is checked, and arithmetic panics on overflow. -/
def readRleRun (offset : Nat) : Exec NullableI64RlePayloadError (Option Int64 × Nat × Nat) := do
  let tag ← orPanic payload.val[offset]?
  let offset ← orPanic (checkedAdd offset 1)
  let runLength := ofLeBytes (← payload.readArray 8 offset)
  let offset ← orPanic (checkedAdd offset 8)
  if tag = nullableI64RleNullRunTag then .ok (none, runLength, offset)
  else do
    let value := i64OfBytes (← payload.readArray 8 offset)
    let offset ← orPanic (checkedAdd offset 8)
    .ok (some value, runLength, offset)

def expandRleRuns (offset : Nat) (rows : List (Option Int64)) : Nat → Exec NullableI64RlePayloadError (List (Option Int64))
  | 0 => .ok rows
  | runs + 1 => do
    let (value, runLength, offset) ← readRleRun payload offset
    let newLen ← orPanic (checkedAdd rows.length runLength)
    expandRleRuns offset (rows ++ List.replicate (newLen - rows.length) value) runs

end

namespace NullableI64RlePayloadCodec

/-- The first pass: every check that comes before the storage is reserved. -/
def validate (codec : NullableI64RlePayloadCodec) (payload : ByteSpan) : Exec NullableI64RlePayloadError (Nat × Nat) := do
  let maxRows := codec.maxRows.toNat
  let maxRuns := codec.maxRuns.toNat
  let maxPayloadLen := codec.maxPayloadLen.toNat
  rejectIf (payload.val.length > maxPayloadLen) (.payloadTooLarge (u64OrMax payload.val.length) maxPayloadLen)
  rejectIf (payload.val.length < nullableI64RlePayloadHeaderLen)
    (.truncated nullableI64RlePayloadHeaderLen payload.val.length)
  let foundMagic ← payload.readArray 8 0
  rejectIf (foundMagic ≠ nullableI64RlePayloadMagic) (.incompatibleMagic foundMagic)
  let version := u16OfBytes (← payload.readArray 2 nullableI64RlePayloadVersionOffset)
  rejectIf (version ≠ nullableI64RlePayloadVersion) (.unsupportedVersion version nullableI64RlePayloadVersion)
  let rowCount := ofLeBytes (← payload.readArray 8 nullableI64RlePayloadRowCountOffset)
  rejectIf (rowCount > maxRows) (.rowLimitExceeded rowCount maxRows)
  let runCount := ofLeBytes (← payload.readArray 8 nullableI64RlePayloadRunCountOffset)
  rejectIf (runCount > maxRuns) (.runLimitExceeded runCount maxRuns)
  let minimumLen? := (checkedMul runCount nullableI64RleRunHeaderLen).bind (checkedAdd nullableI64RlePayloadHeaderLen)
  let minimumLen ← getOr minimumLen? (.payloadTooLarge usizeMax maxPayloadLen)
  rejectIf (minimumLen > maxPayloadLen) (.payloadTooLarge (u64OrMax minimumLen) maxPayloadLen)
  let (decodedRows, runsEnd) ← validateNullableI64RleRuns payload runCount
  rejectIf (decodedRows > maxRows) (.rowLimitExceeded decodedRows maxRows)
  rejectIf (decodedRows ≠ rowCount) (.rowCountMismatch rowCount decodedRows)
  rejectIf (payload.val.length > runsEnd) (.trailingData runsEnd payload.val.length)
  .ok (rowCount, runCount)

/-- Decodes a payload; `reserve` tells for how many rows storage can be had. -/
def decode (codec : NullableI64RlePayloadCodec) (reserve : Nat → Bool) (payload : ByteSpan) :
    Exec NullableI64RlePayloadError (List (Option Int64)) := do
  let (rowCount, runCount) ← codec.validate payload
  rejectIf (¬ reserve rowCount) (.decodedRowsAllocationFailed rowCount)
  expandRleRuns payload nullableI64RlePayloadHeaderLen [] runCount

end NullableI64RlePayloadCodec

end RustHouse
