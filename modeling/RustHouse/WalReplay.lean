import RustHouse.FrameLog
import RustHouse.Wal

/-!
# The `Int64` write-ahead log: replay

The reader of one table's log. A payload reader is the unread rest of the
payload; the replay loop scans frames, authenticates an incomplete tail, and
applies each committed record to the bootstrap state.
-/

namespace RustHouse

open Checked Words

def readArray (len : Nat) (input : Bytes) (offset : Nat) : Bytes := (input.drop offset).take len

/-! ## The payload reader -/

def malformed (sequence : Nat) (field : String) : Int64WriteAheadLogError :=
  .corruption (.malformedPayload sequence field)

/-- Reads one field off the front of a payload. -/
abbrev PayloadReader (α : Type) := Bytes → Except Int64WriteAheadLogError (α × Bytes)

namespace PayloadReader

def byte (sequence : Nat) (field : String) : PayloadReader UInt8
  | [] => .error (malformed sequence field)
  | byte :: rest => .ok (byte, rest)

def usize (sequence : Nat) (field : String) : PayloadReader UInt64 := fun payload => do
  let (bytes, rest) ← okOr (takeBytes 8 payload) (malformed sequence field)
  .ok (u64OfBytes bytes, rest)

def i64 (sequence : Nat) (field : String) : PayloadReader Int64 := fun payload => do
  let (bytes, rest) ← okOr (takeBytes 8 payload) (malformed sequence field)
  .ok (i64OfBytes bytes, rest)

def nullableI64 (sequence : Nat) (field : String) : PayloadReader (Option Int64) := fun payload => do
  let (present, rest) ← byte sequence field payload
  let (value, rest) ← i64 sequence field rest
  if present = 0 ∧ value = 0 then .ok (none, rest)
  else if present = 1 then .ok (some value, rest)
  else .error (malformed sequence field)

def string (sequence : Nat) (field : String) : PayloadReader String := fun payload => do
  let (length, rest) ← usize sequence field payload
  let (bytes, rest) ← okOr (takeBytes length.toNat rest) (malformed sequence field)
  let value ← okOr (fromUtf8 bytes) (malformed sequence field)
  .ok (value, rest)

def finish (sequence : Nat) (payload : Bytes) : Except Int64WriteAheadLogError Unit :=
  failIf (payload ≠ []) (malformed sequence "trailing payload bytes")

def value (nullable : Bool) (sequence : Nat) (field : String) : PayloadReader (Option Int64) := fun payload =>
  if nullable then nullableI64 sequence field payload
  else do
    let (value, rest) ← i64 sequence field payload
    .ok (some value, rest)

/-- `count` items in a row. -/
def items {α : Type} (read : PayloadReader α) : (count : Nat) → PayloadReader (List.Vector α count)
  | 0, payload => .ok (.nil, payload)
  | count + 1, payload => do
    let (item, rest) ← read payload
    let (items, rest) ← items read count rest
    .ok (.cons item items, rest)

end PayloadReader

/-! ## Records -/

open PayloadReader in
def decodeBootstrap (payload : Bytes) (sequence : Nat) : Except Int64WriteAheadLogError Int64WalBootstrap := do
  let (tableName, rest) ← string sequence "table name" payload
  let (columnName, rest) ← string sequence "column name" rest
  let (nullability, rest) ← byte sequence "nullability" rest
  failIf (nullability > 1) (malformed sequence "nullability")
  let nullable := nullability == 1
  let (rowCap, rest) ← usize sequence "table row cap" rest
  let (columnCap, rest) ← usize sequence "table column cap" rest
  let (cellCap, rest) ← usize sequence "table cell cap" rest
  let (databaseRowCap, rest) ← usize sequence "database table row cap" rest
  let (databaseColumnCap, rest) ← usize sequence "database table column cap" rest
  let (databaseCellCap, rest) ← usize sequence "database table cell cap" rest
  let (queryLimits, rest) ← items (usize sequence "query limit") queryLimitFieldCount rest
  let (workerCap, rest) ← usize sequence "worker cap" rest
  failIf (workerCap = 0) (malformed sequence "worker cap")
  let (rowCount, rest) ← usize sequence "row count" rest
  -- only the persisted table-local limits must cover the table's shape
  failIf (columnCap < 1 ∨ cellCap < rowCount ∨ rowCap < rowCount) (malformed sequence "table resource limits")
  let requiredValueBytes ← okOr (checkedMul rowCount.toNat (if nullable then 9 else 8))
    (malformed sequence "row count")
  failIf (rest.length ≠ requiredValueBytes) (malformed sequence "row values")
  let (values, rest) ← items (value nullable sequence "row value") rowCount.toNat rest
  finish sequence rest
  .ok { tableName, columnName, tableLimits := (rowCap, columnCap, cellCap),
        databaseTableLimits := (databaseRowCap, databaseColumnCap, databaseCellCap),
        queryLimits, workerCap, nullable, values := values.toList }

def requireBootstrap (bootstrap : Option Int64WalBootstrap) : Except Int64WriteAheadLogError Int64WalBootstrap :=
  okOr bootstrap (.corruption .missingBootstrap)

/-- What both append records do after their count and their kind are read. -/
def applyAppendedRows (bootstrap : Int64WalBootstrap) (nullable : Bool) (itemBytes : Nat) (count : Nat)
    (rest : Bytes) (sequence : Nat) : Except Int64WriteAheadLogError Int64WalBootstrap := do
  let valueBytes ← okOr (checkedMul count itemBytes) (malformed sequence "append row count")
  failIf (rest.length ≠ valueBytes) (malformed sequence "append values")
  let newRows ← okOr (checkedAdd bootstrap.values.length count) (malformed sequence "append row count")
  failIf (newRows > bootstrap.tableLimits.1.toNat ∨ newRows > bootstrap.tableLimits.2.2.toNat)
    (malformed sequence "append table resource limits")
  let (values, rest) ← PayloadReader.items (PayloadReader.value nullable sequence "append value") count rest
  PayloadReader.finish sequence rest
  .ok { bootstrap with values := bootstrap.values ++ values.toList }

def applyAppend (bootstrap : Option Int64WalBootstrap) (payload : Bytes) (sequence : Nat) :
    Except Int64WriteAheadLogError Int64WalBootstrap := do
  let bootstrap ← requireBootstrap bootstrap
  let (count, rest) ← PayloadReader.usize sequence "append row count" payload
  failIf bootstrap.nullable (malformed sequence "non-nullable append kind")
  applyAppendedRows bootstrap false 8 count.toNat rest sequence

def applyNullableAppend (bootstrap : Option Int64WalBootstrap) (payload : Bytes) (sequence : Nat) :
    Except Int64WriteAheadLogError Int64WalBootstrap := do
  let bootstrap ← requireBootstrap bootstrap
  failIf (¬ bootstrap.nullable) (malformed sequence "nullable append kind")
  let (count, rest) ← PayloadReader.usize sequence "append row count" payload
  applyAppendedRows bootstrap true 9 count.toNat rest sequence

def applyTruncate (bootstrap : Option Int64WalBootstrap) (payload : Bytes) (sequence : Nat) :
    Except Int64WriteAheadLogError Int64WalBootstrap := do
  let bootstrap ← requireBootstrap bootstrap
  failIf (payload ≠ []) (malformed sequence "truncate payload")
  .ok { bootstrap with values := [] }

def readReplacements (nullable : Bool) (sequence rows : Nat) :
    (count : Nat) → (previous : Option Nat) → PayloadReader (List (Nat × Option Int64))
  | 0, _, payload => .ok ([], payload)
  | count + 1, previous, payload => do
    let (row, rest) ← PayloadReader.usize sequence "replacement row" payload
    let (value, rest) ← PayloadReader.value nullable sequence "replacement value" rest
    failIf (row.toNat ≥ rows ∨ previous.any (row.toNat ≤ ·)) (malformed sequence "replacement row selection")
    let (replacements, rest) ← readReplacements nullable sequence rows count (some row.toNat) rest
    .ok ((row.toNat, value) :: replacements, rest)

/-- Both replacement records, for the given nullability, kind error and item size. -/
def applyReplacements (nullable : Bool) (kindField : String) (itemBytes : Nat)
    (bootstrap : Option Int64WalBootstrap) (payload : Bytes) (sequence : Nat) :
    Except Int64WriteAheadLogError Int64WalBootstrap := do
  let bootstrap ← requireBootstrap bootstrap
  failIf (bootstrap.nullable ≠ nullable) (malformed sequence kindField)
  let (count, rest) ← PayloadReader.usize sequence "replacement count" payload
  let replacementBytes ← okOr (checkedMul count.toNat itemBytes) (malformed sequence "replacement count")
  failIf (rest.length ≠ replacementBytes) (malformed sequence "replacement values")
  let (replacements, rest) ← readReplacements nullable sequence bootstrap.values.length count.toNat none rest
  PayloadReader.finish sequence rest
  .ok { bootstrap with
        values := replacements.foldl (fun values (row, value) => values.set row value) bootstrap.values }

def applyReplace := applyReplacements false "non-nullable replacement kind" 16

def applyNullableReplace := applyReplacements true "nullable replacement kind" 17

def applyRecord (kind : UInt8) (sequence : Nat) (payload : Bytes) (bootstrap : Option Int64WalBootstrap) :
    Except Int64WriteAheadLogError Int64WalBootstrap :=
  if kind = bootstrapKind then
    if bootstrap.isSome ∨ sequence ≠ 0 then .error (.corruption (.unexpectedBootstrap sequence))
    else decodeBootstrap payload sequence
  else if kind = appendKind then applyAppend bootstrap payload sequence
  else if kind = nullableAppendKind then applyNullableAppend bootstrap payload sequence
  else if kind = truncateKind then applyTruncate bootstrap payload sequence
  else if kind = replaceKind then applyReplace bootstrap payload sequence
  else if kind = nullableReplaceKind then applyNullableReplace bootstrap payload sequence
  else .error (.corruption (.unsupportedKind sequence kind))

/-! ## Incomplete tails -/

def readUsizeAt (input : Bytes) (offset : Nat) : Option Nat := do
  let stop ← checkedAdd offset 8
  let bytes ← slice input offset stop
  some (ofLeBytes bytes)

def encodedCountedPayloadLen (payloadAndTail : Bytes) (itemBytes : Nat) : Option Nat := do
  let count ← readUsizeAt payloadAndTail 0
  checkedAdd 8 (← checkedMul count itemBytes)

def encodedValueBytes (nullable : UInt8) : Option Nat :=
  if nullable = 0 then some 8 else if nullable = 1 then some 9 else none

def encodedBootstrapPayloadLen (payloadAndTail : Bytes) : Option Nat := do
  let tableNameBytes ← readUsizeAt payloadAndTail 0
  let columnLengthOffset ← checkedAdd 8 tableNameBytes
  let columnNameBytes ← readUsizeAt payloadAndTail columnLengthOffset
  let columnStart ← checkedAdd columnLengthOffset 8
  let columnEnd ← checkedAdd columnStart columnNameBytes
  let limitsStart ← checkedAdd columnEnd 1
  let rowCountOffset ← checkedAdd limitsStart (17 * 8)
  let nullable ← payloadAndTail[columnEnd]?
  let rowCount ← readUsizeAt payloadAndTail rowCountOffset
  let valueBytes ← encodedValueBytes nullable
  let rowsStart ← checkedAdd rowCountOffset 8
  checkedAdd rowsStart (← checkedMul rowCount valueBytes)

/-- The only payload size the version-1 writer emits for `kind`. -/
def encodedPayloadLen (kind : UInt8) (payloadAndTail : Bytes) : Option Nat :=
  if kind = bootstrapKind then encodedBootstrapPayloadLen payloadAndTail
  else if kind = appendKind then encodedCountedPayloadLen payloadAndTail 8
  else if kind = nullableAppendKind then encodedCountedPayloadLen payloadAndTail 9
  else if kind = truncateKind then some 0
  else if kind = replaceKind then encodedCountedPayloadLen payloadAndTail 16
  else if kind = nullableReplaceKind then encodedCountedPayloadLen payloadAndTail 17
  else none

/-- The fixed fields in front of a payload. -/
structure FrameHeader where
  magic : Bytes
  version : UInt16
  kind : UInt8
  reserved : UInt8
  sequence : Nat
  payloadLen : Nat
  checksum : UInt32

def readFrameHeader (header : Bytes) : FrameHeader where
  magic := readArray 8 header 0
  version := u16OfBytes (readArray 2 header 8)
  kind := header.getD 10 0
  reserved := header.getD 11 0
  sequence := ofLeBytes (readArray 8 header 12)
  payloadLen := ofLeBytes (readArray 8 header 20)
  checksum := u32OfBytes (readArray 4 header 28)

/-- The payload length of a complete record whose exact footer and checksum
stand where its own content says, even when the header length is corrupt. -/
def authenticatedPayloadLen (bytes : Bytes) (offset : Nat) (header : FrameHeader) (maxRecordBytes : Nat) :
    Option Nat := do
  let payloadStart ← checkedAdd offset int64WalFrameHeaderLen
  let available ← slice bytes payloadStart bytes.length
  let payloadLen ← encodedPayloadLen header.kind available
  if payloadLen > maxRecordBytes then none
  else do
    let footerStart ← checkedAdd payloadStart payloadLen
    let footerEnd ← checkedAdd footerStart int64WalCommitLen
    let footer ← slice bytes footerStart footerEnd
    if readArray 8 footer 0 ≠ int64WalCommitMagic ∨ ofLeBytes (readArray 8 footer 8) ≠ header.sequence then none
    else
      let payload := readArray payloadLen bytes payloadStart
      if recordChecksum header.version header.kind header.reserved header.sequence payload = header.checksum then
        some payload.length
      else none

/-! ## The replay loop -/

structure ReplayState where
  expectedSequence : Nat
  bootstrap : Option Int64WalBootstrap

/-- The checks of one iteration on the fixed header fields. -/
def checkFrameHeader (limits : Int64WriteAheadLogLimits) (offset expectedSequence : Nat) (header : FrameHeader) :
    Except Int64WriteAheadLogError Unit := do
  failIf (header.magic ≠ int64WalMagic) (.corruption (.incompatibleMagic offset header.magic))
  failIf (header.version ≠ int64WalVersion)
    (.corruption (.unsupportedVersion offset header.version int64WalVersion))
  failIf (header.reserved ≠ 0) (.corruption (.invalidReservedByte header.sequence header.reserved))
  failIf (header.sequence ≠ expectedSequence) (.corruption (.sequence expectedSequence header.sequence))
  failIf (header.payloadLen > limits.maxRecordBytes)
    (.limit (.recordBytes header.sequence header.payloadLen limits.maxRecordBytes))

/-- The rest of one iteration for a frame that lies inside the file. -/
def replayFrame (limits : Int64WriteAheadLogLimits) (bytes : Bytes) (offset frameEnd : Nat) (header : FrameHeader)
    (state : ReplayState) : Except Int64WriteAheadLogError ReplayState := do
  let records := saturatingAdd state.expectedSequence 1
  failIf (records > limits.maxRecords) (.limit (.records records limits.maxRecords))
  let payloadStart := offset + int64WalFrameHeaderLen
  let payloadEnd := payloadStart + header.payloadLen
  let payload := readArray header.payloadLen bytes payloadStart
  let footer := readArray (frameEnd - payloadEnd) bytes payloadEnd
  let commitMagic := readArray 8 footer 0
  failIf (commitMagic ≠ int64WalCommitMagic) (.corruption (.commitMagic header.sequence commitMagic))
  let commitSequence := ofLeBytes (readArray 8 footer 8)
  failIf (commitSequence ≠ header.sequence) (.corruption (.commitSequence header.sequence commitSequence))
  let actualChecksum := recordChecksum header.version header.kind header.reserved header.sequence payload
  failIf (actualChecksum ≠ header.checksum)
    (.corruption (.checksum header.sequence header.checksum actualChecksum))
  let bootstrap ← applyRecord header.kind header.sequence payload state.bootstrap
  .ok { expectedSequence := state.expectedSequence + 1, bootstrap := some bootstrap }

/-- One iteration of the replay loop: the end and state of a frame, or no frame where it stops. -/
def replayIteration (limits : Int64WriteAheadLogLimits) (bytes : Bytes) (offset : Nat) (state : ReplayState) :
    Except Int64WriteAheadLogError (Option (Nat × ReplayState)) :=
  if bytes.length - offset < int64WalFrameHeaderLen then .ok none
  else do
    let header := readFrameHeader (readArray int64WalFrameHeaderLen bytes offset)
    checkFrameHeader limits offset state.expectedSequence header
    let tooLarge := Int64WriteAheadLogError.limit (.fileBytes usizeMax limits.maxFileBytes)
    let frameLen ← okOr (checkedAdd int64WalFrameOverhead header.payloadLen) tooLarge
    let frameEnd ← okOr (checkedAdd offset frameLen) tooLarge
    if frameEnd > bytes.length then
      match authenticatedPayloadLen bytes offset header limits.maxRecordBytes with
      | some committed => .error (.corruption (.payloadLength header.sequence header.payloadLen committed))
      | none => .ok none
    else do
      let next ← replayFrame limits bytes offset frameEnd header state
      .ok (some (frameEnd, next))

def replayHead (limits : Int64WriteAheadLogLimits) (bytes : Bytes) (offset : Nat) (state : ReplayState) :
    FrameLog.Head ReplayState Int64WriteAheadLogError :=
  match replayIteration limits bytes offset state with
  | .error error => .bad error
  | .ok none => .tail
  | .ok (some (frameEnd, next)) => .frame frameEnd next

def replayLoop (bytes : Bytes) (limits : Int64WriteAheadLogLimits) :
    Except Int64WriteAheadLogError (Nat × ReplayState) :=
  FrameLog.scan (replayHead limits) bytes 0 { expectedSequence := 0, bootstrap := none }

structure RecoveredInt64WriteAheadLog where
  bootstrap : Int64WalBootstrap
  fileBytes : Nat
  records : Nat
  deriving DecidableEq

def replay (bytes : Bytes) (limits : Int64WriteAheadLogLimits) :
    Except Int64WriteAheadLogError RecoveredInt64WriteAheadLog := do
  let (_, state) ← replayLoop bytes limits
  let bootstrap ← requireBootstrap state.bootstrap
  .ok { bootstrap, fileBytes := bytes.length, records := min state.expectedSequence usizeMax }

end RustHouse
