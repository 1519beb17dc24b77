import Mathlib.Data.Vector.Defs
import RustHouse.Crc32

/-!
# The `Int64` write-ahead log: writing

The version-1 record format and the writer of one table's log. A record is a
header, a payload and a commit footer; the body is synchronized before the
footer is written. File contents are the bytes that reached storage, and every
call on the file comes with the outcome the operating system gave it.
-/

namespace RustHouse

open Checked Words

/-! ## Failures -/

inductive IoErrorKind where
  | notFound | permissionDenied | alreadyExists | wouldBlock | invalidInput | invalidData | timedOut
  | writeZero | storageFull | quotaExceeded | fileTooLarge | readOnlyFilesystem | interrupted
  | unexpectedEof | outOfMemory | unsupported | other
  deriving DecidableEq, Repr

structure IoError where
  kind : IoErrorKind
  message : String
  deriving DecidableEq, Repr

inductive Int64WriteAheadLogLimitError where
  | fileBytes (bytes maxBytes : Nat)
  | recordBytes (sequence bytes maxBytes : Nat)
  | records (records maxRecords : Nat)
  deriving DecidableEq, Repr

inductive Int64WriteAheadLogCorruption where
  | missingBootstrap
  | incompatibleMagic (offset : Nat) (found : Bytes)
  | unsupportedVersion (offset : Nat) (found supported : UInt16)
  | unsupportedKind (sequence : Nat) (kind : UInt8)
  | invalidReservedByte (sequence : Nat) (found : UInt8)
  | sequence (expected found : Nat)
  | commitMagic (sequence : Nat) (found : Bytes)
  | commitSequence (sequence found : Nat)
  | checksum (sequence : Nat) (expected actual : UInt32)
  | payloadLength (sequence declared committed : Nat)
  | unexpectedBootstrap (sequence : Nat)
  | malformedPayload (sequence : Nat) (field : String)
  deriving DecidableEq, Repr

inductive Int64WriteAheadLogError where
  | limit (error : Int64WriteAheadLogLimitError)
  | corruption (error : Int64WriteAheadLogCorruption)
  | create (error : IoError)
  | write (error : IoError)
  | syncFile (error : IoError)
  | syncParent (error : IoError)
  | poisoned
  deriving DecidableEq, Repr

/-! ## Records -/

structure Int64WriteAheadLogLimits where
  /-- Maximum complete file size, including framing and a torn tail. -/
  maxFileBytes : Nat
  maxRecordBytes : Nat
  /-- Maximum committed records, including the bootstrap record. -/
  maxRecords : Nat
  deriving DecidableEq, Repr

def int64WalMagic : Bytes := ascii "RHI64WAL"
def int64WalVersion : UInt16 := 1
def int64WalCommitMagic : Bytes := ascii "RHWLCMIT"
def int64WalFrameHeaderLen : Nat := 32
def int64WalCommitLen : Nat := 16
def int64WalFrameOverhead : Nat := int64WalFrameHeaderLen + int64WalCommitLen

def bootstrapKind : UInt8 := 1
def appendKind : UInt8 := 2
def truncateKind : UInt8 := 3
def replaceKind : UInt8 := 4
def nullableAppendKind : UInt8 := 5
def nullableReplaceKind : UInt8 := 6
def queryLimitFieldCount : Nat := 10

def recordChecksum (version : UInt16) (kind reserved : UInt8) (sequence : Nat) (payload : Bytes) : UInt32 :=
  let checksum := crc32Update 0xffffffff (u16Bytes version)
  let checksum := crc32Update checksum [kind, reserved]
  let checksum := crc32Update checksum (sizeBytes sequence)
  let checksum := crc32Update checksum (sizeBytes payload.length)
  ~~~ (crc32Update checksum payload)

/-- The fixed fields before a payload, with any declared payload length. -/
def recordHeader (kind : UInt8) (sequence declared : Nat) (checksum : UInt32) : Bytes :=
  int64WalMagic ++ u16Bytes int64WalVersion ++ [kind] ++ [0] ++ sizeBytes sequence ++ sizeBytes declared ++
    u32Bytes checksum

def encodeRecordParts (kind : UInt8) (sequence : Nat) (payload : Bytes) : Bytes × Bytes :=
  let checksum := recordChecksum int64WalVersion kind 0 sequence payload
  let body := recordHeader kind sequence payload.length checksum ++ payload
  let footer := int64WalCommitMagic ++ sizeBytes sequence
  (body, footer)

def encodeRecord (kind : UInt8) (sequence : Nat) (payload : Bytes) : Bytes :=
  (encodeRecordParts kind sequence payload).1 ++ (encodeRecordParts kind sequence payload).2

def validateRecordLimits (sequence payloadLen currentFileBytes currentRecords : Nat)
    (limits : Int64WriteAheadLogLimits) : Except Int64WriteAheadLogError Nat := do
  failIf (payloadLen > limits.maxRecordBytes) (.limit (.recordBytes sequence payloadLen limits.maxRecordBytes))
  let records := saturatingAdd currentRecords 1
  failIf (records > limits.maxRecords) (.limit (.records records limits.maxRecords))
  let attemptedFileBytes := currentFileBytes + int64WalFrameOverhead + payloadLen
  let reportedFileBytes := min attemptedFileBytes usizeMax
  let tooLarge := Int64WriteAheadLogError.limit (.fileBytes reportedFileBytes limits.maxFileBytes)
  let frameLen ← okOr (checkedAdd int64WalFrameOverhead payloadLen) tooLarge
  let fileBytes ← okOr (checkedAdd currentFileBytes frameLen) tooLarge
  failIf (fileBytes > limits.maxFileBytes) tooLarge
  .ok fileBytes

/-! ## Payloads -/

structure Int64WalBootstrap where
  tableName : String
  columnName : String
  /-- Table-local max rows, columns, and cells. -/
  tableLimits : UInt64 × UInt64 × UInt64
  /-- Database defaults for max rows, columns, and cells. -/
  databaseTableLimits : UInt64 × UInt64 × UInt64
  queryLimits : List.Vector UInt64 queryLimitFieldCount
  workerCap : UInt64
  nullable : Bool
  values : List (Option Int64)
  deriving DecidableEq

def pushNullableI64 (value : Option Int64) : Bytes := (if value.isSome then 1 else 0) :: i64Bytes (value.getD 0)

def pushBytes (bytes : Bytes) : Bytes := sizeBytes bytes.length ++ bytes

/-- The bytes of one value; `none` where a NULL meets a non-nullable log, which panics. -/
def pushValue (nullable : Bool) (value : Option Int64) : Option Bytes :=
  if nullable then some (pushNullableI64 value) else value.map i64Bytes

def pushReplacement (nullable : Bool) (replacement : Nat × Option Int64) : Option Bytes := do
  let value ← pushValue nullable replacement.2
  some (sizeBytes replacement.1 ++ value)

def appendPayload (nullable : Bool) (values : List (Option Int64)) : Option Bytes := do
  let items ← values.mapM (pushValue nullable)
  some (sizeBytes values.length ++ items.flatten)

def replacePayload (nullable : Bool) (replacements : List (Nat × Option Int64)) : Option Bytes := do
  let items ← replacements.mapM (pushReplacement nullable)
  some (sizeBytes replacements.length ++ items.flatten)

def limitsBytes (limits : UInt64 × UInt64 × UInt64) : Bytes :=
  u64Bytes limits.1 ++ u64Bytes limits.2.1 ++ u64Bytes limits.2.2

def bootstrapPayloadLen (tableNameBytes columnNameBytes rows : Nat) (nullable : Bool) : Option Nat := do
  let fixed ← checkedAdd (2 * 8) 1
  let fixed ← checkedAdd fixed (6 * 8)
  let fixed ← checkedAdd fixed (10 * 8)
  let fixed ← checkedAdd fixed (2 * 8)
  let named ← checkedAdd fixed tableNameBytes
  let named ← checkedAdd named columnNameBytes
  checkedAdd named (← checkedMul rows (if nullable then 9 else 8))

/-- The bootstrap payload; `none` where the size or a NULL makes the encoder panic. -/
def encodeBootstrap (bootstrap : Int64WalBootstrap) : Option Bytes := do
  let _capacity ← bootstrapPayloadLen (utf8 bootstrap.tableName).length (utf8 bootstrap.columnName).length
    bootstrap.values.length bootstrap.nullable
  let rows ← appendPayload bootstrap.nullable bootstrap.values
  some (pushBytes (utf8 bootstrap.tableName) ++ pushBytes (utf8 bootstrap.columnName) ++
    [if bootstrap.nullable then 1 else 0] ++ limitsBytes bootstrap.tableLimits ++
    limitsBytes bootstrap.databaseTableLimits ++ (bootstrap.queryLimits.toList.map u64Bytes).flatten ++
    u64Bytes bootstrap.workerCap ++ rows)

/-! ## Files -/

/-- A failed write: the error it returned and how many bytes still reached the file. -/
structure WriteFault where
  error : IoError
  persisted : Nat
  deriving DecidableEq, Repr

/-- What the operating system answers to the four calls that commit a record. -/
structure CommitIo where
  writeBody : Option WriteFault
  syncBody : Option IoError
  writeFooter : Option WriteFault
  syncFooter : Option IoError
  deriving DecidableEq, Repr

def CommitIo.success : CommitIo := ⟨none, none, none, none⟩

def writeBytes (fault : Option WriteFault) (file bytes : Bytes) : Bytes × Except Int64WriteAheadLogError Unit :=
  match fault with
  | none => (file ++ bytes, .ok ())
  | some fault => (file ++ bytes.take fault.persisted, .error (.write fault.error))

def syncBytes (fault : Option IoError) : Except Int64WriteAheadLogError Unit :=
  match fault with
  | none => .ok ()
  | some error => .error (.syncFile error)

def writeCommittedRecord (io : CommitIo) (file body footer : Bytes) :
    Bytes × Except Int64WriteAheadLogError Unit :=
  match writeBytes io.writeBody file body with
  | (file, .error error) => (file, .error error)
  | (file, .ok ()) =>
    match syncBytes io.syncBody with
    | .error error => (file, .error error)
    | .ok () =>
      match writeBytes io.writeFooter file footer with
      | (file, .error error) => (file, .error error)
      | (file, .ok ()) => (file, syncBytes io.syncFooter)

/-! ## The writer -/

structure Int64WriteAheadLog where
  file : Bytes
  normalizedTableName : String
  nullable : Bool
  limits : Int64WriteAheadLogLimits
  fileBytes : Nat
  records : Nat
  poisoned : Bool
  deriving DecidableEq

namespace Int64WriteAheadLog

def validateBootstrapLimits (tableNameBytes columnNameBytes rows : Nat) (nullable : Bool)
    (limits : Int64WriteAheadLogLimits) : Except Int64WriteAheadLogError Unit := do
  let payloadLen := (bootstrapPayloadLen tableNameBytes columnNameBytes rows nullable).getD usizeMax
  let _ ← validateRecordLimits 0 payloadLen 0 0 limits
  .ok ()

/-- What the operating system answers while a log file is created. -/
structure CreateIo where
  create : Option IoError
  commit : CommitIo
  syncParent : Option IoError

def createCommittedWalFile (io : CreateIo) (body footer : Bytes) : Except Int64WriteAheadLogError Bytes := do
  if let some error := io.create then .error (.create error)
  let (file, result) := writeCommittedRecord io.commit [] body footer
  result
  if let some error := io.syncParent then .error (.syncParent error)
  .ok file

def createInDirectory (io : CreateIo) (bootstrap : Int64WalBootstrap) (limits : Int64WriteAheadLogLimits) :
    Option (Except Int64WriteAheadLogError Int64WriteAheadLog) :=
  match validateBootstrapLimits (utf8 bootstrap.tableName).length (utf8 bootstrap.columnName).length
    bootstrap.values.length bootstrap.nullable limits with
  | .error error => some (.error error)
  | .ok () => do
    let payload ← encodeBootstrap bootstrap
    let (body, footer) := encodeRecordParts bootstrapKind 0 payload
    some do
      let file ← createCommittedWalFile io body footer
      .ok { file, normalizedTableName := toAsciiLowercase bootstrap.tableName, nullable := bootstrap.nullable,
            limits, fileBytes := body.length + footer.length, records := 1, poisoned := false }

def tracks (log : Int64WriteAheadLog) (tableName : String) : Bool :=
  toAsciiLowercase log.normalizedTableName == toAsciiLowercase tableName

def nextAppendBytes (log : Int64WriteAheadLog) (values : Nat) : Nat :=
  let valueBytes := if log.nullable then 9 else 8
  saturatingAdd (saturatingAdd int64WalFrameOverhead 8) (saturatingMul values valueBytes)

def nextReplaceBytes (log : Int64WriteAheadLog) (replacements : Nat) : Nat :=
  let valueBytes := if log.nullable then 17 else 16
  saturatingAdd (saturatingAdd int64WalFrameOverhead 8) (saturatingMul replacements valueBytes)

def validateNextRecord (log : Int64WriteAheadLog) (payloadLen : Nat) : Except Int64WriteAheadLogError Unit := do
  failIf log.poisoned .poisoned
  let _ ← validateRecordLimits log.records payloadLen log.fileBytes log.records log.limits
  .ok ()

def appendRecord (io : CommitIo) (log : Int64WriteAheadLog) (kind : UInt8) (payload : Bytes) :
    Int64WriteAheadLog × Except Int64WriteAheadLogError Unit :=
  if log.poisoned then (log, .error .poisoned)
  else
    let sequence := log.records
    match validateRecordLimits sequence payload.length log.fileBytes log.records log.limits with
    | .error error => (log, .error error)
    | .ok nextFileBytes =>
      let (body, footer) := encodeRecordParts kind sequence payload
      match writeCommittedRecord io log.file body footer with
      | (file, .error error) => ({ log with file, poisoned := true }, .error error)
      | (file, .ok ()) => ({ log with file, fileBytes := nextFileBytes, records := log.records + 1 }, .ok ())

/-- The part the counted records share: check the size, then build the payload
and append it. The result is `none` where the payload builder panics. -/
def appendCounted (io : CommitIo) (log : Int64WriteAheadLog) (count itemBytes : Nat) (kind : UInt8)
    (payload : Option Bytes) : Option (Int64WriteAheadLog × Except Int64WriteAheadLogError Unit) :=
  let payloadLen := (checkedAdd 8 ((checkedMul count itemBytes).getD usizeMax)).getD usizeMax
  match log.validateNextRecord payloadLen with
  | .error error => some (log, .error error)
  | .ok () => payload.map (log.appendRecord io kind)

def appendValues (io : CommitIo) (log : Int64WriteAheadLog) (values : List (Option Int64)) :
    Option (Int64WriteAheadLog × Except Int64WriteAheadLogError Unit) :=
  log.appendCounted io values.length (if log.nullable then 9 else 8)
    (if log.nullable then nullableAppendKind else appendKind) (appendPayload log.nullable values)

def truncate (io : CommitIo) (log : Int64WriteAheadLog) :
    Option (Int64WriteAheadLog × Except Int64WriteAheadLogError Unit) :=
  match log.validateNextRecord 0 with
  | .error error => some (log, .error error)
  | .ok () => some (log.appendRecord io truncateKind [])

def replaceValues (io : CommitIo) (log : Int64WriteAheadLog) (replacements : List (Nat × Option Int64)) :
    Option (Int64WriteAheadLog × Except Int64WriteAheadLogError Unit) :=
  log.appendCounted io replacements.length (if log.nullable then 17 else 16)
    (if log.nullable then nullableReplaceKind else replaceKind) (replacePayload log.nullable replacements)

end Int64WriteAheadLog

/-! ## Mutations -/

/-- A mutation of a logged table. -/
inductive WalMutation where
  | append (values : List (Option Int64))
  | truncate
  | replace (replacements : List (Nat × Option Int64))
  deriving DecidableEq

namespace WalMutation

def replaceRows (values : List (Option Int64)) (replacements : List (Nat × Option Int64)) : List (Option Int64) :=
  values.mapIdx fun row value => (replacements.lookup row).getD value

def applyTo (values : List (Option Int64)) : WalMutation → List (Option Int64)
  | append appended => values ++ appended
  | truncate => []
  | replace replacements => replaceRows values replacements

/-- The rows fit the table's row and cell caps; replaced rows increase and exist. -/
def Admissible (tableLimits : UInt64 × UInt64 × UInt64) (rows : Nat) : WalMutation → Prop
  | append appended => rows + appended.length ≤ tableLimits.1.toNat ∧ rows + appended.length ≤ tableLimits.2.2.toNat
  | truncate => True
  | replace replacements => replacements.Pairwise (·.1 < ·.1) ∧ ∀ replacement ∈ replacements, replacement.1 < rows

instance (tableLimits : UInt64 × UInt64 × UInt64) (rows : Nat) (mutation : WalMutation) :
    Decidable (mutation.Admissible tableLimits rows) := by
  cases mutation <;> unfold Admissible <;> infer_instance

def kind (nullable : Bool) : WalMutation → UInt8
  | append _ => if nullable then nullableAppendKind else appendKind
  | truncate => truncateKind
  | replace _ => if nullable then nullableReplaceKind else replaceKind

def payload (nullable : Bool) : WalMutation → Option Bytes
  | append values => appendPayload nullable values
  | truncate => some []
  | replace replacements => replacePayload nullable replacements

end WalMutation

def Int64WriteAheadLog.log (io : CommitIo) (writer : Int64WriteAheadLog) :
    WalMutation → Option (Int64WriteAheadLog × Except Int64WriteAheadLogError Unit)
  | .append values => writer.appendValues io values
  | .truncate => writer.truncate io
  | .replace replacements => writer.replaceValues io replacements

end RustHouse
