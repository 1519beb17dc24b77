import Mathlib.Data.List.Sort
import RustHouse.KeyedTotals
import RustHouse.WalWriter

/-!
# The registry of write-ahead logs

A registry owns one log writer per table, keyed by the lower-cased table name,
with directory-wide byte and record totals kept beside them. A database logs
either to one writer or to a registry.
-/

namespace RustHouse

open Checked Words KeyedTotals

/-! ## Failures -/

structure Int64WriteAheadLogRegistryLimits where
  maxTables : Nat
  maxManifestBytes : Nat
  maxTotalWalBytes : Nat
  /-- Maximum committed records across members, including each bootstrap record. -/
  maxTotalRecords : Nat
  perTable : Int64WriteAheadLogLimits
  deriving DecidableEq, Repr

inductive Int64WriteAheadLogRegistryLimitError where
  | tables (tables maxTables : Nat)
  | manifestBytes (bytes maxBytes : Nat)
  | totalWalBytes (bytes maxBytes : Nat)
  | totalRecords (records maxRecords : Nat)
  deriving DecidableEq, Repr

inductive Int64WriteAheadLogRegistryCorruption where
  | manifestMagic (found : Bytes)
  | manifestVersion (found supported : UInt16)
  | manifestReserved (found : UInt16)
  | manifestLength (declared actual : Nat)
  | manifestChecksum (expected actual : UInt32)
  | manifestPayload (field : String)
  | empty
  | duplicateTable (table : String)
  | duplicateMember (member : String)
  | invalidMember (member : String)
  | nonDeterministicOrder (previous table : String)
  deriving DecidableEq, Repr

inductive Int64WriteAheadLogRegistryError where
  | limit (error : Int64WriteAheadLogRegistryLimitError)
  | corruption (error : Int64WriteAheadLogRegistryCorruption)
  | invalidDestination
  | openParent (error : IoError)
  | createDirectory (error : IoError)
  | openDirectory (error : IoError)
  | syncParent (error : IoError)
  | createManifest (error : IoError)
  | writeManifest (error : IoError)
  | syncManifest (error : IoError)
  | syncDirectory (error : IoError)
  | member (table member : String) (error : Int64WriteAheadLogError)
  deriving DecidableEq, Repr

/-- A failure returned through a live database mutation. -/
inductive Int64WriteAheadLogCommitError where
  | limit (error : Int64WriteAheadLogLimitError)
  | registryLimit (error : Int64WriteAheadLogRegistryLimitError)
  | poisoned
  | write (kind : IoErrorKind) (message : String)
  | syncFile (kind : IoErrorKind) (message : String)
  | unexpected (message : String)
  deriving DecidableEq, Repr

def hexDigit (n : Nat) : Char := "0123456789abcdef".toList.getD n '0'

/-- Lower-case hexadecimal with `width` digits. -/
def hexPadded : (width : Nat) → Nat → String
  | 0, _ => ""
  | width + 1, n => hexPadded width (n / 16) ++ String.singleton (hexDigit (n % 16))

def hexBytes (bytes : Bytes) : String :=
  "[" ++ ", ".intercalate (bytes.map fun byte => hexPadded 2 byte.toNat) ++ "]"

def Int64WriteAheadLogLimitError.display : Int64WriteAheadLogLimitError → String
  | fileBytes bytes maxBytes => s!"Int64 WAL has {bytes} bytes, exceeding the limit of {maxBytes} bytes"
  | recordBytes sequence bytes maxBytes =>
    s!"Int64 WAL record {sequence} has {bytes} payload bytes, exceeding the limit of {maxBytes} bytes"
  | records count maxRecords =>
    s!"Int64 WAL has at least {count} committed records, exceeding the limit of {maxRecords} records"

def Int64WriteAheadLogCorruption.display : Int64WriteAheadLogCorruption → String
  | missingBootstrap => "Int64 WAL has no committed bootstrap record"
  | incompatibleMagic offset found => s!"incompatible Int64 WAL magic at byte {offset}: {hexBytes found}"
  | unsupportedVersion offset found supported =>
    s!"unsupported Int64 WAL version {found} at byte {offset}; this reader supports {supported}"
  | unsupportedKind record kind => s!"unsupported Int64 WAL record kind {kind} at sequence {record}"
  | invalidReservedByte record found => s!"Int64 WAL record {record} has nonzero reserved byte {found}"
  | sequence expected found => s!"Int64 WAL sequence is discontinuous: expected {expected}, found {found}"
  | commitMagic record found => s!"Int64 WAL record {record} has invalid commit magic {hexBytes found}"
  | commitSequence record found => s!"Int64 WAL record {record} has commit sequence {found}"
  | checksum record expected actual =>
    s!"Int64 WAL record {record} checksum mismatch: expected {hexPadded 8 expected.toNat}, " ++
      s!"calculated {hexPadded 8 actual.toNat}"
  | payloadLength record declared committed =>
    s!"Int64 WAL record {record} declares {declared} payload bytes but its committed payload has {committed} bytes"
  | unexpectedBootstrap record => s!"Int64 WAL contains a second bootstrap at sequence {record}"
  | malformedPayload record field => s!"Int64 WAL record {record} has malformed {field}"

def Int64WriteAheadLogError.display : Int64WriteAheadLogError → String
  | limit error => error.display
  | corruption error => s!"corrupt Int64 WAL: {error.display}"
  | create error => s!"could not exclusively create Int64 WAL: {error.message}"
  | write error => s!"could not write Int64 WAL: {error.message}"
  | syncFile error => s!"could not sync Int64 WAL file: {error.message}"
  | syncParent error => s!"could not sync Int64 WAL parent directory: {error.message}"
  | poisoned => "Int64 WAL is unusable after an earlier write or sync failure"

def Int64WriteAheadLogError.toCommitError : Int64WriteAheadLogError → Int64WriteAheadLogCommitError
  | limit error => .limit error
  | poisoned => .poisoned
  | write error => .write error.kind error.message
  | syncFile error => .syncFile error.kind error.message
  | error => .unexpected error.display

/-! ## Creating a registry -/

structure Int64WalRegistryTablePreflight where
  tableName : String
  columnName : String
  rows : Nat
  nullable : Bool

def validateRegistryTableCount (tables : Nat) (limits : Int64WriteAheadLogRegistryLimits) :
    Except Int64WriteAheadLogRegistryError Unit := do
  failIf (tables = 0) (.corruption .empty)
  failIf (tables > limits.maxTables) (.limit (.tables tables limits.maxTables))

def validateManifestSize (bytes : Nat) (limits : Int64WriteAheadLogRegistryLimits) :
    Except Int64WriteAheadLogRegistryError Unit :=
  failIf (bytes > limits.maxManifestBytes) (.limit (.manifestBytes bytes limits.maxManifestBytes))

def validateRegistryTotals (bytes records : Nat) (limits : Int64WriteAheadLogRegistryLimits) :
    Except Int64WriteAheadLogRegistryLimitError Unit := do
  failIf (bytes > limits.maxTotalWalBytes) (.totalWalBytes bytes limits.maxTotalWalBytes)
  failIf (records > limits.maxTotalRecords) (.totalRecords records limits.maxTotalRecords)

def validateDistinctTables : (seen : List String) → List Int64WalRegistryTablePreflight →
    Except Int64WriteAheadLogRegistryError Unit
  | _, [] => .ok ()
  | seen, table :: tables => do
    failIf (toAsciiLowercase table.tableName ∈ seen) (.corruption (.duplicateTable table.tableName))
    validateDistinctTables (toAsciiLowercase table.tableName :: seen) tables

def decimalDigits (n : Nat) : Nat := if n < 10 then 1 else decimalDigits (n / 10) + 1

/-- `table-`, at least eight decimal digits, and `.wal`. -/
def generatedRegistryMemberNameLen (index : Nat) : Nat := 6 + max (decimalDigits index) 8 + 4

def registryMemberName (index : Nat) : String :=
  let digits := toString index
  "table-" ++ String.ofList (List.replicate (8 - digits.length) '0') ++ digits ++ ".wal"

def registryManifestHeaderLen : Nat := 28

def bootstrapFrameBytes (tableNameBytes columnNameBytes rows : Nat) (nullable : Bool) : Nat :=
  saturatingAdd ((bootstrapPayloadLen tableNameBytes columnNameBytes rows nullable).getD usizeMax) int64WalFrameOverhead

/-- The preflight loop: the bootstrap and manifest bytes of the tables so far. -/
def preflightBytes (limits : Int64WriteAheadLogRegistryLimits) : (index bootstrapBytes manifestBytes : Nat) →
    List Int64WalRegistryTablePreflight → Except Int64WriteAheadLogRegistryError (Nat × Nat)
  | _, bootstrapBytes, manifestBytes, [] => .ok (bootstrapBytes, manifestBytes)
  | index, bootstrapBytes, manifestBytes, table :: tables => do
    let nameBytes := (utf8 table.tableName).length
    let columnBytes := (utf8 table.columnName).length
    match Int64WriteAheadLog.validateBootstrapLimits nameBytes columnBytes table.rows table.nullable limits.perTable with
    | .error error => .error (.member table.tableName "bootstrap" error)
    | .ok () =>
      let manifestBytes := saturatingAdd (saturatingAdd (saturatingAdd (saturatingAdd manifestBytes 4) nameBytes) 4)
        (generatedRegistryMemberNameLen index)
      let bootstrapBytes := saturatingAdd bootstrapBytes
        (bootstrapFrameBytes nameBytes columnBytes table.rows table.nullable)
      preflightBytes limits (index + 1) bootstrapBytes manifestBytes tables

def liftLimit (result : Except Int64WriteAheadLogRegistryLimitError Unit) : Except Int64WriteAheadLogRegistryError Unit :=
  match result with
  | .error error => .error (.limit error)
  | .ok () => .ok ()

def preflightRegistryTables (tables : List Int64WalRegistryTablePreflight) (limits : Int64WriteAheadLogRegistryLimits) :
    Except Int64WriteAheadLogRegistryError Unit := do
  validateRegistryTableCount tables.length limits
  validateDistinctTables [] tables
  let (bootstrapBytes, manifestBytes) ← preflightBytes limits 0 0 registryManifestHeaderLen tables
  validateManifestSize manifestBytes limits
  liftLimit (validateRegistryTotals bootstrapBytes tables.length limits)

structure Int64WriteAheadLogRegistry where
  writers : Map String Int64WriteAheadLog
  limits : Int64WriteAheadLogRegistryLimits
  totalWalBytes : Nat
  totalRecords : Nat
  poisoned : Bool

/-- The bytes a bootstrap state takes in memory: its fixed part, its names, and sixteen for each row. -/
def Int64WalBootstrap.memoryBytes (bootstrap : Int64WalBootstrap) : Nat :=
  216 + (utf8 bootstrap.tableName).length + (utf8 bootstrap.columnName).length + 16 * bootstrap.values.length

/-- The bootstrap states of one call, which share one address space. -/
structure BootstrapVec where
  tables : List Int64WalBootstrap
  addressable : (tables.map Int64WalBootstrap.memoryBytes).sum ≤ usizeMax

/-- What the operating system answers while a registry directory is created. -/
structure CreateRegistryIo where
  validDestination : Bool
  openParent : Option IoError
  createDirectory : Option IoError
  syncParent : Option IoError
  openDirectory : Option IoError
  members : Nat → Int64WriteAheadLog.CreateIo
  createManifest : Option IoError
  writeManifest : Option IoError
  syncManifest : Option IoError
  syncDirectory : Option IoError

def ioStep (fault : Option IoError) (error : IoError → Int64WriteAheadLogRegistryError) :
    Except Int64WriteAheadLogRegistryError Unit :=
  match fault with
  | none => .ok ()
  | some fault => .error (error fault)

/-- The member logs, created in order; `none` where a bootstrap encoder panics. -/
def createMembers (io : Nat → Int64WriteAheadLog.CreateIo) (limits : Int64WriteAheadLogLimits) :
    (index : Nat) → Map String Int64WriteAheadLog → List Int64WalBootstrap →
    Option (Except Int64WriteAheadLogRegistryError (Map String Int64WriteAheadLog))
  | _, writers, [] => some (.ok writers)
  | index, writers, bootstrap :: bootstraps => do
    match ← Int64WriteAheadLog.createInDirectory (io index) bootstrap limits with
    | .error error => some (.error (.member bootstrap.tableName (registryMemberName index) error))
    | .ok writer =>
      createMembers io limits (index + 1) (writers.insert (toAsciiLowercase bootstrap.tableName) writer) bootstraps

def Int64WalBootstrap.preflight (bootstrap : Int64WalBootstrap) : Int64WalRegistryTablePreflight :=
  { tableName := bootstrap.tableName, columnName := bootstrap.columnName, rows := bootstrap.values.length,
    nullable := bootstrap.nullable }

def Int64WalBootstrap.frameBytes (bootstrap : Int64WalBootstrap) : Nat :=
  bootstrapFrameBytes (utf8 bootstrap.tableName).length (utf8 bootstrap.columnName).length bootstrap.values.length
    bootstrap.nullable

/-- The checks and directory steps before the first member file. -/
def openRegistryDirectory (io : CreateRegistryIo) (bootstraps : List Int64WalBootstrap) (bootstrapBytes : Nat)
    (limits : Int64WriteAheadLogRegistryLimits) : Except Int64WriteAheadLogRegistryError Unit := do
  liftLimit (validateRegistryTotals bootstrapBytes bootstraps.length limits)
  failIf (¬ io.validDestination) .invalidDestination
  ioStep io.openParent .openParent
  ioStep io.createDirectory .createDirectory
  ioStep io.syncParent .syncParent
  ioStep io.openDirectory .openDirectory

def publishManifest (io : CreateRegistryIo) : Except Int64WriteAheadLogRegistryError Unit := do
  ioStep io.createManifest .createManifest
  ioStep io.writeManifest .writeManifest
  ioStep io.syncManifest .syncManifest
  ioStep io.syncDirectory .syncDirectory

def createRegistry (io : CreateRegistryIo) (bootstraps : BootstrapVec) (limits : Int64WriteAheadLogRegistryLimits) :
    Option (Except Int64WriteAheadLogRegistryError Int64WriteAheadLogRegistry) :=
  match preflightRegistryTables (bootstraps.tables.map Int64WalBootstrap.preflight) limits with
  | .error error => some (.error error)
  | .ok () =>
    let sorted := bootstraps.tables.insertionSort fun left right =>
      toAsciiLowercase left.tableName ≤ toAsciiLowercase right.tableName
    let bootstrapBytes := (sorted.map Int64WalBootstrap.frameBytes).foldl saturatingAdd 0
    match openRegistryDirectory io sorted bootstrapBytes limits with
    | .error error => some (.error error)
    | .ok () => do
      match ← createMembers io.members limits.perTable 0 ∅ sorted with
      | .error error => some (.error error)
      | .ok writers =>
        match publishManifest io with
        | .error error => some (.error error)
        | .ok () =>
          some (.ok { writers, limits, totalWalBytes := bootstrapBytes, totalRecords := sorted.length, poisoned := false })

/-! ## Registry commits -/

namespace Int64WriteAheadLogRegistry

def reserveRecord (registry : Int64WriteAheadLogRegistry) (bytes : Nat) :
    Except Int64WriteAheadLogCommitError Unit := do
  failIf registry.poisoned .poisoned
  let totalBytes := saturatingAdd registry.totalWalBytes bytes
  let totalRecords := saturatingAdd registry.totalRecords 1
  match validateRegistryTotals totalBytes totalRecords registry.limits with
  | .error error => .error (.registryLimit error)
  | .ok () => .ok ()

/-- Reserves the record, commits it with the member's writer and counts it. The result is
`none` where the code panics: no such member, a payload builder panics, or a sum overflows. -/
def commitMemberRecord (registry : Int64WriteAheadLogRegistry) (key : String) (bytes : Nat)
    (commit : Int64WriteAheadLog → Option (Int64WriteAheadLog × Except Int64WriteAheadLogError Unit)) :
    Option (Int64WriteAheadLogRegistry × Except Int64WriteAheadLogCommitError Unit) :=
  match registry.reserveRecord bytes with
  | .error error => some (registry, .error error)
  | .ok () => do
    let writer ← registry.writers.lookup key
    let (writer, result) ← commit writer
    let registry := { registry with writers := registry.writers.replace key writer }
    match result with
    | .ok () => do
      let totalWalBytes ← checkedAdd registry.totalWalBytes bytes
      let totalRecords ← checkedAdd registry.totalRecords 1
      some ({ registry with totalWalBytes, totalRecords }, .ok ())
    | .error (.limit error) => some (registry, .error (.limit error))
    | .error error => some ({ registry with poisoned := true }, .error error.toCommitError)

def appendValues (io : CommitIo) (registry : Int64WriteAheadLogRegistry) (table : String)
    (values : List (Option Int64)) :
    Option (Int64WriteAheadLogRegistry × Except Int64WriteAheadLogCommitError Unit) := do
  let key := toAsciiLowercase table
  let writer ← registry.writers.lookup key
  registry.commitMemberRecord key (writer.nextAppendBytes values.length) (·.appendValues io values)

def truncate (io : CommitIo) (registry : Int64WriteAheadLogRegistry) (table : String) :
    Option (Int64WriteAheadLogRegistry × Except Int64WriteAheadLogCommitError Unit) :=
  let key := toAsciiLowercase table
  registry.commitMemberRecord key int64WalFrameOverhead (·.truncate io)

def replaceValues (io : CommitIo) (registry : Int64WriteAheadLogRegistry) (table : String)
    (replacements : List (Nat × Option Int64)) :
    Option (Int64WriteAheadLogRegistry × Except Int64WriteAheadLogCommitError Unit) := do
  let key := toAsciiLowercase table
  let writer ← registry.writers.lookup key
  registry.commitMemberRecord key (writer.nextReplaceBytes replacements.length) (·.replaceValues io replacements)

def log (io : CommitIo) (registry : Int64WriteAheadLogRegistry) (table : String) :
    WalMutation → Option (Int64WriteAheadLogRegistry × Except Int64WriteAheadLogCommitError Unit)
  | .append values => registry.appendValues io table values
  | .truncate => registry.truncate io table
  | .replace replacements => registry.replaceValues io table replacements

end Int64WriteAheadLogRegistry

/-! ## The attached logs of a database -/

inductive ActiveInt64WriteAheadLogs where
  | single (writer : Int64WriteAheadLog)
  | registry (registry : Int64WriteAheadLogRegistry)

namespace ActiveInt64WriteAheadLogs

def tracks : ActiveInt64WriteAheadLogs → String → Bool
  | single writer, table => writer.tracks table
  | registry logs, table => (logs.writers.lookup (toAsciiLowercase table)).isSome

def log (io : CommitIo) (logs : ActiveInt64WriteAheadLogs) (table : String) (m : WalMutation) :
    Option (ActiveInt64WriteAheadLogs × Except Int64WriteAheadLogCommitError Unit) :=
  match logs with
  | single writer => do
    let (writer, result) ← writer.log io m
    match result with
    | .ok () => some (single writer, .ok ())
    | .error error => some (single writer, .error error.toCommitError)
  | registry logs => do
    let (logs, result) ← logs.log io table m
    some (registry logs, result)

end ActiveInt64WriteAheadLogs

end RustHouse
