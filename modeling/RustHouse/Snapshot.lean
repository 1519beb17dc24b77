import RustHouse.Crc32
import RustHouse.Exec

/-!
# Snapshot codecs

The checksummed snapshot envelope and the two payloads of one nullable `Int64`
column that it carries: plain rows, and rows with the schema and the row cap of
their table. Every decoder checks the whole payload before it builds a value.
-/

namespace RustHouse

open Checked Exec Words

/-! ## Sizes and text -/

def tryU64 (n : Nat) : Option Nat := if n ≤ usizeMax then some n else none

def u64OrMax (n : Nat) : Nat := (tryU64 n).getD usizeMax

/-- Where UTF-8 validation stops. -/
structure Utf8Error where
  validUpTo : Nat
  errorLen : Option Nat
  deriving DecidableEq, Repr

/-- The ranges of the bytes that follow a leading byte. -/
def utf8Following (leading : UInt8) : Option (List (UInt8 × UInt8)) :=
  if leading < 0x80 then some []
  else if leading < 0xc2 then none
  else if leading < 0xe0 then some [(0x80, 0xbf)]
  else if leading = 0xe0 then some [(0xa0, 0xbf), (0x80, 0xbf)]
  else if leading = 0xed then some [(0x80, 0x9f), (0x80, 0xbf)]
  else if leading < 0xf0 then some [(0x80, 0xbf), (0x80, 0xbf)]
  else if leading = 0xf0 then some [(0x90, 0xbf), (0x80, 0xbf), (0x80, 0xbf)]
  else if leading < 0xf4 then some [(0x80, 0xbf), (0x80, 0xbf), (0x80, 0xbf)]
  else if leading = 0xf4 then some [(0x80, 0x8f), (0x80, 0xbf), (0x80, 0xbf)]
  else none

/-- The bytes after one character, or the length of the sequence that is not one. -/
def utf8Rest : Nat → List (UInt8 × UInt8) → Bytes → Except (Option Nat) Bytes
  | _, [], rest => .ok rest
  | _, _ :: _, [] => .error none
  | seen, (low, high) :: ranges, byte :: rest =>
    if low ≤ byte ∧ byte ≤ high then utf8Rest (seen + 1) ranges rest else .error (some seen)

def utf8Stop : Nat → Nat → Bytes → Utf8Error
  | 0, offset, _ => ⟨offset, none⟩
  | _ + 1, offset, [] => ⟨offset, none⟩
  | fuel + 1, offset, leading :: rest =>
    match utf8Following leading with
    | none => ⟨offset, some 1⟩
    | some ranges =>
      match utf8Rest 1 ranges rest with
      | .error errorLen => ⟨offset, errorLen⟩
      | .ok rest => utf8Stop fuel (offset + (1 + ranges.length)) rest

def utf8Error (bytes : Bytes) : Utf8Error := utf8Stop (bytes.length + 1) 0 bytes

/-! ## The envelope -/

inductive SnapshotError where
  | payloadTooLarge (payloadLen maxPayloadLen : Nat)
  | truncated (expectedLen actualLen : Nat)
  | incompatibleMagic (found : Bytes)
  | unsupportedVersion (found supported : UInt16)
  | trailingBytes (expectedLen actualLen : Nat)
  | checksumMismatch (expected actual : UInt32)
  deriving DecidableEq, Repr

def snapshotMagic : Bytes := ascii "RHOUSESN"
def snapshotVersion : UInt16 := 1
def snapshotHeaderLen : Nat := 8 + 2 + 8 + 4
def versionOffset : Nat := 8
def lengthOffset : Nat := versionOffset + 2
def checksumOffset : Nat := lengthOffset + 8

structure SnapshotCodec where
  maxPayloadLen : UInt64
  deriving DecidableEq, Repr

namespace SnapshotCodec

def encode (codec : SnapshotCodec) (payload : ByteSpan) : Exec SnapshotError ByteSpan := do
  let payloadLen := u64OrMax payload.val.length
  let tooLarge := SnapshotError.payloadTooLarge payloadLen codec.maxPayloadLen.toNat
  rejectIf (payload.val.length > codec.maxPayloadLen.toNat ∨ payloadLen = usizeMax) tooLarge
  let _totalLen ← getOr (checkedAdd snapshotHeaderLen payload.val.length) tooLarge
  let checksum := crc32 payload.val
  ByteSpan.collect (snapshotMagic ++ u16Bytes snapshotVersion ++ sizeBytes payloadLen ++ u32Bytes checksum ++ payload.val)

def decode (codec : SnapshotCodec) (envelope : ByteSpan) : Exec SnapshotError ByteSpan := do
  rejectIf (envelope.val.length < snapshotHeaderLen) (.truncated snapshotHeaderLen envelope.val.length)
  let foundMagic ← envelope.readArray 8 0
  rejectIf (foundMagic ≠ snapshotMagic) (.incompatibleMagic foundMagic)
  let version := u16OfBytes (← envelope.readArray 2 versionOffset)
  rejectIf (version ≠ snapshotVersion) (.unsupportedVersion version snapshotVersion)
  let declaredLen := ofLeBytes (← envelope.readArray 8 lengthOffset)
  let tooLarge := SnapshotError.payloadTooLarge declaredLen codec.maxPayloadLen.toNat
  rejectIf (declaredLen > codec.maxPayloadLen.toNat) tooLarge
  let expectedLen ← getOr (checkedAdd snapshotHeaderLen declaredLen) tooLarge
  rejectIf (envelope.val.length < expectedLen) (.truncated expectedLen envelope.val.length)
  rejectIf (envelope.val.length > expectedLen) (.trailingBytes expectedLen envelope.val.length)
  let expectedChecksum := u32OfBytes (← envelope.readArray 4 checksumOffset)
  let payload ← envelope.range snapshotHeaderLen expectedLen
  let actualChecksum := crc32 payload.val
  rejectIf (actualChecksum ≠ expectedChecksum) (.checksumMismatch expectedChecksum actualChecksum)
  .ok payload

end SnapshotCodec

/-! ## Tagged rows -/

def nullableI64NullTag : UInt8 := 0
def nullableI64ValueTag : UInt8 := 1

def optionalValueLen : Option Int64 → Nat
  | none => 1
  | some _ => 1 + 8

def pushOptionalValue : Option Int64 → Bytes
  | none => [nullableI64NullTag]
  | some value => nullableI64ValueTag :: i64Bytes value

def optionalRowsLen (start : Nat) (rows : List (Option Int64)) : Option Nat :=
  rows.foldlM (fun length value => checkedAdd length (optionalValueLen value)) start

/-- What a validation of tagged rows reports, each failure with its row. -/
structure TaggedRowErrors (ε : Type) where
  truncated : Nat → Nat → ε
  null : Nat → Exec ε Unit
  unknownTag : Nat → UInt8 → ε
  trailing : Nat → Nat → ε

section
variable {ε : Type} (errors : TaggedRowErrors ε) (payload : ByteSpan)

def validateTaggedRow (offset rowIndex : Nat) : Exec ε Nat := do
  let tagEnd := saturatingAdd offset 1
  let tag ← getOr payload.val[offset]? (errors.truncated tagEnd payload.val.length)
  if tag = nullableI64NullTag then
    errors.null rowIndex
    .ok tagEnd
  else if tag = nullableI64ValueTag then
    let valueEnd := saturatingAdd tagEnd 8
    rejectIf (payload.val.length < valueEnd) (errors.truncated valueEnd payload.val.length)
    .ok valueEnd
  else .error (errors.unknownTag rowIndex tag)

def validateTaggedRowsFrom (offset rowIndex : Nat) : Nat → Exec ε Nat
  | 0 => .ok offset
  | rows + 1 => do
    let offset ← validateTaggedRow errors payload offset rowIndex
    validateTaggedRowsFrom offset (rowIndex + 1) rows

def validateTaggedRows (offset rowCount : Nat) : Exec ε Unit := do
  let offset ← validateTaggedRowsFrom errors payload offset 0 rowCount
  rejectIf (payload.val.length > offset) (errors.trailing offset payload.val.length)

def readTaggedRows (offset : Nat) : Nat → Exec ε (List (Option Int64))
  | 0 => .ok []
  | rows + 1 => do
    let tag ← orPanic payload.val[offset]?
    if tag = nullableI64NullTag then
      let rest ← readTaggedRows (offset + 1) rows
      .ok (none :: rest)
    else
      let value := i64OfBytes (← payload.readArray 8 (offset + 1))
      let rest ← readTaggedRows (offset + 1 + 8) rows
      .ok (some value :: rest)

end

/-! ## Plain rows -/

inductive NullableI64PayloadError where
  | rowLimitExceeded (rowCount maxRows : Nat)
  | payloadTooLarge (payloadLen maxPayloadLen : Nat)
  | truncated (expectedLen actualLen : Nat)
  | invalidTag (rowIndex : Nat) (tag : UInt8)
  | trailingData (expectedLen actualLen : Nat)
  deriving DecidableEq, Repr

def nullableI64PayloadHeaderLen : Nat := 8

def validateNullableI64Rows (payload : ByteSpan) (rowCount : Nat) : Exec NullableI64PayloadError Unit :=
  validateTaggedRows
    { truncated := .truncated, null := fun _ => .ok (), unknownTag := .invalidTag, trailing := .trailingData }
    payload nullableI64PayloadHeaderLen rowCount

structure NullableI64PayloadCodec where
  maxRows : UInt64
  maxPayloadLen : UInt64
  deriving DecidableEq, Repr

namespace NullableI64PayloadCodec

def encode (codec : NullableI64PayloadCodec) (rows : List (Option Int64)) :
    Exec NullableI64PayloadError ByteSpan := do
  let maxRows := codec.maxRows.toNat
  let maxPayloadLen := codec.maxPayloadLen.toNat
  let rowCount ← getOr (tryU64 rows.length) (.rowLimitExceeded usizeMax maxRows)
  rejectIf (rows.length > maxRows) (.rowLimitExceeded rowCount maxRows)
  let payloadLen ← getOr (optionalRowsLen nullableI64PayloadHeaderLen rows) (.payloadTooLarge usizeMax maxPayloadLen)
  rejectIf (payloadLen > maxPayloadLen) (.payloadTooLarge (u64OrMax payloadLen) maxPayloadLen)
  ByteSpan.collect (sizeBytes rowCount ++ rows.flatMap pushOptionalValue)

def decode (codec : NullableI64PayloadCodec) (payload : ByteSpan) :
    Exec NullableI64PayloadError (List (Option Int64)) := do
  let maxRows := codec.maxRows.toNat
  let maxPayloadLen := codec.maxPayloadLen.toNat
  rejectIf (payload.val.length > maxPayloadLen) (.payloadTooLarge (u64OrMax payload.val.length) maxPayloadLen)
  rejectIf (payload.val.length < nullableI64PayloadHeaderLen) (.truncated nullableI64PayloadHeaderLen payload.val.length)
  let rowCount := ofLeBytes (← payload.readArray 8 0)
  rejectIf (rowCount > maxRows) (.rowLimitExceeded rowCount maxRows)
  let minimumLen ← getOr (checkedAdd nullableI64PayloadHeaderLen rowCount) (.payloadTooLarge usizeMax maxPayloadLen)
  rejectIf (minimumLen > maxPayloadLen) (.payloadTooLarge (u64OrMax minimumLen) maxPayloadLen)
  rejectIf (payload.val.length < minimumLen) (.truncated minimumLen payload.val.length)
  validateNullableI64Rows payload rowCount
  readTaggedRows payload nullableI64PayloadHeaderLen rowCount

end NullableI64PayloadCodec

/-! ## One-column tables -/

inductive InsertError where
  | nullNotAllowed (column : String)
  | rowCapExceeded (rowCap currentRows incomingRows : Nat)
  deriving DecidableEq, Repr

inductive DataType where
  | int64
  deriving DecidableEq, Repr

structure ColumnSchema where
  name : String
  dataType : DataType
  nullable : Bool
  deriving DecidableEq, Repr

structure Schema where
  column : ColumnSchema
  deriving DecidableEq, Repr

def Schema.int64 (name : String) (nullable : Bool) : Schema := ⟨⟨name, .int64, nullable⟩⟩

/-- A bounded table of one nullable `Int64` column. -/
@[ext] structure Int64Table where
  schema : Schema
  values : List (Option Int64)
  rowCap : UInt64
  withinCap : values.length ≤ rowCap.toNat
  nullsAllowed : schema.column.nullable = false → none ∉ values
  deriving DecidableEq

namespace Int64Table

def new (schema : Schema) (rowCap : UInt64) : Int64Table where
  schema
  values := []
  rowCap
  withinCap := Nat.zero_le _
  nullsAllowed := by simp

def validateAppend (table : Int64Table) (values : List (Option Int64)) : Except InsertError Unit := do
  failIf (values.length > table.rowCap.toNat - table.values.length)
    (.rowCapExceeded table.rowCap.toNat table.values.length values.length)
  failIf (¬ table.schema.column.nullable ∧ none ∈ values) (.nullNotAllowed table.schema.column.name)

theorem validateAppend_eq_ok {table : Int64Table} {values : List (Option Int64)} :
    table.validateAppend values = .ok () ↔ table.values.length + values.length ≤ table.rowCap.toNat ∧
      (table.schema.column.nullable = false → none ∉ values) := by
  have := table.withinCap
  simp only [validateAppend, Checked.bind_eq_ok, failIf_eq_ok, not_and, Bool.not_eq_true]
  constructor
  · rintro ⟨_, hcap, hnull⟩
    exact ⟨by omega, hnull⟩
  · rintro ⟨hcap, hnull⟩
    exact ⟨(), by omega, hnull⟩

def appendBatch (table : Int64Table) (values : List (Option Int64)) : Except InsertError Int64Table :=
  match h : table.validateAppend values with
  | .error e => .error e
  | .ok () => .ok { table with
      values := table.values ++ values
      withinCap := by
        rw [List.length_append]; exact (validateAppend_eq_ok.1 h).1
      nullsAllowed := fun hnullable hmem => by
        rcases List.mem_append.1 hmem with hmem | hmem
        · exact table.nullsAllowed hnullable hmem
        · exact (validateAppend_eq_ok.1 h).2 hnullable hmem }

theorem appendBatch_of_ok {table : Int64Table} {values : List (Option Int64)} (h : table.validateAppend values = .ok ()) :
    ∃ table', table.appendBatch values = .ok table' ∧ table'.schema = table.schema ∧ table'.rowCap = table.rowCap ∧
      table'.values = table.values ++ values := by
  unfold appendBatch
  split
  · rename_i h'; rw [h] at h'; cases h'
  · exact ⟨_, rfl, rfl, rfl, rfl⟩

def append (table : Int64Table) (value : Option Int64) : Except InsertError Int64Table := table.appendBatch [value]

end Int64Table

/-! ## Tables with their schema -/

inductive Int64TablePayloadError where
  | nameTooLong (nameLen maxNameLen : Nat)
  | rowCapLimitExceeded (rowCap maxRows : Nat)
  | rowLimitExceeded (rowCount maxRows : Nat)
  | payloadTooLarge (payloadLen maxPayloadLen : Nat)
  | truncated (expectedLen actualLen : Nat)
  | incompatibleMagic (found : Bytes)
  | unsupportedVersion (found supported : UInt16)
  | unknownColumnTypeTag (tag : UInt8)
  | unknownNullabilityTag (tag : UInt8)
  | invalidColumnNameUtf8 (validUpTo : Nat) (errorLen : Option Nat)
  | rowsExceedRowCap (rowCount rowCap : Nat)
  | unknownRowTag (rowIndex : Nat) (tag : UInt8)
  | nullNotAllowed (rowIndex : Nat)
  | trailingData (expectedLen actualLen : Nat)
  deriving DecidableEq, Repr

def int64TablePayloadMagic : Bytes := ascii "RHITBLP\x00"
def int64TablePayloadVersion : UInt16 := 1
def int64TableInt64Tag : UInt8 := 1
def int64TableNotNullTag : UInt8 := 0
def int64TableNullableTag : UInt8 := 1
def int64TablePayloadVersionOffset : Nat := 8
def int64TablePayloadTypeOffset : Nat := int64TablePayloadVersionOffset + 2
def int64TablePayloadNullabilityOffset : Nat := int64TablePayloadTypeOffset + 1
def int64TablePayloadNameLengthOffset : Nat := int64TablePayloadNullabilityOffset + 1
def int64TablePayloadNameOffset : Nat := int64TablePayloadNameLengthOffset + 8
/-- The fixed fields: those before the name, the row cap and the row count. -/
def int64TablePayloadFixedLen : Nat := 8 + 2 + 2 * 1 + 3 * 8

def validateInt64TableRows (payload : ByteSpan) (rowsOffset rowCount : Nat) (nullable : Bool) :
    Exec Int64TablePayloadError Unit :=
  validateTaggedRows
    { truncated := .truncated, null := fun rowIndex => rejectIf (¬ nullable) (.nullNotAllowed rowIndex)
      unknownTag := .unknownRowTag, trailing := .trailingData }
    payload rowsOffset rowCount

structure Int64TablePayloadCodec where
  maxNameLen : UInt64
  maxRows : UInt64
  maxPayloadLen : UInt64
  deriving DecidableEq, Repr

namespace Int64TablePayloadCodec

def validateMetadata (codec : Int64TablePayloadCodec) (name : String) (rowCap : UInt64) (rowCount : Nat) :
    Exec Int64TablePayloadError (Nat × Nat × Nat) := do
  let nameLen := u64OrMax (utf8 name).length
  rejectIf ((utf8 name).length > codec.maxNameLen.toNat) (.nameTooLong nameLen codec.maxNameLen.toNat)
  rejectIf (rowCap > codec.maxRows) (.rowCapLimitExceeded rowCap.toNat codec.maxRows.toNat)
  let encodedRowCount := u64OrMax rowCount
  rejectIf (rowCount > codec.maxRows.toNat) (.rowLimitExceeded encodedRowCount codec.maxRows.toNat)
  .ok (nameLen, rowCap.toNat, encodedRowCount)

/-- The payload up to its rows, once the length of the whole payload is within the limits. -/
def encodePrefix (codec : Int64TablePayloadCodec) (name : String) (nullable : Bool) (metadata : Nat × Nat × Nat)
    (encodedRowsLen : Option Nat) : Exec Int64TablePayloadError Bytes := do
  let (nameLen, rowCap, rowCount) := metadata
  let maxPayloadLen := codec.maxPayloadLen.toNat
  let payloadLen? := encodedRowsLen.bind fun encodedRowsLen =>
    (checkedAdd int64TablePayloadFixedLen (utf8 name).length).bind (checkedAdd · encodedRowsLen)
  let payloadLen ← getOr payloadLen? (.payloadTooLarge usizeMax maxPayloadLen)
  rejectIf (payloadLen > maxPayloadLen) (.payloadTooLarge (u64OrMax payloadLen) maxPayloadLen)
  .ok (int64TablePayloadMagic ++ u16Bytes int64TablePayloadVersion ++ [int64TableInt64Tag] ++
    [if nullable then int64TableNullableTag else int64TableNotNullTag] ++ sizeBytes nameLen ++ utf8 name ++
    sizeBytes rowCap ++ sizeBytes rowCount)

def encodeOptionalValues (codec : Int64TablePayloadCodec) (name : String) (nullable : Bool) (rowCap : UInt64)
    (values : List (Option Int64)) : Exec Int64TablePayloadError ByteSpan := do
  let metadata ← codec.validateMetadata name rowCap values.length
  let head ← codec.encodePrefix name nullable metadata (optionalRowsLen 0 values)
  ByteSpan.collect (head ++ values.flatMap pushOptionalValue)

def encode (codec : Int64TablePayloadCodec) (table : Int64Table) : Exec Int64TablePayloadError ByteSpan :=
  codec.encodeOptionalValues table.schema.column.name table.schema.column.nullable table.rowCap table.values

/-- The schema fields of a payload, and the offset of what follows the name. -/
def decodeSchema (codec : Int64TablePayloadCodec) (payload : ByteSpan) :
    Exec Int64TablePayloadError (String × Bool × Nat) := do
  let maxPayloadLen := codec.maxPayloadLen.toNat
  rejectIf (payload.val.length > maxPayloadLen) (.payloadTooLarge (u64OrMax payload.val.length) maxPayloadLen)
  rejectIf (payload.val.length < int64TablePayloadNameOffset) (.truncated int64TablePayloadNameOffset payload.val.length)
  let foundMagic ← payload.readArray 8 0
  rejectIf (foundMagic ≠ int64TablePayloadMagic) (.incompatibleMagic foundMagic)
  let version := u16OfBytes (← payload.readArray 2 int64TablePayloadVersionOffset)
  rejectIf (version ≠ int64TablePayloadVersion) (.unsupportedVersion version int64TablePayloadVersion)
  let typeTag ← orPanic payload.val[int64TablePayloadTypeOffset]?
  rejectIf (typeTag ≠ int64TableInt64Tag) (.unknownColumnTypeTag typeTag)
  let nullabilityTag ← orPanic payload.val[int64TablePayloadNullabilityOffset]?
  rejectIf (nullabilityTag ≠ int64TableNotNullTag ∧ nullabilityTag ≠ int64TableNullableTag)
    (.unknownNullabilityTag nullabilityTag)
  let nullable : Bool := nullabilityTag = int64TableNullableTag
  let nameLen := ofLeBytes (← payload.readArray 8 int64TablePayloadNameLengthOffset)
  rejectIf (nameLen > codec.maxNameLen.toNat) (.nameTooLong nameLen codec.maxNameLen.toNat)
  let nameEnd ← getOr (checkedAdd int64TablePayloadNameOffset nameLen) (.payloadTooLarge usizeMax maxPayloadLen)
  rejectIf (payload.val.length < nameEnd) (.truncated nameEnd payload.val.length)
  let nameBytes ← payload.range int64TablePayloadNameOffset nameEnd
  let error := utf8Error nameBytes.val
  let name ← getOr (fromUtf8 nameBytes.val) (.invalidColumnNameUtf8 error.validUpTo error.errorLen)
  .ok (name, nullable, nameEnd)

def decode (codec : Int64TablePayloadCodec) (payload : ByteSpan) : Exec Int64TablePayloadError Int64Table := do
  let maxRows := codec.maxRows.toNat
  let maxPayloadLen := codec.maxPayloadLen.toNat
  let (name, nullable, nameEnd) ← codec.decodeSchema payload
  let rowsOffset ← getOr (checkedAdd nameEnd (2 * 8)) (.payloadTooLarge usizeMax maxPayloadLen)
  rejectIf (rowsOffset > maxPayloadLen) (.payloadTooLarge (u64OrMax rowsOffset) maxPayloadLen)
  rejectIf (payload.val.length < rowsOffset) (.truncated rowsOffset payload.val.length)
  let rowCap := u64OfBytes (← payload.readArray 8 nameEnd)
  rejectIf (rowCap > codec.maxRows) (.rowCapLimitExceeded rowCap.toNat maxRows)
  let rowCount := ofLeBytes (← payload.readArray 8 (nameEnd + 8))
  rejectIf (rowCount > maxRows) (.rowLimitExceeded rowCount maxRows)
  rejectIf (rowCount > rowCap.toNat) (.rowsExceedRowCap rowCount rowCap.toNat)
  let minimumLen ← getOr (checkedAdd rowsOffset rowCount) (.payloadTooLarge usizeMax maxPayloadLen)
  rejectIf (minimumLen > maxPayloadLen) (.payloadTooLarge (u64OrMax minimumLen) maxPayloadLen)
  rejectIf (payload.val.length < minimumLen) (.truncated minimumLen payload.val.length)
  validateInt64TableRows payload rowsOffset rowCount nullable
  let rows ← readTaggedRows payload rowsOffset rowCount
  -- The payload was validated whole, so the append is expected to succeed.
  match (Int64Table.new (Schema.int64 name nullable) rowCap).appendBatch rows with
  | .ok table => .ok table
  | .error _ => .panic

end Int64TablePayloadCodec

end RustHouse
