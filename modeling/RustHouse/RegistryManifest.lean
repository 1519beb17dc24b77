import RustHouse.Exec
import RustHouse.Paths
import RustHouse.Registry

/-!
# The registry manifest

The file that lists the tables of a registry and their member files. Counts and
lengths are written as their low 32 bits. The decoder checks the header, the
checksum and every descriptor: names in order, members distinct and safe.
-/

namespace RustHouse

open Checked Exec Words

def registryManifestName : String := "manifest.rhi64"
def registryManifestMagic : Bytes := ascii "RHI64REG"
def registryManifestVersion : UInt16 := 1
def registryDescriptorMinPayloadLen : Nat := 8

structure RegistryDescriptor where
  table : String
  member : String
  deriving DecidableEq, Repr

/-! ## Encoding -/

def u32SizeBytes (n : Nat) : Bytes := leBytes 4 n

def pushRegistryBytes (bytes : Bytes) : Bytes := u32SizeBytes bytes.length ++ bytes

def RegistryDescriptor.bytes (descriptor : RegistryDescriptor) : Bytes :=
  pushRegistryBytes (utf8 descriptor.table) ++ pushRegistryBytes (utf8 descriptor.member)

def registryManifestChecksum (entries : Nat) (payload : Bytes) : UInt32 :=
  let checksum := crc32Update 0xffffffff (u16Bytes registryManifestVersion)
  let checksum := crc32Update checksum (u16Bytes 0)
  let checksum := crc32Update checksum (u32SizeBytes entries)
  let checksum := crc32Update checksum (sizeBytes payload.length)
  ~~~ (crc32Update checksum payload)

def encodeRegistryManifest (descriptors : List RegistryDescriptor) : Exec Int64WriteAheadLogRegistryError ByteSpan :=
  let payload := descriptors.flatMap RegistryDescriptor.bytes
  let checksum := registryManifestChecksum descriptors.length payload
  ByteSpan.collect (registryManifestMagic ++ u16Bytes registryManifestVersion ++ u16Bytes 0 ++
    u32SizeBytes descriptors.length ++ sizeBytes payload.length ++ u32Bytes checksum ++ payload)

def registryDescriptors (bootstraps : List Int64WalBootstrap) : List RegistryDescriptor :=
  bootstraps.mapIdx fun index bootstrap => ⟨bootstrap.tableName, registryMemberName index⟩

def createdManifest (bootstraps : List Int64WalBootstrap) : Exec Int64WriteAheadLogRegistryError ByteSpan :=
  let sorted := bootstraps.insertionSort fun left right =>
    toAsciiLowercase left.tableName ≤ toAsciiLowercase right.tableName
  encodeRegistryManifest (registryDescriptors sorted)

/-! ## Decoding -/

def corrupt (corruption : Int64WriteAheadLogRegistryCorruption) : Int64WriteAheadLogRegistryError := .corruption corruption

/-- A member is one plain component of a path, and not the manifest. -/
def safeRegistryMember (member : String) : Bool :=
  !member.isEmpty && member != "." && member != ".." &&
    toAsciiLowercase member != toAsciiLowercase registryManifestName && !(utf8 member).contains 0 &&
    !(utf8 member).contains slash &&
    (pathComponents (utf8 member)).all fun | .normal _ => true | _ => false

def registryString (field : String) (payload : Bytes) : Exec Int64WriteAheadLogRegistryError (String × Bytes) := do
  let (lengthBytes, rest) ← getOr (takeBytes 4 payload) (corrupt (.manifestPayload field))
  let (bytes, rest) ← getOr (takeBytes (ofLeBytes lengthBytes) rest) (corrupt (.manifestPayload field))
  let value ← getOr (fromUtf8 bytes) (corrupt (.manifestPayload field))
  .ok (value, rest)

/-- A table's name comes after the one before it. -/
def inOrder (previous : Option RegistryDescriptor) (table : String) : Exec Int64WriteAheadLogRegistryError Unit :=
  match previous with
  | none => .ok ()
  | some previous =>
    rejectIf (toAsciiLowercase table ≤ toAsciiLowercase previous.table)
      (corrupt (.nonDeterministicOrder previous.table table))

/-- The next `count` descriptors, after those whose names and last member are given. -/
def readRegistryDescriptors (tables members : List String) (previous : Option RegistryDescriptor) :
    Nat → Bytes → Exec Int64WriteAheadLogRegistryError (List RegistryDescriptor × Bytes)
  | 0, payload => .ok ([], payload)
  | count + 1, payload => do
    let (table, rest) ← registryString "table name" payload
    let (member, rest) ← registryString "member name" rest
    let normalized := toAsciiLowercase table
    rejectIf (normalized ∈ tables) (corrupt (.duplicateTable table))
    inOrder previous table
    let normalizedMember := toAsciiLowercase member
    rejectIf (normalizedMember ∈ members) (corrupt (.duplicateMember member))
    rejectIf (¬ safeRegistryMember member) (corrupt (.invalidMember member))
    let (descriptors, rest) ← readRegistryDescriptors (normalized :: tables) (normalizedMember :: members)
      (some ⟨table, member⟩) count rest
    .ok (⟨table, member⟩ :: descriptors, rest)

def checked {ε α : Type} : Except ε α → Exec ε α
  | .ok a => .ok a
  | .error e => .error e

def decodeRegistryManifest (bytes : ByteSpan) (limits : Int64WriteAheadLogRegistryLimits) :
    Exec Int64WriteAheadLogRegistryError (List RegistryDescriptor) := do
  rejectIf (bytes.val.length < registryManifestHeaderLen) (corrupt (.manifestPayload "header"))
  let magic ← bytes.readArray 8 0
  rejectIf (magic ≠ registryManifestMagic) (corrupt (.manifestMagic magic))
  let version := u16OfBytes (← bytes.readArray 2 8)
  rejectIf (version ≠ registryManifestVersion) (corrupt (.manifestVersion version registryManifestVersion))
  let reserved := u16OfBytes (← bytes.readArray 2 10)
  rejectIf (reserved ≠ 0) (corrupt (.manifestReserved reserved))
  let count := ofLeBytes (← bytes.readArray 4 12)
  checked (validateRegistryTableCount count limits)
  let declared := ofLeBytes (← bytes.readArray 8 16)
  let actual := bytes.val.length - registryManifestHeaderLen
  rejectIf (declared ≠ actual) (corrupt (.manifestLength declared actual))
  let expected := u32OfBytes (← bytes.readArray 4 24)
  let payload ← bytes.range registryManifestHeaderLen bytes.val.length
  let actualChecksum := registryManifestChecksum count payload.val
  rejectIf (expected ≠ actualChecksum) (corrupt (.manifestChecksum expected actualChecksum))
  rejectIf (count > payload.val.length / registryDescriptorMinPayloadLen) (corrupt (.manifestPayload "descriptor count"))
  let (descriptors, rest) ← readRegistryDescriptors [] [] none count payload.val
  rejectIf (rest ≠ []) (corrupt (.manifestPayload "trailing bytes"))
  .ok descriptors

end RustHouse
