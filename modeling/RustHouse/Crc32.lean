import RustHouse.Words

/-!
# CRC-32

The reflected CRC-32 register that the write-ahead log and the snapshots
update bit by bit.
-/

namespace RustHouse

open Words

def crc32Shift (checksum : UInt32) : UInt32 := (checksum >>> 1) ^^^ (0xedb88320 &&& (0 - (checksum &&& 1)))

def crc32Update (checksum : UInt32) (bytes : Bytes) : UInt32 :=
  bytes.foldl (fun checksum byte => Nat.repeat crc32Shift 8 (checksum ^^^ byte.toUInt32)) checksum

def crc32 (bytes : Bytes) : UInt32 := ~~~ (crc32Update 0xffffffff bytes)

end RustHouse
