/-!
# CRC-32

The cyclic redundancy check with the reflected polynomial `0xEDB88320`, all ones as its start and a
final complement.
-/

namespace Sharding.Algorithm

/-- One bit of the remainder. -/
def shiftBit (c : UInt32) : UInt32 :=
  if c &&& 1 = 1 then (c >>> 1) ^^^ 0xEDB88320 else c >>> 1

def shiftByte (c : UInt32) (byte : UInt8) : UInt32 :=
  Nat.repeat shiftBit 8 (c ^^^ byte.toUInt32)

def crc32 (bytes : List UInt8) : UInt32 :=
  bytes.foldl shiftByte 0xFFFFFFFF ^^^ 0xFFFFFFFF

end Sharding.Algorithm
