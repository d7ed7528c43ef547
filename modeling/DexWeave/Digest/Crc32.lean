/-
  DexWeave/Digest/Crc32.lean --- the checksum of a container.

  WHAT THIS FILE IS FOR.  A container opens with the CRC-32 of everything behind
  its header: the reflected polynomial 0xEDB88320, all bits set before the first
  byte, and all bits flipped after the last one.
-/
import DexWeave.Bytes

set_option autoImplicit false

namespace DexWeave.Crc32

/-- The reflected generator polynomial. -/
def polynomial : UInt32 := 0xEDB88320

/-- Shifts one bit out of the register, and adds the polynomial if that bit was set. -/
def shiftBit (register : UInt32) : UInt32 :=
  if register &&& 1 = 1 then (register >>> 1) ^^^ polynomial else register >>> 1

/-- Takes one byte into the register. -/
def absorb (register : UInt32) (b : UInt8) : UInt32 :=
  Nat.repeat shiftBit 8 (register ^^^ b.toUInt32)

/-- The register after a byte string, from a given register on. -/
def run (register : UInt32) (bs : Bytes) : UInt32 := bs.foldl absorb register

/-- The checksum of a byte string. -/
def checksum (bs : Bytes) : UInt32 := run 0xFFFFFFFF bs ^^^ 0xFFFFFFFF

theorem run_append (register : UInt32) (front back : Bytes) :
    run register (front ++ back) = run (run register front) back :=
  List.foldl_append

/-- The check value of the parameters: the checksum of the digits from one to nine. -/
example :
    checksum [0x31, 0x32, 0x33, 0x34, 0x35, 0x36, 0x37, 0x38, 0x39] = 0xcbf43926 := by
  decide +kernel

end DexWeave.Crc32
