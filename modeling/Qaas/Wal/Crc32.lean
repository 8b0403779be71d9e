import Mathlib.Data.List.Basic

/-! The CRC-32 that frames carry: reflected polynomial, all-ones start, complemented result. -/

namespace Qaas

/-- Shift one bit out of the remainder. -/
def crc32Bit (remainder : UInt32) : UInt32 :=
  if remainder &&& 1 = 1 then (remainder >>> 1) ^^^ 0xEDB88320 else remainder >>> 1

/-- Fold one byte into the remainder. -/
def crc32Byte (remainder : UInt32) (byte : UInt8) : UInt32 :=
  -- Eight single-bit shifts, one for each bit of the byte.
  Nat.repeat crc32Bit 8 (remainder ^^^ byte.toUInt32)

/-- `crc32fast::hash` -/
def crc32 (payload : List UInt8) : UInt32 :=
  payload.foldl crc32Byte 0xFFFFFFFF ^^^ 0xFFFFFFFF

/-- The checksum of no bytes at all is zero, so a header of zeros matches an empty payload. -/
theorem crc32_nil : crc32 [] = 0 := rfl

-- The published check value of this CRC, over the ASCII digits one to nine.
example : crc32 [0x31, 0x32, 0x33, 0x34, 0x35, 0x36, 0x37, 0x38, 0x39] = 0xCBF43926 := by decide +kernel

end Qaas
