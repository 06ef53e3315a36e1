/-! # Values carried in 7-bit data bytes

Every data byte of a block keeps its top bit clear, so wider values travel in parts of seven
bits. A 14-bit value (a loco address, a turnout number, an index, a CV number) is two bytes, high
part first (`split14`, `join14`); an 8-bit CV value is its top bit and then its seven low bits
(`split8`, `join8`).
-/

namespace RailBus.Septets

/-- **Split a 14-bit value** into two 7-bit bytes, high part first; bits above 13 are dropped. -/
def split14 (value : UInt16) : UInt8 × UInt8 :=
  (((value >>> 7) &&& 0x7f).toUInt8, (value &&& 0x7f).toUInt8)

/-- **Join two 7-bit bytes**, high part first; the top bit of each byte is ignored. -/
def join14 (high low : UInt8) : UInt16 :=
  ((high.toUInt16 &&& 0x7f) <<< 7) ||| (low.toUInt16 &&& 0x7f)

/-- An 8-bit value as its top bit and its seven low bits. -/
def split8 (value : UInt8) : UInt8 × UInt8 :=
  (value >>> 7, value &&& 0x7f)

/-- Join the top bit (the low bit of `high`) and the seven low bits of an 8-bit value. -/
def join8 (high low : UInt8) : UInt8 :=
  ((high &&& 1) <<< 7) ||| (low &&& 0x7f)

end RailBus.Septets
