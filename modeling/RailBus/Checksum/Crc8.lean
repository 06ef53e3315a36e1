/-! # The block checksum: CRC-8 with polynomial 0x07

Blocks are protected by the CRC-8 whose polynomial is `x⁸ + x² + x + 1` (0x07), with initial
value 0, processed most significant bit first, with neither input nor output reflected and no
final exclusive or (the variant catalogued as CRC-8/SMBUS; its check value over the ASCII text
`123456789` is 0xf4).

The register is shifted one bit at a time (`shift`), eight shifts per byte after the byte is
added into the register (`feed`), and the checksum of a byte list is the fold of `feed` over it
from 0 (`crc8`). The fold form gives the law for a concatenation at once (`crc8_append`).
-/

namespace RailBus.Checksum

/-- The generator polynomial without its leading term. -/
def poly8 : UInt8 := 0x07

/-- One shift of the register: the top bit leaves, and when it was set the polynomial is added. -/
def shift8 (reg : UInt8) : UInt8 :=
  if reg &&& 0x80 == 0 then reg <<< 1 else (reg <<< 1) ^^^ poly8

/-- `count` shifts of the register. -/
def shifts8 : Nat → UInt8 → UInt8
  | 0, reg => reg
  | count + 1, reg => shift8 (shifts8 count reg)

/-- One byte into the register: add it, then shift eight times. -/
def feed8 (reg byte : UInt8) : UInt8 :=
  shifts8 8 (reg ^^^ byte)

/-- Continue a checksum over more bytes. -/
def crc8From (reg : UInt8) (bytes : List UInt8) : UInt8 :=
  bytes.foldl feed8 reg

/-- **The CRC-8 of a byte list**, starting from a zero register. -/
def crc8 (bytes : List UInt8) : UInt8 :=
  crc8From 0 bytes

@[simp] theorem crc8From_nil (reg : UInt8) : crc8From reg [] = reg := rfl

@[simp] theorem crc8From_cons (reg byte : UInt8) (rest : List UInt8) :
    crc8From reg (byte :: rest) = crc8From (feed8 reg byte) rest := rfl

theorem crc8From_append (reg : UInt8) (front back : List UInt8) :
    crc8From reg (front ++ back) = crc8From (crc8From reg front) back := by
  simp [crc8From, List.foldl_append]

/-- The checksum of a concatenation continues the checksum of its first part. -/
theorem crc8_append (front back : List UInt8) :
    crc8 (front ++ back) = crc8From (crc8 front) back :=
  crc8From_append 0 front back

end RailBus.Checksum
