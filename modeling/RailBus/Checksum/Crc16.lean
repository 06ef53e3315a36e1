/-! # The frame checksum: CRC-16 with reflected polynomial 0xa001

Firmware frames are protected by the CRC-16 with polynomial `x¹⁶ + x¹⁵ + x² + 1`, processed
least significant bit first (reflected polynomial 0xa001), with initial value 0xffff and no final
exclusive or (the variant catalogued as CRC-16/MODBUS; its check value over the ASCII text
`123456789` is 0x4b37).

A frame's checksum covers its start address field followed by its payload, so `crc16` takes
both parts; it is the checksum of their concatenation (`crc16_eq`).
-/

namespace RailBus.Checksum

/-- The reflected generator polynomial. -/
def poly16 : UInt16 := 0xa001

/-- One shift of the reflected register: the low bit leaves, and when it was set the
polynomial is added. -/
def shift16 (reg : UInt16) : UInt16 :=
  if reg &&& 1 == 0 then reg >>> 1 else (reg >>> 1) ^^^ poly16

/-- `count` shifts of the register. -/
def shifts16 : Nat → UInt16 → UInt16
  | 0, reg => reg
  | count + 1, reg => shift16 (shifts16 count reg)

/-- One byte into the register: add it into the low byte, then shift eight times. -/
def feed16 (reg : UInt16) (byte : UInt8) : UInt16 :=
  shifts16 8 (reg ^^^ byte.toUInt16)

/-- Continue a checksum over more bytes. -/
def crc16From (reg : UInt16) (bytes : List UInt8) : UInt16 :=
  bytes.foldl feed16 reg

/-- The register before any byte. -/
def crc16Init : UInt16 := 0xffff

/-- **The CRC-16 of a frame**, over its start field and then its payload. -/
def crc16 (start payload : List UInt8) : UInt16 :=
  crc16From (crc16From crc16Init start) payload

/-- The two parts are checksummed as one byte list. -/
theorem crc16_eq (start payload : List UInt8) :
    crc16 start payload = crc16From crc16Init (start ++ payload) := by
  simp [crc16, crc16From, List.foldl_append]

end RailBus.Checksum
