import RailBus.Checksum.Crc8
/-! # Blocks: the fixed-size messages of the bus

A block is nine bytes on the wire: an address, a command, six data bytes and a checksum.
Only the address byte may carry the sync bit 0x80, which marks the start of a block for a
receiver; the address 0xff reaches every unit and 0x80 to 0xbf reach one unit slot each.

The checksum is the CRC-8 of the first eight bytes, complemented when it is 0x80 or more
(`encodeCrc`), so it never carries the sync bit either. A received block is accepted by `valid`,
which tests the sync bits of bytes 1 to 7 through two 32-bit masks (`headMask` over the address,
command and the first two data bytes, `tailMask` over the last four data bytes) and compares the
checksum. The address byte is not tested.
-/

namespace RailBus

open Checksum

/-- Number of data bytes of a block. -/
def dataSize : Nat := 6

/-- Data bytes are read at literal positions of a `Vector UInt8 6`. Naming the instance makes
every such position refer to one closed proof. -/
instance sixNeZero : @NeZero Nat (@Zero.ofOfNat0 Nat (instOfNatNat 0)) 6 := ⟨by decide⟩

/-- The address byte received by every unit. -/
def broadcastAddress : UInt8 := 0xff

/-- The bit that marks the first byte of a block. -/
def syncBit : UInt8 := 0x80

/-- **Checksum byte as transmitted**: the CRC-8, complemented when it has the sync bit. -/
def encodeCrc (bytes : List UInt8) : UInt8 :=
  let crc := crc8 bytes
  if crc ≥ syncBit then ~~~crc else crc

/-- The address byte of unit slot `unit`, taken modulo 64. -/
def unitAddress (unit : UInt8) : UInt8 :=
  syncBit ||| (unit &&& 0x3f)

/-- The unit slot an address byte designates: none for the broadcast address, for addresses
0xc0 to 0xfe, and for bytes without the sync bit. -/
def unitIndex? (address : UInt8) : Option UInt8 :=
  if address &&& 0xc0 == syncBit then some (address &&& 0x3f) else none

/-- A bus message. -/
structure Block where
  address : UInt8
  command : UInt8
  data : Vector UInt8 6
  crc : UInt8
  deriving DecidableEq, Repr

namespace Block

/-- The eight bytes covered by the checksum. -/
def front (block : Block) : List UInt8 :=
  block.address :: block.command :: block.data.toList

/-- **A block with its checksum computed.** -/
def make (address command : UInt8) (data : Vector UInt8 6) : Block :=
  { address, command, data, crc := encodeCrc (address :: command :: data.toList) }

/-- A block to every unit. -/
def broadcast (command : UInt8) (data : Vector UInt8 6) : Block :=
  make broadcastAddress command data

/-- A block to the unit in slot `unit`. -/
def toUnit (unit : UInt8) (command : UInt8) (data : Vector UInt8 6) : Block :=
  make (unitAddress unit) command data

/-- Whether the block is addressed to every unit. -/
def isBroadcast (block : Block) : Bool :=
  block.address == broadcastAddress

/-- The unit slot of the sender or receiver, if the address designates one. -/
def unit? (block : Block) : Option UInt8 :=
  unitIndex? block.address

/-- The nine wire bytes. -/
def toBytes (block : Block) : List UInt8 :=
  block.front ++ [block.crc]

/-- Read a block from its nine wire bytes, taken as they are; another length is no block. -/
def ofBytes? : List UInt8 → Option Block
  | [address, command, d0, d1, d2, d3, d4, d5, crc] =>
    some { address, command, data := #v[d0, d1, d2, d3, d4, d5], crc }
  | _ => none

/-- Four bytes read as a big-endian 32-bit word. -/
def word (b0 b1 b2 b3 : UInt8) : UInt32 :=
  (b0.toUInt32 <<< 24) ||| (b1.toUInt32 <<< 16) ||| (b2.toUInt32 <<< 8) ||| b3.toUInt32

/-- The sync bits of command, data 0 and data 1 in the word of the first four bytes. -/
def headMask : UInt32 := 0x00808080

/-- The sync bits of data 2 to 5 in the word of the last four data bytes. -/
def tailMask : UInt32 := 0x80808080

/-- **A block a receiver accepts**: no sync bit after the address, and the checksum matches. -/
def valid (block : Block) : Bool :=
  let d := block.data
  word block.address block.command (d.get 0) (d.get 1) &&& headMask == 0
    && word (d.get 2) (d.get 3) (d.get 4) (d.get 5) &&& tailMask == 0
    && block.crc == encodeCrc block.front

end Block

end RailBus
