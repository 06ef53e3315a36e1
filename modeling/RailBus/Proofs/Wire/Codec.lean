import Mathlib
import RailBus.Proofs.Wire.SevenBit
import RailBus.Proofs.Wire.ErrorDetection
/-! # Reading back what is put on the wire

A block is read back from its nine wire bytes and the wire bytes from the block
(`Block.ofBytes?_toBytes`, `Block.toBytes_ofBytes?`). The receiver's packed test of the sync bits
is the bytewise one (`Block.valid_iff_syncBit`), so a block built from an address, a command and
data validates exactly when the command and the data fit seven bits (`Block.valid_make_iff`); the
main statement collects these laws (`Block.valid_bytewise_and_round_trip`).

The fields inside data bytes read back up to their widths: a 14-bit pair gives its value modulo
`2 ^ 14` (`Septets.join14_split14`), the drive byte gives the drive it was built from
(`Drive.ofByte_toByte`), and a format gives itself through its three bits (`Format.ofBits_bits`).
-/

namespace RailBus

namespace Block

/-- The block read from nine bytes has those bytes as its wire form. -/
theorem toBytes_ofBytes? (wire : Vector UInt8 9) :
    (ofBytes? wire.toList).map toBytes = some wire.toList := by
  obtain ⟨block, read, written⟩ := ofBytes?_of_length wire.length_toList
  rw [read, Option.map_some, written]

/-- The receiver's test, with each byte's sync bit read as the receiver masks it. -/
theorem valid_iff_syncBit (block : Block) :
    block.valid = true ↔
      block.command &&& syncBit = 0 ∧ (∀ byte ∈ block.data.toList, byte &&& syncBit = 0) ∧
        block.crc = encodeCrc block.front := by
  simp only [valid_iff, and_syncBit_eq_zero_iff]

/-- **A block built with its checksum validates exactly when its command and data fit seven
bits**, whatever its address. -/
theorem valid_make_iff (address command : UInt8) (data : Vector UInt8 6) :
    (make address command data).valid = true ↔
      command < 0x80 ∧ ∀ byte ∈ data.toList, byte < 0x80 := by
  rw [valid_iff]
  exact ⟨fun ⟨commandBelow, dataBelow, _⟩ => ⟨commandBelow, dataBelow⟩,
    fun ⟨commandBelow, dataBelow⟩ => ⟨commandBelow, dataBelow, rfl⟩⟩

/-- **The block codec.** A block validates exactly when its command and data bytes have the sync
bit clear and its checksum byte is the encoded CRC of its first eight bytes, the address being
free; the encoded CRC never has the sync bit; a block and its nine wire bytes are read back from
each other; a block built with its checksum validates exactly when its command and data fit seven
bits; and on the wire of a valid block no byte after the address has the sync bit. -/
theorem valid_bytewise_and_round_trip :
    (∀ block : Block, block.valid = true ↔
      block.command &&& syncBit = 0 ∧ (∀ byte ∈ block.data.toList, byte &&& syncBit = 0) ∧
        block.crc = encodeCrc block.front) ∧
    (∀ bytes : List UInt8, encodeCrc bytes < 0x80) ∧
    (∀ block : Block, ofBytes? block.toBytes = some block) ∧
    (∀ wire : Vector UInt8 9, (ofBytes? wire.toList).map toBytes = some wire.toList) ∧
    (∀ (address command : UInt8) (data : Vector UInt8 6),
      (make address command data).valid = true ↔
        command < 0x80 ∧ ∀ byte ∈ data.toList, byte < 0x80) ∧
    (∀ block : Block, block.valid = true →
      ∀ byte ∈ block.toBytes.tail, byte &&& syncBit = 0) := by
  refine ⟨valid_iff_syncBit, encodeCrc_lt, ofBytes?_toBytes, toBytes_ofBytes?, valid_make_iff, ?_⟩
  intro block valid byte member
  exact (and_syncBit_eq_zero_iff byte).mpr (lt_of_mem_toBytes valid member)

end Block

/-! ## Fields inside data bytes -/

private theorem and_low_eq_mod (x : Nat) : x &&& 127 = x % 128 :=
  Nat.and_two_pow_sub_one_eq_mod x 7

namespace Septets

theorem toNat_join14 (high low : UInt8) :
    (join14 high low).toNat = high.toNat % 128 * 2 ^ 7 + low.toNat % 128 := by
  simp only [join14, UInt16.toNat_or, UInt16.toNat_shiftLeft, UInt16.toNat_and,
    UInt8.toNat_toUInt16, UInt16.reduceToNat, and_low_eq_mod, Nat.reduceMod]
  -- the high part stays below 2 ^ 14, so neither the shift nor the union wraps
  rw [Nat.mod_eq_of_lt (show (high.toNat % 128) <<< 7 < 2 ^ 16 by rw [Nat.shiftLeft_eq]; omega),
    ← Nat.shiftLeft_add_eq_or_of_lt (show low.toNat % 128 < 2 ^ 7 by omega), Nat.shiftLeft_eq]

theorem toNat_split14 (value : UInt16) :
    (split14 value).1.toNat = value.toNat / 2 ^ 7 % 128 ∧
      (split14 value).2.toNat = value.toNat % 128 := by
  simp only [split14, UInt16.toNat_toUInt8, UInt16.toNat_and, UInt16.toNat_shiftRight,
    UInt16.reduceToNat, and_low_eq_mod, Nat.reduceMod, Nat.shiftRight_eq_div_pow]
  omega

/-- **A 14-bit pair reads back as its value modulo `2 ^ 14`.** -/
theorem join14_split14 (value : UInt16) :
    (join14 (split14 value).1 (split14 value).2).toNat = value.toNat % 2 ^ 14 := by
  obtain ⟨high, low⟩ := toNat_split14 value
  rw [toNat_join14, high, low]
  omega

end Septets

/-- A byte cut to seven bits is the byte modulo 128. -/
theorem toNat_and_low (byte : UInt8) : (byte &&& 0x7f).toNat = byte.toNat % 128 := by
  simp only [UInt8.toNat_and, UInt8.reduceToNat, and_low_eq_mod]

/-- The three bits of a format name it again. -/
@[simp]
theorem Format.ofBits_bits (format : Format) : Format.ofBits format.bits = format := by
  cases format <;> rfl

/-- **The drive byte reads back as the drive it was built from.** The byte has 2 ^ 6 forms, one
for each drive, so each is checked. -/
@[simp]
theorem Drive.ofByte_toByte (drive : Drive) : Drive.ofByte drive.toByte = drive := by
  obtain ⟨reverse, emergency, consist, format⟩ := drive
  revert reverse emergency consist format
  decide +kernel

end RailBus
