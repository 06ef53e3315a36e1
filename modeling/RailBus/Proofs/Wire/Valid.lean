import Mathlib
import RailBus.Wire.Block
/-! # Which blocks a receiver accepts

`Block.valid` tests the sync bits of bytes 1 to 7 through two 32-bit masks and compares the
checksum. Read byte by byte it accepts exactly the blocks whose command and data bytes lie below
0x80 and whose checksum byte is the encoded CRC of the first eight bytes (`Block.valid_iff`).
Every block built by `Block.make` from such a command and such data therefore validates
(`Block.valid_make`), and since the encoded checksum never has the sync bit
(`encodeCrc_lt`), on the wire of a valid block only the address byte may carry it
(`Block.lt_of_mem_toBytes`).
-/

namespace RailBus

/-- A fact about every byte is a fact about the 256 byte values, which `decide` checks one by one
through the bounded quantifier of `Nat`. -/
theorem forall_uint8_iff {P : UInt8 → Prop} :
    (∀ byte, P byte) ↔ ∀ value, value < 256 → P (UInt8.ofNat value) := by
  constructor
  · intro every value _
    exact every _
  · intro each byte
    have read := each byte.toNat byte.toNat_lt
    rwa [UInt8.ofNat_toNat] at read

/-- Statements read vectors with `Vector.get`; proofs turn the reads into index notation. -/
@[simp]
theorem vector_get_eq_getElem {α : Type} {n : Nat} (xs : Vector α n) (i : Fin n) :
    xs.get i = xs[i] :=
  rfl

/-- **The checksum byte never carries the sync bit.** -/
theorem encodeCrc_lt (bytes : List UInt8) : encodeCrc bytes < 0x80 := by
  simp only [encodeCrc, syncBit]
  generalize Checksum.crc8 bytes = crc
  revert crc
  refine forall_uint8_iff.mpr ?_
  decide +kernel

/-- The sync-bit test of a receiver reads a byte as below 0x80. -/
theorem and_syncBit_eq_zero_iff (byte : UInt8) : byte &&& syncBit = 0 ↔ byte < 0x80 := by
  revert byte
  refine forall_uint8_iff.mpr ?_
  decide +kernel

namespace Block

private theorem toList_six (data : Vector UInt8 6) :
    data.toList = [data.get 0, data.get 1, data.get 2, data.get 3, data.get 4, data.get 5] := by
  match data with
  | ⟨⟨[d0, d1, d2, d3, d4, d5]⟩, _⟩ => rfl

private theorem or_and (x y mask : UInt32) : (x ||| y) &&& mask = (x &&& mask) ||| (y &&& mask) :=
  UInt32.toBitVec_inj.mp (by simp only [UInt32.toBitVec_and, UInt32.toBitVec_or,
    BitVec.and_or_distrib_right])

/-- A masked word is zero exactly when each of its four bytes, in its place, misses the mask. -/
theorem word_and_eq_zero_iff (b0 b1 b2 b3 : UInt8) (mask : UInt32) :
    word b0 b1 b2 b3 &&& mask = 0 ↔
      (b0.toUInt32 <<< 24) &&& mask = 0 ∧ (b1.toUInt32 <<< 16) &&& mask = 0 ∧
        (b2.toUInt32 <<< 8) &&& mask = 0 ∧ b3.toUInt32 &&& mask = 0 := by
  simp only [word, or_and, UInt32.or_eq_zero_iff, and_assoc]

/-- In the word of the address, command and first two data bytes, the head mask sees the sync bit
of every byte but the address. -/
theorem word_and_headMask (b0 b1 b2 b3 : UInt8) :
    word b0 b1 b2 b3 &&& headMask = 0 ↔ b1 < 0x80 ∧ b2 < 0x80 ∧ b3 < 0x80 := by
  -- each lane of the mask, checked for every byte value
  have lanes : ∀ byte : UInt8, (byte.toUInt32 <<< 24) &&& headMask = 0 ∧
      ((byte.toUInt32 <<< 16) &&& headMask = 0 ↔ byte < 0x80) ∧
      ((byte.toUInt32 <<< 8) &&& headMask = 0 ↔ byte < 0x80) ∧
      (byte.toUInt32 &&& headMask = 0 ↔ byte < 0x80) := by
    refine forall_uint8_iff.mpr ?_
    decide +kernel
  rw [word_and_eq_zero_iff, (lanes b1).2.1, (lanes b2).2.2.1, (lanes b3).2.2.2]
  simp only [(lanes b0).1, true_and]

/-- In the word of the last four data bytes, the tail mask sees the sync bit of every byte. -/
theorem word_and_tailMask (b0 b1 b2 b3 : UInt8) :
    word b0 b1 b2 b3 &&& tailMask = 0 ↔ b0 < 0x80 ∧ b1 < 0x80 ∧ b2 < 0x80 ∧ b3 < 0x80 := by
  have lanes : ∀ byte : UInt8, ((byte.toUInt32 <<< 24) &&& tailMask = 0 ↔ byte < 0x80) ∧
      ((byte.toUInt32 <<< 16) &&& tailMask = 0 ↔ byte < 0x80) ∧
      ((byte.toUInt32 <<< 8) &&& tailMask = 0 ↔ byte < 0x80) ∧
      (byte.toUInt32 &&& tailMask = 0 ↔ byte < 0x80) := by
    refine forall_uint8_iff.mpr ?_
    decide +kernel
  rw [word_and_eq_zero_iff, (lanes b0).1, (lanes b1).2.1, (lanes b2).2.2.1, (lanes b3).2.2.2]

/-- **A block validates exactly when its command and data bytes lie below 0x80 and its checksum
is the encoded CRC of its first eight bytes.** -/
theorem valid_iff (block : Block) :
    block.valid = true ↔
      block.command < 0x80 ∧ (∀ byte ∈ block.data.toList, byte < 0x80) ∧
        block.crc = encodeCrc block.front := by
  simp only [valid, Bool.and_eq_true, beq_iff_eq, word_and_headMask, word_and_tailMask,
    toList_six block.data, List.forall_mem_cons, List.not_mem_nil, false_implies, implies_true,
    and_true, and_assoc]

/-- **A block built from a 7-bit command and 7-bit data validates.** -/
theorem valid_make (address : UInt8) {command : UInt8} {data : Vector UInt8 6}
    (commandBelow : command < 0x80) (dataBelow : ∀ byte ∈ data.toList, byte < 0x80) :
    (make address command data).valid = true :=
  (valid_iff _).mpr ⟨commandBelow, dataBelow, rfl⟩

/-- On the wire of a valid block, every byte after the address lies below 0x80. -/
theorem lt_of_mem_toBytes {block : Block} (valid : block.valid = true) {byte : UInt8}
    (member : byte ∈ block.toBytes.tail) : byte < 0x80 := by
  obtain ⟨commandBelow, dataBelow, checksum⟩ := (valid_iff block).mp valid
  simp only [toBytes, front, List.cons_append, List.tail_cons, List.mem_cons, List.mem_append,
    List.not_mem_nil, or_false] at member
  rcases member with rfl | inData | rfl
  · exact commandBelow
  · exact dataBelow byte inData
  · rw [checksum]
    exact encodeCrc_lt _

theorem length_toBytes (block : Block) : block.toBytes.length = 9 := by
  simp [toBytes, front]

/-- The nine wire bytes of a block read back as the block. -/
theorem ofBytes?_toBytes (block : Block) : ofBytes? block.toBytes = some block := by
  obtain ⟨address, command, data, crc⟩ := block
  match data with
  | ⟨⟨[d0, d1, d2, d3, d4, d5]⟩, _⟩ => rfl

end Block

end RailBus
