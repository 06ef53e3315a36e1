import Mathlib
import RailBus.Proofs.Wire.Valid
/-! # Which wire errors the block checksum catches

The checksum of a block is the CRC-8 of its first eight bytes, complemented when it has the sync
bit. Both steps are linear over exclusive or: a shift of the CRC register is
(`Checksum.shift8_xor`), hence so is the CRC of bytes of equal length (`Checksum.crc8_xor`), and
the complement is an exclusive or with `0xff` decided by the top bit, which the exclusive or of two
bytes has exactly when one of them has it (`encodeCrc_xor`).

So the blocks the receiver accepts form a linear code, and an error goes unseen exactly when its
pattern is a codeword: when the pattern's last byte is the encoded checksum of its first eight
(`Block.valid_flipBits_iff`). No pattern of a single bit is one, so every single-bit error is caught
(`Block.single_bit_error_detected`). Patterns of two bits can be: flipping bit 3 of the address and
bit 4 of the third data byte of a valid block leaves a block that validates
(`Block.two_bit_error_undetected`). The complement keeps the sync bit out of the checksum at the
price of the CRC's guarantee for two-bit errors.
-/

namespace RailBus

/-! ## Linearity of the checksum -/

namespace Checksum

theorem shiftLeft_xor (a b n : UInt8) : (a ^^^ b) <<< n = (a <<< n) ^^^ (b <<< n) :=
  UInt8.toBitVec_inj.mp (by simp [BitVec.shiftLeft_xor_distrib])

/-- The test of the top bit, read as bit 7. -/
theorem and_0x80_beq_zero (reg : UInt8) : (reg &&& 0x80 == 0) = !reg.toBitVec.getLsbD 7 := by
  revert reg
  refine forall_uint8_iff.mpr ?_
  decide +kernel

/-- A shift moves the register up and adds the polynomial when the top bit leaves. -/
theorem shift8_eq (reg : UInt8) :
    shift8 reg = (reg <<< 1) ^^^ (if reg.toBitVec.getLsbD 7 then poly8 else 0) := by
  unfold shift8
  rw [and_0x80_beq_zero]
  cases reg.toBitVec.getLsbD 7 <;> simp

/-- Adding a constant exactly when bit 7 is set is linear: bit 7 of an exclusive or is set when it
is set in one operand only, and the constant cancels when both have it. -/
theorem ite_top_xor (a b constant : UInt8) :
    (if (a ^^^ b).toBitVec.getLsbD 7 then constant else 0) =
      (if a.toBitVec.getLsbD 7 then constant else 0) ^^^
        (if b.toBitVec.getLsbD 7 then constant else 0) := by
  rw [UInt8.toBitVec_xor, BitVec.getLsbD_xor]
  cases a.toBitVec.getLsbD 7 <;> cases b.toBitVec.getLsbD 7 <;> simp

theorem shift8_xor (a b : UInt8) : shift8 (a ^^^ b) = shift8 a ^^^ shift8 b := by
  rw [shift8_eq, shift8_eq, shift8_eq, shiftLeft_xor, ite_top_xor]
  ac_rfl

theorem shifts8_xor (count : Nat) (a b : UInt8) :
    shifts8 count (a ^^^ b) = shifts8 count a ^^^ shifts8 count b := by
  induction count with
  | zero => rfl
  | succ count ih => simp only [shifts8, ih, shift8_xor]

theorem feed8_xor (reg other byte byte' : UInt8) :
    feed8 (reg ^^^ other) (byte ^^^ byte') = feed8 reg byte ^^^ feed8 other byte' := by
  unfold feed8
  rw [← shifts8_xor]
  congr 1
  ac_rfl

/-- **The CRC register is linear**: run over the exclusive or of two byte strings of one length
from the exclusive or of two registers, it ends at the exclusive or of the two runs. -/
theorem crc8From_xor {front back : List UInt8} (same : front.length = back.length)
    (reg other : UInt8) :
    crc8From (reg ^^^ other) (List.zipWith (· ^^^ ·) front back) =
      crc8From reg front ^^^ crc8From other back := by
  induction front generalizing back reg other with
  | nil =>
    cases back with
    | nil => rfl
    | cons _ _ => cases same
  | cons byte front ih =>
    cases back with
    | nil => cases same
    | cons byte' back =>
      simp only [List.zipWith_cons_cons, crc8From_cons, feed8_xor]
      exact ih (Nat.succ.inj same) _ _

theorem crc8_xor {front back : List UInt8} (same : front.length = back.length) :
    crc8 (List.zipWith (· ^^^ ·) front back) = crc8 front ^^^ crc8 back := by
  have start := crc8From_xor same 0 0
  rwa [UInt8.xor_zero] at start

end Checksum

open Checksum

/-- The complement of a checksum with the sync bit is an exclusive or with `0xff`. -/
theorem complement_eq_xor (crc : UInt8) :
    (if crc ≥ syncBit then ~~~crc else crc) =
      crc ^^^ (if crc.toBitVec.getLsbD 7 then 0xff else 0) := by
  revert crc
  refine forall_uint8_iff.mpr ?_
  decide +kernel

/-- **The encoded checksum is linear** in the bytes it covers. -/
theorem encodeCrc_xor {front back : List UInt8} (same : front.length = back.length) :
    encodeCrc (List.zipWith (· ^^^ ·) front back) = encodeCrc front ^^^ encodeCrc back := by
  simp only [encodeCrc, complement_eq_xor, crc8_xor same, ite_top_xor]
  ac_rfl

/-! ## Errors on the wire -/

/-- Wire bytes with the bits set in an error pattern flipped. -/
def flipBits (bytes pattern : List UInt8) : List UInt8 :=
  List.zipWith (· ^^^ ·) bytes pattern

/-- The error pattern of bit `bit` of byte `index` of a block's nine. -/
def bitError (index : Fin 9) (bit : Fin 8) : List UInt8 :=
  List.ofFn fun position : Fin 9 => if position = index then 1 <<< bit.val.toUInt8 else 0

/-- An error pattern a valid block cannot tell from no error: its last byte is the encoded
checksum of its first eight. -/
def Codeword (pattern : List UInt8) : Prop :=
  pattern.drop 8 = [encodeCrc (pattern.take 8)]

instance : DecidablePred Codeword := fun pattern =>
  inferInstanceAs (Decidable (pattern.drop 8 = [encodeCrc (pattern.take 8)]))

/-- Wire bytes a receiver frames as a block: the sync bit on the first byte and on no other. -/
def Framed (bytes : List UInt8) : Prop :=
  bytes.head?.any (0x80 ≤ ·) ∧ ∀ byte ∈ bytes.tail, byte < 0x80

instance : DecidablePred Framed := fun bytes =>
  inferInstanceAs
    (Decidable (bytes.head?.any (0x80 ≤ ·) ∧ ∀ byte ∈ bytes.tail, byte < 0x80))

theorem flipBits_flipBits {bytes first second : List UInt8} (same : first.length = second.length) :
    flipBits (flipBits bytes first) second = flipBits bytes (flipBits first second) := by
  induction bytes generalizing first second with
  | nil => rfl
  | cons byte bytes ih =>
    cases first with
    | nil => cases second with
      | nil => rfl
      | cons _ _ => cases same
    | cons bit first =>
      cases second with
      | nil => cases same
      | cons bit' second =>
        simp only [flipBits, List.zipWith_cons_cons, UInt8.xor_assoc]
        exact congrArg _ (ih (Nat.succ.inj same))

@[simp]
theorem length_flipBits (bytes pattern : List UInt8) :
    (flipBits bytes pattern).length = min bytes.length pattern.length :=
  List.length_zipWith

@[simp]
theorem length_bitError (index : Fin 9) (bit : Fin 8) : (bitError index bit).length = 9 :=
  List.length_ofFn

namespace Block

/-- Nine bytes read back as the block they are the wire form of. -/
theorem ofBytes?_of_length {bytes : List UInt8} (nine : bytes.length = 9) :
    ∃ block, ofBytes? bytes = some block ∧ block.toBytes = bytes := by
  match bytes, nine with
  | [_, _, _, _, _, _, _, _, _], _ => exact ⟨_, rfl, rfl⟩

theorem length_front (block : Block) : block.front.length = 8 := by
  simp [front]

/-- Nine bytes are eight and one more. -/
theorem eq_append_of_length {pattern : List UInt8} (nine : pattern.length = 9) :
    ∃ covered last, pattern = covered ++ [last] ∧ covered.length = 8 := by
  match pattern, nine with
  | [p0, p1, p2, p3, p4, p5, p6, p7, p8], _ =>
    exact ⟨[p0, p1, p2, p3, p4, p5, p6, p7], p8, rfl, rfl⟩

/-- A flipped block splits into the flipped bytes the checksum covers and the flipped checksum. -/
theorem flipBits_parts {block received : Block} {covered : List UInt8} {last : UInt8}
    (eight : covered.length = 8)
    (read : received.toBytes = flipBits block.toBytes (covered ++ [last])) :
    received.front = flipBits block.front covered ∧ received.crc = block.crc ^^^ last := by
  have lengths : block.front.length = covered.length := by rw [length_front, eight]
  rw [toBytes, toBytes, flipBits, List.zipWith_append lengths] at read
  have parts := List.append_inj read (by simp [length_front, lengths, eight])
  exact ⟨parts.1, by simpa using parts.2⟩

theorem codeword_append_iff {covered : List UInt8} {last : UInt8} (eight : covered.length = 8) :
    Codeword (covered ++ [last]) ↔ last = encodeCrc covered := by
  simp [Codeword, eight]

/-- Between two valid blocks the error pattern is a codeword. -/
theorem codeword_of_valid {block received : Block} (valid : block.valid = true)
    {covered : List UInt8} {last : UInt8} (eight : covered.length = 8)
    (read : received.toBytes = flipBits block.toBytes (covered ++ [last]))
    (still : received.valid = true) : Codeword (covered ++ [last]) := by
  obtain ⟨-, -, checksum⟩ := (valid_iff block).mp valid
  obtain ⟨-, -, checksum'⟩ := (valid_iff received).mp still
  obtain ⟨frontRead, crcRead⟩ := flipBits_parts eight read
  rw [codeword_append_iff eight]
  rw [crcRead, frontRead, flipBits, encodeCrc_xor (by rw [length_front, eight]), ← checksum]
    at checksum'
  exact (UInt8.xor_right_inj block.crc).mp checksum'

/-- A framed block whose error pattern is a codeword validates. -/
theorem valid_of_codeword {block received : Block} (valid : block.valid = true)
    {covered : List UInt8} {last : UInt8} (eight : covered.length = 8)
    (read : received.toBytes = flipBits block.toBytes (covered ++ [last]))
    (framed : Framed received.toBytes) (code : Codeword (covered ++ [last])) :
    received.valid = true := by
  obtain ⟨-, -, checksum⟩ := (valid_iff block).mp valid
  obtain ⟨frontRead, crcRead⟩ := flipBits_parts eight read
  have below : ∀ byte ∈ received.toBytes.tail, byte < 0x80 := framed.2
  simp only [toBytes, Block.front, List.cons_append, List.tail_cons, List.mem_cons,
    List.mem_append, forall_eq_or_imp] at below
  refine (valid_iff received).mpr ⟨below.1, fun byte member => below.2 byte (.inl member), ?_⟩
  rw [codeword_append_iff eight] at code
  rw [crcRead, frontRead, flipBits, encodeCrc_xor (by rw [length_front, eight]), ← checksum, code]

/-- **A framed error goes unseen exactly when its pattern is a codeword.** For a valid block and
any error pattern of nine bytes that leaves the sync bit on the address byte alone, the received
block validates iff the pattern's last byte is the encoded checksum of its first eight. -/
theorem valid_flipBits_iff {block : Block} (valid : block.valid = true) {pattern : List UInt8}
    (nine : pattern.length = 9) (framed : Framed (flipBits block.toBytes pattern)) :
    ∃ received, ofBytes? (flipBits block.toBytes pattern) = some received ∧
      (received.valid = true ↔ Codeword pattern) := by
  have nineRead : (flipBits block.toBytes pattern).length = 9 := by simp [length_toBytes, nine]
  obtain ⟨received, read, wire⟩ := ofBytes?_of_length nineRead
  obtain ⟨covered, last, rfl, eight⟩ := eq_append_of_length nine
  refine ⟨received, read, fun still => codeword_of_valid valid eight wire still,
    fun code => valid_of_codeword valid eight wire (wire ▸ framed) code⟩

/-- No single flipped bit is a codeword: the CRC of one bit is never 0 or `0xff`, and a flipped
checksum bit leaves the covered bytes as they were. -/
theorem not_codeword_bitError :
    ∀ (index : Fin 9) (bit : Fin 8), ¬ Codeword (bitError index bit) := by
  decide +kernel

/-- **Every single-bit error is caught**, whatever bit of the nine it hits. -/
theorem single_bit_error_detected {block : Block} (valid : block.valid = true) (index : Fin 9)
    (bit : Fin 8) :
    ∃ received, ofBytes? (flipBits block.toBytes (bitError index bit)) = some received ∧
      received.valid = false := by
  have nineRead : (flipBits block.toBytes (bitError index bit)).length = 9 := by
    simp [length_toBytes]
  obtain ⟨received, read, wire⟩ := ofBytes?_of_length nineRead
  refine ⟨received, read, ?_⟩
  obtain ⟨covered, last, spelled, eight⟩ := eq_append_of_length (length_bitError index bit)
  rw [spelled] at wire
  cases still : received.valid with
  | false => rfl
  | true =>
    have code := codeword_of_valid valid eight wire still
    rw [← spelled] at code
    exact absurd code (not_codeword_bitError index bit)

/-- **Which wire errors a valid block catches.** Every single-bit error. An error of any number of
bits that leaves the sync bit on the address byte alone goes unseen exactly when its pattern is a
codeword; in particular a two-bit error, whose pattern is the two flips together. -/
theorem bit_errors_caught_unless_codeword {block : Block} (valid : block.valid = true) :
    (∀ (index : Fin 9) (bit : Fin 8),
      ∃ received, ofBytes? (flipBits block.toBytes (bitError index bit)) = some received ∧
        received.valid = false) ∧
    (∀ pattern : List UInt8, pattern.length = 9 → Framed (flipBits block.toBytes pattern) →
      ∃ received, ofBytes? (flipBits block.toBytes pattern) = some received ∧
        (received.valid = true ↔ Codeword pattern)) ∧
    (∀ (index : Fin 9) (bit : Fin 8) (index' : Fin 9) (bit' : Fin 8),
      Framed (flipBits (flipBits block.toBytes (bitError index bit)) (bitError index' bit')) →
      ∃ received,
        ofBytes? (flipBits (flipBits block.toBytes (bitError index bit)) (bitError index' bit')) =
          some received ∧
        (received.valid = true ↔
          Codeword (flipBits (bitError index bit) (bitError index' bit')))) := by
  refine ⟨single_bit_error_detected valid, fun pattern nine framed => valid_flipBits_iff valid nine
    framed, fun index bit index' bit' framed => ?_⟩
  -- two flips one after the other are one error, the two patterns together
  have same : (bitError index bit).length = (bitError index' bit').length := by simp
  rw [flipBits_flipBits same] at framed ⊢
  exact valid_flipBits_iff valid (by simp) framed

/-- A valid block and a two-bit error of it that keeps the framing. -/
theorem bit_errors_caught_unless_codeword_example :
    (make 0x85 0x12 #v[1, 2, 3, 4, 5, 6]).valid = true ∧
      Framed (flipBits (flipBits (make 0x85 0x12 #v[1, 2, 3, 4, 5, 6]).toBytes (bitError 0 3))
        (bitError 4 4)) ∧
      ∃ received, ofBytes? (flipBits (flipBits (make 0x85 0x12 #v[1, 2, 3, 4, 5, 6]).toBytes
          (bitError 0 3)) (bitError 4 4)) = some received ∧
        (received.valid = true ↔ Codeword (flipBits (bitError 0 3) (bitError 4 4))) :=
  have valid : (make 0x85 0x12 #v[1, 2, 3, 4, 5, 6]).valid = true := by decide +kernel
  have framed : Framed (flipBits (flipBits (make 0x85 0x12 #v[1, 2, 3, 4, 5, 6]).toBytes
      (bitError 0 3)) (bitError 4 4)) := by decide +kernel
  ⟨valid, framed, (bit_errors_caught_unless_codeword valid).2.2 0 3 4 4 framed⟩

/-- **A two-bit error that keeps the framing can go unseen.** Flipping bit 3 of the address and
bit 4 of the third data byte of a valid block leaves a framed block that validates. -/
theorem two_bit_error_undetected :
    (make 0x85 0x12 #v[1, 2, 3, 4, 5, 6]).valid = true ∧
      0x80 ≤ (make 0x85 0x12 #v[1, 2, 3, 4, 5, 6]).address ∧
      Framed (flipBits (flipBits (make 0x85 0x12 #v[1, 2, 3, 4, 5, 6]).toBytes (bitError 0 3))
        (bitError 4 4)) ∧
      ofBytes? (flipBits (flipBits (make 0x85 0x12 #v[1, 2, 3, 4, 5, 6]).toBytes (bitError 0 3))
          (bitError 4 4)) = some ⟨0x8d, 0x12, #v[1, 2, 0x13, 4, 5, 6], 0x5a⟩ ∧
      (⟨0x8d, 0x12, #v[1, 2, 0x13, 4, 5, 6], 0x5a⟩ : Block).valid = true := by
  decide +kernel

end Block

end RailBus
