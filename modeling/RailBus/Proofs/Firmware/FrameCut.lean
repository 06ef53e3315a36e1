import RailBus.Proofs.Firmware.ImageShape
/-! # The frame cut at an address

`Image.block` aligns an address down to the frame length and cuts the frame there. On every
image of the library's shape the cut gives what its documentation promises
(`Image.block_cuts_frame`): the progress is the number of distinct chunk bases below the start;
the frame is the end frame exactly when no chunk lies at or above the start, or when a 64- or
128-byte frame would have to start beyond its 16-bit field; any other frame has the size and the
start, carries the byte the image reads at every address it spans (erased where no chunk covers
it, `Image.read`), and is checked by the CRC-16 of its start field and payload. Every chunk the
cut copies lies whole inside the payload.

Two facts need no shape and serve the transfer proofs: the cut depends on the address only
through the aligned start (`Image.block_congr`), and a frame that is not the end frame starts
there (`Image.start_block_of_isEnd`).
-/

namespace RailBus.Firmware

open Checksum

namespace FrameSize

/-- A frame at an aligned start ends inside the address space. -/
theorem alignDown_add_length_le (size : FrameSize) {address : Nat}
    (inside : address < addressSpace) : size.alignDown address + size.length ≤ addressSpace := by
  cases size <;> simp only [alignDown, length, addressSpace, Nat.pow_eq, Nat.reducePow] at * <;>
    omega

@[simp]
theorem alignDown_alignDown (size : FrameSize) (address : Nat) :
    size.alignDown (size.alignDown address) = size.alignDown address := by
  cases size <;> simp only [alignDown, length] <;> omega

/-- An aligned start inside the address space is a 32-bit address. -/
theorem toNat_toUInt32_alignDown (size : FrameSize) (address : UInt32) :
    (size.alignDown address.toNat).toUInt32.toNat = size.alignDown address.toNat :=
  UInt32.toNat_ofNat_of_lt' (Nat.lt_of_le_of_lt (size.alignDown_le _) address.toNat_lt)

end FrameSize

namespace Frame

theorem ofPayload_eq_final_iff {size : FrameSize} {start : Nat} {payload : List UInt8} :
    ofPayload size start payload = final size ↔
      start = size.sentinel ∧ payload = List.replicate size.length erased := by
  constructor
  · intro same
    exact ⟨congrArg Frame.start same, congrArg Frame.payload same⟩
  · rintro ⟨rfl, rfl⟩
    rfl

@[simp]
theorem isEnd_final (size : FrameSize) : (final size).isEnd = true := by
  simp [isEnd, final, ofPayload]

/-- **A frame at a chunk boundary is the end frame exactly when it is a 64- or 128-byte frame
starting beyond 0xffff**: its 16-bit start field cannot name such an address. -/
theorem make_eq_final_iff {size : FrameSize} {start : UInt32} {payload : List UInt8}
    (aligned : start.toNat % chunkSize = 0) :
    make size start payload = final size ↔ size ≠ .large ∧ 0xFFFF < start.toNat := by
  have inside := start.toNat_lt
  by_cases fits : size = .large ∨ start.toNat < size.sentinel
  · simp only [make, fits, ↓reduceIte, ofPayload_eq_final_iff]
    -- the start lies below the sentinel, so neither side holds
    cases size <;> simp only [FrameSize.sentinel, FrameSize.startWidth, chunkSize, Nat.pow_eq,
      Nat.reducePow, reduceCtorEq, false_or, ne_eq, not_true_eq_false,
      not_false_eq_true, true_and, false_and, iff_false, not_and] at * <;> omega
  · simp only [make, fits, ↓reduceIte, true_iff]
    cases size <;> simp only [FrameSize.sentinel, FrameSize.startWidth, chunkSize, Nat.pow_eq,
      Nat.reducePow, reduceCtorEq, true_or, not_true_eq_false, false_or, not_lt, ne_eq,
      not_false_eq_true, true_and] at * <;> omega

end Frame

namespace Image

/-- The byte the image holds at an address, when a chunk covers it. -/
def byte? (image : Image) (address : Nat) : Option UInt8 :=
  (image.chunk? (address - address % chunkSize)).bind fun chunk => chunk[address % chunkSize]?

/-- The byte flash reads at an address: the image's byte, erased where no chunk covers it. -/
def read (image : Image) (address : Nat) : UInt8 :=
  (image.byte? address).getD erased

/-- A read goes through the chunk of the address, erased where there is none. -/
theorem read_eq_getD (image : Image) (address : Nat) :
    image.read address = ((image.chunk? (address - address % chunkSize)).getD erasedChunk).getD
      (address % chunkSize) erased := by
  unfold read byte?
  cases image.chunk? (address - address % chunkSize) with
  | none => simp [erasedChunk]
  | some chunk => simp [List.getD_eq_getElem?_getD]

variable {image : Image}

/-- **The cut depends on the address only through the aligned start.** -/
theorem block_congr {address other : UInt32} {size : FrameSize}
    (same : size.alignDown address.toNat = size.alignDown other.toNat) :
    image.block address size = image.block other size := by
  simp only [FrameSize.alignDown] at same
  simp only [block, same]

/-- When a chunk lies at or above the aligned start, the cut is the frame of the size there. -/
theorem block_of_exists_above {address : UInt32} {size : FrameSize}
    (above : ∃ base ∈ image.bases, size.alignDown address.toNat ≤ base) :
    (image.block address size).1 = Frame.make size (size.alignDown address.toNat).toUInt32
      (image.span (size.alignDown address.toNat) size.length) := by
  obtain ⟨base, member, atLeast⟩ := above
  simp only [block]
  rw [if_neg (by
    simp only [Bool.not_eq_true, List.all_eq_false, decide_eq_true_eq, Nat.not_lt]
    exact ⟨base, member, atLeast⟩)]
  rfl

/-- **The end frame, exactly when no chunk lies at or above the start or a small frame cannot
name the start.** -/
theorem block_eq_final_iff (address : UInt32) (size : FrameSize) :
    (image.block address size).1 = Frame.final size ↔
      (∀ base ∈ image.bases, base < size.alignDown address.toNat) ∨
        (size ≠ .large ∧ 0xFFFF < size.alignDown address.toNat) := by
  by_cases below : ∀ base ∈ image.bases, base < size.alignDown address.toNat
  · simp only [block_of_below below, true_iff]
    exact .inl below
  · have above : ∃ base ∈ image.bases, size.alignDown address.toNat ≤ base := by
      simpa only [not_forall, not_lt, exists_prop] using below
    rw [block_of_exists_above above, Frame.make_eq_final_iff (by
      rw [size.toNat_toUInt32_alignDown]; exact size.alignDown_mod _)]
    simp only [below, false_or, size.toNat_toUInt32_alignDown]

/-- Any frame but the end frame is the payload at the aligned start, checked. -/
theorem block_of_ne_final {address : UInt32} {size : FrameSize}
    (notEnd : (image.block address size).1 ≠ Frame.final size) :
    (image.block address size).1 = Frame.ofPayload size (size.alignDown address.toNat)
      (fitPayload size.length (image.span (size.alignDown address.toNat) size.length)) := by
  have above : ∃ base ∈ image.bases, size.alignDown address.toNat ≤ base := by
    by_contra none
    exact notEnd (block_of_below (by simpa only [not_exists, not_and, not_le] using none))
  rw [block_of_exists_above above] at notEnd ⊢
  unfold Frame.make at notEnd ⊢
  split
  · rw [size.toNat_toUInt32_alignDown]
  · next => exact absurd (if_neg ‹_›) notEnd

/-- A cut is the end frame exactly when it marks the end of the image. -/
theorem isEnd_block_iff (address : UInt32) (size : FrameSize) :
    (image.block address size).1.isEnd = true ↔ (image.block address size).1 = Frame.final size := by
  constructor
  · intro ends
    by_contra notEnd
    have inside := size.alignDown_add_length_le address.toNat_lt
    rw [block_of_ne_final notEnd] at ends
    -- a frame at an aligned start below the sentinel is no end frame
    have small : ¬(size ≠ .large ∧ 0xFFFF < size.alignDown address.toNat) := fun high =>
      notEnd ((block_eq_final_iff address size).mpr (Or.inr high))
    simp only [Frame.isEnd, Frame.ofPayload, beq_iff_eq] at ends
    have aligned := size.alignDown_mod address.toNat
    cases size <;> simp only [FrameSize.sentinel, FrameSize.startWidth, FrameSize.length,
      addressSpace, chunkSize, Nat.pow_eq, Nat.reducePow, ne_eq, reduceCtorEq, not_false_eq_true,
      true_and, not_lt] at * <;> omega
  · intro final
    rw [final]
    exact Frame.isEnd_final size

/-- **A frame that is not the end frame starts at the aligned address.** -/
theorem start_block_of_isEnd {address : UInt32} {size : FrameSize}
    (notEnd : (image.block address size).1.isEnd = false) :
    (image.block address size).1.start = size.alignDown address.toNat := by
  have other : (image.block address size).1 ≠ Frame.final size := fun final => by
    rw [← isEnd_block_iff] at final
    simp [final] at notEnd
  rw [block_of_ne_final other]
  rfl

/-- **The progress of a cut counts the distinct chunk bases below its start.** -/
theorem progress_block (shape : image.WellFormed) (address : UInt32) (size : FrameSize) :
    (image.block address size).2 =
      (image.bases.toFinset.filter (· < size.alignDown address.toNat)).card := by
  have distinct : image.bases.Nodup := shape.ascending.nodup
  have below : image.bases.toFinset.filter (· < size.alignDown address.toNat) =
      (image.bases.filter (· < size.alignDown address.toNat)).toFinset := by
    ext base
    simp
  rw [below, List.toFinset_card_of_nodup (distinct.filter _)]
  simp only [block, FrameSize.alignDown]
  split <;> rfl

/-- **A frame at an aligned start of the shape carries what the image reads**: its payload at an
offset is the byte at the start plus the offset, erased where no chunk covers it. -/
theorem WellFormed.getElem?_span_eq_read (shape : image.WellFormed) {start count offset : Nat}
    (aligned : start % chunkSize = 0) (inside : offset < chunkSize * (count / chunkSize)) :
    (image.span start count)[offset]? = some (image.read (start + offset)) := by
  have chunkBase : start + offset - (start + offset) % chunkSize =
      start + chunkSize * (offset / chunkSize) := by
    simp only [chunkSize] at *
    omega
  have chunkOffset : (start + offset) % chunkSize = offset % chunkSize := by
    simp only [chunkSize] at *
    omega
  have room : offset % chunkSize < chunkSize := Nat.mod_lt _ (by decide)
  rw [shape.getElem?_span inside, read_eq_getD, chunkBase, chunkOffset, List.getD_eq_getElem?_getD,
    List.getElem?_eq_getElem (by rw [shape.length_getD]; exact room)]
  rfl

/-- **The frame of a size at a start, cut from an image**: it has the size and the start, its
payload holds the image's bytes from the start on, erased where no chunk covers them, and its
checksum covers the start field and the payload. -/
structure CutFrame (image : Image) (size : FrameSize) (start : Nat) (frame : Frame) : Prop where
  size_eq : frame.size = size
  start_eq : frame.start = start
  length_payload : frame.payload.length = size.length
  payload : ∀ offset < size.length, frame.payload[offset]? = some (image.read (start + offset))
  crc_eq : frame.crc = crc16 (leBytes size.startWidth start) frame.payload

/-- Every frame but the end frame is the frame of the size at the aligned start. -/
theorem WellFormed.cutFrame_block (shape : image.WellFormed) {address : UInt32}
    {size : FrameSize} (notEnd : (image.block address size).1 ≠ Frame.final size) :
    CutFrame image size (size.alignDown address.toNat) (image.block address size).1 := by
  have whole : chunkSize * (size.length / chunkSize) = size.length := by cases size <;> rfl
  have spanLength : (image.span (size.alignDown address.toNat) size.length).length = size.length := by
    rw [shape.length_span _ _ (by cases size <;> decide), whole]
  rw [block_of_ne_final notEnd, fitPayload_of_length spanLength]
  refine ⟨rfl, rfl, spanLength, fun offset inside => ?_, rfl⟩
  exact shape.getElem?_span_eq_read (size.alignDown_mod _) (by rw [whole]; exact inside)

/-- **Every chunk a cut copies lies whole inside the frame**: a chunk base at or above the start
and below the frame's end leaves room for the whole chunk. -/
theorem WellFormed.chunk_inside_frame (shape : image.WellFormed) (address : UInt32)
    (size : FrameSize) {base : Nat} (member : base ∈ image.bases)
    (atLeast : size.alignDown address.toNat ≤ base)
    (below : base < size.alignDown address.toNat + size.length) :
    base - size.alignDown address.toNat + chunkSize ≤ size.length := by
  have baseAligned := shape.aligned base member
  have startAligned := size.alignDown_mod address.toNat
  cases size <;> simp only [FrameSize.length, chunkSize] at * <;> omega

/-- **The cut at an address is the frame its documentation describes.** On an image of the
library's shape (ascending 64-aligned bases of 64-byte chunks), with `start` the address aligned
down to the frame length: the progress counts the chunk bases below `start`; the frame is the end
frame exactly when no chunk lies at or above `start`, or a 64- or 128-byte frame would start past
0xffff; any other frame is the frame of the size at `start`, carrying what the image reads there;
and every chunk copied into it fits inside. -/
theorem block_cuts_frame (shape : image.WellFormed) (address : UInt32) (size : FrameSize) :
    let start := size.alignDown address.toNat
    (image.block address size).2 = (image.bases.toFinset.filter (· < start)).card ∧
      ((image.block address size).1 = Frame.final size ↔
        (∀ base ∈ image.bases, base < start) ∨ (size ≠ .large ∧ 0xFFFF < start)) ∧
      ((image.block address size).1 ≠ Frame.final size →
        CutFrame image size start (image.block address size).1) ∧
      (∀ base ∈ image.bases, start ≤ base → base < start + size.length →
        base - start + chunkSize ≤ size.length) :=
  ⟨progress_block shape address size, block_eq_final_iff address size,
    fun notEnd => shape.cutFrame_block notEnd,
    fun _ member atLeast below => shape.chunk_inside_frame address size member atLeast below⟩

/-- Two chunks with a gap between them, cut by a 256-byte frame from an address inside it. -/
theorem block_cuts_frame_across_gap :
    let image : Image :=
      { chunks := [(0x100, List.replicate 64 0xaa), (0x180, List.replicate 64 0xbb)], limit := 4 }
    image.WellFormed ∧
      (image.block 0x1c0 .large).2 = (image.bases.toFinset.filter (· < 0x100)).card ∧
      ((image.block 0x1c0 .large).1 = Frame.final .large ↔
        (∀ base ∈ image.bases, base < 0x100) ∨ (FrameSize.large ≠ .large ∧ 0xFFFF < 0x100)) ∧
      ((image.block 0x1c0 .large).1 ≠ Frame.final .large →
        CutFrame image .large 0x100 (image.block 0x1c0 .large).1) ∧
      (∀ base ∈ image.bases, 0x100 ≤ base → base < 0x100 + FrameSize.large.length →
        base - 0x100 + chunkSize ≤ FrameSize.large.length) := by
  intro image
  have shape : image.WellFormed := ⟨by decide, by decide, by decide, by decide⟩
  exact ⟨shape, block_cuts_frame shape 0x1c0 .large⟩

end Image

end RailBus.Firmware
