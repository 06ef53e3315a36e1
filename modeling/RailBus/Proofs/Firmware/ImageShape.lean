import Mathlib
import RailBus.Firmware.Image
/-! # The shape of firmware images

Every image the library builds holds its chunks in ascending order of base, each base a multiple
of 64 below the end of the address space and each chunk 64 bytes long (`Image.WellFormed`). The
empty image has this shape, `Image.write` keeps it (`Image.WellFormed.write`), and so every image
read from a HEX file has it (`Image.wellFormed_ofHex`).

On an image of this shape `Image.block` cuts the frame its documentation describes. When frames of
the size can address every chunk (`Image.Addressable`), the frame is the end frame exactly when no
chunk lies at or above the aligned start (`Image.isEnd_block_iff`), and otherwise it carries, at
every address it spans, the byte of the chunk there (`Image.carries_block`).
-/

namespace RailBus.Firmware

/-- The address a frame of `size` covering `address` starts at: `address` aligned down to the
frame length. -/
def FrameSize.alignDown (size : FrameSize) (address : Nat) : Nat :=
  address - address % size.length

/-- **A frame carries a byte**: it is not the end frame, it spans `address`, and its payload holds
`value` there. -/
structure Frame.Carries (frame : Frame) (address : Nat) (value : UInt8) : Prop where
  notEnd : frame.isEnd = false
  start_le : frame.start ≤ address
  lt_end : address < frame.start + frame.size.length
  payload : frame.payload[address - frame.start]? = some value

/-- A start aligned to a frame size is a chunk boundary. -/
theorem FrameSize.alignDown_mod (size : FrameSize) (address : Nat) :
    size.alignDown address % chunkSize = 0 := by
  cases size <;> simp only [alignDown, length, chunkSize] <;> omega

theorem FrameSize.alignDown_le (size : FrameSize) (address : Nat) :
    size.alignDown address ≤ address :=
  Nat.sub_le _ _

/-- An aligned start at or below an address the start field holds lies below the sentinel. -/
theorem FrameSize.alignDown_lt_sentinel (size : FrameSize) {address base : Nat}
    (atLeast : size.alignDown address ≤ base) (fits : base ≤ size.sentinel) :
    size.alignDown address < size.sentinel := by
  cases size <;> simp only [alignDown, length, sentinel, startWidth, Nat.pow_eq, Nat.reducePow] at * <;>
    omega

namespace Image

/-- **The shape of every image the library builds**: chunks in ascending order of base, each base
64-aligned and inside the address space, each chunk 64 bytes long. -/
structure WellFormed (image : Image) : Prop where
  ascending : image.bases.Pairwise (· < ·)
  aligned : ∀ base ∈ image.bases, base % chunkSize = 0
  below : ∀ base ∈ image.bases, base < addressSpace
  full : ∀ entry ∈ image.chunks, entry.2.length = chunkSize

theorem wellFormed_empty (limit : Nat) : (empty limit).WellFormed where
  ascending := List.Pairwise.nil
  aligned := by simp [empty, bases]
  below := by simp [empty, bases]
  full := by simp [empty]

/-- Copying bytes into a chunk within its bounds keeps its length. -/
theorem length_patch (chunk : List UInt8) {offset : Nat} {bytes : List UInt8}
    (inside : offset + bytes.length ≤ chunk.length) :
    (patch chunk offset bytes).length = chunk.length := by
  simp only [patch, List.length_append, List.length_take, List.length_drop]
  omega

/-- Every base after an update is the updated base or an old one. -/
theorem mem_bases_updateChunk {base : Nat} {change : List UInt8 → List UInt8}
    {chunks : List (Nat × List UInt8)} {other : Nat}
    (member : other ∈ (updateChunk base change chunks).map Prod.fst) :
    other = base ∨ other ∈ chunks.map Prod.fst := by
  induction chunks with
  | nil => simpa [updateChunk] using member
  | cons head rest ih =>
      obtain ⟨first, bytes⟩ := head
      by_cases below : base < first
      · simp only [updateChunk, below, ↓reduceIte] at member
        simpa using member
      by_cases same : base = first
      · subst same
        simp only [updateChunk, below, ↓reduceIte] at member
        simpa using member
      simp only [updateChunk, below, same, ↓reduceIte, List.map_cons, List.mem_cons] at member
      simp only [List.map_cons, List.mem_cons]
      rcases member with here | later
      · exact Or.inr (Or.inl here)
      · rcases ih later with updated | old
        · exact Or.inl updated
        · exact Or.inr (Or.inr old)

/-- An update keeps the bases ascending. -/
theorem ascending_updateChunk (base : Nat) (change : List UInt8 → List UInt8)
    {chunks : List (Nat × List UInt8)} (ascending : (chunks.map Prod.fst).Pairwise (· < ·)) :
    ((updateChunk base change chunks).map Prod.fst).Pairwise (· < ·) := by
  induction chunks with
  | nil => simp [updateChunk]
  | cons head rest ih =>
      obtain ⟨first, bytes⟩ := head
      simp only [List.map_cons, List.pairwise_cons] at ascending
      obtain ⟨firstBelow, restAscending⟩ := ascending
      by_cases below : base < first
      · simp only [updateChunk, below, ↓reduceIte, List.map_cons, List.pairwise_cons,
          List.mem_cons]
        refine ⟨?_, firstBelow, restAscending⟩
        rintro other (rfl | later)
        · exact below
        · exact Nat.lt_trans below (firstBelow other later)
      by_cases same : base = first
      · subst same
        simp only [updateChunk, Nat.lt_irrefl, ↓reduceIte, List.map_cons, List.pairwise_cons]
        exact ⟨firstBelow, restAscending⟩
      simp only [updateChunk, below, same, ↓reduceIte, List.map_cons, List.pairwise_cons]
      refine ⟨fun other member => ?_, ih restAscending⟩
      rcases mem_bases_updateChunk member with rfl | old
      · omega
      · exact firstBelow other old

/-- An update that keeps chunks 64 bytes long keeps every chunk 64 bytes long. -/
theorem full_updateChunk (base : Nat) {change : List UInt8 → List UInt8}
    (keeps : ∀ chunk : List UInt8, chunk.length = chunkSize → (change chunk).length = chunkSize)
    {chunks : List (Nat × List UInt8)} (full : ∀ entry ∈ chunks, entry.2.length = chunkSize) :
    ∀ entry ∈ updateChunk base change chunks, entry.2.length = chunkSize := by
  have erasedFull : erasedChunk.length = chunkSize := List.length_replicate
  induction chunks with
  | nil => simpa [updateChunk] using keeps _ erasedFull
  | cons head rest ih =>
      obtain ⟨first, bytes⟩ := head
      simp only [List.mem_cons, forall_eq_or_imp] at full
      obtain ⟨headFull, restFull⟩ := full
      by_cases below : base < first
      · simp only [updateChunk, below, ↓reduceIte, List.mem_cons, forall_eq_or_imp]
        exact ⟨keeps _ erasedFull, headFull, restFull⟩
      by_cases same : base = first
      · subst same
        simp only [updateChunk, Nat.lt_irrefl, ↓reduceIte, List.mem_cons, forall_eq_or_imp]
        exact ⟨keeps _ headFull, restFull⟩
      simp only [updateChunk, below, same, ↓reduceIte, List.mem_cons, forall_eq_or_imp]
      exact ⟨headFull, ih restFull⟩

/-- Placing bytes inside one aligned chunk keeps the shape. -/
theorem WellFormed.place {image next : Image} (shape : image.WellFormed) {base offset : Nat}
    {bytes : List UInt8} (aligned : base % chunkSize = 0) (below : base < addressSpace)
    (inside : offset + bytes.length ≤ chunkSize) (placed : image.place base offset bytes = some next) :
    next.WellFormed := by
  unfold Image.place at placed
  split at placed
  · cases placed
  · cases placed
    refine ⟨ascending_updateChunk _ _ shape.ascending, ?_, ?_, ?_⟩
    · intro other member
      rcases mem_bases_updateChunk member with rfl | old
      · exact aligned
      · exact shape.aligned other old
    · intro other member
      rcases mem_bases_updateChunk member with rfl | old
      · exact below
      · exact shape.below other old
    · exact full_updateChunk base (fun chunk full => full ▸ length_patch chunk (full ▸ inside))
        shape.full

/-- The piece a write places first keeps the shape: it lies inside the chunk of its address. -/
theorem WellFormed.placePiece {image next : Image} (shape : image.WellFormed) {address : Nat}
    (inside : address < addressSpace) {bytes : List UInt8}
    (placed : image.place (address - address % chunkSize) (address % chunkSize)
      (bytes.take (min bytes.length (chunkSize - address % chunkSize))) = some next) :
    next.WellFormed := by
  have room : address % chunkSize < chunkSize := Nat.mod_lt _ (by decide)
  have aligned : (address - address % chunkSize) % chunkSize = 0 :=
    Nat.sub_mod_eq_zero_of_mod_eq (Nat.mod_mod _ _).symm
  have below : address - address % chunkSize < addressSpace := by omega
  have fits : address % chunkSize
      + (bytes.take (min bytes.length (chunkSize - address % chunkSize))).length ≤ chunkSize := by
    simp only [List.length_take]
    omega
  exact shape.place aligned below fits placed

/-! ## The pieces of a write -/

theorem writeAt_nil (image : Image) (address : Nat) : image.writeAt address [] = image := by
  rw [Image.writeAt, dif_pos rfl]

/-- A write whose first piece finds no room leaves the image as it is. -/
theorem writeAt_of_place_none {image : Image} {address : Nat} {bytes : List UInt8}
    (nonempty : bytes ≠ [])
    (unplaced : image.place (address - address % chunkSize) (address % chunkSize)
      (bytes.take (min bytes.length (chunkSize - address % chunkSize))) = none) :
    image.writeAt address bytes = image := by
  rw [Image.writeAt, dif_neg nonempty]
  simp only [unplaced]

/-- A write places its first piece, inside the chunk of its address, and goes on from the next
chunk while bytes remain below the end of the address space. -/
theorem writeAt_of_place_some {image next : Image} {address : Nat} {bytes : List UInt8}
    (nonempty : bytes ≠ [])
    (placed : image.place (address - address % chunkSize) (address % chunkSize)
      (bytes.take (min bytes.length (chunkSize - address % chunkSize))) = some next) :
    image.writeAt address bytes =
      if min bytes.length (chunkSize - address % chunkSize) < bytes.length ∧
          address + min bytes.length (chunkSize - address % chunkSize) < addressSpace then
        next.writeAt (address + min bytes.length (chunkSize - address % chunkSize))
          (bytes.drop (min bytes.length (chunkSize - address % chunkSize)))
      else next := by
  rw [Image.writeAt, dif_neg nonempty]
  simp only [placed]

/-- **Writing keeps the shape**: each piece of a write lands inside one aligned chunk. -/
theorem WellFormed.writeAt {image : Image} (shape : image.WellFormed) {address : Nat}
    (inside : address < addressSpace) (bytes : List UInt8) :
    (image.writeAt address bytes).WellFormed := by
  -- the induction follows the pieces of the write; each is placed by `WellFormed.place`
  induction image, address, bytes using Image.writeAt.induct with
  | case1 image address =>
      rw [writeAt_nil]
      exact shape
  | case2 image address bytes nonempty offset here unplaced =>
      rw [writeAt_of_place_none nonempty unplaced]
      exact shape
  | case3 image address bytes nonempty offset here next placed more ih =>
      have nextShape : next.WellFormed := shape.placePiece inside placed
      simp only [offset, here] at placed more
      rw [writeAt_of_place_some nonempty placed, if_pos more]
      exact ih nextShape more.2
  | case4 image address bytes nonempty offset here next placed last =>
      simp only [offset, here] at placed last
      rw [writeAt_of_place_some nonempty placed, if_neg last]
      exact shape.placePiece inside placed

/-- Writing at a 32-bit address keeps the shape. -/
theorem WellFormed.write {image : Image} (shape : image.WellFormed) (address : UInt32)
    (bytes : List UInt8) : (image.write address bytes).WellFormed :=
  shape.writeAt address.toNat_lt bytes

/-- Reading HEX lines keeps the shape. -/
theorem WellFormed.loadLines {image result : Image} (shape : image.WellFormed) {base : Nat}
    {lines : List (List Char)} (read : image.loadLines base lines = .ok result) :
    result.WellFormed := by
  -- one case per branch of the reader: only data records change the image, through `write`
  induction image, base, lines using Image.loadLines.induct with
  | case1 image base =>
      simp only [Image.loadLines, Except.ok.injEq] at read
      exact read ▸ shape
  | case2 image base line rest blank ih =>
      simp only [Image.loadLines, blank, ↓reduceIte] at read
      exact ih shape read
  | case3 image base line rest filled error failed =>
      simp [Image.loadLines, filled, failed] at read
  | case4 image base line rest filled offset bytes decoded ih =>
      simp only [Image.loadLines, filled, Bool.false_eq_true, ↓reduceIte, decoded] at read
      exact ih (shape.write _ bytes) read
  | case5 image base line rest filled address decoded ih =>
      simp only [Image.loadLines, filled, Bool.false_eq_true, ↓reduceIte, decoded] at read
      exact ih shape read
  | case6 image base line rest filled decoded =>
      simp only [Image.loadLines, filled, Bool.false_eq_true, ↓reduceIte, decoded,
        Except.ok.injEq] at read
      exact read ▸ shape
  | case7 image base line rest filled decoded ih =>
      simp only [Image.loadLines, filled, Bool.false_eq_true, ↓reduceIte, decoded] at read
      exact ih shape read

/-- **Every image read from a HEX file has the shape.** -/
theorem wellFormed_ofHex {text : String} {limit : Nat} {image : Image}
    (read : ofHex text limit = .ok image) : image.WellFormed :=
  (wellFormed_empty limit).loadLines read

/-! ## Reading an image of this shape -/

variable {image : Image}

/-- In a list with ascending keys, an entry is found at its own key. -/
private theorem lookup_of_mem {chunks : List (Nat × List UInt8)}
    (ascending : (chunks.map Prod.fst).Pairwise (· < ·)) {base : Nat} {bytes : List UInt8}
    (member : (base, bytes) ∈ chunks) : chunks.lookup base = some bytes := by
  induction chunks with
  | nil => simp at member
  | cons head rest ih =>
      obtain ⟨first, value⟩ := head
      simp only [List.map_cons, List.pairwise_cons, List.mem_map] at ascending
      rcases List.mem_cons.mp member with same | later
      · cases same
        simp
      · have before : first < base := ascending.1 base ⟨(base, bytes), later, rfl⟩
        have differs : (base == first) = false := beq_false_of_ne (Nat.ne_of_gt before)
        rw [List.lookup_cons, differs]
        exact ih ascending.2 later

/-- A chunk is found at its own base: bases are distinct. -/
theorem WellFormed.chunk?_eq (shape : image.WellFormed) {base : Nat} {bytes : List UInt8}
    (member : (base, bytes) ∈ image.chunks) : image.chunk? base = some bytes :=
  lookup_of_mem shape.ascending member

/-- What the image holds at a base, erased where no chunk is, is one chunk long. -/
theorem WellFormed.length_getD (shape : image.WellFormed) (base : Nat) :
    ((image.chunk? base).getD erasedChunk).length = chunkSize := by
  cases found : image.chunk? base with
  | none => exact List.length_replicate
  | some bytes =>
      obtain ⟨before, after, split, _⟩ := List.lookup_eq_some_iff.mp found
      exact shape.full (base, bytes) (by simp [split])

/-- Blocks of one chunk each, concatenated, are read block by block. -/
private theorem getElem?_flatMap_range {block : Nat → List UInt8}
    (uniform : ∀ index, (block index).length = chunkSize) :
    ∀ {count offset : Nat}, offset < chunkSize * count →
      ((List.range count).flatMap block)[offset]? =
        (block (offset / chunkSize))[offset % chunkSize]? ∧
      ((List.range count).flatMap block).length = chunkSize * count
  | 0, _, inside => by simp at inside
  | count + 1, offset, inside => by
      have length : ((List.range count).flatMap block).length = chunkSize * count := by
        rcases Nat.eq_zero_or_pos count with rfl | positive
        · simp
        · exact (@getElem?_flatMap_range block uniform count 0 (by
            simp only [chunkSize]; omega)).2
      simp only [List.range_succ, List.flatMap_append, List.flatMap_cons, List.flatMap_nil,
        List.append_nil, List.length_append, length, uniform]
      refine ⟨?_, by simp only [chunkSize]; omega⟩
      by_cases early : offset < chunkSize * count
      · rw [List.getElem?_append_left (by rw [length]; exact early)]
        exact (getElem?_flatMap_range uniform early).1
      · rw [List.getElem?_append_right (by rw [length]; omega), length]
        have quotient : offset / chunkSize = count := by simp only [chunkSize] at *; omega
        have remainder : offset - chunkSize * count = offset % chunkSize := by
          simp only [chunkSize] at *; omega
        rw [quotient, remainder]

/-- The bytes `span` reads, at an offset, are the bytes of the chunk that offset falls in. -/
theorem WellFormed.getElem?_span (shape : image.WellFormed) {start count offset : Nat}
    (inside : offset < chunkSize * (count / chunkSize)) :
    (image.span start count)[offset]? =
      ((image.chunk? (start + chunkSize * (offset / chunkSize))).getD erasedChunk)[offset %
        chunkSize]? :=
  (getElem?_flatMap_range (fun _ => shape.length_getD _) inside).1

/-- `span` reads whole chunks. -/
theorem WellFormed.length_span (shape : image.WellFormed) (start count : Nat)
    (positive : 0 < count / chunkSize) :
    (image.span start count).length = chunkSize * (count / chunkSize) :=
  (@getElem?_flatMap_range _ (fun _ => shape.length_getD _) (count / chunkSize) 0 (by
    simp only [chunkSize] at *; omega)).2

/-! ## The frame covering an address -/

/-- **Frames of a size can address every chunk**: every base fits the frame's start field. -/
def Addressable (image : Image) (size : FrameSize) : Prop :=
  ∀ base ∈ image.bases, base ≤ size.sentinel

/-- The largest frames address every chunk of an image of the shape. -/
theorem WellFormed.addressable_large (shape : image.WellFormed) : image.Addressable .large := by
  intro base member
  have below := shape.below base member
  simp only [addressSpace, Nat.pow_eq, Nat.reducePow] at below
  simp only [FrameSize.sentinel, FrameSize.startWidth, Nat.pow_eq, Nat.reducePow]
  omega

/-- A payload of the right length is sent as it is. -/
theorem fitPayload_of_length {length : Nat} {payload : List UInt8} (exact : payload.length = length) :
    fitPayload length payload = payload := by
  rw [fitPayload, List.take_of_length_le (Nat.le_of_eq exact), exact, Nat.sub_self,
    List.replicate_zero, List.append_nil]

/-- The frame is the end frame when every chunk lies below its start. -/
theorem block_of_below {address : UInt32} {size : FrameSize}
    (below : ∀ base ∈ image.bases, base < size.alignDown address.toNat) :
    (image.block address size).1 = Frame.final size := by
  simp only [block]
  rw [if_pos (by simpa [FrameSize.alignDown] using below)]

/-- When a chunk lies at or above the start, the frame holds the span of the image there. -/
theorem WellFormed.block_of_above (shape : image.WellFormed) {address : UInt32} {size : FrameSize}
    (fits : image.Addressable size)
    (above : ∃ base ∈ image.bases, size.alignDown address.toNat ≤ base) :
    (image.block address size).1 =
      Frame.ofPayload size (size.alignDown address.toNat)
        (image.span (size.alignDown address.toNat) size.length) := by
  obtain ⟨base, member, atLeast⟩ := above
  have inRange : size.alignDown address.toNat < addressSpace := by
    have := address.toNat_lt
    simp only [FrameSize.alignDown, addressSpace, Nat.pow_eq, Nat.reducePow] at *
    omega
  have room : size.alignDown address.toNat < size.sentinel :=
    size.alignDown_lt_sentinel atLeast (fits base member)
  have whole : (image.span (size.alignDown address.toNat) size.length).length = size.length := by
    rw [shape.length_span _ _ (by cases size <;> decide)]
    cases size <;> rfl
  have startNat : (size.alignDown address.toNat).toUInt32.toNat = size.alignDown address.toNat :=
    UInt32.toNat_ofNat_of_lt' inRange
  simp only [FrameSize.alignDown] at room whole startNat
  simp only [block]
  rw [if_neg (by
    simp only [Bool.not_eq_true, List.all_eq_false, decide_eq_true_eq, Nat.not_lt]
    exact ⟨base, member, atLeast⟩)]
  simp only [Frame.make]
  rw [if_pos (Or.inr (by rw [startNat]; exact room)), startNat, fitPayload_of_length whole]
  rfl

/-- Some chunk lies at or above the start exactly when not every chunk lies below it. -/
private theorem exists_above_iff {image : Image} {start : Nat} :
    (∃ base ∈ image.bases, start ≤ base) ↔ ¬∀ base ∈ image.bases, base < start := by
  simp only [Classical.not_forall, Nat.not_lt, exists_prop]

theorem size_block (address : UInt32) (size : FrameSize) : (image.block address size).1.size = size := by
  by_cases below : ∀ base ∈ image.bases, base < size.alignDown address.toNat
  · rw [block_of_below below]
    rfl
  · simp only [block]
    rw [if_neg (by simpa [FrameSize.alignDown] using below)]
    simp only [Frame.make]
    split <;> rfl

/-- **The frame is the end frame exactly when no chunk lies at or above its start.** -/
theorem WellFormed.isEnd_block_iff (shape : image.WellFormed) {address : UInt32}
    {size : FrameSize} (fits : image.Addressable size) :
    (image.block address size).1.isEnd = true ↔
      ∀ base ∈ image.bases, base < size.alignDown address.toNat := by
  constructor
  · intro ends
    refine Classical.byContradiction fun above => ?_
    obtain ⟨base, member, atLeast⟩ := exists_above_iff.mpr above
    have room := size.alignDown_lt_sentinel atLeast (fits base member)
    rw [shape.block_of_above fits ⟨base, member, atLeast⟩] at ends
    simp [Frame.isEnd, Frame.ofPayload, Nat.ne_of_lt room] at ends
  · intro below
    rw [block_of_below below]
    simp [Frame.isEnd, Frame.final, Frame.ofPayload]

/-- A frame that is not the end frame starts at the aligned address. -/
theorem WellFormed.start_block (shape : image.WellFormed) {address : UInt32} {size : FrameSize}
    (fits : image.Addressable size) (notEnd : (image.block address size).1.isEnd = false) :
    (image.block address size).1.start = size.alignDown address.toNat := by
  have above : ∃ base ∈ image.bases, size.alignDown address.toNat ≤ base := by
    rw [exists_above_iff, ← shape.isEnd_block_iff fits, notEnd]
    decide
  rw [shape.block_of_above fits above]
  rfl

/-- **A frame that is not the end frame carries the image**: every byte of a chunk at an address
the frame spans is in its payload, at that address less the start. -/
theorem WellFormed.carries_block (shape : image.WellFormed) {address : UInt32} {size : FrameSize}
    (fits : image.Addressable size) (notEnd : (image.block address size).1.isEnd = false)
    {base : Nat} {bytes : List UInt8} (member : (base, bytes) ∈ image.chunks) {offset : Nat}
    (inChunk : offset < bytes.length) (atLeast : size.alignDown address.toNat ≤ base + offset)
    (below : base + offset < size.alignDown address.toNat + size.length) :
    (image.block address size).1.Carries (base + offset) bytes[offset] := by
  have above : ∃ base ∈ image.bases, size.alignDown address.toNat ≤ base := by
    rw [exists_above_iff, ← shape.isEnd_block_iff fits, notEnd]
    decide
  have full : bytes.length = chunkSize := shape.full (base, bytes) member
  have baseAligned : base % chunkSize = 0 :=
    shape.aligned base (List.mem_map.mpr ⟨(base, bytes), member, rfl⟩)
  have startAligned := size.alignDown_mod address.toNat
  have whole : chunkSize * (size.length / chunkSize) = size.length := by cases size <;> rfl
  -- the chunk starts at or after the frame start, since both are chunk boundaries
  have chunkIndex : size.alignDown address.toNat
      + chunkSize * ((base + offset - size.alignDown address.toNat) / chunkSize) = base := by
    simp only [chunkSize] at *
    omega
  have chunkOffset : (base + offset - size.alignDown address.toNat) % chunkSize = offset := by
    simp only [chunkSize] at *
    omega
  refine ⟨notEnd, ?_, ?_, ?_⟩
  · rw [shape.start_block fits notEnd]
    exact atLeast
  · rw [shape.start_block fits notEnd, size_block]
    exact below
  · rw [shape.block_of_above fits above]
    simp only [Frame.ofPayload]
    rw [shape.getElem?_span (by rw [whole]; omega), chunkIndex, chunkOffset,
      shape.chunk?_eq member]
    simp [inChunk]

/-- **Below an end frame lies the whole image**: when the frame is the end frame, every byte of
every chunk lies below the aligned start. -/
theorem WellFormed.lt_of_isEnd_block (shape : image.WellFormed) {address : UInt32}
    {size : FrameSize} (fits : image.Addressable size)
    (ends : (image.block address size).1.isEnd = true) {base : Nat} {bytes : List UInt8}
    (member : (base, bytes) ∈ image.chunks) {offset : Nat} (inChunk : offset < bytes.length) :
    base + offset < size.alignDown address.toNat := by
  have baseMember : base ∈ image.bases := List.mem_map.mpr ⟨(base, bytes), member, rfl⟩
  have before := (shape.isEnd_block_iff fits).mp ends base baseMember
  have full : bytes.length = chunkSize := shape.full (base, bytes) member
  have baseAligned := shape.aligned base baseMember
  have startAligned := size.alignDown_mod address.toNat
  simp only [chunkSize] at *
  omega

end Image

end RailBus.Firmware
