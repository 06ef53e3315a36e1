import RailBus.Firmware.Frame
import RailBus.Firmware.HexRecord
/-! # Firmware images

An image is sparse: it holds 64-byte chunks at 64-aligned base addresses of the 32-bit address
space, in ascending order of base, each starting erased (0xff). Its chunk budget `limit` bounds
how many chunks it may hold.

`Image.write` merges bytes at an address into the chunks, cutting the write at chunk boundaries.
A piece that needs a new chunk when the budget is spent is dropped together with everything after
it, and a write that would run past the last address stops there.

`Image.block` cuts the frame of a size covering an address: the address is aligned down to the
frame size, the payload is the image's bytes there (erased where no chunk is), and the frame is the
end frame when no chunk lies at or above the aligned address. It also counts the chunks below the
frame, which is the transfer's progress.

`Image.ofHex` reads a HEX file line by line: data records are written at the current base plus
their offset, base records move the base, the end record stops the reading, blank lines are
skipped, and the first malformed line is the error.
-/

namespace RailBus.Firmware

/-- The number of bytes of a chunk. -/
def chunkSize : Nat := 64

/-- The addresses a 32-bit field holds. -/
def addressSpace : Nat := Nat.pow 2 32

/-- An erased chunk. -/
def erasedChunk : List UInt8 := List.replicate chunkSize erased

/-- The chunk with `bytes` copied in from `offset` on. -/
def patch (chunk : List UInt8) (offset : Nat) (bytes : List UInt8) : List UInt8 :=
  chunk.take offset ++ bytes ++ chunk.drop (offset + bytes.length)

/-- A sparse firmware image. -/
structure Image where
  /-- Chunks by base address, ascending. -/
  chunks : List (Nat × List UInt8)
  /-- The most chunks the image may hold. -/
  limit : Nat
  deriving DecidableEq, Repr

namespace Image

/-- An empty image with a chunk budget. -/
def empty (limit : Nat) : Image :=
  { chunks := [], limit }

/-- The base addresses of the chunks, ascending. -/
def bases (image : Image) : List Nat :=
  image.chunks.map Prod.fst

/-- The number of chunks. -/
def size (image : Image) : Nat :=
  image.chunks.length

def isEmpty (image : Image) : Bool :=
  image.chunks.isEmpty

/-- The chunk at a base address. -/
def chunk? (image : Image) (base : Nat) : Option (List UInt8) :=
  image.chunks.lookup base

/-- Apply `change` to the chunk at `base`, inserted erased in its place if absent. -/
def updateChunk (base : Nat) (change : List UInt8 → List UInt8) :
    List (Nat × List UInt8) → List (Nat × List UInt8)
  | [] => [(base, change erasedChunk)]
  | (first, bytes) :: rest =>
    if base < first then (base, change erasedChunk) :: (first, bytes) :: rest
    else if base = first then (first, change bytes) :: rest
    else (first, bytes) :: updateChunk base change rest

/-- Copy bytes into the chunk at `base` from `offset` on; none when that chunk would be new and
the budget is spent. -/
def place (image : Image) (base offset : Nat) (bytes : List UInt8) : Option Image :=
  if (image.chunk? base).isNone ∧ image.size ≥ image.limit then none
  else some { image with chunks := updateChunk base (patch · offset bytes) image.chunks }

set_option linter.unusedVariables false in
/-- Merge bytes into the image from address `address` on. -/
def writeAt (image : Image) (address : Nat) (bytes : List UInt8) : Image :=
  if nonempty : bytes = [] then image
  else
    let offset := address % chunkSize
    let here := min bytes.length (chunkSize - offset)
    match image.place (address - offset) offset (bytes.take here) with
    | none => image
    | some next =>
      if here < bytes.length ∧ address + here < addressSpace then
        next.writeAt (address + here) (bytes.drop here)
      else next
termination_by bytes.length
decreasing_by
  have positive : 0 < bytes.length := List.length_pos_iff.mpr nonempty
  have room : address % chunkSize < chunkSize := Nat.mod_lt _ (by decide)
  simp only [List.length_drop]
  omega

/-- **Merge bytes into the image** at a 32-bit address. -/
def write (image : Image) (address : UInt32) (bytes : List UInt8) : Image :=
  image.writeAt address.toNat bytes

/-- The `count` bytes from `start` on, a 64-aligned address, erased where no chunk is. -/
def span (image : Image) (start count : Nat) : List UInt8 :=
  (List.range (count / chunkSize)).flatMap fun index =>
    (image.chunk? (start + chunkSize * index)).getD erasedChunk

/-- **The frame of a size covering an address**, and the number of chunks below it. -/
def block (image : Image) (address : UInt32) (size : FrameSize) : Frame × Nat :=
  let start := address.toNat - address.toNat % size.length
  let progress := (image.bases.filter (· < start)).length
  if image.bases.all (· < start) then (Frame.final size, progress)
  else (Frame.make size start.toUInt32 (image.span start size.length), progress)

/-- Read HEX lines into the image, data records placed above `base`. -/
def loadLines (image : Image) (base : Nat) : List (List Char) → Except HexError Image
  | [] => .ok image
  | line :: rest =>
    if (Text.trimBlank line).isEmpty then image.loadLines base rest
    else match decodeChars line with
      | .error error => .error error
      | .ok (.data offset bytes) =>
        (image.write (base + offset.toNat).toUInt32 bytes).loadLines base rest
      | .ok (.base address) => image.loadLines address.toNat rest
      | .ok .endOfFile => .ok image
      | .ok .start => image.loadLines base rest

/-- **The image a HEX file describes**, with a chunk budget. -/
def ofHex (text : String) (limit : Nat) : Except HexError Image :=
  (empty limit).loadLines 0 (text.toList.splitOn '\n')

end Image

end RailBus.Firmware
