import RailBus.Checksum.Crc16
/-! # Update frames

A bootloader asks for firmware in frames of 64, 128 or 256 payload bytes. On the wire a frame is
its start address, its payload and its CRC-16, all multi-byte fields little endian:

* 64 bytes: start (2 bytes), payload, crc (2 bytes), 68 bytes in all;
* 128 bytes: start (2 bytes), payload, crc (2 bytes), 132 bytes in all;
* 256 bytes: start (4 bytes), payload, crc (2 bytes), then `fe fe`, 264 bytes in all.

The checksum covers the start field and the payload (`Frame.ofPayload`). The largest start address
a field can hold is the sentinel that marks the end of the image (`Frame.final`, with an erased
payload), so a small frame for an address from 0xffff on is the end frame (`Frame.make`).
The transport streams a frame as 32-bit words, each four wire bytes read little endian
(`Frame.toWords`).
-/

namespace RailBus.Firmware

open Checksum

/-- The value of erased flash. -/
def erased : UInt8 := 0xff

/-- The payload sizes a bootloader can ask for. -/
inductive FrameSize where
  | small
  | medium
  | large
  deriving DecidableEq, Repr

namespace FrameSize

/-- The number of payload bytes. -/
def length : FrameSize → Nat
  | .small => 64
  | .medium => 128
  | .large => 256

/-- The size with the given number of payload bytes, if there is one. -/
def ofLength? : Nat → Option FrameSize
  | 64 => some .small
  | 128 => some .medium
  | 256 => some .large
  | _ => none

/-- The number of bytes of the start field. -/
def startWidth : FrameSize → Nat
  | .large => 4
  | _ => 2

/-- The start address that marks the end of the image: the largest the field holds. -/
def sentinel (size : FrameSize) : Nat :=
  Nat.pow 256 size.startWidth - 1

/-- The bytes after the checksum. -/
def trailer : FrameSize → List UInt8
  | .large => [0xfe, 0xfe]
  | _ => []

end FrameSize

/-- The `width` low bytes of a number, least significant first. -/
def leBytes (width value : Nat) : List UInt8 :=
  (List.range width).map fun index => (value / Nat.pow 256 index % 256).toUInt8

/-- A payload cut or padded with erased bytes to `length` bytes. -/
def fitPayload (length : Nat) (payload : List UInt8) : List UInt8 :=
  payload.take length ++ List.replicate (length - payload.length) erased

/-- A frame of firmware for a bootloader. -/
structure Frame where
  size : FrameSize
  start : Nat
  payload : List UInt8
  crc : UInt16
  deriving DecidableEq, Repr

namespace Frame

/-- The start field on the wire. -/
def startField (frame : Frame) : List UInt8 :=
  leBytes frame.size.startWidth frame.start

/-- A frame with its checksum computed over the start field and the payload. -/
def ofPayload (size : FrameSize) (start : Nat) (payload : List UInt8) : Frame :=
  { size, start, payload, crc := crc16 (leBytes size.startWidth start) payload }

/-- **The end-of-image frame** of a size: the sentinel start and an erased payload. -/
def final (size : FrameSize) : Frame :=
  ofPayload size size.sentinel (List.replicate size.length erased)

/-- **The frame of a size at a start address**, the payload cut or padded to the size. A small
frame cannot start at the sentinel or above, and is the end frame there. -/
def make (size : FrameSize) (start : UInt32) (payload : List UInt8) : Frame :=
  if size = .large ∨ start.toNat < size.sentinel then
    ofPayload size start.toNat (fitPayload size.length payload)
  else final size

/-- Whether this frame marks the end of the image. -/
def isEnd (frame : Frame) : Bool :=
  frame.start == frame.size.sentinel

/-- The wire bytes. -/
def toBytes (frame : Frame) : List UInt8 :=
  frame.startField ++ frame.payload ++ leBytes 2 frame.crc.toNat ++ frame.size.trailer

end Frame

/-- Bytes read as little-endian 32-bit words; a tail of fewer than four bytes is left out. -/
def leWords : List UInt8 → List UInt32
  | b0 :: b1 :: b2 :: b3 :: rest =>
    (b0.toUInt32 ||| (b1.toUInt32 <<< 8) ||| (b2.toUInt32 <<< 16) ||| (b3.toUInt32 <<< 24))
      :: leWords rest
  | _ => []

/-- The words a transport streams for a frame. -/
def Frame.toWords (frame : Frame) : List UInt32 :=
  leWords frame.toBytes

end RailBus.Firmware
