import RailBus.Wire.Format
/-! # Data bytes that pack several fields

Some data bytes carry several small fields, counted from the least significant bit:

* the drive byte: bit 0 reverse, bit 1 emergency stop, bit 2 in a consist, bits 3 to 5 the
  decoder format;
* the refresh byte of the status broadcast: bits 0 to 2 the round, bits 3 to 6 four bits of
  turnout state;
* the CV high byte of a main-track CV write: bits 0 to 2 the CV number bits 7 to 9, bit 6 the
  top bit of the value;
* the accessory byte: bit 0 thrown, bit 1 coil powered.

Each is a structure with a reader `ofByte`, which ignores the bits outside its fields, and a
writer `toByte`, which leaves them clear. A field of `width` bits holds a `Fin (2 ^ width)`; a
number offered for it that does not fit is refused with `FieldOverflow` (`fitField`).
-/

namespace RailBus

/-- A number offered for a field that is too narrow for it. -/
structure FieldOverflow where
  width : Nat
  value : Nat
  deriving Repr

/-- The report of a field overflow. -/
def FieldOverflow.message (_ : FieldOverflow) : String :=
  "assertion failed: value <= Self::MAX.value"

/-- **A number as a field of `width` bits**, refused when it does not fit. -/
def fitField (width value : Nat) : Except FieldOverflow (Fin (Nat.pow 2 width)) :=
  if h : value < Nat.pow 2 width then .ok ⟨value, h⟩ else .error ⟨width, value⟩

/-- Bit `index` of a byte. -/
def bitOf (byte : UInt8) (index : Nat) : Bool :=
  byte.toNat.testBit index

/-- The field of `width` bits starting at bit `low` of a byte. -/
def fieldOf (byte : UInt8) (low width : Nat) : Fin (Nat.pow 2 width) :=
  ⟨(byte.toNat >>> low) % Nat.pow 2 width, Nat.mod_lt _ (Nat.two_pow_pos width)⟩

/-- A flag as the number it adds at bit `index`. -/
def flagAt (flag : Bool) (index : Nat) : Nat :=
  if flag then Nat.pow 2 index else 0

/-- The drive byte sent along a loco's speed. -/
structure Drive where
  reverse : Bool
  emergency : Bool
  consist : Bool
  format : Fin 8
  deriving DecidableEq, Repr

namespace Drive

def ofByte (byte : UInt8) : Drive :=
  { reverse := bitOf byte 0, emergency := bitOf byte 1, consist := bitOf byte 2,
    format := fieldOf byte 3 3 }

def toByte (drive : Drive) : UInt8 :=
  (flagAt drive.reverse 0 + flagAt drive.emergency 1 + flagAt drive.consist 2
    + drive.format.val * 8).toUInt8

end Drive

/-- The refresh byte of the status broadcast. -/
structure Refresh where
  round : Fin 8
  state : Fin 16
  deriving DecidableEq, Repr

namespace Refresh

def ofByte (byte : UInt8) : Refresh :=
  { round := fieldOf byte 0 3, state := fieldOf byte 3 4 }

def toByte (refresh : Refresh) : UInt8 :=
  (refresh.round.val + refresh.state.val * 8).toUInt8

end Refresh

/-- The third byte of a main-track CV write: what does not fit the two 7-bit bytes. -/
structure CvHigh where
  cv : Fin 8
  msb : Bool
  deriving DecidableEq, Repr

namespace CvHigh

def ofByte (byte : UInt8) : CvHigh :=
  { cv := fieldOf byte 0 3, msb := bitOf byte 6 }

def toByte (high : CvHigh) : UInt8 :=
  (high.cv.val + flagAt high.msb 6).toUInt8

end CvHigh

/-- The flags of a turnout command. -/
structure Accessory where
  thrown : Bool
  on : Bool
  deriving DecidableEq, Repr

namespace Accessory

def ofByte (byte : UInt8) : Accessory :=
  { thrown := bitOf byte 0, on := bitOf byte 1 }

def toByte (accessory : Accessory) : UInt8 :=
  (flagAt accessory.thrown 0 + flagAt accessory.on 1).toUInt8

end Accessory

end RailBus
