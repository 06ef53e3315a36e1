import RailBus.Wire.Format
/-! # The layout the master acts on

The master keeps no loco, turnout or configuration state of its own: it acts on a layout, given
as a state type `σ` with the operations of `Layout σ`. Locos are driven by speed, direction and
seven-function groups, paired in consists, and listed in a database of named entries with
1-based indices. A mutating operation returns the new state, and with it its answer where it has
one; so do the reads on the programming track, which drive the track to read a decoder.

The configuration operations (flags, module counts, booster voltage and current, CV access on the
programming and main tracks, the default format) and `release` and `turnoutRefresh` have defaults
that refuse or do nothing, so a layout supplies only what its hardware supports.
-/

namespace RailBus

/-- The number of characters of a loco name. -/
def nameLength : Nat := 12

/-- A loco as units show it. -/
structure LocoState where
  /-- Speed step, 0 to 127 on the wire. -/
  speed : UInt8 := 0
  reverse : Bool := false
  emergency : Bool := false
  format : Format := .dcc28
  /-- F0 in bit 0 up to F27 in bit 27. -/
  functions : UInt32 := 0
  /-- The consist partner. -/
  consist : Option UInt16 := none
  deriving DecidableEq, Repr, Inhabited

/-- An entry of the loco database. -/
structure LocoEntry where
  loco : UInt16
  format : Format
  /-- At most `nameLength` bytes. -/
  name : String
  deriving DecidableEq, Repr

/-- **The operations of a layout** with state `σ`. -/
class Layout (σ : Type) where
  mode : σ → OperatingMode
  /-- Change the track operating mode, shown at the next status broadcast. -/
  setMode : σ → OperatingMode → σ
  /-- Acquire a loco for a unit; none if it cannot be controlled. -/
  takeControl : σ → UInt16 → Option LocoState × σ
  release : σ → UInt16 → σ := fun layout _ => layout
  loco : σ → UInt16 → Option LocoState
  setSpeed : σ → UInt16 → UInt8 → Bool → Bool → σ
  /-- Set the seven functions of a group: group 0 is F0 to F6, up to group 3 for F21 to F27. -/
  setFunctions : σ → UInt16 → UInt8 → UInt8 → σ
  /-- Pair two locos in a consist; false if refused. -/
  couple : σ → UInt16 → UInt16 → Bool × σ
  uncouple : σ → UInt16 → Bool × σ
  setTurnout : σ → UInt16 → Bool → Bool → σ
  /-- Four bits of turnout state for a status round 0 to 7. -/
  turnoutRefresh : σ → UInt8 → UInt8 := fun _ _ => 0
  locoCount : σ → UInt16
  locoEntry : σ → UInt16 → Option LocoEntry
  removeEntry : σ → UInt16 → Bool × σ
  storeEntry : σ → LocoEntry → σ
  /-- System flags, 14 bits. -/
  flags : σ → UInt16 := fun _ => 0
  setFlags : σ → UInt16 → σ := fun layout _ => layout
  modules : σ → ModuleKind → UInt8 := fun _ _ => 0
  setModules : σ → ModuleKind → UInt8 → Bool × σ := fun layout _ _ => (false, layout)
  /-- Booster voltage in decivolts. -/
  voltage : σ → UInt16 := fun _ => 0
  setVoltage : σ → UInt16 → Bool × σ := fun layout _ => (false, layout)
  /-- Booster current limit in milliamps. -/
  current : σ → UInt16 := fun _ => 0
  setCurrent : σ → UInt16 → Bool × σ := fun layout _ => (false, layout)
  /-- Read a CV on the programming track. -/
  readCv : σ → UInt16 → Option UInt8 × σ := fun layout _ => (none, layout)
  writeCv : σ → UInt16 → UInt8 → Bool × σ := fun layout _ _ => (false, layout)
  readCvBit : σ → UInt16 → UInt8 → Option Bool × σ := fun layout _ _ => (none, layout)
  writeCvBit : σ → UInt16 → UInt8 → Bool → Bool × σ := fun layout _ _ _ => (false, layout)
  /-- The address of the decoder on the programming track. -/
  readAddress : σ → Option UInt16 × σ := fun layout => (none, layout)
  /-- Write a CV on the main track. -/
  pomWrite : σ → UInt16 → UInt16 → UInt8 → Bool × σ := fun layout _ _ _ => (false, layout)
  pomWriteBit : σ → UInt16 → UInt16 → UInt8 → Bool → Bool × σ :=
    fun layout _ _ _ _ => (false, layout)
  mfxAssign : σ → UInt16 → Bool × σ := fun layout _ => (false, layout)
  /-- The default decoder format of new locos. -/
  format : σ → Format := fun _ => .dcc28
  setFormat : σ → Format → Bool × σ := fun layout _ => (false, layout)

end RailBus
