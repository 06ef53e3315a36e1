/-! # Decoder formats, operating modes and module kinds

Three small enumerations travel in data bytes. A decoder format is a 3-bit number: five values
are named, and the other three all read as the unknown format, which writes back as 7
(`Format.ofBits`, `Format.bits`). The track operating mode and the kind of extension module are
plain numbers; a number outside the enumeration is no mode or kind at all (`OperatingMode.ofByte?`,
`ModuleKind.ofByte?`).
-/

namespace RailBus

/-- Format numbers and status rounds are counted in `Fin 8`. Naming the instance makes every such
literal refer to one closed proof. -/
instance eightNeZero : @NeZero Nat (@Zero.ofOfNat0 Nat (instOfNatNat 0)) 8 := ⟨by decide⟩

/-- The decoder format of a loco. -/
inductive Format where
  | dcc14
  | dcc28
  | dcc126
  | motorola
  | mfx
  | unknown
  deriving DecidableEq, Repr

namespace Format

/-- New locos get the 28-step format. -/
instance : Inhabited Format := ⟨.dcc28⟩

/-- The format a 3-bit number names; 5, 6 and 7 are the unknown format. -/
def ofBits (value : Fin 8) : Format :=
  match value with
  | 0 => .dcc14
  | 1 => .dcc28
  | 2 => .dcc126
  | 3 => .motorola
  | 4 => .mfx
  | _ => .unknown

/-- The 3-bit number of a format; the unknown format is 7. -/
def bits : Format → Fin 8
  | .dcc14 => 0
  | .dcc28 => 1
  | .dcc126 => 2
  | .motorola => 3
  | .mfx => 4
  | .unknown => 7

/-- The format named by the low three bits of a byte. -/
def ofByte (byte : UInt8) : Format :=
  ofBits (Fin.ofNat 8 byte.toNat)

/-- The format as a byte. -/
def toByte (format : Format) : UInt8 :=
  format.bits.val.toUInt8

/-- The format's name as reported. -/
def name : Format → String
  | .dcc14 => "Dcc14"
  | .dcc28 => "Dcc28"
  | .dcc126 => "Dcc126"
  | .motorola => "Motorola"
  | .mfx => "Mfx"
  | .unknown => "Unknown"

end Format

/-- The track operating mode broadcast to all units. -/
inductive OperatingMode where
  /-- Track power off. -/
  | stop
  /-- Normal operation. -/
  | go
  /-- Power on, all locos halted. -/
  | halt
  /-- A short circuit was detected. -/
  | short
  deriving DecidableEq, Repr

namespace OperatingMode

instance : Inhabited OperatingMode := ⟨.stop⟩

/-- The mode a byte names, if any. -/
def ofByte? : UInt8 → Option OperatingMode
  | 0 => some .stop
  | 1 => some .go
  | 2 => some .halt
  | 3 => some .short
  | _ => none

/-- The mode's number. -/
def toByte : OperatingMode → UInt8
  | .stop => 0
  | .go => 1
  | .halt => 2
  | .short => 3

/-- The mode's name as reported. -/
def name : OperatingMode → String
  | .stop => "Stop"
  | .go => "Go"
  | .halt => "Halt"
  | .short => "Short"

end OperatingMode

/-- The kinds of extension modules counted by the configuration requests. -/
inductive ModuleKind where
  /-- Feedback modules. -/
  | feedback
  | booster
  /-- Accessory decoders on the local bus. -/
  | accessory
  deriving DecidableEq, Repr

namespace ModuleKind

/-- The kind a byte names, if any. -/
def ofByte? : UInt8 → Option ModuleKind
  | 0 => some .feedback
  | 1 => some .booster
  | 2 => some .accessory
  | _ => none

/-- The kind's number. -/
def toByte : ModuleKind → UInt8
  | .feedback => 0
  | .booster => 1
  | .accessory => 2

end ModuleKind

end RailBus
