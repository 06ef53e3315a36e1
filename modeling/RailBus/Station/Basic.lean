import RailBus.Layout.Basic
import RailBus.Transport
import RailBus.UnitTable
import RailBus.Discovery
import RailBus.Version
import RailBus.Text.Blank
/-! # The bus master's state

A station owns the unit table, the discovery search and the bus schedule, and acts on a layout of
state type `σ`. Its schedule position is a unit slot to poll, the discovery probe, or the status
broadcast (`Position`). It keeps the status round (0 to 7) and the loco name being written from a
unit, which is one for the whole bus (`NameEdit`).

What it sends goes to its `Bus`, and what it has to report (units connecting and disconnecting,
locos changed from a unit) goes to its list of `Event`s, both oldest first.
-/

namespace RailBus

/-- The settings of a station. -/
structure Config where
  /-- The version reported to units. -/
  version : Version := ⟨2, 6, 0⟩
  /-- The most 64-byte chunks a firmware image may hold. -/
  maxChunks : Nat := 16384
  deriving DecidableEq, Repr

/-- Something the station reports. -/
inductive Event where
  | connected (unit : UInt8) (serial : UInt32)
  | disconnected (unit : UInt8) (serial : UInt32)
  /-- The speed or functions of a loco were changed from a unit. -/
  | locoChanged (loco : UInt16)
  deriving DecidableEq, Repr

/-- A loco name being written from a unit, three characters at a time. -/
structure NameEdit where
  loco : UInt16
  format : Format
  /-- The name bytes so far, zero where not yet written. -/
  name : Vector UInt8 nameLength
  deriving DecidableEq, Repr

namespace NameEdit

/-- Write characters of the name from `offset` on, as far as the name reaches. -/
def write (edit : NameEdit) (offset : Nat) (chars : List UInt8) : NameEdit :=
  { edit with name := Vector.ofFn fun index =>
      if offset ≤ index.val then chars.getD (index.val - offset) (edit.name.get index)
      else edit.name.get index }

/-- The name a finished edit stores: up to the first zero, without trailing blanks. -/
def text (edit : NameEdit) : String :=
  String.ofList (Text.trimBlankEnd ((edit.name.toList.takeWhile (· ≠ 0)).map fun byte =>
    Char.ofNat byte.toNat))

end NameEdit

/-- A position of the bus schedule. -/
inductive Position where
  /-- The keepalive poll of a unit slot. -/
  | poll (unit : Fin 64)
  | discovery
  | status
  deriving DecidableEq, Repr

/-- The position as a number: the slot, then 64 for discovery and 65 for the status. -/
def Position.toNat : Position → Nat
  | .poll unit => unit.val
  | .discovery => 64
  | .status => 65

/-- A bus master acting on a layout with state `σ`. -/
structure Station (σ : Type) where
  layout : σ
  config : Config := {}
  table : UnitTable := .empty
  discovery : Discovery := .initial
  position : Position := .discovery
  /-- The status broadcast round. -/
  round : Fin 8 := 0
  edit : Option NameEdit := none
  bus : Bus := {}
  /-- The reports raised, oldest first. -/
  events : List Event := []

namespace Station

variable {σ : Type}

/-- A fresh station: empty table, discovery at its start and next in the schedule. -/
def new (layout : σ) (config : Config) : Station σ :=
  { layout, config }

/-- Send a block. -/
def send (station : Station σ) (block : Block) : Station σ :=
  { station with bus := station.bus.send block }

/-- Raise a report. -/
def emit (station : Station σ) (event : Event) : Station σ :=
  { station with events := station.events ++ [event] }

/-- Queue blocks as received from the bus. -/
def receive (station : Station σ) (blocks : List Block) : Station σ :=
  { station with bus := station.bus.receive blocks }

end Station

end RailBus
