import RailBus.Wire.Block
import RailBus.Firmware.HexRecord
/-! # What the master exchanges with the units

The bus runs in one of two modes: blocks (`LinkMode.block`), the normal traffic, or a stream of
32-bit words toward bootloaders that answer with single characters (`LinkMode.bootStream`).

`Bus` is the traffic as the master sees it: blocks received and not yet handled, blocks sent,
the modes requested, the words streamed, and the characters a bootloader has still to send.
Receiving takes the oldest waiting block or character; sending only adds to what was sent.

`MasterError` names what can go wrong on the master's side of a link, each with its report
(`MasterError.message`) and the detail it carries (`MasterError.detail?`).
-/

namespace RailBus

open Firmware

/-- The framing discipline of the bus. -/
inductive LinkMode where
  /-- Nine-byte blocks, normal operation. -/
  | block
  /-- Words toward a bootloader, single characters back. -/
  | bootStream
  deriving DecidableEq, Repr

/-- The mode's name as reported. -/
def LinkMode.name : LinkMode → String
  | .block => "block"
  | .bootStream => "boot"

/-- What goes wrong on the master's side of a link. -/
inductive MasterError where
  /-- The serial line failed. -/
  | bus
  /-- The master refused, for the reason given. -/
  | master (reason : String)
  /-- Nothing arrived in time. -/
  | timeout
  /-- The transmit queue stayed full. -/
  | queueFull
  /-- A firmware file is malformed. -/
  | hex (error : HexError)
  deriving DecidableEq, Repr

namespace MasterError

/-- The report of an error. -/
def message : MasterError → String
  | .bus => "problem with uart bus"
  | .master _ => "problem detected on master side"
  | .timeout => "no data arrived in expected time"
  | .queueFull => "transmit queue stayed full"
  | .hex error => "invalid firmware file: " ++ error.message

/-- The detail an error carries: the reason a master refused, or the malformed line's report. -/
def detail? : MasterError → Option String
  | .master reason => some reason
  | .hex error => some error.message
  | _ => none

end MasterError

/-- The traffic between the master and the units. -/
structure Bus where
  /-- Blocks received and not yet handled, oldest first. -/
  inbox : List Block := []
  /-- Blocks sent, oldest first. -/
  sent : List Block := []
  mode : LinkMode := .block
  /-- The modes requested, oldest first. -/
  modes : List LinkMode := []
  /-- Words streamed to bootloaders, oldest first. -/
  words : List UInt32 := []
  /-- Characters a bootloader has still to send. -/
  script : List UInt8 := []
  deriving DecidableEq, Repr

namespace Bus

/-- Queue blocks as received. -/
def receive (bus : Bus) (blocks : List Block) : Bus :=
  { bus with inbox := bus.inbox ++ blocks }

def send (bus : Bus) (block : Block) : Bus :=
  { bus with sent := bus.sent ++ [block] }

def setMode (bus : Bus) (mode : LinkMode) : Bus :=
  { bus with mode, modes := bus.modes ++ [mode] }

def stream (bus : Bus) (words : List UInt32) : Bus :=
  { bus with words := bus.words ++ words }

end Bus

end RailBus
