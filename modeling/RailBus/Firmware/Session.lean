import RailBus.Firmware.Image
/-! # A firmware transfer to a bootloader

The unit's bootloader drives the transfer with single characters, and the master answers some of
them with a frame of the image:

| character | request |
|---|---|
| `*` `+` `-` | the next frame of 256, 128 or 64 bytes |
| `#` `?` `%` | the last frame again, at 256, 128 or 64 bytes |
| `A` | an address error: start again from address 0 |
| `C` | a checksum error at the unit |
| `T` | a timeout, also the opening handshake |
| `L` | a length error |
| `F` | the unit received the end frame |

`Session.input` takes one character. Until the handshake nothing is answered. A next request first
moves the address past the last frame sent, then cuts the frame there; a repeat request cuts the
frame at the current address without moving. A character that is no request starts the session
over. The address moves with 32-bit wrap-around, and the session is over for good once the unit
confirms the end frame.
-/

namespace RailBus.Firmware

/-- Where a transfer stands. -/
inductive SessionState where
  /-- Waiting for the handshake. -/
  | startup
  | blockTransmit
  | blockRepeat
  /-- The end frame was sent. -/
  | endBlock
  /-- Out of step, waiting for the unit to retry. -/
  | recover
  /-- The transfer is over. -/
  | finished
  deriving DecidableEq, Repr

/-- The state's name as reported. -/
def SessionState.name : SessionState → String
  | .startup => "Startup"
  | .blockTransmit => "BlockTransmit"
  | .blockRepeat => "BlockRepeat"
  | .endBlock => "EndBlock"
  | .recover => "Recover"
  | .finished => "Finished"

/-- What a bootloader asks for. -/
inductive Request where
  | next (size : FrameSize)
  | again (size : FrameSize)
  | addressError
  | crcError
  | timeout
  | lengthError
  | done
  deriving DecidableEq, Repr

/-- The request a character stands for. -/
def Request.ofByte? (byte : UInt8) : Option Request :=
  match Char.ofNat byte.toNat with
  | '*' => some (.next .large)
  | '+' => some (.next .medium)
  | '-' => some (.next .small)
  | '#' => some (.again .large)
  | '?' => some (.again .medium)
  | '%' => some (.again .small)
  | 'A' => some .addressError
  | 'C' => some .crcError
  | 'T' => some .timeout
  | 'L' => some .lengthError
  | 'F' => some .done
  | _ => none

/-- The progress of a transfer. -/
structure Session where
  state : SessionState
  /-- The start address of the current frame. -/
  address : UInt32
  /-- The size of the last frame sent, none before the first. -/
  last : Option FrameSize
  /-- The number of image chunks below the current frame. -/
  progress : Nat
  deriving DecidableEq, Repr

namespace Session

/-- A session waiting for the handshake. -/
def initial : Session :=
  { state := .startup, address := 0, last := none, progress := 0 }

def isFinished (session : Session) : Bool :=
  session.state == .finished

/-- The frame of a size at the current address; the address follows the frame unless it is the
end frame. -/
def resend (session : Session) (size : FrameSize) (image : Image) : Session × Frame :=
  let (frame, progress) := image.block session.address size
  let address := if frame.isEnd then session.address else frame.start.toUInt32
  ({ session with address, last := some size, progress }, frame)

/-- The frame of a size at the current address, the state telling whether it ends the image. -/
def send (session : Session) (size : FrameSize) (image : Image) : Session × Frame :=
  let (session, frame) := session.resend size image
  ({ session with state := if frame.isEnd then .endBlock else .blockTransmit }, frame)

/-- **One character from the bootloader**, and the frame to answer it with, if any. -/
def input (session : Session) (byte : UInt8) (image : Image) : Session × Option Frame :=
  match session.state, Request.ofByte? byte with
  | .finished, _ => (session, none)
  | .startup, some .timeout => ({ session with state := .blockTransmit }, none)
  | .startup, _ => (session, none)
  | _, none => ({ session with address := 0, last := none, state := .startup }, none)
  | _, some (.next size) =>
    let moved := match session.last with
      | some last => { session with address := session.address + last.length.toUInt32 }
      | none => session
    let (next, frame) := moved.send size image
    (next, some frame)
  | state, some (.again size) =>
    let marked := { session with
      state := if state = SessionState.blockRepeat ∨ state = SessionState.recover then .recover
        else .blockRepeat }
    let (next, frame) := marked.resend size image
    (next, some frame)
  | _, some .addressError => ({ session with address := 0, last := none }, none)
  | _, some .crcError => ({ session with state := .recover }, none)
  | .recover, some .timeout =>
    let (next, frame) := { session with state := .blockTransmit }.resend
      (session.last.getD .large) image
    (next, some frame)
  | _, some .timeout => ({ session with state := .recover }, none)
  | .recover, some .lengthError => ({ session with state := .blockTransmit }, none)
  | _, some .lengthError => (session, none)
  | _, some .done => ({ session with state := .finished }, none)

end Session

end RailBus.Firmware
