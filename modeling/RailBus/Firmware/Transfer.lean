import RailBus.Firmware.Session
import RailBus.Transport
/-! # Running a firmware transfer

A transfer feeds the bootloader's characters to a session, one at a time, and streams the words of
every frame the session answers with, until the session is finished. When the characters run out
first, nothing more arrives in time and the transfer fails with a timeout.

`Session.feed` gives the session at the end, the words streamed, the characters left unread and
the outcome. `transfer` does the same on the bus's character script and word stream.
-/

namespace RailBus.Firmware

/-- How a transfer ended, and what it left behind. -/
structure TransferEnd where
  session : Session
  /-- The words streamed, in order. -/
  words : List UInt32
  /-- The characters not read. -/
  left : List UInt8
  result : Except MasterError Unit

/-- **Feed characters to a session** until it finishes or they run out. -/
def Session.feed (image : Image) (session : Session) : List UInt8 → TransferEnd
  | [] =>
    { session, words := [], left := [],
      result := if session.isFinished then .ok () else .error .timeout }
  | byte :: rest =>
    if session.isFinished then { session, words := [], left := byte :: rest, result := .ok () }
    else
      let (next, frame) := session.input byte image
      let later := next.feed image rest
      { later with words := (frame.map Frame.toWords).getD [] ++ later.words }

/-- **Transfer an image** over the bus from a fresh session: the script is read, the words are
streamed. -/
def transfer (bus : Bus) (image : Image) : Bus × TransferEnd :=
  let outcome := Session.initial.feed image bus.script
  ({ bus.stream outcome.words with script := outcome.left }, outcome)

end RailBus.Firmware
