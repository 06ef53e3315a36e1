import RailBus.Transport
import RailBus.Queue
/-! # A link over a byte stream

A link carries the bus over a serial line. Its receiver turns the bytes from the line into blocks
or bootloader characters, by the mode in force when each byte arrives:

* in block mode a byte with the sync bit starts a new block, a byte without it extends the block
  being read and is skipped when none is, and nine bytes make a block, which is queued only if it
  is `Block.valid`;
* in boot-stream mode the bytes 0x00 and 0xff are indistinguishable from an idle line and are
  skipped, every other byte is a character; any byte in this mode ends the block being read.

Received blocks and characters wait in queues of 64; what does not fit is dropped and counted
(`Link.dropped`).

Blocks and words to send wait in queues of their own, 32 blocks and 256 words, for the
transmitter, which runs beside the callers and writes in iterations (`Link.transmit`): in block
mode one iteration writes the nine bytes of the oldest waiting block; in boot-stream mode it writes
up to 16 waiting words, little endian, or the filler word `fe fe fe fe` when none waits, so a
listener cannot tell a filler-valued word from idle time (`withoutFiller`). Sending in the other
mode is refused; a block that finds its queue full is refused too, while words wait for the
transmitter to make room. `Link.settle` runs the transmitter until nothing waits.

Changing the mode empties all four queues but leaves a partly read block alone.
-/

namespace RailBus

/-- The number of received blocks a link holds. -/
def inboundCapacity : Nat := 64

/-- The number of received bootloader characters a link holds. -/
def charCapacity : Nat := 64

/-- The number of blocks waiting to be sent a link holds. -/
def outboundCapacity : Nat := 32

/-- The number of words waiting to be streamed a link holds: three frames of the largest size. -/
def wordCapacity : Nat := 256

/-- The most waiting words the transmitter writes in one iteration. -/
def burstLength : Nat := 16

/-- The word streamed while there is nothing to send. -/
def filler : UInt32 := 0xfefefefe

/-- The four little-endian bytes of a word. -/
def wordBytes (word : UInt32) : List UInt8 :=
  [word.toUInt8, (word >>> 8).toUInt8, (word >>> 16).toUInt8, (word >>> 24).toUInt8]

/-- The bytes of a stream without its filler words, read in groups of four. -/
def withoutFiller : List UInt8 → List UInt8
  | b0 :: b1 :: b2 :: b3 :: rest =>
    if [b0, b1, b2, b3] = wordBytes filler then withoutFiller rest
    else b0 :: b1 :: b2 :: b3 :: withoutFiller rest
  | rest => rest

/-- A link's state. -/
structure Link where
  mode : LinkMode := .block
  /-- The bytes of the block being read, none while no block is open. -/
  frame : List UInt8 := []
  inbound : Queue Block := Queue.empty inboundCapacity
  /-- Blocks waiting for the transmitter, oldest first. -/
  outbound : Queue Block := Queue.empty outboundCapacity
  chars : Queue UInt8 := Queue.empty charCapacity
  /-- Words waiting for the transmitter, oldest first. -/
  words : Queue UInt32 := Queue.empty wordCapacity
  /-- The bytes put on the line, oldest first. -/
  written : List UInt8 := []

namespace Link

/-- Received items dropped because their queue was full. -/
def dropped (link : Link) : UInt32 :=
  link.inbound.dropped + link.chars.dropped

/-- **One byte from the line.** -/
def receive (link : Link) (byte : UInt8) : Link :=
  match link.mode with
  | .bootStream =>
    let link := { link with frame := [] }
    if byte = 0x00 ∨ byte = 0xff then link
    else { link with chars := (link.chars.pushOrDrop byte).1 }
  | .block =>
    let frame := if byte &&& syncBit ≠ 0 then [byte]
      else if link.frame.isEmpty then []
      else link.frame ++ [byte]
    if frame.length < 9 then { link with frame }
    else
      let link := { link with frame := [] }
      match Block.ofBytes? frame with
      | some block =>
        if block.valid then { link with inbound := (link.inbound.pushOrDrop block).1 } else link
      | none => link

/-- Bytes from the line, in order. -/
def feed (link : Link) (bytes : List UInt8) : Link :=
  bytes.foldl receive link

@[simp]
theorem feed_nil (link : Link) : link.feed [] = link := rfl

@[simp]
theorem feed_cons (link : Link) (byte : UInt8) (bytes : List UInt8) :
    link.feed (byte :: bytes) = (link.receive byte).feed bytes := rfl

/-- A stream read in two parts is read as a whole. -/
theorem feed_append (link : Link) (first second : List UInt8) :
    link.feed (first ++ second) = (link.feed first).feed second := by
  simp only [feed, List.foldl_append]

/-- Switch the mode; switching to a new mode empties every queue. -/
def setMode (link : Link) (mode : LinkMode) : Link :=
  if link.mode = mode then link
  else
    { link with
      mode, inbound := link.inbound.clear, outbound := link.outbound.clear,
      chars := link.chars.clear, words := link.words.clear }

/-- Take every received block, oldest first. -/
def takeBlocks (link : Link) : List Block × Link :=
  (link.inbound.items, { link with inbound := link.inbound.clear })

/-- Take the oldest received character. -/
def takeChar (link : Link) : Option UInt8 × Link :=
  let (char, chars) := link.chars.pop
  (char, { link with chars })

/-- Take every received character, oldest first. -/
def takeChars (link : Link) : List UInt8 × Link :=
  (link.chars.items, { link with chars := link.chars.clear })

/-! ## Transmitting -/

/-- One iteration of the transmitter in block mode: the oldest waiting block, if any, is written. -/
def sendNext (link : Link) : Link :=
  let popped := link.outbound.pop
  match popped.1 with
  | some block => { link with outbound := popped.2, written := link.written ++ block.toBytes }
  | none => link

/-- One iteration of the transmitter in boot-stream mode: up to `burstLength` of the oldest waiting
words are written, or the filler word when none waits, since a bootloader expects the line never
to idle. -/
def streamBurst (link : Link) : Link :=
  let popped := link.words.popUpTo burstLength
  if popped.1.isEmpty then { link with written := link.written ++ wordBytes filler }
  else { link with words := popped.2, written := link.written ++ popped.1.flatMap wordBytes }

/-- **One iteration of the transmitter**, by the mode in force. -/
def transmit (link : Link) : Link :=
  match link.mode with
  | .block => link.sendNext
  | .bootStream => link.streamBurst

/-- The items waiting for the transmitter in the mode in force. -/
def backlog (link : Link) : Nat :=
  match link.mode with
  | .block => link.outbound.length
  | .bootStream => link.words.length

@[simp]
theorem mode_sendNext (link : Link) : link.sendNext.mode = link.mode := by
  unfold sendNext
  dsimp only
  split <;> rfl

@[simp]
theorem mode_streamBurst (link : Link) : link.streamBurst.mode = link.mode := by
  unfold streamBurst
  dsimp only
  split <;> rfl

@[simp]
theorem mode_transmit (link : Link) : link.transmit.mode = link.mode := by
  unfold transmit
  split <;> simp

/-- What a block-mode iteration leaves waiting: all but the oldest block. -/
@[simp]
theorem outbound_sendNext (link : Link) :
    link.sendNext.outbound.items = link.outbound.items.tail := by
  obtain ⟨oldest, rest⟩ := link.outbound.pop_view
  unfold sendNext
  dsimp only
  split
  · exact rest
  · rename_i nothing
    rw [oldest, List.head?_eq_none_iff] at nothing
    simp [nothing]

/-- What a boot-stream iteration leaves waiting: all but the oldest `burstLength` words. -/
@[simp]
theorem words_streamBurst (link : Link) :
    link.streamBurst.words.items = link.words.items.drop burstLength := by
  unfold streamBurst
  dsimp only
  split
  · rename_i nothing
    simp only [Queue.popUpTo_fst, List.isEmpty_iff, List.take_eq_nil_iff, burstLength] at nothing
    simp [nothing.resolve_left (by decide)]
  · exact Queue.items_popUpTo _ _

theorem transmit_of_block {link : Link} (mode : link.mode = .block) :
    link.transmit = link.sendNext := by
  simp [transmit, mode]

theorem transmit_of_bootStream {link : Link} (mode : link.mode = .bootStream) :
    link.transmit = link.streamBurst := by
  simp [transmit, mode]

theorem backlog_of_block {link : Link} (mode : link.mode = .block) :
    link.backlog = link.outbound.length := by
  simp [backlog, mode]

theorem backlog_of_bootStream {link : Link} (mode : link.mode = .bootStream) :
    link.backlog = link.words.length := by
  simp [backlog, mode]

/-- An iteration with something waiting takes at least one item. -/
theorem backlog_transmit_lt {link : Link} (busy : 0 < link.backlog) :
    link.transmit.backlog < link.backlog := by
  cases mode : link.mode with
  | block =>
    have after : link.transmit.mode = .block := by simp [mode]
    rw [backlog_of_block mode] at busy ⊢
    rw [backlog_of_block after, transmit_of_block mode]
    simp only [Queue.length_eq, outbound_sendNext, List.length_tail] at busy ⊢
    omega
  | bootStream =>
    have after : link.transmit.mode = .bootStream := by simp [mode]
    rw [backlog_of_bootStream mode] at busy ⊢
    rw [backlog_of_bootStream after, transmit_of_bootStream mode]
    simp only [Queue.length_eq, words_streamBurst, List.length_drop, burstLength] at busy ⊢
    omega

/-- **Transmit until nothing waits**: the line once the transmitter has caught up. -/
def settle (link : Link) : Link :=
  if busy : 0 < link.backlog then
    have := backlog_transmit_lt busy
    settle link.transmit
  else link
termination_by link.backlog

/-! ## Sending -/

/-- **Send a block**, in block mode only. The caller's wait for room is the transmitter's
iterations that come before; a block that still finds the queue full is refused. -/
def sendBlock (link : Link) (block : Block) : Except MasterError Link :=
  if link.mode = .block then
    match link.outbound.push? block with
    | some outbound => .ok { link with outbound }
    | none => .error .queueFull
  else .error (.master "link is not in block mode")

/-- Queue a word for the transmitter. A word that finds the queue full waits for the
transmitter, whose next iteration takes a burst of words and so makes room. -/
def queueWord (link : Link) (word : UInt32) : Link :=
  let link := if link.words.items.length < link.words.capacity then link else link.streamBurst
  { link with words := (link.words.pushOrDrop word).1 }

/-- **Stream words**, in boot-stream mode only. -/
def sendWords (link : Link) (words : List UInt32) : Except MasterError Link :=
  if link.mode = .bootStream then .ok (words.foldl queueWord link)
  else .error (.master "link is not in boot stream mode")

end Link

end RailBus
