import RailBus.Proofs.Firmware.ImageShape
import RailBus.Firmware.Session
/-! # Every byte goes out before the end frame

A bootloader drives a transfer with single characters: it asks for frames of three sizes, asks
for one again, reports checksum, length and address errors, and times out, in any order. Whatever
it sends, the session answers with the end frame only once every byte of every chunk of the image
has gone out, at its address and with its value, in a frame answered since the transfer last
started over (`Session.delivered_before_end`). The only condition is that the frames asked for can
address every chunk: below 0x10000 for the small frames, anywhere for the largest.

The argument is one invariant of the session (`Transcript.Invariant`): the frames answered since
the last restart carry the image below the frontier, the current address plus the size of the
last frame. A next request first moves the address up to the frontier, a repeat stays at the
current address, and either way the frame cut there starts at or below the frontier: it carries
the image up to its own end, or it is the end frame, which is cut only where no chunk lies at or
above its start. What one character can do to a session is said once, by `Session.Step`.
-/

namespace RailBus.Firmware

open Image

/-- The frame size a request names. -/
def Request.size? : Request → Option FrameSize
  | .next size => some size
  | .again size => some size
  | _ => none

/-- Whether a character starts the transfer over: an address error, or a character that is no
request at all. -/
def Request.restarts (byte : UInt8) : Bool :=
  match Request.ofByte? byte with
  | none => true
  | some .addressError => true
  | some _ => false

namespace Image

/-- **The frames cover the image below an address**: each byte of a chunk below `bound` is carried
by one of them. -/
def CoveredBelow (image : Image) (frames : List Frame) (bound : Nat) : Prop :=
  ∀ base bytes, (base, bytes) ∈ image.chunks → ∀ offset (inChunk : offset < bytes.length),
    base + offset < bound → ∃ frame ∈ frames, frame.Carries (base + offset) bytes[offset]

/-- **The frames deliver the image**: each byte of every chunk is carried by one of them. -/
def Delivered (image : Image) (frames : List Frame) : Prop :=
  ∀ base bytes, (base, bytes) ∈ image.chunks → ∀ offset (inChunk : offset < bytes.length),
    ∃ frame ∈ frames, frame.Carries (base + offset) bytes[offset]

variable {image : Image}

theorem coveredBelow_zero (frames : List Frame) : image.CoveredBelow frames 0 :=
  fun _ _ _ _ _ below => absurd below (Nat.not_lt_zero _)

/-- More frames cover at least as much, and cover whatever lies lower. -/
theorem CoveredBelow.mono {frames more : List Frame} {bound lower : Nat}
    (covered : image.CoveredBelow frames bound) (kept : ∀ frame ∈ frames, frame ∈ more)
    (le : lower ≤ bound) : image.CoveredBelow more lower := by
  intro base bytes member offset inChunk below
  obtain ⟨frame, sent, carries⟩ := covered base bytes member offset inChunk (by omega)
  exact ⟨frame, kept frame sent, carries⟩

theorem Delivered.coveredBelow {frames : List Frame} (delivered : image.Delivered frames)
    (bound : Nat) : image.CoveredBelow frames bound :=
  fun base bytes member offset inChunk _ => delivered base bytes member offset inChunk

/-- **A frame that is not the end frame extends the covered part to its own end.** -/
theorem CoveredBelow.append_block (shape : image.WellFormed) {size : FrameSize}
    (fits : image.Addressable size) {address : UInt32} {frames : List Frame}
    (covered : image.CoveredBelow frames (size.alignDown address.toNat))
    (notEnd : (image.block address size).1.isEnd = false) :
    image.CoveredBelow (frames ++ [(image.block address size).1])
      (size.alignDown address.toNat + size.length) := by
  intro base bytes member offset inChunk below
  by_cases early : base + offset < size.alignDown address.toNat
  · obtain ⟨frame, sent, carries⟩ := covered base bytes member offset inChunk early
    exact ⟨frame, List.mem_append_left _ sent, carries⟩
  · exact ⟨_, List.mem_append_right _ (List.mem_singleton_self _),
      shape.carries_block fits notEnd member inChunk (Nat.le_of_not_lt early) below⟩

/-- **The end frame comes after the whole image**: frames covering the image below the start of
an end frame deliver all of it. -/
theorem CoveredBelow.delivered_of_isEnd (shape : image.WellFormed) {size : FrameSize}
    (fits : image.Addressable size) {address : UInt32} {frames : List Frame}
    (covered : image.CoveredBelow frames (size.alignDown address.toNat))
    (ends : (image.block address size).1.isEnd = true) : image.Delivered frames :=
  fun base bytes member offset inChunk =>
    covered base bytes member offset inChunk (shape.lt_of_isEnd_block fits ends member inChunk)

end Image

namespace Session

/-- The address below which the frames sent cover the image: the current address plus the size
of the last frame sent. -/
def frontier (session : Session) : Nat :=
  session.address.toNat + (session.last.map FrameSize.length).getD 0

@[simp]
theorem frontier_state (session : Session) (state : SessionState) :
    ({ session with state } : Session).frontier = session.frontier := rfl

theorem resend_frame (session : Session) (size : FrameSize) (image : Image) :
    (session.resend size image).2 = (image.block session.address size).1 := rfl

theorem resend_last (session : Session) (size : FrameSize) (image : Image) :
    (session.resend size image).1.last = some size := rfl

theorem resend_state (session : Session) (size : FrameSize) (image : Image) :
    (session.resend size image).1.state = session.state := rfl

variable {image : Image}

/-- **A frame cut at the current address covers the image up to the new frontier**, given the
image below the address was covered before. -/
theorem coveredBelow_resend (shape : image.WellFormed) {size : FrameSize}
    (fits : image.Addressable size) {session : Session} {frames : List Frame}
    (covered : image.CoveredBelow frames session.address.toNat) :
    image.CoveredBelow (frames ++ [(session.resend size image).2])
      (session.resend size image).1.frontier := by
  have start := size.alignDown_le session.address.toNat
  cases ends : (image.block session.address size).1.isEnd with
  | true =>
      have delivered := (covered.mono (fun _ sent => sent) start).delivered_of_isEnd shape fits ends
      exact (delivered.coveredBelow _).mono (fun _ sent => List.mem_append_left _ sent)
        (Nat.le_refl _)
  | false =>
      have inRange : size.alignDown session.address.toNat < addressSpace :=
        Nat.lt_of_le_of_lt start session.address.toNat_lt
      have moved : (session.resend size image).1.frontier =
          size.alignDown session.address.toNat + size.length := by
        simp only [resend, ends, Bool.false_eq_true, ↓reduceIte, frontier, Option.map_some,
          Option.getD_some, shape.start_block fits ends]
        rw [UInt32.toNat_ofNat_of_lt' inRange]
      rw [moved, resend_frame]
      exact (covered.mono (fun _ sent => sent) start).append_block shape fits ends

/-- An end frame cut at the current address comes after the whole image, given the image below
the address was covered. -/
theorem delivered_of_resend (shape : image.WellFormed) {size : FrameSize}
    (fits : image.Addressable size) {session : Session} {frames : List Frame}
    (covered : image.CoveredBelow frames session.address.toNat)
    (ends : (session.resend size image).2.isEnd = true) : image.Delivered frames :=
  (covered.mono (fun _ sent => sent) (size.alignDown_le _)).delivered_of_isEnd shape fits ends

/-- **What one character can do to a session.** -/
inductive Step (image : Image) (session : Session) (byte : UInt8) : Session × Option Frame → Prop
  /-- Only the state changes. The session never comes back to the start this way nor leaves the
  end, and a restarting character does this only at the start or at the end. -/
  | keep (state : SessionState) (noReturn : state = .startup → session.state = .startup)
      (stays : session.state = .finished → state = .finished)
      (quiet : Request.restarts byte = true →
        session.state = .startup ∨ session.state = .finished) :
      Step image session byte ({ session with state }, none)
  /-- Back to address 0, with no frame sent. -/
  | reset (state : SessionState) :
      Step image session byte ({ session with address := 0, last := none, state }, none)
  /-- The frame of a size the character asks for, or of the last size, cut at an address no
  higher than the frontier. -/
  | answer (size : FrameSize) (moved : Session) (state : SessionState)
      (asked : (Request.ofByte? byte).bind Request.size? = some size ∨
        size = session.last.getD .large)
      (below : moved.address.toNat ≤ session.frontier) (live : session.state ≠ .finished)
      (active : state ≠ .startup) (notRestart : Request.restarts byte = false) :
      Step image session byte ({ (moved.resend size image).1 with state },
        some (moved.resend size image).2)

theorem restarts_of_ofByte? {byte : UInt8} {request : Request}
    (read : Request.ofByte? byte = some request) :
    Request.restarts byte = (request == .addressError) := by
  cases request <;> simp [Request.restarts, read]

/-- After a frame is sent the session is not at its start. -/
private theorem sent_ne_startup (ends : Bool) :
    (if ends = true then SessionState.endBlock else .blockTransmit) ≠ .startup := by
  cases ends <;> simp

/-- **Every character is one of the three steps.** -/
theorem step_input (session : Session) (byte : UInt8) (image : Image) :
    Step image session byte (session.input byte image) := by
  unfold Session.input
  split
  · next finished =>
      exact .keep session.state (fun _ => by simp_all) (fun _ => finished) (fun _ => .inr finished)
  · next startup timeout =>
      exact .keep .blockTransmit (by simp) (by simp [startup])
        (by simp [restarts_of_ofByte? timeout])
  · next startup _ =>
      exact .keep session.state (fun _ => startup) (by simp [startup]) (fun _ => .inl startup)
  · exact .reset .startup
  · next size read _ _ =>
      have asked : (Request.ofByte? byte).bind Request.size? = some size := by
        simp [read, Request.size?]
      cases last : session.last with
      | none =>
          exact .answer size session _ (.inl asked) (Nat.le_add_right _ _) ‹_›
            (sent_ne_startup _) (by simp [restarts_of_ofByte? read])
      | some previous =>
          refine .answer size { session with address := session.address + previous.length.toUInt32 }
            _ (.inl asked) ?_ ‹_› (sent_ne_startup _) (by simp [restarts_of_ofByte? read])
          have small : previous.length.toUInt32.toNat = previous.length := by
            cases previous <;> rfl
          simp only [frontier, last, Option.map_some, Option.getD_some, UInt32.toNat_add, small]
          exact Nat.mod_le _ _
  · next state size read _ _ =>
      have asked : (Request.ofByte? byte).bind Request.size? = some size := by
        simp [read, Request.size?]
      exact .answer size _ _ (.inl asked) (Nat.le_add_right _ _) ‹_› (by split <;> simp)
        (by simp [restarts_of_ofByte? read])
  · exact .reset session.state
  · next read _ _ =>
      exact .keep .recover (by simp) (by simp_all) (by simp [restarts_of_ofByte? read])
  · next recover timeout =>
      exact .answer _ { session with state := .blockTransmit } .blockTransmit (.inr rfl)
        (Nat.le_add_right _ _) (by simp [recover]) (by simp) (by simp [restarts_of_ofByte? timeout])
  · next timeout _ _ _ =>
      exact .keep .recover (by simp) (by simp_all) (by simp [restarts_of_ofByte? timeout])
  · next recover length =>
      exact .keep .blockTransmit (by simp) (by simp [recover])
        (by simp [restarts_of_ofByte? length])
  · next length _ _ _ =>
      exact .keep session.state (fun startup => startup) (fun finished => finished)
        (by simp [restarts_of_ofByte? length])
  · next done _ _ =>
      exact .keep .finished (by simp) (fun _ => rfl) (by simp [restarts_of_ofByte? done])

/-- A session fed a script, one character at a time. -/
def run (image : Image) (session : Session) (script : List UInt8) : Session :=
  script.foldl (fun session byte => (session.input byte image).1) session

end Session

/-- Every frame size a character asks for can address the image. -/
def Image.Serves (image : Image) (byte : UInt8) : Prop :=
  ∀ size, (Request.ofByte? byte).bind Request.size? = some size → image.Addressable size

/-- A session with the frames it answered since the transfer last started over. -/
structure Transcript where
  session : Session
  /-- The frames answered since the last restart, oldest first. -/
  frames : List Frame

namespace Transcript

/-- A fresh session, with nothing answered. -/
def initial : Transcript :=
  ⟨Session.initial, []⟩

/-- **Take one character**: the session moves on and its answer joins the frames, which a
restarting character empties. -/
def record (image : Image) (transcript : Transcript) (byte : UInt8) : Transcript :=
  let (session, answer) := transcript.session.input byte image
  { session, frames := if Request.restarts byte then [] else transcript.frames ++ answer.toList }

/-- A fresh session fed a script, with the frames since the last restart. -/
def ofScript (image : Image) (script : List UInt8) : Transcript :=
  script.foldl (record image) initial

variable {image : Image}

/-- The session of a transcript is the session fed the script. -/
theorem session_ofScript (image : Image) (script : List UInt8) :
    (ofScript image script).session = Session.initial.run image script := by
  suffices general : ∀ transcript : Transcript,
      (script.foldl (record image) transcript).session =
        transcript.session.run image script from general initial
  induction script with
  | nil => intro transcript; rfl
  | cons byte rest ih => intro transcript; exact ih (transcript.record image byte)

/-- **The invariant of a transfer**: until the end, the frames since the last restart cover the
image below the frontier; at the start nothing is covered nor needed; and the last frame size
can address the image. -/
structure Invariant (image : Image) (transcript : Transcript) : Prop where
  covered : transcript.session.state ≠ .finished →
    image.CoveredBelow transcript.frames transcript.session.frontier
  atStart : transcript.session.state = .startup → transcript.session.frontier = 0
  lastFits : ∀ size, transcript.session.last = some size → image.Addressable size

theorem invariant_initial : Invariant image initial where
  covered _ := coveredBelow_zero _
  atStart _ := rfl
  lastFits _ none := by cases none

/-- The size of an answer can address the image: it was asked for, or it is the last one. -/
private theorem Invariant.fits_answer {transcript : Transcript} (shape : image.WellFormed)
    (invariant : Invariant image transcript) {byte : UInt8} (serves : image.Serves byte)
    {size : FrameSize}
    (asked : (Request.ofByte? byte).bind Request.size? = some size ∨
      size = transcript.session.last.getD .large) : image.Addressable size := by
  rcases asked with requested | last
  · exact serves size requested
  · cases previous : transcript.session.last with
    | none => simpa [last, previous] using shape.addressable_large
    | some previous' => exact invariant.lastFits _ (by simp [last, previous])

/-- **One character keeps the invariant.** -/
theorem Invariant.record {transcript : Transcript} (shape : image.WellFormed)
    (invariant : Invariant image transcript) {byte : UInt8} (serves : image.Serves byte) :
    Invariant image (transcript.record image byte) := by
  have step := Session.step_input transcript.session byte image
  simp only [Transcript.record]
  generalize transcript.session.input byte image = result at step
  cases step with
  | keep state noReturn stays quiet =>
      refine ⟨fun live => ?_, fun startup => ?_, invariant.lastFits⟩
      · have wasLive : transcript.session.state ≠ .finished := fun finished => live (stays finished)
        cases restart : Request.restarts byte with
        | true =>
            have startup := (quiet restart).resolve_right wasLive
            simpa [invariant.atStart startup] using @coveredBelow_zero image []
        | false =>
            simpa using invariant.covered wasLive
      · simpa using invariant.atStart (noReturn startup)
  | reset state =>
      refine ⟨fun _ => ?_, fun _ => rfl, fun _ none => by cases none⟩
      exact coveredBelow_zero _
  | answer size moved state asked below live active notRestart =>
      have fits := invariant.fits_answer shape serves asked
      refine ⟨fun _ => ?_, fun startup => absurd startup active, fun size' last => ?_⟩
      · simp only [notRestart, Bool.false_eq_true, ↓reduceIte, Option.toList_some,
          Session.frontier_state]
        exact Session.coveredBelow_resend shape fits
          ((invariant.covered live).mono (fun _ sent => sent) below)
      · cases (Option.some.inj last : size = size')
        exact fits

/-- **An end frame follows the whole image**: under the invariant, a character answered with the
end frame comes after frames that deliver every byte of the image. -/
theorem Invariant.delivered_of_end {transcript : Transcript} (shape : image.WellFormed)
    (invariant : Invariant image transcript) {byte : UInt8} (serves : image.Serves byte)
    {frame : Frame} (answer : (transcript.session.input byte image).2 = some frame)
    (ends : frame.isEnd = true) : image.Delivered transcript.frames := by
  have step := Session.step_input transcript.session byte image
  generalize transcript.session.input byte image = result at step answer
  cases step with
  | keep => cases answer
  | reset => cases answer
  | answer size moved state asked below live active notRestart =>
      cases answer
      exact Session.delivered_of_resend shape (invariant.fits_answer shape serves asked)
        ((invariant.covered live).mono (fun _ sent => sent) below) ends

/-- **The invariant holds after every script** whose characters ask for sizes that can address
the image. -/
theorem invariant_ofScript (shape : image.WellFormed) {script : List UInt8}
    (serves : ∀ byte ∈ script, image.Serves byte) : Invariant image (ofScript image script) := by
  -- the run lemma: induction on the script from any transcript that holds the invariant, with
  -- `Invariant.record` as the step
  suffices general : ∀ transcript : Transcript, Invariant image transcript →
      Invariant image (script.foldl (record image) transcript) from
    general initial invariant_initial
  induction script with
  | nil => intro transcript invariant; exact invariant
  | cons byte rest ih =>
      intro transcript invariant
      exact ih (fun other member => serves other (List.mem_cons_of_mem _ member))
        (transcript.record image byte)
        (invariant.record shape (serves byte List.mem_cons_self))

end Transcript

/-- Every frame size can address an image whose chunks lie below 0x10000. -/
theorem Image.WellFormed.addressable_of_below {image : Image} (shape : image.WellFormed)
    (low : ∀ base ∈ image.bases, base < 0x10000) (size : FrameSize) :
    image.Addressable size := by
  cases size with
  | large => exact shape.addressable_large
  | small | medium =>
      intro base member
      have := low base member
      simp only [FrameSize.sentinel, FrameSize.startWidth, Nat.pow_eq, Nat.reducePow]
      omega

/-- **The end frame comes only after every byte of the image.** Whatever a bootloader sends to a
fresh session, when the session answers a character with the end frame, every byte of every chunk
has gone out, at its address and with its value, in a frame answered since the last character that
started the transfer over. The frames asked for must reach the image: its chunks lie below
0x10000, or only 256-byte frames are asked for. -/
theorem Session.delivered_before_end {image : Image} (shape : image.WellFormed)
    {script : List UInt8} {byte : UInt8}
    (reach : (∀ base ∈ image.bases, base < 0x10000) ∨
      ∀ char ∈ script ++ [byte], ∀ size,
        (Request.ofByte? char).bind Request.size? = some size → size = .large)
    {frame : Frame} (answer : ((Session.initial.run image script).input byte image).2 = some frame)
    (ends : frame.isEnd = true) :
    image.Delivered (Transcript.ofScript image script).frames := by
  have serves : ∀ char ∈ script ++ [byte], image.Serves char := by
    rcases reach with low | large
    · exact fun _ _ size _ => shape.addressable_of_below low size
    · intro char member size asked
      rw [large char member size asked]
      exact shape.addressable_large
  have invariant := Transcript.invariant_ofScript shape
    (fun char member => serves char (List.mem_append_left _ member))
  rw [← Transcript.session_ofScript] at answer
  exact invariant.delivered_of_end shape (serves byte (by simp)) answer ends

/-- One chunk at address 0: after the handshake and a first request, the next request is answered
with the end frame, and the first frame carried the chunk. -/
theorem Session.delivered_before_end_one_chunk :
    Image.WellFormed { chunks := [(0, List.replicate 64 7)], limit := 1 } ∧
      (∀ base ∈ Image.bases { chunks := [(0, List.replicate 64 7)], limit := 1 }, base < 0x10000) ∧
      ((Session.initial.run { chunks := [(0, List.replicate 64 7)], limit := 1 } [0x54, 0x2a]).input
        0x2a { chunks := [(0, List.replicate 64 7)], limit := 1 }).2 = some (Frame.final .large) ∧
      (Frame.final .large).isEnd = true ∧
      Image.Delivered { chunks := [(0, List.replicate 64 7)], limit := 1 }
        (Transcript.ofScript { chunks := [(0, List.replicate 64 7)], limit := 1 }
          [0x54, 0x2a]).frames := by
  have shape : Image.WellFormed { chunks := [(0, List.replicate 64 7)], limit := 1 } :=
    ⟨by decide, by decide, by decide, by decide⟩
  have low : ∀ base ∈ Image.bases { chunks := [(0, List.replicate 64 7)], limit := 1 },
      base < 0x10000 := by decide
  have answer : ((Session.initial.run { chunks := [(0, List.replicate 64 7)], limit := 1 }
      [0x54, 0x2a]).input 0x2a { chunks := [(0, List.replicate 64 7)], limit := 1 }).2 =
        some (Frame.final .large) := rfl
  have ends : (Frame.final .large).isEnd = true := rfl
  exact ⟨shape, low, answer, ends, Session.delivered_before_end shape (.inl low) answer ends⟩

end RailBus.Firmware
