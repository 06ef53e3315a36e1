import RailBus.Proofs.Firmware.FrameCut
import RailBus.Proofs.Firmware.Delivery
import RailBus.Proofs.Station.FirmwareUpdate
/-! # A session can always send its last frame again

After a checksum error or a timeout the bootloader asks for the last frame again, and the session
must answer with the very frame it sent. It keeps no copy of that frame, only the address and the
size of the last frame, and cuts again. This module proves that the cut gives the same frame
(`Session.resends_last_frame`): after any characters from a fresh session the address is a chunk
boundary, a session at its start has sent nothing since address 0, and whenever a last size is
recorded, the cut of that size at the address, with the progress the session reports, is the
frame it answered last (`Session.Retransmits`). So a repeat request of the last size and a timeout
while recovering answer exactly the last frame, and a finished session never changes or answers
again.

The invariant rests on what moving to a frame's start does to the cut there: nothing, since the
cut depends on the address only through the aligned start (`Session.block_resend`).
-/

namespace RailBus.Firmware

namespace Session

/-- **Moving to the start of the frame just cut changes nothing the cut there gives.** -/
theorem block_resend (session : Session) (size : FrameSize) (image : Image) :
    image.block (session.resend size image).1.address size = image.block session.address size := by
  cases ends : (image.block session.address size).1.isEnd with
  | true => simp only [resend, ends, ↓reduceIte]
  | false =>
      simp only [resend, ends, Bool.false_eq_true, ↓reduceIte]
      apply Image.block_congr
      rw [Image.start_block_of_isEnd ends, size.toNat_toUInt32_alignDown,
        FrameSize.alignDown_alignDown]

/-- A cut leaves the address on a chunk boundary. -/
theorem aligned_resend {session : Session} (aligned : session.address.toNat % chunkSize = 0)
    (size : FrameSize) (image : Image) :
    (session.resend size image).1.address.toNat % chunkSize = 0 := by
  cases ends : (image.block session.address size).1.isEnd with
  | true => simpa only [resend, ends, ↓reduceIte] using aligned
  | false =>
      simp only [resend, ends, Bool.false_eq_true, ↓reduceIte]
      rw [Image.start_block_of_isEnd ends, size.toNat_toUInt32_alignDown]
      exact size.alignDown_mod _

/-- Moving past a frame, with 32-bit wrap-around, keeps the address on a chunk boundary. -/
theorem aligned_add_length {address : UInt32} (aligned : address.toNat % chunkSize = 0)
    (size : FrameSize) : (address + size.length.toUInt32).toNat % chunkSize = 0 := by
  have small : size.length.toUInt32.toNat = size.length := by cases size <;> rfl
  rw [UInt32.toNat_add, small]
  cases size <;> simp only [FrameSize.length, chunkSize, Nat.reducePow] at * <;> omega

/-- **Every character keeps the address on a chunk boundary.** -/
theorem aligned_input {session : Session} (aligned : session.address.toNat % chunkSize = 0)
    (byte : UInt8) (image : Image) :
    (session.input byte image).1.address.toNat % chunkSize = 0 := by
  unfold input
  -- only a next request moves the address before cutting; the restarts move it to 0
  split
  · exact aligned
  · exact aligned
  · exact aligned
  · rfl
  · cases session.last with
    | none => exact aligned_resend aligned _ _
    | some last => exact aligned_resend (aligned_add_length aligned last) _ _
  · exact aligned_resend aligned _ _
  · rfl
  · exact aligned
  · exact aligned_resend aligned _ _
  · exact aligned
  · exact aligned
  · exact aligned
  · exact aligned

variable {image : Image} {session : Session} {byte : UInt8}

/-- A repeat request between the handshake and the end answers the cut of its size at the
current address. -/
theorem input_again {size : FrameSize} (read : Request.ofByte? byte = some (.again size))
    (started : session.state ≠ .startup) (live : session.state ≠ .finished) :
    (session.input byte image).2 = some (image.block session.address size).1 := by
  cases state : session.state with
  | startup => exact absurd state started
  | finished => exact absurd state live
  | blockTransmit | blockRepeat | endBlock | recover =>
      simp only [input, state, read]
      rfl

/-- A timeout while recovering answers the cut of the last size, or of the largest size when none
was sent, at the current address. -/
theorem input_retry (read : Request.ofByte? byte = some .timeout)
    (recovering : session.state = .recover) :
    (session.input byte image).2 = some (image.block session.address (session.last.getD .large)).1 := by
  simp only [input, recovering, read]
  rfl

/-- A finished session ignores every character. -/
theorem input_of_finished (finished : session.state = .finished) :
    session.input byte image = (session, none) := by
  simp only [input, finished]

/-- **A finished session stays as it is and answers nothing**, whatever follows. -/
theorem replay_of_finished (finished : session.state = .finished) (script : List UInt8) :
    session.replay image script = (session, []) := by
  induction script with
  | nil => rfl
  | cons byte rest ih => simp [input_of_finished finished, ih]

/-- **What a session keeps to send its last frame again**, `sent` being the frame it answered
last. -/
structure Retransmits (image : Image) (session : Session) (sent : Option Frame) : Prop where
  aligned : session.address.toNat % chunkSize = 0
  /-- At the start nothing has been sent since address 0. -/
  atStart : session.state = .startup → session.address = 0 ∧ session.last = none
  /-- With a last size recorded, the cut of that size at the address, with the progress the
  session reports, is the frame sent last. -/
  replays : ∀ size, session.last = some size →
    ∃ frame, sent = some frame ∧ image.block session.address size = (frame, session.progress)

theorem retransmits_initial : Retransmits image initial none where
  aligned := rfl
  atStart _ := ⟨rfl, rfl⟩
  replays _ none := by cases none

variable {sent : Option Frame}

/-- **One character keeps the invariant**, the frame it answers, if any, becoming the last. -/
theorem Retransmits.input (invariant : Retransmits image session sent) (byte : UInt8) :
    Retransmits image (session.input byte image).1 ((session.input byte image).2.or sent) := by
  have aligned := aligned_input invariant.aligned byte image
  have step := step_input session byte image
  generalize session.input byte image = result at step aligned
  cases step with
  | keep state noReturn _ _ =>
      exact ⟨aligned, fun startup => invariant.atStart (noReturn startup), invariant.replays⟩
  | reset state => exact ⟨aligned, fun _ => ⟨rfl, rfl⟩, fun _ none => by cases none⟩
  | answer size moved state _ _ _ active _ =>
      refine ⟨aligned, fun startup => absurd startup active, fun recorded last => ?_⟩
      cases (Option.some.inj last : size = recorded)
      -- the frame answered is the cut at the moved address, and the session stands at its start
      exact ⟨_, rfl, by rw [block_resend]; rfl⟩

theorem getLast?_toList {α : Type} (answer : Option α) : answer.toList.getLast? = answer := by
  cases answer <;> rfl

/-- **The invariant holds after every run of characters**, with the frame answered last. -/
theorem Retransmits.replay (invariant : Retransmits image session sent) (script : List UInt8) :
    Retransmits image (session.replay image script).1
      ((session.replay image script).2.getLast?.or sent) := by
  induction script generalizing session sent with
  | nil => simpa using invariant
  | cons byte rest ih =>
      simpa only [replay_cons, List.getLast?_append, getLast?_toList, Option.or_assoc] using
        ih (invariant.input byte)

/-- Under the invariant a repeat request of the last size answers the frame sent last. -/
theorem Retransmits.again (invariant : Retransmits image session sent) {size : FrameSize}
    (read : Request.ofByte? byte = some (.again size)) (live : session.state ≠ .finished)
    (last : session.last = some size) : (session.input byte image).2 = sent := by
  have started : session.state ≠ .startup := fun startup => by
    simp [(invariant.atStart startup).2] at last
  obtain ⟨frame, rfl, cut⟩ := invariant.replays size last
  rw [input_again read started live, cut]

/-- Under the invariant a timeout while recovering answers the frame sent last. -/
theorem Retransmits.retry (invariant : Retransmits image session sent)
    (read : Request.ofByte? byte = some .timeout) (recovering : session.state = .recover)
    (recorded : session.last ≠ none) : (session.input byte image).2 = sent := by
  obtain ⟨size, last⟩ := Option.ne_none_iff_exists'.mp recorded
  obtain ⟨frame, rfl, cut⟩ := invariant.replays size last
  rw [input_retry read recovering, last, Option.getD_some, cut]

/-- **A session can always send its last frame again.** After any characters from a fresh
session: the address is a chunk boundary; at the start nothing has been sent since address 0;
with a last size recorded, the cut of that size at the address, with the reported progress, is
the frame answered last. So a repeat request of the last size, before the end, and a timeout while
recovering answer exactly that frame; and once finished, the session never changes or answers
again. -/
theorem resends_last_frame (image : Image) (script : List UInt8) :
    let run := initial.replay image script
    Retransmits image run.1 run.2.getLast? ∧
      (∀ byte size, Request.ofByte? byte = some (.again size) → run.1.state ≠ .finished →
        run.1.last = some size → (run.1.input byte image).2 = run.2.getLast?) ∧
      (∀ byte, Request.ofByte? byte = some .timeout → run.1.state = .recover →
        run.1.last ≠ none → (run.1.input byte image).2 = run.2.getLast?) ∧
      (run.1.state = .finished → ∀ rest, run.1.replay image rest = (run.1, [])) := by
  intro run
  have invariant : Retransmits image run.1 run.2.getLast? := by
    simpa only [Option.or_none] using retransmits_initial.replay script
  exact ⟨invariant, fun _ _ read live last => invariant.again read live last,
    fun _ read recovering recorded => invariant.retry read recovering recorded,
    fun finished rest => replay_of_finished finished rest⟩

/-- A bootloader wakes up ('T'), takes a 64-byte frame ('-') and reports a CRC error ('C'). A
timeout then, while the session recovers, answers the frame sent last, and so does a repeat
request of 64 bytes ('%'). -/
theorem resends_last_frame_after_crc_error :
    let image : Image := { chunks := [(0, List.replicate 64 7)], limit := 1 }
    let run := initial.replay image [0x54, 0x2d, 0x43]
    run.2.getLast?.isSome = true ∧ (run.1.input 0x54 image).2 = run.2.getLast? ∧
      (run.1.input 0x25 image).2 = run.2.getLast? := by
  intro image run
  obtain ⟨-, again, retry, -⟩ := resends_last_frame image [0x54, 0x2d, 0x43]
  have answered : run.2.getLast?.isSome = true := by decide
  have recovering : run.1.state = .recover := by decide
  have recorded : run.1.last = some .small := by decide
  exact ⟨answered, retry 0x54 (by decide) recovering (by rw [recorded]; exact Option.some_ne_none _),
    again 0x25 .small (by decide) (by rw [recovering]; decide) recorded⟩

end Session

end RailBus.Firmware
