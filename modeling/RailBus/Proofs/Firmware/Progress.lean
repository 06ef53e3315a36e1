import RailBus.Proofs.Firmware.Retransmission
/-! # A transfer driven by next requests reaches the end

After the handshake a bootloader that only asks for next frames, of any sizes, drives the session
forward. The measure is the frontier, the address plus the size of the last frame: every next
request moves it up by at least a chunk and at most the frame asked for, and a frame that is not
the end frame ends exactly at the new frontier (`Session.frontier_next`). Frames of different
sizes align their starts down, so starts are not monotone; the frontier is.

So, from a fresh session (`Session.next_requests_progress`): the frames that are not the end frame
end at least 64 bytes further per request; an empty image is answered with end frames only; on an
image whose chunks lie at or below `top`, the first end frame comes within `top / 64 + 5`
requests; and after an end frame, a request no larger is answered with the end frame again.

Two things bound these facts, and the last section shows both at concrete runs. The address moves
with 32-bit wrap-around, so the growth and the repeated end frame hold while the frames asked for
add up to no more than the address space: a long enough run wraps to address 0 and sends the
image again (`Session.next_wraps_to_start`), and on an image with a chunk in the last 256 bytes
the largest frames never reach the end (`Session.top_chunk_never_ends`). And after an end frame a
larger request aligns its start down below the end of the image, so the transfer can go back to
data frames (`Session.larger_next_after_end_resumes`).
-/

namespace RailBus.Firmware

namespace Session

/-! ## One next request -/

/-- The session moved past its last frame, with 32-bit wrap-around: where a next request cuts. -/
def advance (session : Session) : Session :=
  match session.last with
  | some last => { session with address := session.address + last.length.toUInt32 }
  | none => session

variable {image : Image} {session : Session} {byte : UInt8} {size : FrameSize}

/-- **A next request between the handshake and the end** moves past the last frame and sends the
cut of its size there. -/
theorem input_next (read : Request.ofByte? byte = some (.next size))
    (started : session.state ≠ .startup) (live : session.state ≠ .finished) :
    session.input byte image =
      ((session.advance.send size image).1, some (session.advance.send size image).2) := by
  cases state : session.state with
  | startup => exact absurd state started
  | finished => exact absurd state live
  | blockTransmit | blockRepeat | endBlock | recover =>
      -- the next branch moves exactly as `advance` does
      cases last : session.last <;> simp only [input, advance, state, read, last]

theorem send_frame (session : Session) (size : FrameSize) (image : Image) :
    (session.send size image).2 = (image.block session.address size).1 := rfl

theorem send_state (session : Session) (size : FrameSize) (image : Image) :
    (session.send size image).1.state =
      if (image.block session.address size).1.isEnd then .endBlock else .blockTransmit := rfl

/-- After a frame is sent, the session is between the handshake and the end. -/
theorem send_live (session : Session) (size : FrameSize) (image : Image) :
    (session.send size image).1.state ≠ .startup ∧ (session.send size image).1.state ≠ .finished := by
  rw [send_state]
  split <;> simp

/-- The frontier after a cut: the frame's end, or the address plus the size after an end frame. -/
theorem frontier_send (session : Session) (size : FrameSize) (image : Image) :
    (session.send size image).1.frontier =
      (if (image.block session.address size).1.isEnd then session.address.toNat
        else size.alignDown session.address.toNat) + size.length := by
  cases ends : (image.block session.address size).1.isEnd with
  | true => simp [send, resend, frontier, ends]
  | false =>
      simp only [send, resend, ends, Bool.false_eq_true, ↓reduceIte]
      simp only [frontier, Option.map_some, Option.getD_some]
      rw [Image.start_block_of_isEnd ends, size.toNat_toUInt32_alignDown]

/-- Below the top of the address space, moving past the last frame lands on the frontier. -/
theorem toNat_advance (room : session.frontier < addressSpace) :
    session.advance.address.toNat = session.frontier := by
  unfold advance frontier at *
  cases last : session.last with
  | none => simp
  | some previous =>
      have small : previous.length.toUInt32.toNat = previous.length := by cases previous <;> rfl
      simp only [last, Option.map_some, Option.getD_some] at room ⊢
      rw [UInt32.toNat_add, small, Nat.mod_eq_of_lt (by simpa [addressSpace] using room)]

theorem frontier_mod (aligned : session.address.toNat % chunkSize = 0) :
    session.frontier % chunkSize = 0 := by
  unfold frontier
  cases session.last with
  | none => simpa using aligned
  | some previous =>
      cases previous <;> simp only [Option.map_some, Option.getD_some, FrameSize.length,
        chunkSize] at * <;> omega

/-- **A next request moves the frontier up by at least a chunk and at most the frame**, and a
frame that is not the end frame ends at the new frontier. -/
theorem frontier_next (aligned : session.address.toNat % chunkSize = 0)
    (room : session.frontier < addressSpace) (size : FrameSize) (image : Image) :
    session.frontier + chunkSize ≤ (session.advance.send size image).1.frontier ∧
      (session.advance.send size image).1.frontier ≤ session.frontier + size.length ∧
      ((session.advance.send size image).2.isEnd = false →
        (session.advance.send size image).2.start + (session.advance.send size image).2.size.length =
          (session.advance.send size image).1.frontier) := by
  have onChunk := frontier_mod aligned
  have moved := toNat_advance room
  rw [frontier_send, moved, send_frame]
  cases ends : (image.block session.advance.address size).1.isEnd with
  | true =>
      have atLeast : chunkSize ≤ size.length := by cases size <;> decide
      simp only [↓reduceIte, Bool.true_eq_false, IsEmpty.forall_iff, and_true]
      omega
  | false =>
      -- the aligned start lies less than a frame below the frontier, and both are chunk boundaries
      have start := Image.start_block_of_isEnd ends
      rw [moved] at start
      simp only [Bool.false_eq_true, ↓reduceIte, forall_const, start, Image.size_block, and_true]
      cases size <;> simp only [FrameSize.alignDown, FrameSize.length, chunkSize] at * <;> omega

/-- **After an end frame, a next request no larger answers the end frame again**, as long as the
address does not wrap: its aligned start lies above the start of the end frame. -/
theorem isEnd_next_of_isEnd {previous : FrameSize} (aligned : session.address.toNat % chunkSize = 0)
    (last : session.last = some previous)
    (ended : (image.block session.address previous).1.isEnd = true)
    (room : session.frontier < addressSpace) (smaller : size.length ≤ previous.length) :
    (image.block session.advance.address size).1.isEnd = true := by
  have moved := toNat_advance room
  simp only [frontier, last, Option.map_some, Option.getD_some] at moved
  have above : previous.alignDown session.address.toNat ≤ size.alignDown session.advance.address.toNat := by
    rw [moved]
    cases previous <;> cases size <;> simp only [FrameSize.alignDown, FrameSize.length, chunkSize] at * <;>
      omega
  rw [Image.isEnd_block_iff, Image.block_eq_final_iff] at ended ⊢
  rcases ended with below | high
  · exact .inl fun base member => Nat.lt_of_lt_of_le (below base member) above
  · refine .inr ⟨fun large => ?_, Nat.lt_of_lt_of_le high.2 above⟩
    subst large
    cases previous <;> simp_all [FrameSize.length]

/-! ## Runs of next requests -/

/-- **A session that takes next requests**: past the handshake, not finished, its address on a
chunk boundary. -/
structure Sending (session : Session) : Prop where
  started : session.state ≠ .startup
  live : session.state ≠ .finished
  aligned : session.address.toNat % chunkSize = 0

theorem Sending.next (sending : Sending session) (read : Request.ofByte? byte = some (.next size)) :
    Sending (session.advance.send size image).1 := by
  have aligned := aligned_input sending.aligned byte image
  rw [input_next read sending.started sending.live] at aligned
  exact ⟨(send_live _ _ _).1, (send_live _ _ _).2, aligned⟩

/-- The frames a sending session answers to next requests: one per request, the cut after it. -/
theorem replay_next (sending : Sending session) (read : Request.ofByte? byte = some (.next size))
    (rest : List UInt8) :
    session.replay image (byte :: rest) =
      (((session.advance.send size image).1.replay image rest).1,
        (session.advance.send size image).2 :: ((session.advance.send size image).1.replay image rest).2) := by
  simp [input_next read sending.started sending.live]

section Nexts

variable {script : List UInt8}

/-- **One frame for each next request.** -/
theorem length_replay_nexts (sending : Sending session)
    (nexts : ∀ byte ∈ script, ∃ size, Request.ofByte? byte = some (.next size)) :
    (session.replay image script).2.length = script.length := by
  induction script generalizing session with
  | nil => rfl
  | cons byte rest ih =>
      obtain ⟨size, read⟩ := nexts byte List.mem_cons_self
      rw [replay_next sending read]
      simp only [List.length_cons]
      rw [ih (sending.next read) fun other member => nexts other (List.mem_cons_of_mem _ member)]

/-- Every frame answered to next requests is the cut of a size some request asked for. -/
theorem cut_of_mem_replay_nexts (sending : Sending session)
    (nexts : ∀ byte ∈ script, ∃ size, Request.ofByte? byte = some (.next size)) {frame : Frame}
    (member : frame ∈ (session.replay image script).2) :
    ∃ address, ∃ byte ∈ script, ∃ size, Request.ofByte? byte = some (.next size) ∧
      frame = (image.block address size).1 := by
  induction script generalizing session with
  | nil => cases member
  | cons byte rest ih =>
      obtain ⟨size, read⟩ := nexts byte List.mem_cons_self
      rw [replay_next sending read] at member
      rcases List.mem_cons.mp member with first | later
      · exact ⟨_, byte, List.mem_cons_self, size, read, first⟩
      · obtain ⟨address, other, asked, size, otherRead, cut⟩ := ih (sending.next read)
          (fun other member => nexts other (List.mem_cons_of_mem _ member)) later
        exact ⟨address, other, List.mem_cons_of_mem _ asked, size, otherRead, cut⟩

/-- The room a run of frames needs: their sizes added to the frontier stay in the address space. -/
theorem room_of_cons {frame : Frame} {frames : List Frame}
    (room : session.frontier + ((frame :: frames).map fun frame => frame.size.length).sum ≤
      addressSpace) :
    session.frontier < addressSpace := by
  have atLeast : chunkSize ≤ frame.size.length := by cases frame.size <;> decide
  simp only [List.map_cons, List.sum_cons, chunkSize] at room atLeast
  omega

/-- **Each frame that is not the end frame ends at least a chunk per request beyond the
frontier**, while the frames fit in the address space. -/
theorem frontier_le_of_nexts (sending : Sending session)
    (nexts : ∀ byte ∈ script, ∃ size, Request.ofByte? byte = some (.next size))
    (room : session.frontier +
      ((session.replay image script).2.map fun frame => frame.size.length).sum ≤ addressSpace)
    {index : Nat} {frame : Frame} (found : (session.replay image script).2[index]? = some frame)
    (notEnd : frame.isEnd = false) :
    session.frontier + chunkSize * (index + 1) ≤ frame.start + frame.size.length := by
  induction script generalizing session index with
  | nil => cases found
  | cons byte rest ih =>
      obtain ⟨size, read⟩ := nexts byte List.mem_cons_self
      rw [replay_next sending read] at found room
      have fits := room_of_cons room
      obtain ⟨up, within, ends⟩ := frontier_next sending.aligned fits size image
      cases index with
      | zero =>
          cases found
          rw [ends notEnd]
          simpa using up
      | succ index =>
          have sized : (session.advance.send size image).2.size.length = size.length := by
            rw [send_frame, Image.size_block]
          simp only [List.map_cons, List.sum_cons, sized] at room
          have later := ih (sending.next read)
            (fun other member => nexts other (List.mem_cons_of_mem _ member)) (by omega) found
          simp only [Nat.mul_succ] at later ⊢
          omega

/-- **The frames that are not the end frame end at least 64 bytes further per request**, while
the frames fit in the address space. -/
theorem frontier_grows_of_nexts (sending : Sending session)
    (nexts : ∀ byte ∈ script, ∃ size, Request.ofByte? byte = some (.next size))
    (room : session.frontier +
      ((session.replay image script).2.map fun frame => frame.size.length).sum ≤ addressSpace)
    {first later : Nat} {early late : Frame} (before : first < later)
    (foundEarly : (session.replay image script).2[first]? = some early)
    (foundLate : (session.replay image script).2[later]? = some late)
    (earlyNotEnd : early.isEnd = false) (lateNotEnd : late.isEnd = false) :
    early.start + early.size.length + chunkSize * (later - first) ≤ late.start + late.size.length := by
  induction script generalizing session first later with
  | nil => cases foundEarly
  | cons byte rest ih =>
      obtain ⟨size, read⟩ := nexts byte List.mem_cons_self
      have restNexts : ∀ other ∈ rest, ∃ size, Request.ofByte? other = some (.next size) :=
        fun other member => nexts other (List.mem_cons_of_mem _ member)
      rw [replay_next sending read] at foundEarly foundLate room
      have fits := room_of_cons room
      obtain ⟨_, within, ends⟩ := frontier_next sending.aligned fits size image
      have sized : (session.advance.send size image).2.size.length = size.length := by
        rw [send_frame, Image.size_block]
      simp only [List.map_cons, List.sum_cons, sized] at room
      have restRoom : (session.advance.send size image).1.frontier +
          (((session.advance.send size image).1.replay image rest).2.map
            fun frame => frame.size.length).sum ≤ addressSpace := by omega
      cases later with
      | zero => omega
      | succ later =>
          cases first with
          | zero =>
              -- the first frame ends at the frontier the later ones start from
              cases foundEarly
              have grown := frontier_le_of_nexts (sending.next read) restNexts restRoom foundLate
                lateNotEnd
              rw [ends earlyNotEnd]
              simpa only [Nat.sub_zero] using grown
          | succ first =>
              simpa only [Nat.add_sub_add_right] using ih (sending.next read) restNexts restRoom
                (by omega) foundEarly foundLate

/-- **The end frame comes within the image**: on an image whose chunks lie at or below `top`,
from a frontier at most `top + 256`, one of the first `(top + 256 - frontier) / 64 + 1` requests
is answered with the end frame. -/
theorem end_within_of_nexts (sending : Sending session)
    (nexts : ∀ byte ∈ script, ∃ size, Request.ofByte? byte = some (.next size)) {top : Nat}
    (bounded : ∀ base ∈ image.bases, base ≤ top) (fits : top + 256 < addressSpace)
    (reach : session.frontier ≤ top + 256)
    (long : (top + 256 - session.frontier) / chunkSize < script.length) :
    ∃ index ≤ (top + 256 - session.frontier) / chunkSize, ∃ frame,
      (session.replay image script).2[index]? = some frame ∧ frame.isEnd = true := by
  induction script generalizing session with
  | nil => cases long
  | cons byte rest ih =>
      obtain ⟨size, read⟩ := nexts byte List.mem_cons_self
      rw [replay_next sending read]
      cases ends : (session.advance.send size image).2.isEnd with
      | true => exact ⟨0, Nat.zero_le _, _, rfl, ends⟩
      | false =>
          have nextSending : Sending (session.advance.send size image).1 := sending.next read
          obtain ⟨up, _, atEnd⟩ := frontier_next sending.aligned (by omega) size image
          -- a frame that is not the end frame starts at or below some chunk, so at or below `top`
          have lowStart : (session.advance.send size image).2.start ≤ top := by
            rw [send_frame] at ends ⊢
            have notFinal : (image.block session.advance.address size).1 ≠ Frame.final size :=
              fun final => by simp [final] at ends
            rw [Ne, Image.block_eq_final_iff, not_or] at notFinal
            obtain ⟨base, member, atLeast⟩ := by
              simpa only [not_forall, not_lt, exists_prop] using notFinal.1
            rw [Image.start_block_of_isEnd ends]
            exact Nat.le_trans atLeast (bounded base member)
          have lowEnd : (session.advance.send size image).2.size.length ≤ 256 := by
            cases (session.advance.send size image).2.size <;> decide
          have restReach := atEnd ends
          obtain ⟨index, within, frame, found, last⟩ := ih nextSending
            (fun other member => nexts other (List.mem_cons_of_mem _ member)) (by omega)
            (by simp only [List.length_cons, chunkSize] at long up ⊢; omega)
          exact ⟨index + 1, by simp only [chunkSize] at within up ⊢; omega, frame, found, last⟩

/-- **After an end frame, a request no larger is answered with the end frame again**, while the
frames fit in the address space. -/
theorem isEnd_of_nexts (sending : Sending session)
    (nexts : ∀ byte ∈ script, ∃ size, Request.ofByte? byte = some (.next size))
    (room : session.frontier +
      ((session.replay image script).2.map fun frame => frame.size.length).sum ≤ addressSpace)
    {index : Nat} {ended next : Frame}
    (foundEnded : (session.replay image script).2[index]? = some ended)
    (foundNext : (session.replay image script).2[index + 1]? = some next)
    (ends : ended.isEnd = true) (smaller : next.size.length ≤ ended.size.length) :
    next.isEnd = true := by
  induction script generalizing session index with
  | nil => cases foundEnded
  | cons byte rest ih =>
      obtain ⟨size, read⟩ := nexts byte List.mem_cons_self
      have restNexts : ∀ other ∈ rest, ∃ size, Request.ofByte? other = some (.next size) :=
        fun other member => nexts other (List.mem_cons_of_mem _ member)
      rw [replay_next sending read] at foundEnded foundNext room
      have nextSending : Sending (session.advance.send size image).1 := sending.next read
      have fits := room_of_cons room
      obtain ⟨_, within, _⟩ := frontier_next sending.aligned fits size image
      have sized : (session.advance.send size image).2.size.length = size.length := by
        rw [send_frame, Image.size_block]
      simp only [List.map_cons, List.sum_cons, sized] at room
      have restRoom : (session.advance.send size image).1.frontier +
          (((session.advance.send size image).1.replay image rest).2.map
            fun frame => frame.size.length).sum ≤ addressSpace := by omega
      cases index with
      | zero =>
          cases foundEnded
          cases rest with
          | nil => cases foundNext
          | cons second more =>
              obtain ⟨nextSize, nextRead⟩ := restNexts second List.mem_cons_self
              rw [replay_next nextSending nextRead] at foundNext restRoom
              cases foundNext
              -- the end frame was cut at the address the session now stands on
              have again : (image.block (session.advance.send size image).1.address size).1.isEnd =
                  true := by
                rw [show (session.advance.send size image).1.address =
                  (session.advance.resend size image).1.address from rfl, block_resend]
                exact ends
              rw [sized] at smaller
              rw [send_frame, Image.size_block] at smaller
              rw [send_frame]
              exact isEnd_next_of_isEnd nextSending.aligned rfl again (room_of_cons restRoom) smaller
      | succ index =>
          exact ih nextSending restNexts restRoom foundEnded foundNext

end Nexts

/-! ## From a fresh session -/

theorem input_handshake (image : Image) :
    initial.input 0x54 image = ({ initial with state := .blockTransmit }, none) := rfl

/-- After the handshake the session takes next requests, with nothing sent. -/
theorem sending_handshake : Sending ({ initial with state := .blockTransmit } : Session) :=
  ⟨by decide, by decide, rfl⟩

theorem replay_handshake (image : Image) (script : List UInt8) :
    (initial.replay image (0x54 :: script)).2 =
      (({ initial with state := .blockTransmit } : Session).replay image script).2 := by
  simp [input_handshake]

/-- **How the frames answered to a run of next requests move forward**, `frames` being the
answers to the characters of `script` after the handshake. -/
structure Progresses (image : Image) (script : List UInt8) (frames : List Frame) : Prop where
  /-- Each request is answered with one frame. -/
  answered : frames.length = script.length
  /-- While the frames fit in the address space, a frame that is not the end frame ends at least
  64 bytes per request beyond an earlier one. -/
  grows : (frames.map fun frame => frame.size.length).sum ≤ addressSpace →
    ∀ (first later : Nat) (early late : Frame), first < later → frames[first]? = some early →
      frames[later]? = some late → early.isEnd = false → late.isEnd = false →
      early.start + early.size.length + 64 * (later - first) ≤ late.start + late.size.length
  /-- An empty image is answered with end frames only. -/
  emptyEnds : image.bases = [] → ∀ frame ∈ frames, frame.isEnd = true
  /-- On an image whose chunks lie at or below `top`, below the last 256 bytes of the address
  space, one of the first `top / 64 + 5` requests is answered with the end frame. -/
  endsWithin : ∀ top, (∀ base ∈ image.bases, base ≤ top) → top + 256 < addressSpace →
    top / 64 + 5 ≤ script.length →
    ∃ index < top / 64 + 5, ∃ frame, frames[index]? = some frame ∧ frame.isEnd = true
  /-- While the frames fit in the address space, after an end frame a request no larger is
  answered with the end frame again. -/
  endsAgain : (frames.map fun frame => frame.size.length).sum ≤ addressSpace →
    ∀ (index : Nat) (ended next : Frame), frames[index]? = some ended →
      frames[index + 1]? = some next → ended.isEnd = true → next.size.length ≤ ended.size.length →
      next.isEnd = true

/-- **A transfer driven by next requests moves forward and reaches the end.** A fresh session fed
the handshake and then next requests of any sizes answers one frame per request; while the frames
fit in the address space, those that are not the end frame end at least 64 bytes further per
request, and after an end frame a request no larger is answered with the end frame again; an
empty image is answered with end frames only; and on an image whose chunks lie at or below `top`,
below the last 256 bytes, one of the first `top / 64 + 5` requests is answered with the end
frame. -/
theorem next_requests_progress (image : Image) {script : List UInt8}
    (nexts : ∀ byte ∈ script, ∃ size, Request.ofByte? byte = some (.next size)) :
    Progresses image script (initial.replay image (0x54 :: script)).2 := by
  have start : ({ initial with state := .blockTransmit } : Session).frontier = 0 := rfl
  rw [replay_handshake]
  refine ⟨length_replay_nexts sending_handshake nexts, fun room first later early late before
    foundEarly foundLate earlyNotEnd lateNotEnd => ?_, fun empty frame member => ?_,
    fun top bounded fits long => ?_, fun room index ended next foundEnded foundNext ends smaller =>
    ?_⟩
  · exact frontier_grows_of_nexts sending_handshake nexts (by rw [start]; simpa using room) before
      foundEarly foundLate earlyNotEnd lateNotEnd
  · obtain ⟨address, _, _, size, _, rfl⟩ := cut_of_mem_replay_nexts sending_handshake nexts member
    rw [Image.isEnd_block_iff]
    exact Image.block_of_below (by simp [empty])
  · obtain ⟨index, within, frame, found, last⟩ := end_within_of_nexts sending_handshake nexts
      bounded fits (by rw [start]; omega) (by rw [start]; simp only [chunkSize]; omega)
    exact ⟨index, by rw [start] at within; simp only [chunkSize] at within; omega, frame, found, last⟩
  · exact isEnd_of_nexts sending_handshake nexts (by rw [start]; simpa using room) foundEnded
      foundNext ends smaller

/-- A 64-byte and then a 256-byte request on an image of one chunk at address 0. -/
theorem next_requests_progress_one_chunk :
    (∀ byte ∈ [0x2d, 0x2a], ∃ size, Request.ofByte? byte = some (.next size)) ∧
      Progresses { chunks := [(0, List.replicate 64 0)], limit := 1 } [0x2d, 0x2a]
        (initial.replay { chunks := [(0, List.replicate 64 0)], limit := 1 }
          [0x54, 0x2d, 0x2a]).2 := by
  have nexts : ∀ byte ∈ ([0x2d, 0x2a] : List UInt8), ∃ size, Request.ofByte? byte = some (.next size) := by
    intro byte member
    rcases List.mem_pair.mp member with rfl | rfl
    · exact ⟨.small, rfl⟩
    · exact ⟨.large, rfl⟩
  exact ⟨nexts, next_requests_progress _ nexts⟩

/-! ## What bounds these facts -/

/-- **After the end frame, a larger request can go back to data frames**: on an image of one
chunk at address 0, the second 64-byte request is answered with the end frame, and a 256-byte
request after it aligns its start down to address 0 and is answered with the first frame of the
image again. -/
theorem larger_next_after_end_resumes :
    let image : Image :=
      { chunks := [(0, (List.range 64).map Nat.toUInt8)], limit := 0xFFFFFFFFFFFFFFFF }
    ((initial.replay image [0x54, 0x2d, 0x2d, 0x2a]).2.map
        fun frame => (frame.isEnd, frame.start, frame.size)) =
      [(false, 0, .small), (true, 0xFFFF, .small), (false, 0, .large)] := by
  decide

/-- A cut at an address already aligned to the frame leaves the session standing there. -/
theorem address_send_of_aligned (aligned : size.alignDown session.address.toNat = session.address.toNat) :
    (session.send size image).1.address = session.address := by
  cases ends : (image.block session.address size).1.isEnd with
  | true => simp [send, resend, ends]
  | false =>
      simp only [send, resend, ends, Bool.false_eq_true, ↓reduceIte]
      rw [Image.start_block_of_isEnd ends, aligned]
      exact UInt32.ofNat_toNat

/-- The largest frames asked for again and again, from a session that last sent one at an address
aligned to 256: each request moves 256 bytes on, with 32-bit wrap-around. -/
theorem replay_large (sending : Sending session) (last : session.last = some .large)
    (aligned : session.address.toNat % 256 = 0) (count : Nat) :
    (session.replay image (List.replicate count 0x2a)).2 =
      (List.range count).map fun index =>
        (image.block (session.address + (256 * (index + 1)).toUInt32) .large).1 := by
  induction count generalizing session with
  | zero => rfl
  | succ count ih =>
      have read : Request.ofByte? 0x2a = some (.next .large) := rfl
      have moved : session.advance.address = session.address + 256 := by
        simp only [advance, last]
        rfl
      have movedAligned : (session.address + 256).toNat % 256 = 0 := by
        rw [UInt32.toNat_add]
        simp only [UInt32.reduceToNat]
        omega
      have stands : (session.advance.send .large image).1.address = session.address + 256 := by
        rw [address_send_of_aligned (by
          rw [moved]
          simp only [FrameSize.alignDown, FrameSize.length]
          omega), moved]
      have sentLarge : (session.advance.send .large image).1.last = some .large := rfl
      rw [List.replicate_succ, replay_next sending read]
      rw [ih (sending.next read) sentLarge (by rw [stands]; exact movedAligned)]
      rw [List.range_succ_eq_map, List.map_cons, List.map_map, stands, send_frame, moved,
        List.cons.injEq]
      -- the next session stands 256 bytes on, so its requests cut at the same addresses
      have step : ∀ index : Nat, session.address + 256 + (256 * (index + 1)).toUInt32 =
          session.address + (256 * (index + 1 + 1)).toUInt32 := fun index => by
        apply UInt32.toNat_inj.mp
        simp only [UInt32.toNat_add, Nat.toUInt32, UInt32.toNat_ofNat', UInt32.reduceToNat]
        omega
      have once : session.address + 256 = session.address + (256 * (0 + 1)).toUInt32 := by
        apply UInt32.toNat_inj.mp
        simp only [UInt32.toNat_add, Nat.toUInt32, UInt32.toNat_ofNat', UInt32.reduceToNat]
      refine ⟨by rw [once], List.map_congr_left fun index _ => ?_⟩
      simp only [Function.comp_apply, Nat.succ_eq_add_one, step]

/-- **Past the address space the transfer starts over**: on an image of one chunk at address 0,
after the handshake and `2 ^ 24 + 1` requests for 256-byte frames, the first frame starts at 0, the
one before the last is the end frame, at the top of the address space, and the last starts at 0
again. The address wrapped around: the frames stop moving forward, and the end frame is followed by
a data frame of the same size. -/
theorem next_wraps_to_start :
    let image : Image := { chunks := [(0, List.replicate 64 0)], limit := 1 }
    let frames : List Frame := (initial.replay image (0x54 :: List.replicate (2 ^ 24 + 1) 0x2a)).2
    frames[0]?.map (fun frame : Frame => (frame.isEnd, frame.start, frame.size)) =
        some (false, 0, .large) ∧
      frames[2 ^ 24 - 1]?.map (fun frame : Frame => (frame.isEnd, frame.start, frame.size)) =
        some (true, 0xFFFFFFFF, .large) ∧
      frames[2 ^ 24]?.map (fun frame : Frame => (frame.isEnd, frame.start, frame.size)) =
        some (false, 0, .large) := by
  intro image frames
  have read : Request.ofByte? 0x2a = some (.next .large) := rfl
  -- the first request cuts at 0, where the session then stands, having sent a 256-byte frame
  have first : (({ initial with state := .blockTransmit } : Session).advance.send .large image).1 =
      ⟨.blockTransmit, 0, some .large, 0⟩ := by
    decide
  have standing : Sending ⟨.blockTransmit, 0, some .large, 0⟩ := ⟨by decide, by decide, rfl⟩
  simp only [frames]
  rw [replay_handshake, List.replicate_succ, replay_next sending_handshake read, first,
    replay_large standing rfl rfl (2 ^ 24)]
  refine ⟨by decide, ?_, ?_⟩
  · rw [show 2 ^ 24 - 1 = (2 ^ 24 - 2) + 1 from rfl, List.getElem?_cons_succ, List.getElem?_map,
      List.getElem?_range (by decide)]
    decide
  · rw [show 2 ^ 24 = (2 ^ 24 - 1) + 1 from rfl, List.getElem?_cons_succ, List.getElem?_map,
      List.getElem?_range (by decide)]
    decide

/-- **An image reaching into the last 256 bytes never ends under the largest frames**: with a
chunk at 0xffffff00, every 256-byte request after the handshake is answered with a data frame,
however many there are, since every such cut starts at or below the chunk. -/
theorem top_chunk_never_ends (count : Nat) :
    let image : Image := { chunks := [(0xFFFFFF00, List.replicate 64 0)], limit := 1 }
    (initial.replay image (0x54 :: List.replicate count 0x2a)).2.map Frame.isEnd =
      List.replicate count false := by
  intro image
  have nexts : ∀ byte ∈ List.replicate count (0x2a : UInt8),
      ∃ size, Request.ofByte? byte = some (.next size) := by
    intro byte member
    rw [List.eq_of_mem_replicate member]
    exact ⟨.large, rfl⟩
  have dataOnly : ∀ address : UInt32, (image.block address .large).1.isEnd = false := by
    intro address
    have inside := address.toNat_lt
    rw [Bool.eq_false_iff, Ne, Image.isEnd_block_iff, Image.block_eq_final_iff]
    simp only [image, Image.bases, List.map_cons, List.map_nil, List.mem_singleton,
      forall_eq, ne_eq, not_true_eq_false, false_and, or_false, FrameSize.alignDown,
      FrameSize.length, not_lt]
    omega
  rw [replay_handshake, List.eq_replicate_iff, List.length_map,
    length_replay_nexts sending_handshake nexts]
  refine ⟨List.length_replicate, fun ends member => ?_⟩
  obtain ⟨frame, answered, rfl⟩ := List.mem_map.mp member
  obtain ⟨address, byte, asked, size, read, rfl⟩ :=
    cut_of_mem_replay_nexts sending_handshake nexts answered
  rw [List.eq_of_mem_replicate asked] at read
  have large : some (Request.next .large) = some (.next size) := read
  cases large
  exact dataOnly address

end Session

end RailBus.Firmware
