import Mathlib
import RailBus.Link
/-! # The transmitter conveys in order

The callers of a link and its transmitter share the queues of waiting blocks and words: a send
adds to the back of a queue, an iteration of the transmitter writes from its front. A schedule is
one interleaving of calls with iterations (`Link.Call`), and `Link.serve` makes its calls in
order, a call that fails leaving the link as it was. Iterations that come in the middle of a call
streaming words are scheduled by splitting the call into calls of its parts.

A queue and the way an iteration writes from it form a lane (`Link.Lane`): blocks are written
whole, one an iteration, and words in bursts (`Burst`) of up to 16, or as the filler word while
none waits. `lane.Conveys link later input` says that from `link` to `later` the transmitter wrote
whole pieces, and that what they took, followed by what still waits, is what waited followed by
`input`: nothing handed over is lost, repeated or reordered, and nothing else is written but
filler. A call conveys what it hands over, and so does a whole schedule
(`Lane.conveys_serve`); settling writes what still waits (`Lane.conveys_settle`).

Main statement: `Link.serve_writes_in_order`. With the mode fixed, a schedule conveys on the lane
of the mode the blocks of the sends that succeed, or every word offered; once settled the line
holds all of them; a boot-stream iteration writes the filler exactly when no word waits; and a
send in the other mode is refused.
-/

namespace RailBus

/-- What one iteration of the transmitter writes in boot-stream mode. -/
inductive Burst where
  /-- The filler word, written while no word waits. -/
  | idle
  /-- Waiting words, oldest first. -/
  | words (words : List UInt32)
  deriving DecidableEq

namespace Burst

/-- The bytes of a burst: its words, little endian. -/
def bytes : Burst → List UInt8
  | .idle => wordBytes filler
  | .words taken => taken.flatMap wordBytes

/-- The waiting words a burst takes. -/
def payload : Burst → List UInt32
  | .idle => []
  | .words taken => taken

/-- A burst of words takes at least one and at most `burstLength`. -/
def Fits : Burst → Prop
  | .idle => True
  | .words taken => taken ≠ [] ∧ taken.length ≤ burstLength

end Burst

namespace Link

/-! ## One iteration -/

/-- The burst the next boot-stream iteration writes. -/
def burst (link : Link) : Burst :=
  if link.words.items = [] then .idle else .words (link.words.items.take burstLength)

theorem burst_eq_idle_iff {link : Link} : link.burst = .idle ↔ link.words.items = [] := by
  unfold burst
  split <;> simp_all

theorem burst_fits (link : Link) : link.burst.Fits := by
  unfold burst
  split
  · trivial
  · rename_i waiting
    simp [Burst.Fits, waiting, burstLength]

theorem written_streamBurst (link : Link) :
    link.streamBurst.written = link.written ++ link.burst.bytes := by
  unfold streamBurst burst
  by_cases idle : link.words.items = []
  · simp [idle, Burst.bytes]
  · simp [idle, Burst.bytes, burstLength]

theorem payload_burst (link : Link) :
    link.burst.payload ++ link.streamBurst.words.items = link.words.items := by
  rw [words_streamBurst]
  unfold burst
  split
  · simp_all [Burst.payload]
  · exact List.take_append_drop _ _

/-- A block-mode iteration writes the oldest waiting block, if any. -/
theorem written_sendNext (link : Link) :
    link.sendNext.written = link.written ++ (link.outbound.items.take 1).flatMap Block.toBytes := by
  obtain ⟨oldest, -⟩ := link.outbound.pop_view
  unfold sendNext
  dsimp only
  split
  · rename_i block popped
    rw [oldest, List.head?_eq_some_iff] at popped
    obtain ⟨rest, items⟩ := popped
    simp [items]
  · rename_i nothing
    rw [oldest, List.head?_eq_none_iff] at nothing
    simp [nothing]

@[simp]
theorem capacity_streamBurst (link : Link) :
    link.streamBurst.words.capacity = link.words.capacity := by
  unfold streamBurst
  dsimp only
  split
  · rfl
  · exact Queue.capacity_popUpTo _ _

@[simp]
theorem mode_queueWord (link : Link) (word : UInt32) : (link.queueWord word).mode = link.mode := by
  unfold queueWord
  split <;> simp

@[simp]
theorem capacity_queueWord (link : Link) (word : UInt32) :
    (link.queueWord word).words.capacity = link.words.capacity := by
  unfold queueWord
  split <;> simp

/-! ## Schedules -/

/-- A call on the sending side of a link, or one iteration of its transmitter. -/
inductive Call where
  | sendBlock (block : Block)
  | sendWords (words : List UInt32)
  | transmit

/-- The blocks a call offers. -/
def Call.blocks : Call → List Block
  | .sendBlock block => [block]
  | _ => []

/-- The words a call offers. -/
def Call.words : Call → List UInt32
  | .sendWords words => words
  | _ => []

/-- Make a call. -/
def call (link : Link) : Call → Except MasterError Link
  | .sendBlock block => link.sendBlock block
  | .sendWords words => link.sendWords words
  | .transmit => .ok link.transmit

/-- A link after a schedule, with the calls that succeeded. -/
structure Served where
  link : Link
  /-- The calls that succeeded, in order. -/
  accepted : List Call

/-- Make the calls of a schedule in order, a call that fails leaving the link as it was. -/
def serve (link : Link) : List Call → Served
  | [] => ⟨link, []⟩
  | first :: calls =>
    match link.call first with
    | .ok next =>
      let rest := next.serve calls
      ⟨rest.link, first :: rest.accepted⟩
    | .error _ => link.serve calls

@[simp]
theorem serve_nil (link : Link) : link.serve [] = ⟨link, []⟩ := rfl

theorem serve_cons_of_ok {link next : Link} {first : Call} (calls : List Call)
    (done : link.call first = .ok next) :
    link.serve (first :: calls) =
      ⟨(next.serve calls).link, first :: (next.serve calls).accepted⟩ := by
  simp [serve, done]

theorem serve_cons_of_error {link : Link} {first : Call} {error : MasterError}
    (calls : List Call) (refused : link.call first = .error error) :
    link.serve (first :: calls) = link.serve calls := by
  simp [serve, refused]

/-! ## Lanes -/

/-- A queue of the link as the transmitter empties it: what waits in it, what a call offers to
it, the pieces an iteration writes from it with their bytes and the items each takes, and which
pieces an iteration may write. -/
structure Lane (α β : Type) where
  waiting : Link → List α
  offers : Call → List α
  bytes : β → List UInt8
  payload : β → List α
  Fits : β → Prop

/-- Blocks are written whole, one an iteration. -/
def blockLane : Lane Block Block where
  waiting link := link.outbound.items
  offers := Call.blocks
  bytes := Block.toBytes
  payload block := [block]
  Fits _ := True

/-- Words are written in bursts. -/
def wordLane : Lane UInt32 Burst where
  waiting link := link.words.items
  offers := Call.words
  bytes := Burst.bytes
  payload := Burst.payload
  Fits := Burst.Fits

@[simp]
theorem blockLane_offers : blockLane.offers = Call.blocks := rfl

@[simp]
theorem wordLane_offers : wordLane.offers = Call.words := rfl

namespace Lane

variable {α β : Type} {lane : Lane α β}

/-- From `link` to `later` the transmitter wrote whole pieces, and what they took, followed by
what still waits, is what waited followed by `input`. -/
def Conveys (lane : Lane α β) (link later : Link) (input : List α) : Prop :=
  ∃ pieces : List β, (∀ piece ∈ pieces, lane.Fits piece) ∧
    later.written = link.written ++ pieces.flatMap lane.bytes ∧
    pieces.flatMap lane.payload ++ lane.waiting later = lane.waiting link ++ input

theorem Conveys.refl (link : Link) : lane.Conveys link link [] :=
  ⟨[], by simp, by simp, by simp⟩

theorem Conveys.trans {link middle later : Link} {first second : List α}
    (before : lane.Conveys link middle first) (after : lane.Conveys middle later second) :
    lane.Conveys link later (first ++ second) := by
  obtain ⟨early, earlyFit, earlyWritten, earlyTaken⟩ := before
  obtain ⟨late, lateFit, lateWritten, lateTaken⟩ := after
  refine ⟨early ++ late, ?_, ?_, ?_⟩
  · intro piece member
    rcases List.mem_append.1 member with inEarly | inLate
    exacts [earlyFit piece inEarly, lateFit piece inLate]
  · rw [lateWritten, earlyWritten, List.flatMap_append, List.append_assoc]
  · rw [List.flatMap_append, List.append_assoc, lateTaken, ← List.append_assoc, earlyTaken,
      List.append_assoc]

/-- What is added to a queue while nothing is written is conveyed. -/
theorem conveys_of_queued {link later : Link} {input : List α}
    (written : later.written = link.written)
    (queued : lane.waiting later = lane.waiting link ++ input) :
    lane.Conveys link later input :=
  ⟨[], by simp, by simp [written], by simp [queued]⟩

/-- **A schedule conveys what its calls hand over**, when every call that succeeds from a link of
a kind the calls keep conveys what it offers. -/
theorem conveys_serve (Good : Link → Prop)
    (step : ∀ {link next : Link} {first : Call}, Good link → link.call first = .ok next →
      Good next ∧ lane.Conveys link next (lane.offers first))
    (calls : List Call) {link : Link} (good : Good link) :
    Good (link.serve calls).link ∧
      lane.Conveys link (link.serve calls).link
        ((link.serve calls).accepted.flatMap lane.offers) := by
  induction calls generalizing link with
  | nil => exact ⟨good, Conveys.refl link⟩
  | cons first calls ih =>
    cases done : link.call first with
    | error error =>
      -- a refused call leaves the link as it was and hands nothing over
      rw [serve_cons_of_error calls done]
      exact ih good
    | ok next =>
      obtain ⟨kept, conveys⟩ := step good done
      obtain ⟨final, rest⟩ := ih kept
      rw [serve_cons_of_ok calls done]
      exact ⟨final, by simpa using conveys.trans rest⟩

/-- **Settling conveys nothing new**, when every iteration from a link of a kind the iterations
keep conveys nothing new. -/
theorem conveys_settle (Good : Link → Prop)
    (step : ∀ {link : Link}, Good link →
      Good link.transmit ∧ lane.Conveys link link.transmit [])
    {link : Link} (good : Good link) : Good link.settle ∧ lane.Conveys link link.settle [] := by
  fun_induction settle link with
  | case1 link busy _ ih =>
    obtain ⟨kept, conveys⟩ := step good
    obtain ⟨final, rest⟩ := ih kept
    exact ⟨final, by simpa using conveys.trans rest⟩
  | case2 link idle => exact ⟨good, Conveys.refl link⟩

end Lane

@[simp]
theorem mode_settle (link : Link) : link.settle.mode = link.mode := by
  fun_induction settle link with
  | case1 link busy _ ih => simpa using ih
  | case2 link idle => rfl

/-- Settling leaves nothing waiting. -/
theorem backlog_settle (link : Link) : link.settle.backlog = 0 := by
  fun_induction settle link with
  | case1 link busy _ ih => exact ih
  | case2 link idle => omega

/-! ## The block lane -/

/-- A block-mode iteration writes the oldest waiting block. -/
theorem sendNext_conveys (link : Link) : blockLane.Conveys link link.sendNext [] := by
  refine ⟨link.outbound.items.take 1, by simp [blockLane], written_sendNext link, ?_⟩
  simpa [blockLane] using List.take_append_drop 1 link.outbound.items

/-- In block mode an iteration writes the oldest waiting block, and keeps the mode. -/
theorem transmit_conveys_blocks {link : Link} (mode : link.mode = .block) :
    link.transmit.mode = .block ∧ blockLane.Conveys link link.transmit [] := by
  rw [transmit_of_block mode]
  exact ⟨by simp [mode], sendNext_conveys link⟩

/-- Settling in block mode writes every waiting block. -/
theorem outbound_settle {link : Link} (mode : link.mode = .block) :
    link.settle.outbound.items = [] := by
  have idle := backlog_settle link
  rw [backlog_of_block (by simpa using mode), Queue.length_eq, List.length_eq_zero_iff] at idle
  exact idle

/-- A block that is sent joins the back of its queue. -/
theorem sendBlock_conveys {link next : Link} {block : Block}
    (sent : link.sendBlock block = .ok next) :
    next.mode = link.mode ∧ blockLane.Conveys link next [block] := by
  unfold sendBlock at sent
  split at sent
  · cases pushed : link.outbound.push? block with
    | none => simp [pushed] at sent
    | some outbound =>
      simp only [pushed, Except.ok.injEq] at sent
      subst sent
      obtain ⟨-, items, -, -⟩ := Queue.of_push?_eq_some pushed
      exact ⟨rfl, Lane.conveys_of_queued rfl (by simp [blockLane, items])⟩
  · cases sent

/-- In block mode a call that succeeds conveys the blocks it offers. -/
theorem call_conveys_blocks {link next : Link} {first : Call} (mode : link.mode = .block)
    (done : link.call first = .ok next) :
    next.mode = .block ∧ blockLane.Conveys link next (blockLane.offers first) := by
  cases first with
  | sendBlock block =>
    obtain ⟨same, conveys⟩ := sendBlock_conveys done
    exact ⟨same.trans mode, conveys⟩
  | sendWords words => simp [call, sendWords, mode] at done
  | transmit =>
    simp only [call, Except.ok.injEq] at done
    subst done
    exact transmit_conveys_blocks mode

/-- Once nothing waits, the line holds every block that waited or was handed over, in order. -/
theorem written_of_conveys_blocks {link later : Link} {input : List Block}
    (conveys : blockLane.Conveys link later input) (drained : later.outbound.items = []) :
    later.written = link.written ++ (link.outbound.items ++ input).flatMap Block.toBytes := by
  obtain ⟨pieces, -, written, taken⟩ := conveys
  simp only [blockLane, drained, List.append_nil, List.flatMap_singleton'] at written taken
  rw [written, ← taken]

/-! ## The word lane -/

/-- A boot-stream iteration writes its burst. -/
theorem streamBurst_conveys (link : Link) : wordLane.Conveys link link.streamBurst [] :=
  ⟨[link.burst], by simpa [wordLane] using burst_fits link,
    by simp [wordLane, written_streamBurst], by simpa [wordLane] using payload_burst link⟩

/-- In boot-stream mode an iteration writes its burst, and keeps the mode and the room. -/
theorem transmit_conveys_words {link : Link}
    (good : link.mode = .bootStream ∧ 0 < link.words.capacity) :
    (link.transmit.mode = .bootStream ∧ 0 < link.transmit.words.capacity) ∧
      wordLane.Conveys link link.transmit [] := by
  obtain ⟨mode, roomy⟩ := good
  rw [transmit_of_bootStream mode]
  exact ⟨⟨by simp [mode], by simpa using roomy⟩, streamBurst_conveys link⟩

/-- Settling in boot-stream mode writes every waiting word. -/
theorem words_settle {link : Link} (mode : link.mode = .bootStream) :
    link.settle.words.items = [] := by
  have idle := backlog_settle link
  rw [backlog_of_bootStream (by simpa using mode), Queue.length_eq, List.length_eq_zero_iff] at idle
  exact idle

/-- A queued word is conveyed; when the queue is full, the iteration that makes room for it
comes first. -/
theorem queueWord_conveys {link : Link} (roomy : 0 < link.words.capacity) (word : UInt32) :
    wordLane.Conveys link (link.queueWord word) [word] := by
  have pushed (later : Link) (room : later.words.items.length < later.words.capacity) :
      wordLane.Conveys later { later with words := (later.words.pushOrDrop word).1 } [word] :=
    Lane.conveys_of_queued rfl (by simp [wordLane, Queue.items_pushOrDrop, room])
  unfold queueWord
  split
  · rename_i room
    exact pushed link room
  · -- a full queue holds at least one word, so the burst that comes first takes some
    have freed : link.streamBurst.words.items.length < link.streamBurst.words.capacity := by
      have := link.words.fits
      simp only [words_streamBurst, List.length_drop, capacity_streamBurst, burstLength]
      omega
    simpa using (streamBurst_conveys link).trans (pushed _ freed)

@[simp]
theorem mode_foldl_queueWord (words : List UInt32) (link : Link) :
    (words.foldl queueWord link).mode = link.mode := by
  induction words generalizing link <;> simp [*]

@[simp]
theorem capacity_foldl_queueWord (words : List UInt32) (link : Link) :
    (words.foldl queueWord link).words.capacity = link.words.capacity := by
  induction words generalizing link <;> simp [*]

/-- Words streamed are conveyed in order. -/
theorem foldl_queueWord_conveys (words : List UInt32) {link : Link}
    (roomy : 0 < link.words.capacity) :
    wordLane.Conveys link (words.foldl queueWord link) words := by
  induction words generalizing link with
  | nil => exact Lane.Conveys.refl link
  | cons word words ih =>
    have later : 0 < (link.queueWord word).words.capacity := by simpa using roomy
    simpa using (queueWord_conveys roomy word).trans (ih later)

/-- In boot-stream mode a call that succeeds conveys the words it offers. -/
theorem call_conveys_words {link next : Link} {first : Call}
    (good : link.mode = .bootStream ∧ 0 < link.words.capacity)
    (done : link.call first = .ok next) :
    (next.mode = .bootStream ∧ 0 < next.words.capacity) ∧
      wordLane.Conveys link next (wordLane.offers first) := by
  obtain ⟨mode, roomy⟩ := good
  cases first with
  | sendBlock block => simp [call, sendBlock, mode] at done
  | sendWords words =>
    simp only [call, sendWords, mode, if_true, Except.ok.injEq] at done
    subst done
    exact ⟨⟨by simp [mode], by simpa using roomy⟩, foldl_queueWord_conveys words roomy⟩
  | transmit =>
    simp only [call, Except.ok.injEq] at done
    subst done
    exact transmit_conveys_words ⟨mode, roomy⟩

/-- In boot-stream mode only blocks are refused, so every word offered is handed over. -/
theorem accepted_words_of_bootStream (calls : List Call) {link : Link}
    (good : link.mode = .bootStream ∧ 0 < link.words.capacity) :
    (link.serve calls).accepted.flatMap Call.words = calls.flatMap Call.words := by
  induction calls generalizing link with
  | nil => rfl
  | cons first calls ih =>
    cases done : link.call first with
    | error error =>
      rw [serve_cons_of_error calls done]
      cases first with
      | sendBlock block => simpa [Call.words] using ih good
      | sendWords words => simp [call, sendWords, good.1] at done
      | transmit => simp [call] at done
    | ok next =>
      obtain ⟨kept, -⟩ := call_conveys_words good done
      rw [serve_cons_of_ok calls done]
      simp [ih kept]

/-! ## In order, each once -/

/-- In block mode a schedule conveys the blocks of the sends that succeed, and once settled the
line holds them all, after the blocks that waited before. -/
theorem serve_conveys_blocks (calls : List Call) {link : Link} (mode : link.mode = .block) :
    let served := link.serve calls
    served.link.mode = .block ∧
      blockLane.Conveys link served.link (served.accepted.flatMap Call.blocks) ∧
      served.link.settle.written =
        link.written ++ (link.outbound.items ++ served.accepted.flatMap Call.blocks).flatMap
          Block.toBytes := by
  intro served
  obtain ⟨kept, conveys⟩ :=
    Lane.conveys_serve (fun later => later.mode = .block) call_conveys_blocks calls mode
  obtain ⟨-, settled⟩ :=
    Lane.conveys_settle (fun later => later.mode = .block) transmit_conveys_blocks kept
  refine ⟨kept, conveys, ?_⟩
  simpa using written_of_conveys_blocks (conveys.trans settled) (outbound_settle kept)

/-- In boot-stream mode a schedule conveys every word it offers, and settling writes them all. -/
theorem serve_conveys_words (calls : List Call) {link : Link}
    (good : link.mode = .bootStream ∧ 0 < link.words.capacity) :
    let served := link.serve calls
    served.link.mode = .bootStream ∧
      served.accepted.flatMap Call.words = calls.flatMap Call.words ∧
      wordLane.Conveys link served.link (calls.flatMap Call.words) ∧
      wordLane.Conveys link served.link.settle (calls.flatMap Call.words) ∧
      served.link.settle.words.items = [] := by
  intro served
  have offered := accepted_words_of_bootStream calls good
  obtain ⟨kept, conveys⟩ :=
    Lane.conveys_serve (fun later => later.mode = .bootStream ∧ 0 < later.words.capacity)
      call_conveys_words calls good
  obtain ⟨-, settled⟩ :=
    Lane.conveys_settle (fun later => later.mode = .bootStream ∧ 0 < later.words.capacity)
      transmit_conveys_words kept
  rw [wordLane_offers, offered] at conveys
  exact ⟨kept.1, offered, conveys, by simpa using conveys.trans settled, words_settle kept.1⟩

/-- **The transmitter conveys in order.** With the mode fixed, every schedule of sends and
iterations conveys on the lane of the mode what its sends hand over: in block mode the blocks of
the sends that succeed, in boot-stream mode every word offered; once settled the line holds all of
them after what waited before. A boot-stream iteration writes the filler word exactly when no word
waits, and otherwise between one and `burstLength` of the oldest words; a send in the other mode
is refused with the master's reason. -/
theorem serve_writes_in_order (link : Link) (calls : List Call) (roomy : 0 < link.words.capacity) :
    let served := link.serve calls
    served.link.mode = link.mode ∧
    (link.mode = .block →
      blockLane.Conveys link served.link (served.accepted.flatMap Call.blocks) ∧
      served.link.settle.written =
        link.written ++ (link.outbound.items ++ served.accepted.flatMap Call.blocks).flatMap
          Block.toBytes) ∧
    (link.mode = .bootStream →
      served.accepted.flatMap Call.words = calls.flatMap Call.words ∧
      wordLane.Conveys link served.link (calls.flatMap Call.words) ∧
      wordLane.Conveys link served.link.settle (calls.flatMap Call.words) ∧
      served.link.settle.words.items = []) ∧
    (∀ state : Link, state.mode = .bootStream →
      state.transmit.written = state.written ++ state.burst.bytes ∧ state.burst.Fits ∧
        (state.burst = .idle ↔ state.words.items = [])) ∧
    (link.mode ≠ .block →
      ∀ block, link.sendBlock block = .error (.master "link is not in block mode")) ∧
    (link.mode ≠ .bootStream →
      ∀ words, link.sendWords words = .error (.master "link is not in boot stream mode")) := by
  intro served
  refine ⟨?fixed, fun mode => (serve_conveys_blocks calls mode).2,
    fun mode => (serve_conveys_words calls ⟨mode, roomy⟩).2, ?bursts, ?refusedBlock,
    ?refusedWords⟩
  case fixed =>
    cases mode : link.mode with
    | block => exact (serve_conveys_blocks calls mode).1
    | bootStream => exact (serve_conveys_words calls ⟨mode, roomy⟩).1
  case bursts =>
    intro state mode
    rw [transmit_of_bootStream mode]
    exact ⟨written_streamBurst state, burst_fits state, burst_eq_idle_iff⟩
  case refusedBlock =>
    intro other block
    simp [sendBlock, other]
  case refusedWords =>
    intro other words
    simp [sendWords, other]

/-- A fresh link, in block mode, sends a block, transmits it and is refused words. -/
theorem serve_writes_in_order_fresh :
    0 < ({} : Link).words.capacity ∧
    let served := ({} : Link).serve
      [.sendBlock (Block.toUnit 3 1 #v[0, 0, 0, 0, 0, 0]), .transmit, .sendWords [7]]
    served.link.mode = ({} : Link).mode ∧
    (({} : Link).mode = .block →
      blockLane.Conveys {} served.link (served.accepted.flatMap Call.blocks) ∧
      served.link.settle.written =
        ({} : Link).written ++ (({} : Link).outbound.items ++
          served.accepted.flatMap Call.blocks).flatMap Block.toBytes) ∧
    (({} : Link).mode = .bootStream →
      served.accepted.flatMap Call.words = List.flatMap Call.words
        [.sendBlock (Block.toUnit 3 1 #v[0, 0, 0, 0, 0, 0]), .transmit, .sendWords [7]] ∧
      wordLane.Conveys {} served.link (List.flatMap Call.words
        [.sendBlock (Block.toUnit 3 1 #v[0, 0, 0, 0, 0, 0]), .transmit, .sendWords [7]]) ∧
      wordLane.Conveys {} served.link.settle (List.flatMap Call.words
        [.sendBlock (Block.toUnit 3 1 #v[0, 0, 0, 0, 0, 0]), .transmit, .sendWords [7]]) ∧
      served.link.settle.words.items = []) ∧
    (∀ state : Link, state.mode = .bootStream →
      state.transmit.written = state.written ++ state.burst.bytes ∧ state.burst.Fits ∧
        (state.burst = .idle ↔ state.words.items = [])) ∧
    (({} : Link).mode ≠ .block →
      ∀ block, ({} : Link).sendBlock block = .error (.master "link is not in block mode")) ∧
    (({} : Link).mode ≠ .bootStream →
      ∀ words,
        ({} : Link).sendWords words = .error (.master "link is not in boot stream mode")) :=
  ⟨by decide, serve_writes_in_order {}
    [.sendBlock (Block.toUnit 3 1 #v[0, 0, 0, 0, 0, 0]), .transmit, .sendWords [7]] (by decide)⟩

end Link

end RailBus
