import RailBus.Link
import RailBus.Proofs.Wire.Valid
/-! # Receive framing

The receiver of a link reads one byte at a time, under the mode requested when the byte arrives.
Here a stream is a list of such reads, and `Link.feedIn` runs the receiver over it.

`Framing.blocks` states without any receiver state which blocks a stream carries: a run of
block-mode bytes opened by a byte with the sync bit, and extended by the block-mode bytes without
it, makes a candidate of its first nine bytes when it is that long, and a candidate is queued when
it reads as a valid block. `Framing.chars` keeps the boot-stream bytes other than 0x00 and 0xff.
The receiver pushes exactly these, in order, each queue keeping its oldest items and counting
what did not fit (`Link.feedIn_framing`). A valid block sent intact is queued once, wherever it
stands in the stream and whatever surrounds it.
-/

namespace RailBus

namespace Queue

variable {α : Type}

/-- Push items in order, dropping and counting those that find the queue full. -/
def pushAll (queue : Queue α) (items : List α) : Queue α :=
  items.foldl (fun queue item => (queue.pushOrDrop item).1) queue

@[simp]
theorem pushAll_nil (queue : Queue α) : queue.pushAll [] = queue := rfl

@[simp]
theorem pushAll_cons (queue : Queue α) (item : α) (items : List α) :
    queue.pushAll (item :: items) = (queue.pushOrDrop item).1.pushAll items := rfl

theorem pushAll_append (queue : Queue α) (first second : List α) :
    queue.pushAll (first ++ second) = (queue.pushAll first).pushAll second := by
  simp only [pushAll, List.foldl_append]

/-- **Items kept**: the oldest ones, up to the capacity. -/
theorem items_pushAll (queue : Queue α) (items : List α) :
    (queue.pushAll items).items = (queue.items ++ items).take queue.capacity := by
  induction items generalizing queue with
  | nil => simp [List.take_of_length_le queue.fits]
  | cons item items ih =>
    rw [pushAll_cons, ih, capacity_pushOrDrop, items_pushOrDrop]
    by_cases roomy : queue.items.length < queue.capacity
    · simp [roomy]
    · have full : queue.items.length = queue.capacity := by have := queue.fits; omega
      simp only [roomy, ↓reduceIte]
      rw [List.take_append_of_le_length (Nat.le_of_eq full.symm),
        List.take_append_of_le_length (Nat.le_of_eq full.symm)]

/-- **Items counted as dropped**: all those beyond the capacity, the count wrapping at 2³². -/
theorem dropped_pushAll (queue : Queue α) (items : List α) :
    (queue.pushAll items).dropped =
      queue.dropped + (queue.items.length + items.length - queue.capacity).toUInt32 := by
  induction items generalizing queue with
  | nil =>
    have within : queue.items.length - queue.capacity = 0 := Nat.sub_eq_zero_of_le queue.fits
    simp [within]
  | cons item items ih =>
    rw [pushAll_cons, ih, capacity_pushOrDrop, items_pushOrDrop, dropped_pushOrDrop]
    by_cases roomy : queue.items.length < queue.capacity
    · simp only [roomy, ↓reduceIte, List.length_append, List.length_cons, List.length_nil]
      congr 2
      omega
    · have full : queue.items.length = queue.capacity := by have := queue.fits; omega
      rw [if_neg roomy, if_neg roomy, List.length_cons, full, Nat.add_sub_cancel_left,
        Nat.add_sub_cancel_left, UInt32.add_assoc]
      simp [UInt32.ofNat_add, UInt32.add_comm]

end Queue

namespace Link

/-- Receive one byte under the mode requested when it arrives. -/
def receiveIn (link : Link) (read : UInt8 × LinkMode) : Link :=
  { link with mode := read.2 }.receive read.1

/-- Receive a stream of bytes, each under its own requested mode. -/
def feedIn (link : Link) (stream : List (UInt8 × LinkMode)) : Link :=
  stream.foldl receiveIn link

@[simp]
theorem feedIn_nil (link : Link) : link.feedIn [] = link := rfl

@[simp]
theorem feedIn_cons (link : Link) (read : UInt8 × LinkMode) (stream : List (UInt8 × LinkMode)) :
    link.feedIn (read :: stream) = (link.receiveIn read).feedIn stream := rfl

theorem feedIn_append (link : Link) (first second : List (UInt8 × LinkMode)) :
    link.feedIn (first ++ second) = (link.feedIn first).feedIn second := by
  simp only [feedIn, List.foldl_append]

end Link

namespace Framing

/-- A read that opens a block: a byte with the sync bit, in block mode. -/
def opens (read : UInt8 × LinkMode) : Bool :=
  read.2 == .block && read.1 &&& syncBit != 0

/-- A read that extends an open block: a byte without the sync bit, in block mode. -/
def continues (read : UInt8 × LinkMode) : Bool :=
  read.2 == .block && read.1 &&& syncBit == 0

/-- The candidate a run makes: its first nine bytes, if it has that many. -/
def cut (run : List UInt8) : List (List UInt8) :=
  if 9 ≤ run.length then [run.take 9] else []

/-- **The candidate blocks of a stream**: the first nine bytes of every run opened by a sync byte
and extended by the block-mode bytes without it, when the run is that long. -/
def candidates : List (UInt8 × LinkMode) → List (List UInt8)
  | [] => []
  | read :: rest =>
    if opens read then
      cut (read.1 :: (rest.takeWhile continues).map Prod.fst) ++
        candidates (rest.dropWhile continues)
    else candidates rest
termination_by stream => stream.length
decreasing_by
  · have shorter := (@List.dropWhile_suffix _ rest continues).length_le
    simp only [List.length_cons]
    omega
  · simp only [List.length_cons]
    omega

/-- The block nine bytes make, if it is valid. -/
def accept (bytes : List UInt8) : List Block :=
  ((Block.ofBytes? bytes).filter Block.valid).toList

/-- **The blocks a stream carries**, in order. -/
def blocks (stream : List (UInt8 × LinkMode)) : List Block :=
  (candidates stream).flatMap accept

/-- **The bootloader characters a stream carries**: its boot-stream bytes but 0x00 and 0xff. -/
def chars (stream : List (UInt8 × LinkMode)) : List UInt8 :=
  (stream.filter fun read => read.2 == .bootStream && read.1 != 0x00 && read.1 != 0xff).map
    Prod.fst

@[simp]
theorem opens_eq_true {read : UInt8 × LinkMode} :
    opens read = true ↔ read.2 = .block ∧ read.1 &&& syncBit ≠ 0 := by
  simp [opens]

@[simp]
theorem continues_eq_true {read : UInt8 × LinkMode} :
    continues read = true ↔ read.2 = .block ∧ read.1 &&& syncBit = 0 := by
  simp [continues]

theorem opens_eq_false_of_continues {read : UInt8 × LinkMode} (extending : continues read = true) :
    opens read = false := by
  simp only [continues_eq_true] at extending
  simp [opens, extending]

end Framing

namespace Link

/-! ## One byte

What a read does to the block being assembled and to the two queues, for each kind of read. -/

section Step

variable {link : Link} {read : UInt8 × LinkMode}

theorem receiveIn_opens (opening : Framing.opens read = true) :
    (link.receiveIn read).frame = [read.1] ∧ (link.receiveIn read).inbound = link.inbound ∧
      (link.receiveIn read).chars = link.chars := by
  obtain ⟨byte, mode⟩ := read
  obtain ⟨block, sync⟩ := Framing.opens_eq_true.mp opening
  subst block
  simp [receiveIn, receive, sync]

theorem receiveIn_skips (extending : Framing.continues read = true) (idle : link.frame = []) :
    (link.receiveIn read).frame = [] ∧ (link.receiveIn read).inbound = link.inbound ∧
      (link.receiveIn read).chars = link.chars := by
  obtain ⟨byte, mode⟩ := read
  obtain ⟨block, clear⟩ := Framing.continues_eq_true.mp extending
  subst block
  simp [receiveIn, receive, clear, idle]

theorem receiveIn_extends (extending : Framing.continues read = true) (opened : link.frame ≠ [])
    (short : link.frame.length + 1 < 9) :
    (link.receiveIn read).frame = link.frame ++ [read.1] ∧
      (link.receiveIn read).inbound = link.inbound ∧ (link.receiveIn read).chars = link.chars := by
  obtain ⟨byte, mode⟩ := read
  obtain ⟨block, clear⟩ := Framing.continues_eq_true.mp extending
  subst block
  simp [receiveIn, receive, clear, opened, short]

theorem receiveIn_completes (extending : Framing.continues read = true)
    (full : link.frame.length + 1 = 9) :
    (link.receiveIn read).frame = [] ∧
      (link.receiveIn read).inbound = link.inbound.pushAll (Framing.accept (link.frame ++ [read.1])) ∧
      (link.receiveIn read).chars = link.chars := by
  obtain ⟨byte, mode⟩ := read
  obtain ⟨block, clear⟩ := Framing.continues_eq_true.mp extending
  subst block
  have opened : link.frame ≠ [] := by
    intro empty
    simp [empty] at full
  simp only [receiveIn, receive, clear, ne_eq, not_true_eq_false, ↓reduceIte, List.isEmpty_iff,
    opened, List.length_append, List.length_singleton, full, Nat.lt_irrefl, Framing.accept]
  cases Block.ofBytes? (link.frame ++ [byte]) with
  | none => simp
  | some block =>
    by_cases valid : block.valid = true
    · simp [Option.filter_some, valid]
    · simp [Option.filter_some, valid]

theorem receiveIn_bootStream (boot : read.2 = .bootStream) :
    (link.receiveIn read).frame = [] ∧ (link.receiveIn read).inbound = link.inbound ∧
      (link.receiveIn read).chars = link.chars.pushAll (Framing.chars [read]) := by
  obtain ⟨byte, mode⟩ := read
  subst boot
  by_cases idle : byte = 0x00 ∨ byte = 0xff
  · rcases idle with rfl | rfl <;> simp [receiveIn, receive, Framing.chars]
  · have : byte ≠ 0x00 ∧ byte ≠ 0xff := by simpa [not_or] using idle
    simp [receiveIn, receive, Framing.chars, this]

end Step

end Link

namespace Framing

/-! ## The reference extractor -/

variable {read : UInt8 × LinkMode} {rest : List (UInt8 × LinkMode)}

theorem blocks_cons_of_opens (opening : opens read = true) :
    blocks (read :: rest) = (cut (read.1 :: (rest.takeWhile continues).map Prod.fst)).flatMap accept ++
      blocks (rest.dropWhile continues) := by
  rw [blocks, candidates, if_pos opening, List.flatMap_append]
  rfl

theorem blocks_cons_of_not_opens (closed : opens read = false) :
    blocks (read :: rest) = blocks rest := by
  rw [blocks, candidates, if_neg (by simp [closed])]
  rfl

theorem chars_append (first second : List (UInt8 × LinkMode)) :
    chars (first ++ second) = chars first ++ chars second := by
  simp only [chars, List.filter_append, List.map_append]

/-- Block-mode reads carry no characters. -/
theorem chars_eq_nil (inBlockMode : ∀ read ∈ rest, read.2 = .block) : chars rest = [] := by
  simp only [chars, List.map_eq_nil_iff, List.filter_eq_nil_iff, Bool.and_eq_true, beq_iff_eq,
    bne_iff_ne, ne_eq, not_and]
  intro read member boot
  simp [inBlockMode read member] at boot

/-- Reads that only extend a block may be dropped from the front: no run starts among them. -/
theorem candidates_dropWhile (stream : List (UInt8 × LinkMode)) :
    candidates (stream.dropWhile continues) = candidates stream := by
  induction stream with
  | nil => rfl
  | cons read rest ih =>
    by_cases extending : continues read = true
    · rw [List.dropWhile_cons_of_pos extending, ih, candidates,
        if_neg (by simp [opens_eq_false_of_continues extending])]
    · rw [List.dropWhile_cons_of_neg extending]

private theorem takeWhile_append_of_stops {p : UInt8 × LinkMode → Bool}
    (first second : List (UInt8 × LinkMode)) (stops : ∀ read ∈ second.head?, p read = false) :
    (first ++ second).takeWhile p = first.takeWhile p ∧
      (first ++ second).dropWhile p = first.dropWhile p ++ second := by
  induction first with
  | nil =>
    cases second with
    | nil => simp
    | cons head tail => simp [stops head rfl]
  | cons read first ih =>
    by_cases holds : p read = true
    · simp [holds, ih]
    · simp [holds]

/-- **Candidates split where a run cannot continue**: at a read that opens a block, a boot-stream
read, or the end. -/
theorem candidates_append (first second : List (UInt8 × LinkMode))
    (stops : ∀ read ∈ second.head?, continues read = false) :
    candidates (first ++ second) = candidates first ++ candidates second := by
  induction first using candidates.induct with
  | case1 => simp [candidates]
  | case2 read rest opening ih =>
    obtain ⟨runs, after⟩ := takeWhile_append_of_stops rest second stops
    rw [List.cons_append, candidates, candidates, if_pos opening, if_pos opening, runs, after, ih,
      List.append_assoc]
  | case3 read rest closed ih =>
    rw [List.cons_append, candidates, candidates, if_neg closed, if_neg closed, ih]

theorem blocks_dropWhile (stream : List (UInt8 × LinkMode)) :
    blocks (stream.dropWhile continues) = blocks stream := by
  rw [blocks, candidates_dropWhile]
  rfl

theorem blocks_append (first second : List (UInt8 × LinkMode))
    (stops : ∀ read ∈ second.head?, continues read = false) :
    blocks (first ++ second) = blocks first ++ blocks second := by
  rw [blocks, candidates_append first second stops, List.flatMap_append]
  rfl

/-- **An intact block is carried where it stands**: a valid block whose address has the sync bit,
sent whole in block mode, is carried once between the blocks before it and those after it,
whatever they are. -/
theorem blocks_intact (pre post : List (UInt8 × LinkMode)) {block : Block}
    (valid : block.valid = true) (addressed : block.address &&& syncBit ≠ 0) :
    blocks (pre ++ block.toBytes.map (·, LinkMode.block) ++ post) =
      blocks pre ++ block :: blocks post := by
  let tail := block.toBytes.tail.map (·, LinkMode.block)
  have extending : ∀ read ∈ tail, continues read = true := by
    intro read member
    obtain ⟨byte, inTail, rfl⟩ := List.mem_map.mp member
    exact continues_eq_true.mpr
      ⟨rfl, (and_syncBit_eq_zero_iff byte).mpr (Block.lt_of_mem_toBytes valid inTail)⟩
  have opening : opens (block.address, LinkMode.block) = true := opens_eq_true.mpr ⟨rfl, addressed⟩
  have stops : ∀ read ∈ ((block.address, LinkMode.block) :: (tail ++ post)).head?,
      continues read = false := by
    intro read member
    rw [show read = (block.address, LinkMode.block) from (Option.some.inj member).symm]
    simp [continues, addressed]
  -- the run the address opens is the block's own nine bytes and the noise behind them
  have whole : block.address :: tail.map Prod.fst = block.toBytes := by
    simp only [tail, List.map_map, Function.comp_def, List.map_id']
    rfl
  have cut : cut (block.address :: ((tail ++ post).takeWhile continues).map Prod.fst) =
      [block.toBytes] := by
    rw [List.takeWhile_append_of_pos extending, List.map_append, ← List.cons_append, whole, cut,
      List.length_append, Block.length_toBytes, if_pos (Nat.le_add_right 9 _),
      List.take_append_of_le_length (Nat.le_of_eq (Block.length_toBytes block).symm),
      List.take_of_length_le (Nat.le_of_eq (Block.length_toBytes block))]
  have accepted : accept block.toBytes = [block] := by
    simp [accept, Block.ofBytes?_toBytes, Option.filter_some, valid]
  have bytes : block.toBytes.map (·, LinkMode.block) = (block.address, LinkMode.block) :: tail := rfl
  rw [List.append_assoc, bytes, List.cons_append, blocks_append pre _ stops,
    blocks_cons_of_opens opening, List.dropWhile_append_of_pos extending, cut,
    List.flatMap_singleton, accepted, blocks_dropWhile]
  rfl

end Framing

namespace Link

/-! ## A run of bytes -/

/-- With no block open, bytes that could only extend one are skipped. -/
theorem feedIn_skips (run : List (UInt8 × LinkMode)) {link : Link} (idle : link.frame = [])
    (extending : ∀ read ∈ run, Framing.continues read = true) :
    (link.feedIn run).inbound = link.inbound ∧ (link.feedIn run).chars = link.chars := by
  induction run generalizing link with
  | nil => exact ⟨rfl, rfl⟩
  | cons read run ih =>
    obtain ⟨frame, inbound, chars⟩ := @receiveIn_skips link read (extending read (by simp)) idle
    obtain ⟨inbound', chars'⟩ := ih frame (fun read member => extending read (by simp [member]))
    exact ⟨inbound'.trans inbound, chars'.trans chars⟩

/-- **An open block extended by a run**: the block is complete once it has nine bytes, and is
queued if it is valid; the bytes after it are skipped. -/
theorem feedIn_extends (run : List (UInt8 × LinkMode)) {link : Link} (opened : link.frame ≠ [])
    (short : link.frame.length < 9) (extending : ∀ read ∈ run, Framing.continues read = true) :
    (link.feedIn run).inbound =
        link.inbound.pushAll ((Framing.cut (link.frame ++ run.map Prod.fst)).flatMap Framing.accept) ∧
      (link.feedIn run).chars = link.chars := by
  induction run generalizing link with
  | nil => simp [Framing.cut, Nat.not_le.mpr short]
  | cons read run ih =>
    have first := extending read (by simp)
    have others : ∀ read ∈ run, Framing.continues read = true :=
      fun read member => extending read (by simp [member])
    have regroup : link.frame ++ (read :: run).map Prod.fst = link.frame ++ [read.1] ++ run.map Prod.fst := by
      simp
    by_cases room : link.frame.length + 1 < 9
    · -- the block is still short: it grows by the byte and the run goes on
      obtain ⟨frame, inbound, chars⟩ := @receiveIn_extends link read first opened room
      obtain ⟨inbound', chars'⟩ := @ih (link.receiveIn read) (by simp [frame])
        (by simpa [frame] using room) others
      rw [feedIn_cons, inbound', chars', inbound, chars, frame, regroup]
      exact ⟨rfl, rfl⟩
    · -- the byte completes the block: it is read, and the rest of the run is skipped
      have full : link.frame.length + 1 = 9 := by omega
      obtain ⟨frame, inbound, chars⟩ := @receiveIn_completes link read first full
      obtain ⟨inbound', chars'⟩ := feedIn_skips run frame others
      have nine : (link.frame ++ [read.1]).length = 9 := by simp [full]
      have cut : Framing.cut (link.frame ++ (read :: run).map Prod.fst) = [link.frame ++ [read.1]] := by
        rw [regroup, Framing.cut, List.length_append, nine,
          if_pos (Nat.le_add_right 9 _), List.take_append_of_le_length (Nat.le_of_eq nine.symm),
          List.take_of_length_le (Nat.le_of_eq nine)]
      rw [feedIn_cons, inbound', chars', inbound, chars, cut, List.flatMap_singleton]
      exact ⟨rfl, rfl⟩

/-! ## A whole stream -/

/-- **The receiver queues what the reference extractor finds**, from any state whose open block,
if any, the stream cannot extend. The induction follows the runs of the extractor. -/
theorem feedIn_queues (stream : List (UInt8 × LinkMode)) {link : Link}
    (ready : link.frame = [] ∨ ∀ read ∈ stream.head?, Framing.continues read = false) :
    (link.feedIn stream).inbound = link.inbound.pushAll (Framing.blocks stream) ∧
      (link.feedIn stream).chars = link.chars.pushAll (Framing.chars stream) := by
  induction stream using Framing.candidates.induct generalizing link with
  | case1 => simp [Framing.blocks, Framing.candidates, Framing.chars]
  | case2 read rest opening ih =>
    -- the read opens a block, the run behind it extends the block, and what follows the run
    -- cannot extend it
    let run := rest.takeWhile Framing.continues
    let after := rest.dropWhile Framing.continues
    obtain ⟨frame, inbound, chars⟩ := @receiveIn_opens link read opening
    have extending : ∀ r ∈ run, Framing.continues r = true :=
      fun r member => List.mem_takeWhile_imp member
    obtain ⟨inbound', chars'⟩ :=
      @feedIn_extends run (link.receiveIn read) (by simp [frame]) (by simp [frame]) extending
    have stops : ∀ r ∈ after.head?, Framing.continues r = false := by
      intro r member
      have first := List.head?_dropWhile_not Framing.continues rest
      rw [show after.head? = some r from member] at first
      exact first
    obtain ⟨inbound'', chars''⟩ := @ih ((link.receiveIn read).feedIn run) (.inr stops)
    have whole : link.feedIn (read :: rest) = ((link.receiveIn read).feedIn run).feedIn after := by
      rw [feedIn_cons, ← feedIn_append, List.takeWhile_append_dropWhile]
    have noChars : Framing.chars (read :: rest) = Framing.chars after := by
      have inBlockMode : ∀ r ∈ [read] ++ run, r.2 = .block := by
        intro r member
        rcases List.mem_append.mp member with same | inRun
        · rw [List.mem_singleton.mp same]
          exact (Framing.opens_eq_true.mp opening).1
        · exact (Framing.continues_eq_true.mp (extending r inRun)).1
      calc Framing.chars (read :: rest) = Framing.chars ([read] ++ run ++ after) := by
            rw [List.append_assoc, List.takeWhile_append_dropWhile]
            rfl
        _ = Framing.chars after := by
            rw [Framing.chars_append, Framing.chars_eq_nil inBlockMode, List.nil_append]
    refine ⟨?_, ?_⟩
    · rw [whole, inbound'', inbound', inbound, frame, Framing.blocks_cons_of_opens opening,
        Queue.pushAll_append]
      rfl
    · rw [whole, chars'', chars', chars, noChars]
  | case3 read rest closed ih =>
    have notOpening : Framing.opens read = false := by simpa only [Bool.not_eq_true] using closed
    rw [Framing.blocks_cons_of_not_opens notOpening]
    by_cases boot : read.2 = .bootStream
    · obtain ⟨frame, inbound, chars⟩ := @receiveIn_bootStream link read boot
      obtain ⟨inbound', chars'⟩ := @ih (link.receiveIn read) (.inl frame)
      rw [feedIn_cons, inbound', chars', inbound, chars, ← Queue.pushAll_append,
        ← Framing.chars_append]
      exact ⟨rfl, rfl⟩
    · -- a block-mode byte without the sync bit, so no block may be open before it
      have block : read.2 = .block := by
        cases mode : read.2
        · rfl
        · exact absurd mode boot
      have extending : Framing.continues read = true := by
        simp only [Framing.opens_eq_true, not_and, Decidable.not_not] at closed
        exact Framing.continues_eq_true.mpr ⟨block, closed block⟩
      have idle : link.frame = [] := by
        rcases ready with idle | stops
        · exact idle
        · simp [stops read rfl] at extending
      obtain ⟨frame, inbound, chars⟩ := @receiveIn_skips link read extending idle
      obtain ⟨inbound', chars'⟩ := @ih (link.receiveIn read) (.inl frame)
      have noChar : Framing.chars (read :: rest) = Framing.chars rest := by
        rw [← List.singleton_append, Framing.chars_append,
          Framing.chars_eq_nil (by simpa using block), List.nil_append]
      rw [feedIn_cons, inbound', chars', inbound, chars, noChar]
      exact ⟨rfl, rfl⟩

/-- **Receive framing.** From a state with no block open, whatever modes are requested byte by
byte, the receiver queues exactly the blocks and the characters the stream carries, in order;
each queue keeps its oldest items up to its capacity and counts every later one as dropped. So a
valid block sent whole with the sync bit in its address is queued once, in its place among the
blocks around it, whatever noise, truncated or corrupted blocks surround it. -/
theorem feedIn_framing (link : Link) (idle : link.frame = []) (stream : List (UInt8 × LinkMode)) :
    ((link.feedIn stream).inbound.items =
        (link.inbound.items ++ Framing.blocks stream).take link.inbound.capacity ∧
      (link.feedIn stream).inbound.dropped = link.inbound.dropped +
        (link.inbound.items.length + (Framing.blocks stream).length -
          link.inbound.capacity).toUInt32) ∧
    ((link.feedIn stream).chars.items =
        (link.chars.items ++ Framing.chars stream).take link.chars.capacity ∧
      (link.feedIn stream).chars.dropped = link.chars.dropped +
        (link.chars.items.length + (Framing.chars stream).length - link.chars.capacity).toUInt32) ∧
    ∀ (pre post : List (UInt8 × LinkMode)) (block : Block),
      stream = pre ++ block.toBytes.map (·, LinkMode.block) ++ post → block.valid = true →
        block.address &&& syncBit ≠ 0 →
        Framing.blocks stream = Framing.blocks pre ++ block :: Framing.blocks post := by
  obtain ⟨inbound, chars⟩ := feedIn_queues stream (.inl idle)
  refine ⟨⟨?_, ?_⟩, ⟨?_, ?_⟩, ?_⟩
  · rw [inbound, Queue.items_pushAll]
  · rw [inbound, Queue.dropped_pushAll]
  · rw [chars, Queue.items_pushAll]
  · rw [chars, Queue.dropped_pushAll]
  · intro pre post block split valid addressed
    rw [split]
    exact Framing.blocks_intact pre post valid addressed

/-- A fresh link reads two characters in boot-stream mode, a whole block in block mode, and the
address byte of another block cut short by a switch back to the boot stream: it queues the whole
block alone, and the two characters that are not zero. -/
theorem feedIn_framing_across_modes :
    let block := Block.toUnit 3 0x01 #v[0, 0, 0, 0, 0, 0]
    let before : List (UInt8 × LinkMode) := [(0x41, .bootStream), (0x00, .bootStream)]
    let after : List (UInt8 × LinkMode) := [(0x85, .block), (0x01, .bootStream)]
    let stream := before ++ block.toBytes.map (·, LinkMode.block) ++ after
    (({} : Link).feedIn stream).inbound.items = [block] ∧
      (({} : Link).feedIn stream).chars.items = [0x41, 0x01] := by
  intro block before after stream
  obtain ⟨⟨inbound, -⟩, ⟨chars, -⟩, intact⟩ := feedIn_framing {} rfl stream
  have valid : block.valid = true := Block.valid_make _ (by decide) (by simp)
  have addressed : block.address &&& syncBit ≠ 0 := by decide
  -- the bytes around the block frame nothing: characters before it, and a block cut short by the
  -- switch back to the boot stream after it
  have nothingBefore : Framing.blocks before = [] := by decide +kernel
  have nothingAfter : Framing.blocks after = [] := by decide +kernel
  have carried : Framing.chars stream = [0x41, 0x01] := by decide
  rw [intact before after block rfl valid addressed, nothingBefore, nothingAfter] at inbound
  rw [carried] at chars
  exact ⟨inbound, chars⟩

end Link

end RailBus
