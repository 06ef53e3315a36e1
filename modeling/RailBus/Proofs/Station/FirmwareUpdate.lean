import Mathlib
import RailBus.Station.Update
/-! # A firmware update brackets the bus and leaves the station as it was

A transfer reads the bootloader's characters one at a time and stops at the first one that
finishes the session; when the characters run out first it times out. `Session.replay` is the
reference side: the session fed a whole run of characters, with the frames it answered, in
order. `Session.Reads` says what a transfer must do with a script against it: read the script up
to the first character that finishes the session (a done request), or all of it, stream the words
of exactly the frames answered on the way, and succeed exactly when the session finished
(`Session.reads_feed`).

A station's update refuses an empty image before touching the bus. Any other image is
transferred between a switch to the boot stream and a switch back to blocks, whatever the
outcome, and nothing but the bus changes (`Station.Updated`). An update from a HEX file fails
with the file's error, touching nothing, exactly when the file is malformed, and is otherwise the
update with the image it describes (`Station.updateFirmware_spec`).
-/

namespace RailBus

namespace Firmware

namespace Session

/-- **The session fed a run of characters** to the end, and the frames it answered with. -/
def replay (image : Image) (session : Session) : List UInt8 → Session × List Frame
  | [] => (session, [])
  | byte :: rest =>
    let answer := session.input byte image
    let later := answer.1.replay image rest
    (later.1, answer.2.toList ++ later.2)

@[simp]
theorem replay_nil (image : Image) (session : Session) : session.replay image [] = (session, []) := rfl

@[simp]
theorem replay_cons (image : Image) (session : Session) (byte : UInt8) (rest : List UInt8) :
    session.replay image (byte :: rest) =
      (((session.input byte image).1.replay image rest).1,
        (session.input byte image).2.toList ++ ((session.input byte image).1.replay image rest).2) :=
  rfl

theorem replay_append (image : Image) (session : Session) (first second : List UInt8) :
    session.replay image (first ++ second) =
      (((session.replay image first).1.replay image second).1,
        (session.replay image first).2 ++ ((session.replay image first).1.replay image second).2) := by
  induction first generalizing session with
  | nil => simp
  | cons byte rest ih => simp [ih]

/-- A run of characters leaves the session finished. -/
def Finishes (image : Image) (session : Session) (chars : List UInt8) : Prop :=
  (session.replay image chars).1.isFinished = true

@[simp]
theorem finishes_nil {image : Image} {session : Session} :
    Finishes image session [] ↔ session.isFinished = true := Iff.rfl

@[simp]
theorem finishes_cons {image : Image} {session : Session} {byte : UInt8} {rest : List UInt8} :
    Finishes image session (byte :: rest) ↔ Finishes image (session.input byte image).1 rest :=
  Iff.rfl

/-- **Only a done request finishes a session.** -/
theorem done_of_input_finished {session : Session} {byte : UInt8} {image : Image}
    (fresh : session.isFinished = false) (finished : (session.input byte image).1.isFinished = true) :
    Request.ofByte? byte = some .done := by
  have state : session.state ≠ .finished := by simpa [isFinished] using fresh
  unfold input at finished
  -- every branch but the done request leaves the state unfinished or unchanged
  split at finished <;> simp_all [isFinished, resend, send, ite_eq_iff]

/-- Every prefix of `byte :: rest`: the empty one, and `byte` before each prefix of `rest`. -/
theorem forall_prefix_cons {motive : List UInt8 → Prop} {byte : UInt8} {rest : List UInt8} :
    (∀ early, early <+: byte :: rest → motive early) ↔
      motive [] ∧ ∀ early, early <+: rest → motive (byte :: early) := by
  constructor
  · intro all
    exact ⟨all [] List.nil_prefix, fun early below => all _ (List.cons_prefix_cons.mpr ⟨rfl, below⟩)⟩
  · rintro ⟨empty, later⟩ early below
    rcases List.prefix_cons_iff.mp below with rfl | ⟨tail, rfl, tailBelow⟩
    · exact empty
    · exact later tail tailBelow

/-- **What a transfer does with a script**, from a session: it reads the script up to the first
character after which the session is finished, or all of it, and streams the words of the frames
answered to what it read. It succeeds when the session finished, and times out having read
everything otherwise. -/
def Reads (image : Image) (session : Session) (script : List UInt8) (outcome : TransferEnd) :
    Prop :=
  ∃ read, script = read ++ outcome.left ∧
    outcome.session = (session.replay image read).1 ∧
    outcome.words = (session.replay image read).2.flatMap Frame.toWords ∧
    ((outcome.result = .ok () ∧ Finishes image session read ∧
        ∀ early, early <+: read → early ≠ read → ¬ Finishes image session early) ∨
      (outcome.result = .error .timeout ∧ outcome.left = [] ∧
        ∀ early, early <+: read → ¬ Finishes image session early))

theorem feed_nil (image : Image) (session : Session) :
    session.feed image [] =
      { session, words := [], left := [],
        result := if session.isFinished then .ok () else .error .timeout } := rfl

theorem feed_cons_of_finished {image : Image} {session : Session}
    (finished : session.isFinished = true) (byte : UInt8) (rest : List UInt8) :
    session.feed image (byte :: rest) =
      { session, words := [], left := byte :: rest, result := .ok () } := by
  simp [feed, finished]

theorem feed_cons_of_fresh {image : Image} {session : Session}
    (fresh : session.isFinished = false) (byte : UInt8) (rest : List UInt8) :
    session.feed image (byte :: rest) =
      { (session.input byte image).1.feed image rest with
        words := ((session.input byte image).2.map Frame.toWords).getD [] ++
          ((session.input byte image).1.feed image rest).words } := by
  simp [feed, fresh]

/-- A finished session reads nothing and succeeds. -/
theorem reads_of_finished {image : Image} {session : Session} (finished : session.isFinished = true)
    {script : List UInt8} {outcome : TransferEnd} (left : outcome.left = script)
    (same : outcome.session = session) (silent : outcome.words = [])
    (success : outcome.result = .ok ()) : Reads image session script outcome := by
  refine ⟨[], by rw [left, List.nil_append], by rw [same, replay_nil], by rw [silent]; rfl,
    .inl ⟨success, finishes_nil.mpr finished, fun early below differs => ?_⟩⟩
  exact absurd (List.prefix_nil.mp below) differs

/-- Reading one more character in front: the read part grows by it, the frame it is answered with
comes first, and the first finishing prefix stays the first. -/
theorem Reads.cons {image : Image} {session : Session} (fresh : session.isFinished = false)
    {byte : UInt8} {rest : List UInt8} {outcome : TransferEnd}
    (later : Reads image (session.input byte image).1 rest outcome) :
    Reads image session (byte :: rest)
      { outcome with words := ((session.input byte image).2.map Frame.toWords).getD [] ++
          outcome.words } := by
  obtain ⟨read, split, last, words, ending⟩ := later
  have notYet : ¬ Finishes image session [] := by simp [fresh]
  refine ⟨byte :: read, by rw [split, List.cons_append], by simp [last], ?_, ?_⟩
  · cases answer : (session.input byte image).2 <;> simp [words, answer]
  rcases ending with ⟨success, finishes, first⟩ | ⟨timeout, empty, never⟩
  · refine .inl ⟨success, finishes_cons.mpr finishes, fun early below differs => ?_⟩
    rcases List.prefix_cons_iff.mp below with rfl | ⟨tail, rfl, tailBelow⟩
    · exact notYet
    · exact finishes_cons.not.mpr (first tail tailBelow fun same => differs (same ▸ rfl))
  · refine .inr ⟨timeout, empty, forall_prefix_cons.mpr ⟨notYet, fun early below => ?_⟩⟩
    exact finishes_cons.not.mpr (never early below)

/-- **A transfer reads its script as `Reads` says**, from any session. -/
theorem reads_feed (image : Image) (session : Session) (script : List UInt8) :
    Reads image session script (session.feed image script) := by
  -- induction on the script; the session the rest is fed to changes with each character
  induction script generalizing session with
  | nil =>
    refine ⟨[], rfl, rfl, rfl, ?_⟩
    by_cases finished : session.isFinished = true
    · exact .inl ⟨by simp [feed_nil, finished], finishes_nil.mpr finished,
        fun early below differs => absurd (List.prefix_nil.mp below) differs⟩
    · refine .inr ⟨by simp [feed_nil, finished], rfl, fun early below => ?_⟩
      rw [List.prefix_nil.mp below, finishes_nil]
      exact finished
  | cons byte rest ih =>
    cases finished : session.isFinished
    · rw [feed_cons_of_fresh finished]
      exact (ih _).cons finished
    · rw [feed_cons_of_finished finished]
      exact reads_of_finished finished rfl rfl rfl rfl

namespace Reads

variable {image : Image} {session : Session} {script : List UInt8} {outcome : TransferEnd}

/-- A transfer succeeds or times out. -/
theorem result_cases (reads : Reads image session script outcome) :
    outcome.result = .ok () ∨ outcome.result = .error .timeout := by
  obtain ⟨-, -, -, -, ⟨success, -⟩ | ⟨timeout, -⟩⟩ := reads
  · exact .inl success
  · exact .inr timeout

/-- **A transfer succeeds exactly when some prefix of the script finishes the session.** -/
theorem ok_iff (reads : Reads image session script outcome) :
    outcome.result = .ok () ↔ ∃ early, early <+: script ∧ Finishes image session early := by
  obtain ⟨read, split, -, -, ⟨success, finishes, -⟩ | ⟨timeout, empty, never⟩⟩ := reads
  · exact ⟨fun _ => ⟨read, split ▸ List.prefix_append _ _, finishes⟩, fun _ => success⟩
  · rw [empty, List.append_nil] at split
    subst split
    rw [timeout]
    constructor
    · intro wrong
      cases wrong
    · rintro ⟨early, below, finishes⟩
      exact absurd finishes (never early below)

/-- **A successful transfer from an unfinished session stops at a done request**: the last
character read is the one that finished it. -/
theorem ends_done (reads : Reads image session script outcome) (fresh : session.isFinished = false)
    (success : outcome.result = .ok ()) :
    ∃ read before last, script = read ++ outcome.left ∧ read = before ++ [last] ∧
      Request.ofByte? last = some .done := by
  obtain ⟨read, split, -, -, ⟨-, finishes, first⟩ | ⟨timeout, -⟩⟩ := reads
  · rcases List.eq_nil_or_concat' read with rfl | ⟨before, last, rfl⟩
    · rw [finishes_nil, fresh] at finishes
      cases finishes
    -- the session is unfinished after `before`, a proper prefix, and finished after `last`
    have notYet : (session.replay image before).1.isFinished = false := by
      have := first before (List.prefix_append _ _) (by simp)
      simpa [Finishes] using this
    have finished : ((session.replay image before).1.input last image).1.isFinished = true := by
      simpa [Finishes, replay_append] using finishes
    exact ⟨before ++ [last], before, last, split, rfl, done_of_input_finished notYet finished⟩
  · rw [success] at timeout
    cases timeout

end Reads

end Session

end Firmware

namespace Station

open Firmware

variable {σ : Type}

/-- **What an update with a nonempty image does** to a station: the bus is switched to the boot
stream and back to blocks, the bootloader's script is read as a transfer from a fresh session
reads it, and the words of the frames answered are streamed; the transfer's outcome is the
answer, and nothing but the bus changes. -/
structure Updated (before : Station σ) (image : Image) (result : Except MasterError Unit)
    (after : Station σ) : Prop where
  modes : after.bus.modes = before.bus.modes ++ [.bootStream, .block]
  mode : after.bus.mode = .block
  inbox : after.bus.inbox = before.bus.inbox
  sent : after.bus.sent = before.bus.sent
  unchanged : { after with bus := before.bus } = before
  transfer : ∃ outcome, Session.Reads image .initial before.bus.script outcome ∧
    after.bus.words = before.bus.words ++ outcome.words ∧ after.bus.script = outcome.left ∧
    result = outcome.result
  succeeds : result = .ok () ↔
    ∃ early, early <+: before.bus.script ∧ Session.Finishes image .initial early
  /-- A successful transfer read the script up to the done request that finished it. -/
  stops : result = .ok () → ∃ read first last, before.bus.script = read ++ after.bus.script ∧
    read = first ++ [last] ∧ Request.ofByte? last = some .done

theorem updateFirmware_of_isEmpty (station : Station σ) {image : Image}
    (empty : image.isEmpty = true) :
    station.updateFirmware image = (.error (.master "firmware image is empty"), station) := by
  simp [updateFirmware, empty]

theorem updated_updateFirmware (station : Station σ) {image : Image}
    (nonempty : image.isEmpty = false) :
    Updated station image (station.updateFirmware image).1 (station.updateFirmware image).2 := by
  have reads := Session.reads_feed image .initial station.bus.script
  have result : (station.updateFirmware image).1 =
      (Session.initial.feed image station.bus.script).result := by
    simp [updateFirmware, nonempty, transfer, Bus.setMode]
  have left : (station.updateFirmware image).2.bus.script =
      (Session.initial.feed image station.bus.script).left := by
    simp [updateFirmware, nonempty, transfer, Bus.setMode, Bus.stream]
  refine ⟨?_, ?_, ?_, ?_, ?_, ⟨_, reads, ?_, left, result⟩, result ▸ reads.ok_iff,
    fun success => left ▸ reads.ends_done rfl (result ▸ success)⟩
  all_goals simp [updateFirmware, nonempty, transfer, Bus.setMode, Bus.stream]

/-- An update never fails on a HEX error: its failures are the master's refusal and timeouts. -/
theorem updateFirmware_ne_hex (station : Station σ) (image : Image) (error : HexError) :
    (station.updateFirmware image).1 ≠ .error (.hex error) := by
  cases empty : image.isEmpty
  · obtain ⟨outcome, reads, -, -, result⟩ := (updated_updateFirmware station empty).transfer
    rw [result]
    rcases reads.result_cases with success | timeout
    · rw [success]
      exact fun wrong => by cases wrong
    · rw [timeout]
      exact fun wrong => by cases wrong
  · rw [updateFirmware_of_isEmpty station empty]
    exact fun wrong => by cases wrong

/-- **A firmware update leaves the station intact and brackets the transport.** An empty image
is refused with nothing switched or streamed; any other is transferred as `Updated` says. An
update from a HEX file fails with a HEX error, touching nothing, exactly when reading the file
within the chunk budget fails with that error, and is otherwise the update with the image read. -/
theorem updateFirmware_spec (station : Station σ) (image : Image) (text : String) :
    (image.isEmpty = true →
      station.updateFirmware image = (.error (.master "firmware image is empty"), station)) ∧
    (image.isEmpty = false →
      Updated station image (station.updateFirmware image).1 (station.updateFirmware image).2) ∧
    (∀ error, (station.updateFirmwareHex text).1 = .error (.hex error) ↔
      Image.ofHex text station.config.maxChunks = .error error) ∧
    (∀ error, Image.ofHex text station.config.maxChunks = .error error →
      (station.updateFirmwareHex text).2 = station) ∧
    (∀ image, Image.ofHex text station.config.maxChunks = .ok image →
      station.updateFirmwareHex text = station.updateFirmware image) := by
  refine ⟨updateFirmware_of_isEmpty station, updated_updateFirmware station, fun error => ?_,
    fun error failed => by simp [updateFirmwareHex, failed],
    fun image read => by simp [updateFirmwareHex, read]⟩
  cases read : Image.ofHex text station.config.maxChunks with
  | error found => simp [updateFirmwareHex, read]
  | ok image =>
    simp only [updateFirmwareHex, read, reduceCtorEq, iff_false]
    exact updateFirmware_ne_hex station image error

/-- A one-chunk image sent to a bootloader that wakes up ('T'), asks for two 64-byte frames ('-')
and is done ('F'): the update succeeds between a switch to the boot stream and one back to
blocks. A HEX file without its colon is refused with its error, and the station is left as it
was. -/
theorem updateFirmware_spec_one_chunk :
    let image : Image := { chunks := [(0, List.replicate 64 7)], limit := 1 }
    let station := { Station.new () {} with bus := { script := [0x54, 0x2d, 0x2d, 0x46] } }
    (station.updateFirmware image).1 = .ok () ∧
      (station.updateFirmware image).2.bus.modes = [.bootStream, .block] ∧
      (station.updateFirmwareHex "x").1 = .error (.hex .missingColon) ∧
      (station.updateFirmwareHex "x").2 = station := by
  intro image station
  obtain ⟨-, updated, hexError, untouched, -⟩ := updateFirmware_spec station image "x"
  have nonempty : image.isEmpty = false := by decide
  have malformed : Image.ofHex "x" station.config.maxChunks = .error .missingColon := by decide
  have finishes : Session.Finishes image .initial [0x54, 0x2d, 0x2d, 0x46] := by
    unfold Session.Finishes
    decide
  exact ⟨(updated nonempty).succeeds.mpr ⟨_, List.prefix_refl _, finishes⟩,
    (updated nonempty).modes, (hexError _).mpr malformed, untouched _ malformed⟩

end Station

end RailBus
