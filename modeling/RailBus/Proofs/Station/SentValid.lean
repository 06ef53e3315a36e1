import RailBus.Station.Schedule
import RailBus.Station.Update
import RailBus.Layout.Store
import RailBus.Proofs.Wire.Valid
import RailBus.Proofs.Wire.SevenBit
/-! # Every block the station sends is valid

A unit drops a block that does not validate, so the master must never send one. The station
builds every block it sends with `Block.make`, from a command code below 0x80, so a block validates
exactly when its data bytes fit seven bits (`Block.valid_make`). The replies take their fields from
the layout, whatever it answers, and from the requests, and each field is either cut to seven
bits or small by construction (`SevenBit`); request bytes copied back are below 0x80 because the
link only queues valid blocks. The probes are the one case that rests on an invariant: the parts
of the discovery search stay in their spans (`PartsFit`).

`Station.Extends before after` says that `after` differs from `before` on the bus only by valid
blocks sent, and keeps the parts of the search in their spans. Every handler and every scheduled
action extends the station it starts from; so does a whole turn of the schedule, from any station
reachable from a fresh one (`Station.step_sends_valid`).
-/

namespace RailBus

namespace Station

variable {σ : Type}

/-- The bus of `after` is that of `before` with valid blocks sent, and the search parts still fit. -/
structure Extends (before after : Station σ) : Prop where
  sends : ∃ blocks, after.bus = { before.bus with sent := before.bus.sent ++ blocks } ∧
    ∀ block ∈ blocks, block.valid = true
  probes : PartsFit before.discovery.parts → PartsFit after.discovery.parts

namespace Extends

variable {first second third : Station σ}

protected theorem refl (station : Station σ) : Extends station station :=
  ⟨⟨[], by simp, by simp⟩, id⟩

protected theorem trans (earlier : Extends first second) (later : Extends second third) :
    Extends first third := by
  obtain ⟨⟨sentFirst, busFirst, validFirst⟩, probesFirst⟩ := earlier
  obtain ⟨⟨sentLater, busLater, validLater⟩, probesLater⟩ := later
  refine ⟨⟨sentFirst ++ sentLater, ?_, ?_⟩, probesLater ∘ probesFirst⟩
  · rw [busLater, busFirst, List.append_assoc]
  · intro block member
    rcases List.mem_append.mp member with inFirst | inLater
    · exact validFirst block inFirst
    · exact validLater block inLater

/-- A change that leaves the bus and the search alone. -/
theorem of_eq (bus : second.bus = first.bus) (discovery : second.discovery = first.discovery) :
    Extends first second :=
  ⟨⟨[], by simp [bus], by simp⟩, by rw [discovery]; exact id⟩

theorem send (grows : Extends first second) {block : Block} (valid : block.valid = true) :
    Extends first (second.send block) := by
  refine grows.trans ⟨⟨[block], rfl, ?_⟩, id⟩
  intro sent member
  rw [List.mem_singleton.mp member]
  exact valid

end Extends

/-! ## Blocks built from seven-bit data -/

theorem sevenBit_dataOf {bytes : List UInt8} (clean : SevenBit bytes) :
    SevenBit (dataOf bytes).toList := by
  intro byte member
  rw [dataOf, Vector.toList_ofFn] at member
  obtain ⟨index, rfl⟩ := List.mem_ofFn.mp member
  rw [List.getD_eq_getElem?_getD]
  cases found : bytes[index.val]? with
  | none => decide
  | some byte => exact clean byte (List.mem_of_getElem? found)

theorem sevenBit_nameBytes (name : String) : SevenBit (nameBytes name) := by
  simp only [nameBytes, sevenBit_append, sevenBit_replicate_zero, and_true]
  intro byte member
  obtain ⟨raw, -, rfl⟩ := List.mem_map.mp member
  exact and_low_lt raw

theorem valid_toUnit (unit : UInt8) {command : UInt8} {bytes : List UInt8}
    (commandBelow : command < 0x80) (clean : SevenBit bytes) :
    (Block.toUnit unit command (dataOf bytes)).valid = true :=
  Block.valid_make _ commandBelow (sevenBit_dataOf clean)

theorem valid_broadcast {command : UInt8} {data : Vector UInt8 6} (commandBelow : command < 0x80)
    (clean : SevenBit data.toList) : (Block.broadcast command data).valid = true :=
  Block.valid_make _ commandBelow clean

/-! ## Replies -/

section Handlers

variable {station : Station σ}

theorem extends_of_ask {α : Type} {question : σ → α × σ} {answer : α} {next : Station σ}
    (asked : station.ask question = (answer, next)) : Extends station next := by
  rw [show next = (station.ask question).2 by rw [asked]]
  exact .of_eq rfl rfl

theorem extends_of_discardStale {unit : UInt8} {discard : Bool} {next : Station σ}
    (spent : station.discardStale unit = (discard, next)) : Extends station next := by
  rw [show next = (station.discardStale unit).2 by rw [spent]]
  exact .of_eq rfl rfl

theorem Extends.foldl_send {first second : Station σ} (grows : Extends first second)
    (parts : List Nat) (blockOf : Nat → Block) (valid : ∀ part ∈ parts, (blockOf part).valid = true) :
    Extends first (parts.foldl (fun station part => station.send (blockOf part)) second) := by
  induction parts generalizing second with
  | nil => exact grows
  | cons part parts ih =>
    exact ih (grows.send (valid part (by simp))) (fun part member => valid part (by simp [member]))

theorem extends_sendState (unit : UInt8) (loco : UInt16) (state : LocoState) :
    Extends station (station.sendState unit loco state) := by
  unfold sendState
  split
  rename_i high low halves
  have highBelow : high < 0x80 := by simpa [halves] using Septets.split14_fst_lt loco
  have lowBelow : low < 0x80 := by simpa [halves] using Septets.split14_snd_lt loco
  dsimp only
  split
  · refine (((Extends.refl station).send ?_).send ?_).send ?_
    all_goals refine valid_toUnit unit (by decide) ?_
    all_goals simp [highBelow, lowBelow]
  · refine ((Extends.refl station).send ?_).send ?_
    all_goals refine valid_toUnit unit (by decide) ?_
    all_goals simp [highBelow, lowBelow]

theorem extends_assign (serial : UInt32) : Extends station (station.assign serial) := by
  unfold assign
  split
  · exact .refl station
  · rename_i slot found
    dsimp only
    refine Extends.send ?_ ?_
    · exact .of_eq rfl rfl
    · refine valid_toUnit _ (by decide) ?_
      rw [sevenBit_append, sevenBit_cons]
      exact ⟨sevenBit_partsOf serial, toUInt8_lt_of_lt (by omega), sevenBit_nil⟩

/-- An echo moves the search only under parts that fit, and answers only by assigning a slot. -/
theorem extends_onEcho (data : Vector UInt8 6) : Extends station (station.onEcho data) := by
  unfold onEcho
  split
  · exact .refl station
  · rename_i echo read
    dsimp only
    have moved : Extends station { station with discovery := (station.discovery.echo echo).2 } :=
      ⟨⟨[], by simp, by simp⟩, fun fits => Discovery.partsFit_echo fits (Probe.partsFit_ofData? read)⟩
    split
    · exact moved
    · exact moved.trans (.of_eq rfl rfl)
    · exact moved.trans (extends_assign _)

variable [Layout σ]

theorem extends_sendLoco (unit : UInt8) (loco : UInt16) :
    Extends station (station.sendLoco unit loco) := by
  unfold sendLoco
  split
  · exact extends_sendState unit loco _
  · exact (Extends.refl station).send (valid_toUnit unit (by decide) (by simp))

theorem extends_onTake (unit : UInt8) (loco : UInt16) :
    Extends station (station.onTake unit loco) := by
  unfold onTake
  split
  · rename_i state next asked
    refine (extends_of_ask asked).trans (Extends.trans ?_ (extends_sendState unit loco state))
    exact .of_eq rfl rfl
  · rename_i next asked
    exact (extends_of_ask asked).send (valid_toUnit unit (by decide) (by simp))

theorem extends_onBrowse (unit : UInt8) (step : Browse) (index : UInt16) :
    Extends station (station.onBrowse unit step index) := by
  unfold onBrowse
  dsimp only
  have deleted : Extends station
      (if step = .delete then (station.ask (Layout.removeEntry · index)).2 else station) := by
    split
    · exact .of_eq rfl rfl
    · exact .refl station
  generalize (if step = .delete then (station.ask (Layout.removeEntry · index)).2 else station) =
    next at deleted ⊢
  split
  · exact deleted.send (valid_toUnit unit (by decide) (by simp))
  · split
    · exact deleted.send (valid_toUnit unit (by decide) (by simp))
    · -- the entry, then its name in four parts of three characters
      rename_i entry found
      refine (deleted.send (valid_toUnit unit (by decide) (by simp))).foldl_send _ _ ?_
      intro part member
      have small : part < 4 := List.mem_range.mp member
      refine valid_toUnit unit (by decide) ?_
      rw [sevenBit_cons]
      exact ⟨toUInt8_lt_of_lt (by omega), ((sevenBit_nameBytes entry.name).drop _).take _⟩

theorem extends_onName (part : Fin 5) (data : Vector UInt8 6) :
    Extends station (station.onName part data) := by
  unfold onName
  split
  · exact .of_eq rfl rfl
  · split
    · exact .refl station
    · dsimp only
      split
      · exact .of_eq rfl rfl
      · exact .of_eq rfl rfl


/-- A configuration request changes the layout only. -/
theorem extends_configure (data : Vector UInt8 6) : Extends station (station.configure data).2 := by
  unfold configure
  dsimp only
  split
  all_goals first
    | exact .of_eq rfl rfl
    | split <;> exact .of_eq rfl rfl

/-- **A configuration reply is seven-bit**: the request's own bytes, copied back, and fields that
are split or small. -/
theorem sevenBit_configure {data : Vector UInt8 6} (clean : SevenBit data.toList)
    {reply : Vector UInt8 6} (answered : (station.configure data).1 = some reply) :
    SevenBit reply.toList := by
  have below : ∀ index (inside : index < 6), data[index] < 0x80 :=
    fun index inside => clean data[index] (by simp)
  unfold configure at answered
  dsimp only at answered
  -- one case per setting, and per module kind where the request names one
  split at answered
  all_goals try split at answered
  all_goals cases answered
  all_goals apply sevenBit_dataOf
  all_goals simp [below]

/-- **Every request is answered with valid blocks**, provided its data bytes are seven-bit. -/
theorem extends_handle (unit : UInt8) (request : UnitRequest) {data : Vector UInt8 6}
    (clean : SevenBit data.toList) : Extends station (station.handle unit request data) := by
  unfold handle
  -- one case per request; each reply is built from seven-bit fields
  cases request
  all_goals dsimp only
  case ping => exact .refl station
  case version => exact (Extends.refl station).send (valid_toUnit unit (by decide) (by simp))
  case mode => split <;> exact .of_eq rfl rfl
  case locoTake => exact extends_onTake unit _
  case locoRelease => split <;> exact .of_eq rfl rfl
  case locoSpeed =>
    split
    · rename_i next spent
      exact extends_of_discardStale spent
    · rename_i next spent
      exact (extends_of_discardStale spent).trans (.of_eq rfl rfl)
  case locoFunc =>
    split
    · exact .refl station
    · split
      · rename_i next spent
        exact extends_of_discardStale spent
      · rename_i next spent
        exact (extends_of_discardStale spent).trans (.of_eq rfl rfl)
  case tractionCouple =>
    split
    · rename_i next asked
      exact (extends_of_ask asked).trans (extends_sendLoco unit _)
    · rename_i next asked
      exact (extends_of_ask asked).send (valid_toUnit unit (by decide) (by simp))
  case tractionClear =>
    split
    · rename_i next asked
      exact (extends_of_ask asked).trans (extends_sendLoco unit _)
    · rename_i next asked
      exact extends_of_ask asked
  case turnout =>
    -- the acknowledgement copies the request's data
    refine Extends.send ?_ (valid_broadcast (by decide) clean)
    exact .of_eq rfl rfl
  case browse step => exact extends_onBrowse unit step _
  case nameData part => exact extends_onName part data
  case probeEcho => exact extends_onEcho data
  case restart => exact ⟨⟨[], by simp, by simp⟩, fun _ => Discovery.partsFit_initial⟩
  case unitInfo => exact .of_eq rfl rfl
  case configure =>
    have frame : Extends station (station.configure data).2 := extends_configure data
    split
    · rename_i reply next configured
      have answered : (station.configure data).1 = some reply := by rw [configured]
      rw [configured] at frame
      exact frame.send (Block.valid_make _ (by decide) (sevenBit_configure clean answered))
    · rename_i next configured
      rw [configured] at frame
      exact frame
  case debug => exact .refl station

theorem extends_dispatch {block : Block} (clean : SevenBit block.data.toList) :
    Extends station (station.dispatch block) := by
  unfold dispatch
  split
  · dsimp only
    split
    · refine Extends.trans ?_ (extends_handle _ _ clean)
      exact .of_eq rfl rfl
    · exact .of_eq rfl rfl
  · split
    · exact extends_onEcho _
    · exact .refl station

theorem Extends.foldl_dispatch {first second : Station σ} (grows : Extends first second)
    (blocks : List Block) (clean : ∀ block ∈ blocks, SevenBit block.data.toList) :
    Extends first (blocks.foldl dispatch second) := by
  induction blocks generalizing second with
  | nil => exact grows
  | cons block blocks ih =>
    exact ih (grows.trans (extends_dispatch (clean block (by simp))))
      (fun block member => clean block (by simp [member]))

end Handlers

/-! ## The schedule -/

section Schedule

variable {station : Station σ}

/-- The probe holds the parts of the search, so it is seven-bit while they fit. -/
theorem extends_sendProbe (fits : PartsFit station.discovery.parts) :
    Extends station station.sendProbe := by
  unfold sendProbe
  dsimp only
  refine Extends.send ⟨⟨[], by simp, by simp⟩, Discovery.partsFit_probe⟩ ?_
  exact valid_broadcast (by decide) (Probe.sevenBit_toData fits)

theorem extends_poll (slot : Fin 64) : Extends station (station.poll slot) := by
  unfold poll
  dsimp only
  split
  · exact .refl station
  · have pinged : Extends station (station.send (Block.toUnit slot.val.toUInt8 Code.ping (dataOf []))) :=
      (Extends.refl station).send (valid_toUnit _ (by decide) (by simp))
    split
    · exact pinged.trans (.of_eq rfl rfl)
    · exact pinged.trans (.of_eq rfl rfl)

theorem extends_advance : Extends station station.advance := by
  unfold advance
  split
  · exact .refl station
  · exact .of_eq rfl rfl

/-- What the station needs to send valid blocks: the search parts fit, and the blocks waiting to be
handled carry seven-bit data. -/
structure Sound (station : Station σ) : Prop where
  probes : PartsFit station.discovery.parts
  inbox : ∀ block ∈ station.bus.inbox, SevenBit block.data.toList

theorem Sound.updateFirmware {station : Station σ} (sound : Sound station) (image : Firmware.Image) :
    Sound (station.updateFirmware image).2 := by
  unfold Station.updateFirmware
  split
  · exact sound
  · exact ⟨sound.probes, sound.inbox⟩

variable [Layout σ]

/-- Handling the received blocks: the inbox is emptied first, then each block is dispatched. -/
theorem extends_drain (clean : ∀ block ∈ station.bus.inbox, SevenBit block.data.toList) :
    Extends { station with bus := { station.bus with inbox := [] } } station.drain :=
  (Extends.refl _).foldl_dispatch _ clean

theorem extends_broadcastStatus : Extends station station.broadcastStatus := by
  unfold broadcastStatus
  dsimp only
  refine Extends.send ?_ (valid_broadcast (by decide) (sevenBit_dataOf (by simp)))
  exact .of_eq rfl rfl

/-- **One turn of the schedule** sends only valid blocks, from a sound station; the inbox is
then empty. -/
theorem extends_step (sound : Sound station) :
    Extends { station with bus := { station.bus with inbox := [] } } station.step := by
  have drained := extends_drain sound.inbox
  have fits : PartsFit station.drain.discovery.parts := drained.probes sound.probes
  unfold step
  dsimp only
  refine drained.trans (Extends.trans ?_ extends_advance)
  split
  · exact extends_poll _
  · exact extends_sendProbe fits
  · exact extends_broadcastStatus

theorem Sound.step (sound : Sound station) : Sound station.step := by
  obtain ⟨⟨blocks, bus, -⟩, probes⟩ := extends_step sound
  refine ⟨probes sound.probes, ?_⟩
  rw [bus]
  simp

end Schedule

/-! ## Every reachable station -/

section Reachable

variable [Layout σ]

/-- **The stations a fresh one can become**: by blocks received from the link, whose data bytes
are seven-bit since the link queues only valid blocks, by turns of the schedule, by changes made to
the layout, and by firmware updates. -/
inductive Reachable : Station σ → Prop
  | new (layout : σ) (config : Config) : Reachable (Station.new layout config)
  | receive {station : Station σ} (blocks : List Block)
      (clean : ∀ block ∈ blocks, SevenBit block.data.toList) :
      Reachable station → Reachable (station.receive blocks)
  | step {station : Station σ} : Reachable station → Reachable station.step
  | update {station : Station σ} (change : σ → σ) :
      Reachable station → Reachable (station.update change)
  | updateFirmware {station : Station σ} (image : Firmware.Image) :
      Reachable station → Reachable (station.updateFirmware image).2
  | updateFirmwareHex {station : Station σ} (text : String) :
      Reachable station → Reachable (station.updateFirmwareHex text).2

theorem sound_of_reachable {station : Station σ} (reach : station.Reachable) : station.Sound := by
  induction reach with
  | new layout config => exact ⟨Discovery.partsFit_initial, by simp [Station.new]⟩
  | receive blocks clean _ sound =>
    refine ⟨sound.probes, fun block member => ?_⟩
    rcases List.mem_append.mp member with waiting | received
    · exact sound.inbox block waiting
    · exact clean block received
  | step _ sound => exact sound.step
  | update change _ sound => exact ⟨sound.probes, sound.inbox⟩
  | updateFirmware image _ sound => exact sound.updateFirmware image
  | updateFirmwareHex text _ sound =>
    unfold Station.updateFirmwareHex
    split
    · exact sound
    · exact sound.updateFirmware _

/-- **Every block the station sends is valid.** For any layout, in every station reachable from a
fresh one, a turn of the schedule only adds valid blocks to what was sent. -/
theorem step_sends_valid {station : Station σ} (reach : station.Reachable) :
    ∃ blocks, station.step.bus.sent = station.bus.sent ++ blocks ∧
      ∀ block ∈ blocks, block.valid = true := by
  obtain ⟨⟨blocks, bus, valid⟩, -⟩ := extends_step (sound_of_reachable reach)
  exact ⟨blocks, by rw [bus], valid⟩

end Reachable

/-- A fresh station on an in-memory layout hears unit 5 take loco 3 and ask for the version. Its
next turn sends the loco's state and functions and the version to the unit, then a probe, and all
four blocks are valid. -/
theorem step_sends_valid_after_requests :
    let station := (Station.new ({} : Store) {}).receive
      [Block.toUnit 5 0x10 (dataOf [0, 3]), Block.toUnit 5 0x02 (dataOf [])]
    station.Reachable ∧ station.step.bus.sent.map Block.command = [0x10, 0x14, 0x02, 0x40] ∧
      ∀ block ∈ station.step.bus.sent, block.valid = true := by
  intro station
  have clean : ∀ block ∈ [Block.toUnit 5 0x10 (dataOf [0, 3]), Block.toUnit 5 0x02 (dataOf [])],
      SevenBit block.data.toList := by
    unfold SevenBit
    decide +kernel
  have reach : station.Reachable := .receive _ clean (.new _ _)
  obtain ⟨blocks, sent, valid⟩ := step_sends_valid reach
  have nothingYet : station.bus.sent = [] := rfl
  rw [nothingYet, List.nil_append] at sent
  exact ⟨reach, by decide +kernel, sent ▸ valid⟩

end Station

end RailBus
