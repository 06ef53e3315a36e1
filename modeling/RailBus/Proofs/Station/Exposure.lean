import Mathlib
import RailBus.Station.Checked
import RailBus.Proofs.Station.SlotChoice
/-! # Stations exposed to any traffic

A station on a bus may receive anything: blocks of any nine bytes, addressed or not, with any
command and data. `Station.Exposed` is every station a fresh one becomes by receiving such blocks,
taking turns of its schedule, having its layout changed and updating firmware.

Every such station takes its turn without a failed runtime check: `Station.stepChecked`, the turn
with the checks the runtime makes, gives the turn's result (`Station.step_never_panics`). Most
checks pass by the shape of their operands: the round is below 8 and the turnout bits are masked
to four, a format's number has three bits, a database step only bumps an index below the count
and only lowers one above 1, a name chunk has three bytes, and a name part past the first begins
at most nine bytes into a name of twelve. One rests on an invariant of every exposed station: the
parts of the discovery search stay in their spans, so the bump of a counter never leaves its byte
(`PartsFit`), whatever echoes come back.
-/

namespace RailBus

/-! ## The checked operations -/

namespace Strict

theorem add8_of_lt {a b : UInt8} (fits : a.toNat + b.toNat < 256) : add8 a b = .ok (a + b) := by
  simp [add8, fits]

theorem sub8_of_le {a b : UInt8} (below : b ≤ a) : sub8 a b = .ok (a - b) := by
  simp [sub8, below]

theorem add16_of_lt {a b : UInt16} (fits : a.toNat + b.toNat < 65536) :
    add16 a b = .ok (a + b) := by
  simp [add16, fits]

theorem sub16_of_le {a b : UInt16} (below : b ≤ a) : sub16 a b = .ok (a - b) := by
  simp [sub16, below]

theorem clamp16_of_le {value low high : UInt16} (ordered : low ≤ high) :
    clamp16 value low high =
      .ok (if value < low then low else if value > high then high else value) := by
  simp [clamp16, ordered]

theorem index_of_lt {index length : Nat} (inside : index < length) :
    Strict.index index length = .ok () := by
  simp [Strict.index, inside]

theorem slice_of_le {start stop length : Nat} (ordered : start ≤ stop)
    (inside : stop ≤ length) : slice start stop length = .ok () := by
  simp [slice, ordered, inside]

theorem field_of_lt {width value : Nat} (fits : value < Nat.pow 2 width) :
    field width value = .ok ⟨value, fits⟩ := by
  rw [field, fitField, dif_pos fits]
  rfl

end Strict

/-! ## The search -/

namespace Discovery

/-- A counter below its span is bumped without overflow. -/
theorem bump_of_fits {parts : Vector UInt8 4} (fits : PartsFit parts) (level : Fin 4) :
    Strict.add8 (parts.get level) 1 = .ok (parts.get level + 1) := by
  have below := fits level
  have small := span_le level
  exact Strict.add8_of_lt (by simp only [UInt8.toNat_one]; omega)

/-- **The counter bump never overflows while the parts fit**: a counter lies below its span, at
most 128, so one more is still a byte. -/
theorem advanceChecked_eq {parts : Vector UInt8 4} (fits : PartsFit parts) (level : Fin 4) :
    advanceChecked parts level = .ok (advance parts level) := by
  fun_induction advance parts level with
  | case1 parts level bumped bumpedFits =>
    rw [advanceChecked, bump_of_fits fits level]
    have stays : (parts.get level + 1).toNat < span level := bumpedFits
    simp only [bind, Except.bind, pure, Except.pure]
    rw [if_pos stays]
    rfl
  | case2 parts isLt bumped overflow cleared =>
    have past : ¬ (parts.get ⟨0, isLt⟩ + 1).toNat < span ⟨0, isLt⟩ := overflow
    rw [advanceChecked, bump_of_fits fits]
    simp only [bind, Except.bind, pure, Except.pure]
    rw [if_neg past]
  | case3 parts above bound bumped overflow cleared ih =>
    have past : ¬ (parts.get ⟨above + 1, bound⟩ + 1).toNat < span ⟨above + 1, bound⟩ :=
      overflow
    rw [advanceChecked, bump_of_fits fits]
    simp only [bind, Except.bind, pure, Except.pure]
    rw [if_neg past]
    exact ih (partsFit_set fits (zero_lt_span _))

theorem probeChecked_eq {discovery : Discovery} (fits : PartsFit discovery.parts) :
    discovery.probeChecked = .ok discovery.probe := by
  unfold probeChecked probe
  rw [advanceChecked_eq fits]
  rfl

end Discovery

/-! ## Operands that fit by their shape -/

theorem Format.toNat_toByte (format : Format) : format.toByte.toNat = format.bits.val := by
  cases format <;> rfl

/-- A format's number fits the three bits of the drive byte. -/
theorem Format.field_toByte (format : Format) :
    Strict.field 3 format.toByte.toNat = .ok format.bits := by
  rw [Strict.field_of_lt (by rw [Format.toNat_toByte]; exact format.bits.isLt)]
  exact congrArg Except.ok (Fin.ext (Format.toNat_toByte format))

/-- Turnout state masked to four bits fits its field, as the state it stands for. -/
theorem field_turnouts (turnouts : UInt8) :
    Strict.field 4 (turnouts &&& 0xf).toNat = .ok (Fin.ofNat 16 turnouts.toNat) := by
  have masked : (turnouts &&& 0xf).toNat = turnouts.toNat % 16 := by
    rw [UInt8.toNat_and]
    exact Nat.and_two_pow_sub_one_eq_mod turnouts.toNat 4
  rw [Strict.field_of_lt (by rw [masked]; exact Nat.mod_lt _ (by decide))]
  exact congrArg Except.ok (Fin.ext masked)

/-- The round fits three bits, and its increment as a byte stays below 9. -/
theorem field_round (round : Fin 8) : Strict.field 3 round.val = .ok round :=
  Strict.field_of_lt round.isLt

theorem add8_round (round : Fin 8) :
    Strict.add8 round.val.toUInt8 1 = .ok (round.val.toUInt8 + 1) :=
  Strict.add8_of_lt (by have := round.isLt; simp [Nat.toUInt8, UInt8.toNat_ofNat']; omega)

theorem ofNat_round_succ (round : Fin 8) :
    Fin.ofNat 8 (round.val.toUInt8 + 1).toNat = round + 1 := by
  fin_cases round <;> rfl

/-- The index arithmetic of a database step stays in its word while there are entries. -/
theorem browseIndexChecked_eq (step : Browse) (index : UInt16) {count : UInt16}
    (entries : count ≠ 0) :
    browseIndexChecked step index count = .ok (Station.browseIndex step index count) := by
  have positive : 0 < count.toNat := by
    rcases Nat.eq_zero_or_pos count.toNat with none | some
    · exact absurd (UInt16.toNat_inj.mp (by simpa using none)) entries
    · exact some
  have bounded := count.toNat_lt
  unfold browseIndexChecked Station.browseIndex
  cases step
  case next =>
    dsimp only
    split
    · rfl
    · rename_i below
      rw [Strict.add16_of_lt]
      simp only [ge_iff_le, UInt16.le_iff_toNat_le, Nat.not_le] at below
      simp only [UInt16.toNat_one]
      omega
  case prev =>
    dsimp only
    split
    · rfl
    · rename_i inside
      rw [Strict.sub16_of_le]
      simp only [not_or, UInt16.le_iff_toNat_le, Nat.not_le] at inside ⊢
      simp only [UInt16.toNat_one]
      omega
  -- selecting or deleting clamps the index to the entries
  all_goals
    dsimp only
    rw [Strict.clamp16_of_le (by simp only [UInt16.le_iff_toNat_le, UInt16.toNat_one]; omega)]
    refine congrArg Except.ok ?_
    simp only [max, min]
    apply UInt16.toNat_inj.mp
    split_ifs <;> simp_all [UInt16.lt_iff_toNat_lt, UInt16.le_iff_toNat_le]
    omega

/-- A list folded in a checked way gives the plain fold when no step fails. -/
theorem foldlM_eq_ok {α β : Type} {step : β → α → Except Panic β} {plain : β → α → β}
    {items : List α}
    (passes : ∀ start, ∀ item ∈ items, step start item = .ok (plain start item)) (start : β) :
    items.foldlM step start = .ok (items.foldl plain start) := by
  induction items generalizing start with
  | nil => rfl
  | cons item items ih =>
    rw [List.foldlM_cons, passes start item (by simp), List.foldl_cons]
    exact ih (fun start item member => passes start item (by simp [member])) _

theorem length_nameBytes (name : String) : (Station.nameBytes name).length = nameLength := by
  simp only [Station.nameBytes, List.length_append, List.length_map, List.length_replicate]
  have := List.length_take_le nameLength (name.toList.flatMap String.utf8EncodeChar)
  omega

namespace Station

variable {σ : Type} [Layout σ] {station : Station σ}

/-! ## The scheduled actions -/

omit [Layout σ] in
theorem sendProbeChecked_eq (fits : PartsFit station.discovery.parts) :
    station.sendProbeChecked = .ok station.sendProbe := by
  unfold sendProbeChecked sendProbe
  rw [Discovery.probeChecked_eq fits]
  rfl

/-- **The status broadcast makes its checks**: the round's three bits, the turnout state masked
to four, and the round's increment. -/
theorem broadcastStatusChecked_eq :
    station.broadcastStatusChecked = .ok station.broadcastStatus := by
  unfold broadcastStatusChecked broadcastStatus
  dsimp only
  rw [field_round, field_turnouts, add8_round]
  simp only [bind, Except.bind, pure, Except.pure, ofNat_round_succ]

theorem actChecked_eq (fits : PartsFit station.discovery.parts) :
    station.actChecked = .ok station.act := by
  unfold actChecked act
  cases station.position with
  | poll slot => rfl
  | discovery => exact sendProbeChecked_eq fits
  | status => exact broadcastStatusChecked_eq

/-! ## The handlers with checks -/

omit [Layout σ] in
theorem sendStateChecked_eq (unit : UInt8) (loco : UInt16) (state : LocoState) :
    station.sendStateChecked unit loco state = .ok (station.sendState unit loco state) := by
  unfold sendStateChecked sendState
  rw [Format.field_toByte]
  simp only [bind, Except.bind]
  cases state.consist <;> rfl

theorem sendLocoChecked_eq (unit : UInt8) (loco : UInt16) :
    station.sendLocoChecked unit loco = .ok (station.sendLoco unit loco) := by
  unfold sendLocoChecked sendLoco
  cases Layout.loco station.layout loco with
  | some state => exact sendStateChecked_eq unit loco state
  | none => rfl

theorem onTakeChecked_eq (unit : UInt8) (loco : UInt16) :
    station.onTakeChecked unit loco = .ok (station.onTake unit loco) := by
  unfold onTakeChecked onTake
  cases station.ask (Layout.takeControl · loco) with
  | mk answer next =>
    cases answer with
    | some state => exact sendStateChecked_eq unit loco state
    | none => rfl

/-- **A database step makes its checks**: the index arithmetic while there are entries, and
the three reads of each of the four chunks of a twelve-byte name. -/
theorem onBrowseChecked_eq (unit : UInt8) (step : Browse) (index : UInt16) :
    station.onBrowseChecked unit step index = .ok (station.onBrowse unit step index) := by
  unfold onBrowseChecked onBrowse
  dsimp only
  generalize (if step = .delete then (station.ask (Layout.removeEntry · index)).2 else station) =
    deleted
  split
  · rfl
  · rename_i entries
    rw [browseIndexChecked_eq step index entries]
    simp only [bind, Except.bind]
    cases Layout.locoEntry deleted.layout (browseIndex step index (Layout.locoCount deleted.layout))
      with
    | none => rfl
    | some entry =>
      refine foldlM_eq_ok (fun start part member => ?_) _
      have chunk : (((nameBytes entry.name).drop (3 * part)).take 3).length = 3 := by
        have := List.mem_range.mp member
        simp only [List.length_take, List.length_drop, length_nameBytes, nameLength]
        omega
      rw [Strict.index_of_lt (by rw [chunk]; decide)]
      rfl

/-- The offset arithmetic of a name part past the first: the part number less one does not go
below zero, and its three characters end within the name. -/
theorem nameOffset_ok {part : Fin 5} (nonzero : part.val ≠ 0) :
    Strict.sub8 part.val.toUInt8 1 = .ok (part.val.toUInt8 - 1) ∧
      (part.val.toUInt8 - 1).toNat * 3 = 3 * (part.val - 1) ∧
      Strict.slice (3 * (part.val - 1)) (3 * (part.val - 1) + 3) nameLength = .ok () := by
  refine ⟨Strict.sub8_of_le ?_, ?_, Strict.slice_of_le (by omega) ?_⟩
  · fin_cases part <;> simp_all
  · fin_cases part <;> simp_all
  · have := part.isLt
    unfold nameLength
    omega

theorem onNameChecked_eq (part : Fin 5) (data : Vector UInt8 6) :
    station.onNameChecked part data = .ok (station.onName part data) := by
  unfold onNameChecked onName
  split
  · rfl
  · rename_i nonzero
    obtain ⟨sub, offset, fits⟩ := nameOffset_ok nonzero
    cases station.edit with
    | none => rfl
    | some edit =>
      simp only [bind, Except.bind, sub, offset, fits]
      split <;> rfl

/-- **The requests of a unit make no failing check**, whatever the layout answers. -/
theorem handleChecked_eq (unit : UInt8) (request : UnitRequest) (data : Vector UInt8 6) :
    station.handleChecked unit request data = .ok (station.handle unit request data) := by
  unfold handleChecked handle
  -- the five requests with checks go to their handler's lemma, the rest are handled alike
  cases request
  all_goals dsimp only
  case locoTake => exact onTakeChecked_eq unit _
  case tractionCouple =>
    cases station.ask (Layout.couple · (Septets.join14 (data.get 0) (data.get 1))
      (Septets.join14 (data.get 2) (data.get 3))) with
    | mk coupled next => cases coupled with
      | true => exact sendLocoChecked_eq unit _
      | false => rfl
  case tractionClear =>
    cases station.ask (Layout.uncouple · (Septets.join14 (data.get 0) (data.get 1))) with
    | mk uncoupled next => cases uncoupled with
      | true => exact sendLocoChecked_eq unit _
      | false => rfl
  case browse step => exact onBrowseChecked_eq unit step _
  case nameData part => exact onNameChecked_eq part data
  all_goals rfl

/-- Handling one received block makes no failing check. -/
theorem dispatchChecked_eq (block : Block) :
    station.dispatchChecked block = .ok (station.dispatch block) := by
  unfold dispatchChecked dispatch
  cases block.unit? with
  | none => rfl
  | some unit =>
    dsimp only
    cases UnitRequest.ofCode? block.command with
    | none => rfl
    | some request => exact handleChecked_eq unit request block.data

/-- Handling every received block makes no failing check. -/
theorem drainChecked_eq : station.drainChecked = .ok station.drain := by
  unfold drainChecked drain
  exact foldlM_eq_ok (fun start block _ => dispatchChecked_eq block) _

/-! ## The search parts under any input -/

/-- Handling a block keeps the search parts in their spans, whatever the block holds: an echo is
read only when its parts fit, and a restart starts the search over. -/
theorem partsFit_dispatch (fits : PartsFit station.discovery.parts) (block : Block) :
    PartsFit (station.dispatch block).discovery.parts := by
  rcases station.dispatch_cases block with
    ⟨unit, -, echo | restart | quiet⟩ | ⟨-, echo | same⟩
  · rw [echo]
    exact (extends_onEcho _).probes fits
  · rw [restart]
    exact Discovery.partsFit_initial
  · rw [quiet.discovery]
    exact fits
  · rw [echo]
    exact (extends_onEcho _).probes fits
  · rw [same]
    exact fits

theorem partsFit_foldl_dispatch (blocks : List Block) {first : Station σ}
    (fits : PartsFit first.discovery.parts) :
    PartsFit (blocks.foldl dispatch first).discovery.parts := by
  induction blocks generalizing first with
  | nil => exact fits
  | cons block blocks ih => exact ih (partsFit_dispatch fits block)

theorem partsFit_step (fits : PartsFit station.discovery.parts) :
    PartsFit station.step.discovery.parts := by
  have drained : PartsFit station.drain.discovery.parts := partsFit_foldl_dispatch _ fits
  rw [step_eq, discovery_advance]
  unfold act
  cases station.drain.position with
  | poll slot =>
    rw [discovery_poll]
    exact drained
  | discovery => exact Discovery.partsFit_probe drained
  | status => exact drained

/-- **A turn makes no failing check** from a station whose search parts fit its spans. -/
theorem stepChecked_eq (fits : PartsFit station.discovery.parts) :
    station.stepChecked = .ok station.step := by
  have drained : PartsFit station.drain.discovery.parts := partsFit_foldl_dispatch _ fits
  unfold stepChecked
  rw [drainChecked_eq]
  simp only [bind, Except.bind]
  rw [actChecked_eq drained]
  rfl

/-! ## Every station a fresh one can become -/

/-- **The stations a fresh one can become under any input**: by any blocks handed over by the
link, whatever their bytes, by turns of the schedule, by changes made to the layout, and by
firmware updates. Unlike `Reachable`, the received blocks need not be valid. -/
inductive Exposed : Station σ → Prop
  | new (layout : σ) (config : Config) : Exposed (Station.new layout config)
  | receive {station : Station σ} (blocks : List Block) :
      Exposed station → Exposed (station.receive blocks)
  | step {station : Station σ} : Exposed station → Exposed station.step
  | update {station : Station σ} (change : σ → σ) :
      Exposed station → Exposed (station.update change)
  | updateFirmware {station : Station σ} (image : Firmware.Image) :
      Exposed station → Exposed (station.updateFirmware image).2
  | updateFirmwareHex {station : Station σ} (text : String) :
      Exposed station → Exposed (station.updateFirmwareHex text).2

theorem Reachable.exposed (reach : station.Reachable) : station.Exposed := by
  induction reach with
  | new layout config => exact .new layout config
  | receive blocks _ _ exposed => exact .receive blocks exposed
  | step _ exposed => exact .step exposed
  | update change _ exposed => exact .update change exposed
  | updateFirmware image _ exposed => exact .updateFirmware image exposed
  | updateFirmwareHex text _ exposed => exact .updateFirmwareHex text exposed

omit [Layout σ] in
theorem discovery_updateFirmware (image : Firmware.Image) :
    (station.updateFirmware image).2.discovery = station.discovery := by
  unfold updateFirmware
  split <;> rfl

/-- The search parts fit their spans on every station a fresh one can become. -/
theorem partsFit_of_exposed (exposed : station.Exposed) : PartsFit station.discovery.parts := by
  induction exposed with
  | new layout config => exact Discovery.partsFit_initial
  | receive blocks _ fits => exact fits
  | step _ fits => exact partsFit_step fits
  | update change _ fits => exact fits
  | updateFirmware image _ fits => rwa [discovery_updateFirmware]
  | updateFirmwareHex text _ fits =>
    unfold updateFirmwareHex
    split
    · exact fits
    · rwa [discovery_updateFirmware]

/-- **The station never stops on a failed check.** From every station a fresh one can become,
whatever the layout answers and whatever bytes the received blocks hold, a turn with the runtime's
checks passes every one of them and ends where `step` ends. -/
theorem step_never_panics (exposed : station.Exposed) : station.stepChecked = .ok station.step :=
  stepChecked_eq (partsFit_of_exposed exposed)

/-- A fresh station that received a block of bytes no unit would send takes its turn. -/
theorem step_never_panics_received :
    ((Station.new ({} : Store) {}).receive
        [⟨0x83, 0xff, #v[0xff, 0xff, 0xff, 0xff, 0xff, 0xff], 0xff⟩]).Exposed ∧
      ((Station.new ({} : Store) {}).receive
          [⟨0x83, 0xff, #v[0xff, 0xff, 0xff, 0xff, 0xff, 0xff], 0xff⟩]).stepChecked =
        .ok ((Station.new ({} : Store) {}).receive
          [⟨0x83, 0xff, #v[0xff, 0xff, 0xff, 0xff, 0xff, 0xff], 0xff⟩]).step :=
  have exposed : ((Station.new ({} : Store) {}).receive
      [⟨0x83, 0xff, #v[0xff, 0xff, 0xff, 0xff, 0xff, 0xff], 0xff⟩]).Exposed :=
    .receive _ (.new ({} : Store) {})
  ⟨exposed, step_never_panics exposed⟩

end Station

end RailBus
