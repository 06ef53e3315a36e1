import Mathlib
import RailBus.Proofs.Station.Handling
/-! # Which slot a discovered unit is given

When discovery names a serial, the station gives it the first live slot already holding that
serial, as a unit that lost its address comes back to its slot, and otherwise the first slot that
is not live (`UnitTable.findSerial?_eq_some_iff`, `UnitTable.vacant?_eq_some_iff`).

A slot that traffic revives is live but was never given out, and it keeps the serial of a vacant
slot, 0. Every table the station reaches has this shape: a slot discovery did not give out carries
serial 0 (`UnitTable.Honest`). So a live slot goes to a discovered serial only when it holds that
serial, and a slot revived by traffic alone only to serial 0 (`Station.spares_of_assign`).
-/

namespace RailBus

/-- The first of the first `n` indices that passes a test: it passes, and every index before it
fails. -/
theorem finRange_find?_eq_some_iff {n : Nat} {test : Fin n → Bool} {found : Fin n} :
    (List.finRange n).find? test = some found ↔
      test found = true ∧ ∀ earlier : Fin n, earlier < found → test earlier = false := by
  rw [List.find?_eq_some_iff_getElem]
  simp only [List.getElem_finRange, List.length_finRange]
  constructor
  · rintro ⟨passes, index, inside, rfl, before⟩
    refine ⟨passes, fun earlier below => ?_⟩
    simpa using before earlier.val below
  · rintro ⟨passes, before⟩
    refine ⟨passes, found.val, found.isLt, rfl, fun index below => ?_⟩
    simpa using before ⟨index, by omega⟩ below

namespace Slot

/-- A slot carries a serial only when discovery gave it out. -/
def Honest (slot : Slot) : Prop :=
  slot.assigned = false → slot.serial = 0

theorem honest_vacant : vacant.Honest := fun _ => rfl

end Slot

namespace UnitTable

/-- **Every slot discovery did not give out carries serial 0.** -/
def Honest (table : UnitTable) : Prop :=
  ∀ index : Fin 64, (table.slots.get index).Honest

/-! ## The slot chosen for a serial -/

theorem vacant?_eq_some_iff {table : UnitTable} {slot : Fin 64} :
    table.vacant? = some slot ↔ (table.slots.get slot).isAlive = false ∧
      ∀ earlier < slot, (table.slots.get earlier).isAlive = true := by
  rw [vacant?, finRange_find?_eq_some_iff]
  simp

theorem findSerial?_eq_some_iff {table : UnitTable} {serial : UInt32} {slot : Fin 64} :
    table.findSerial? serial = some slot ↔
      ((table.slots.get slot).isAlive = true ∧ (table.slots.get slot).serial = serial) ∧
      ∀ earlier < slot, ¬ ((table.slots.get earlier).isAlive = true ∧
        (table.slots.get earlier).serial = serial) := by
  rw [findSerial?, alive, List.find?_filter]
  simp only [finRange_find?_eq_some_iff, decide_eq_true_eq, beq_iff_eq, decide_eq_false_iff_not]
  rfl

theorem findSerial?_eq_none_iff {table : UnitTable} {serial : UInt32} :
    table.findSerial? serial = none ↔
      ∀ slot : Fin 64, ¬ ((table.slots.get slot).isAlive = true ∧
        (table.slots.get slot).serial = serial) := by
  simp [findSerial?, alive]

/-! ## Every reached table is honest -/

theorem honest_empty : empty.Honest := by
  intro index
  simp only [empty, vector_get_eq_getElem, Fin.getElem_fin, Vector.getElem_replicate]
  exact Slot.honest_vacant

theorem Honest.sameUnits {before after : UnitTable} (honest : before.Honest)
    (same : SameUnits before after) : after.Honest := by
  intro index unassigned
  obtain ⟨serial, -, assigned⟩ := same index
  rw [serial]
  exact honest index (assigned ▸ unassigned)

theorem Honest.modify {table : UnitTable} (honest : table.Honest) (unit : UInt8)
    {change : Slot → Slot} (keeps : (change (table.lookup unit)).Honest) :
    (table.modify unit change).Honest := by
  intro index
  rw [get_modify]
  split
  · exact keeps
  · exact honest index

theorem Honest.touch {table : UnitTable} (honest : table.Honest) (unit : UInt8) :
    (table.touch unit).Honest :=
  honest.modify unit (honest (slotIndex unit))

theorem Honest.assign {table : UnitTable} (honest : table.Honest) (unit : UInt8)
    (serial : UInt32) : (table.assign unit serial).Honest :=
  honest.modify unit fun given => by cases given

theorem Honest.decay {table : UnitTable} (honest : table.Honest) (unit : UInt8) :
    (table.decay unit).1.Honest := by
  unfold UnitTable.decay
  dsimp only
  split
  · exact honest
  · split
    · exact honest.modify unit Slot.honest_vacant
    · exact honest.modify unit (honest (slotIndex unit))

end UnitTable

namespace Station

variable {σ : Type}

/-- **What an assignment does**: with no live slot holding the serial and no slot free, nothing;
otherwise the chosen slot is given to the serial, the connection is reported, and the unit is told
its address. -/
theorem assign_cases (station : Station σ) (serial : UInt32) :
    ((station.table.findSerial? serial <|> station.table.vacant?) = none ∧
      station.assign serial = station) ∨
    ∃ slot : Fin 64, (station.table.findSerial? serial <|> station.table.vacant?) = some slot ∧
      station.assign serial =
        ({ station with table := station.table.assign slot.val.toUInt8 serial }.emit
          (.connected slot.val.toUInt8 serial)).send (Block.toUnit slot.val.toUInt8
            Code.setUnitAddress (dataOf ((partsOf serial).toList ++ [slot.val.toUInt8]))) := by
  unfold assign
  split
  · rename_i none
    exact .inl ⟨none, rfl⟩
  · rename_i slot chosen
    exact .inr ⟨slot, chosen, rfl⟩

theorem honest_assign {station : Station σ} (honest : station.table.Honest) (serial : UInt32) :
    (station.assign serial).table.Honest := by
  rcases station.assign_cases serial with ⟨-, same⟩ | ⟨slot, -, given⟩
  · rw [same]
    exact honest
  · rw [given]
    exact honest.assign _ serial

theorem honest_onEcho {station : Station σ} (honest : station.table.Honest) (data : Vector UInt8 6) :
    (station.onEcho data).table.Honest := by
  rcases station.onEcho_cases data with same | ⟨probe, -, ⟨-, moved⟩ | ⟨-, moved⟩ | ⟨serial, -, moved⟩⟩
  · rw [same]
    exact honest
  all_goals rw [moved]
  · exact honest
  · exact honest
  · have moved : { station with discovery := (station.discovery.echo probe).2 }.table.Honest := honest
    exact honest_assign moved serial

variable [Layout σ]

theorem honest_dispatch {station : Station σ} (honest : station.table.Honest) (block : Block) :
    (station.dispatch block).table.Honest := by
  rcases station.dispatch_cases block with
    ⟨unit, -, echo | restart | quiet⟩ | ⟨-, echo | same⟩
  · rw [echo]
    exact honest_onEcho (honest.touch unit) _
  · rw [restart]
    exact honest.touch unit
  · exact (honest.touch unit).sameUnits quiet.units
  · rw [echo]
    exact honest_onEcho honest _
  · rw [same]
    exact honest

theorem honest_drain {station : Station σ} (honest : station.table.Honest) :
    station.drain.table.Honest := by
  unfold drain
  generalize station.bus.inbox = blocks
  generalize hidden : { station with bus := { station.bus with inbox := [] } } = start
  have begins : start.table.Honest := by rw [← hidden]; exact honest
  clear hidden
  induction blocks generalizing start with
  | nil => exact begins
  | cons block blocks ih => exact ih _ (honest_dispatch begins block)

omit [Layout σ] in
theorem honest_poll {station : Station σ} (honest : station.table.Honest) (slot : Fin 64) :
    (station.poll slot).table.Honest := by
  unfold poll
  dsimp only
  split
  · exact honest
  · split
    · exact honest.decay _
    · exact honest.decay _

theorem honest_act {station : Station σ} (honest : station.table.Honest) :
    station.act.table.Honest := by
  unfold act
  split
  · exact honest_poll honest _
  · exact honest
  · exact honest

theorem honest_step {station : Station σ} (honest : station.table.Honest) :
    station.step.table.Honest := by
  rw [step_eq, table_advance]
  exact honest_act (honest_drain honest)

/-- **Every reachable station's table is honest.** -/
theorem honest_of_reachable {station : Station σ} (reach : station.Reachable) :
    station.table.Honest := by
  induction reach with
  | new layout config => exact UnitTable.honest_empty
  | receive blocks _ _ honest => exact honest
  | step _ honest => exact honest_step honest
  | update change _ honest => exact honest
  | updateFirmware image _ honest =>
    unfold updateFirmware
    split
    · exact honest
    · exact honest
  | updateFirmwareHex text _ honest =>
    unfold updateFirmwareHex updateFirmware
    split
    · exact honest
    · split
      · exact honest
      · exact honest

/-- **The stations met while a turn handles its received blocks**: a reachable station with its
inbox taken, then each station one handled block further. -/
inductive Handling : Station σ → Prop
  | start {station : Station σ} : station.Reachable →
      Handling { station with bus := { station.bus with inbox := [] } }
  | dispatch {station : Station σ} (block : Block) : Handling station →
      Handling (station.dispatch block)

/-- A fresh station is met at its first turn. -/
theorem Handling.new (layout : σ) (config : Config) : (Station.new layout config).Handling :=
  have reach : (Station.new layout config).Reachable := .new layout config
  .start reach

theorem Handling.honest {station : Station σ} (handling : station.Handling) :
    station.table.Honest := by
  induction handling with
  | start reach =>
    have honest := honest_of_reachable reach
    exact honest
  | dispatch block _ honest => exact honest_dispatch honest block

/-- The unit byte of a slot designates that slot. -/
theorem slotIndex_toUInt8 (slot : Fin 64) : slotIndex slot.val.toUInt8 = slot := by
  apply Fin.ext
  simp only [slotIndex, Nat.toUInt8, UInt8.toNat_ofNat']
  omega

theorem lookup_toUInt8 (table : UnitTable) (slot : Fin 64) :
    table.lookup slot.val.toUInt8 = table.slots.get slot := by
  simp only [UnitTable.lookup, slotIndex_toUInt8, vector_get_eq_getElem]

omit [Layout σ] in
/-- **An assignment spares live units.** In a station whose table is honest, the slot an
assignment gives a serial is not live, or is live with that same serial; and a live slot discovery
did not give out goes only to serial 0, the serial such a slot carries. -/
theorem spares_of_assign {station : Station σ} (honest : station.table.Honest)
    {serial : UInt32} {unit : UInt8}
    (given : (station.assign serial).events = station.events ++ [.connected unit serial]) :
    (station.table.lookup unit).isAlive = false ∨
      ((station.table.lookup unit).serial = serial ∧
        ((station.table.lookup unit).assigned = true ∨ serial = 0)) := by
  rcases station.assign_cases serial with ⟨-, same⟩ | ⟨slot, chosen, assigned⟩
  · rw [same] at given
    simp at given
  -- the report names the slot chosen
  have named : unit = slot.val.toUInt8 := by
    rw [assigned] at given
    simpa [Station.send, Station.emit] using given.symm
  rw [named, lookup_toUInt8]
  cases holder : station.table.findSerial? serial with
  | none =>
    have free : station.table.vacant? = some slot := by simpa [holder] using chosen
    exact .inl (UnitTable.vacant?_eq_some_iff.mp free).1
  | some held =>
    have same : held = slot := by simpa [holder] using chosen
    rw [same] at holder
    obtain ⟨⟨-, same⟩, -⟩ := UnitTable.findSerial?_eq_some_iff.mp holder
    refine .inr ⟨same, ?_⟩
    -- a slot discovery did not give out carries serial 0
    cases flag : (station.table.slots.get slot).assigned with
    | true => exact .inl rfl
    | false => exact .inr (same ▸ honest slot flag)

end Station

end RailBus
