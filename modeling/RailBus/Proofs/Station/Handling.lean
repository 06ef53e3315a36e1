import RailBus.Proofs.Station.SentValid
/-! # What handling a received block can change

Most requests of a unit only answer, change the layout, or change what a slot records about the
unit's loco and revisions. None of them moves the discovery search or the schedule, and none
changes who holds a slot: its serial, its keepalive budget and whether discovery gave it out
(`UnitTable.SameUnits`). Such a change is `Station.Quiet`.

Only three things do more (`Station.dispatch_cases`): a block from a unit slot first refills that
slot's budget, an echo moves the search and may give a slot to the serial it names, and a restart
request sends the search back to its start and takes the next turn of the schedule for it.
-/

namespace RailBus

namespace UnitTable

/-- Every slot of `after` is held as the same slot of `before`: the same serial, the same budget,
given out the same way. Only what a slot records about its loco and revisions may differ. -/
def SameUnits (before after : UnitTable) : Prop :=
  ∀ index : Fin 64, (after.slots.get index).serial = (before.slots.get index).serial ∧
    (after.slots.get index).alive = (before.slots.get index).alive ∧
    (after.slots.get index).assigned = (before.slots.get index).assigned

namespace SameUnits

protected theorem refl (table : UnitTable) : SameUnits table table :=
  fun _ => ⟨rfl, rfl, rfl⟩

protected theorem trans {first second third : UnitTable} (earlier : SameUnits first second)
    (later : SameUnits second third) : SameUnits first third := by
  intro index
  obtain ⟨serial, alive, assigned⟩ := earlier index
  obtain ⟨serial', alive', assigned'⟩ := later index
  exact ⟨serial'.trans serial, alive'.trans alive, assigned'.trans assigned⟩

theorem isAlive_eq {before after : UnitTable} (same : SameUnits before after) (index : Fin 64) :
    (after.slots.get index).isAlive = (before.slots.get index).isAlive := by
  simp only [Slot.isAlive, (same index).2.1]

end SameUnits

theorem get_modify (table : UnitTable) (unit : UInt8) (change : Slot → Slot) (index : Fin 64) :
    (table.modify unit change).slots.get index =
      if slotIndex unit = index then change (table.lookup unit) else table.slots.get index := by
  simp only [modify, vector_get_eq_getElem, Fin.getElem_fin, Vector.getElem_set, Fin.val_inj]

/-- Changing what one slot records, and not who holds it. -/
theorem sameUnits_modify (table : UnitTable) (unit : UInt8) {change : Slot → Slot}
    (keeps : ∀ slot, (change slot).serial = slot.serial ∧ (change slot).alive = slot.alive ∧
      (change slot).assigned = slot.assigned) :
    SameUnits table (table.modify unit change) := by
  intro index
  rw [get_modify]
  split
  · rename_i same
    rw [← same]
    exact keeps _
  · exact ⟨rfl, rfl, rfl⟩

theorem sameUnits_takeControl (table : UnitTable) (unit : UInt8) (loco : UInt16) :
    SameUnits table (table.takeControl unit loco) :=
  table.sameUnits_modify unit fun _ => ⟨rfl, rfl, rfl⟩

theorem sameUnits_release (table : UnitTable) (unit : UInt8) :
    SameUnits table (table.release unit) :=
  table.sameUnits_modify unit fun _ => ⟨rfl, rfl, rfl⟩

theorem sameUnits_setRevisions (table : UnitTable) (unit hwRev swRev : UInt8) :
    SameUnits table (table.setRevisions unit hwRev swRev) :=
  table.sameUnits_modify unit fun _ => ⟨rfl, rfl, rfl⟩

theorem sameUnits_consumeBlocked (table : UnitTable) (unit : UInt8) :
    SameUnits table (table.consumeBlocked unit).1 := by
  unfold consumeBlocked
  split
  · exact .refl table
  · exact table.sameUnits_modify unit fun _ => ⟨rfl, rfl, rfl⟩

theorem sameUnits_blockOthers (table : UnitTable) (loco : UInt16) (exempt : UInt8) :
    SameUnits table (table.blockOthers loco exempt) := by
  intro index
  simp only [blockOthers, vector_get_eq_getElem, Fin.getElem_fin, Vector.getElem_mapFinIdx]
  split <;> exact ⟨rfl, rfl, rfl⟩

end UnitTable

namespace Station

variable {σ : Type}

/-- **A quiet change**: the search, the schedule position and the units holding the slots stay as
they are. -/
structure Quiet (before after : Station σ) : Prop where
  discovery : after.discovery = before.discovery
  position : after.position = before.position
  units : UnitTable.SameUnits before.table after.table

namespace Quiet

variable {first second third : Station σ}

protected theorem refl (station : Station σ) : Quiet station station :=
  ⟨rfl, rfl, .refl _⟩

protected theorem trans (earlier : Quiet first second) (later : Quiet second third) :
    Quiet first third :=
  ⟨later.discovery.trans earlier.discovery, later.position.trans earlier.position,
    earlier.units.trans later.units⟩

/-- A change of the bus, the layout, the reports or the name edit alone. -/
theorem of_eq (table : second.table = first.table) (discovery : second.discovery = first.discovery)
    (position : second.position = first.position) : Quiet first second :=
  ⟨discovery, position, table ▸ .refl _⟩

theorem send (quiet : Quiet first second) (block : Block) : Quiet first (second.send block) :=
  ⟨quiet.discovery, quiet.position, quiet.units⟩

theorem emit (quiet : Quiet first second) (event : Event) : Quiet first (second.emit event) :=
  ⟨quiet.discovery, quiet.position, quiet.units⟩

theorem update (quiet : Quiet first second) (change : σ → σ) : Quiet first (second.update change) :=
  ⟨quiet.discovery, quiet.position, quiet.units⟩

theorem ask {α : Type} (quiet : Quiet first second) (question : σ → α × σ) :
    Quiet first (second.ask question).2 :=
  ⟨quiet.discovery, quiet.position, quiet.units⟩

theorem foldl_send (quiet : Quiet first second) (parts : List Nat) (blockOf : Nat → Block) :
    Quiet first (parts.foldl (fun station part => station.send (blockOf part)) second) := by
  induction parts generalizing second with
  | nil => exact quiet
  | cons part parts ih => exact ih (quiet.send _)

end Quiet

section Handlers

variable {first second : Station σ}

theorem Quiet.sendState (quiet : Quiet first second) (unit : UInt8) (loco : UInt16)
    (state : LocoState) : Quiet first (second.sendState unit loco state) := by
  unfold Station.sendState
  split
  dsimp only
  split
  · exact ((quiet.send _).send _).send _
  · exact (quiet.send _).send _

theorem Quiet.authoritative (quiet : Quiet first second) (unit : UInt8) (loco : UInt16) :
    Quiet first (second.authoritative unit loco) := by
  unfold Station.authoritative
  dsimp only
  have blocked : Quiet first
      { second with table := (second.table.takeControl unit loco).blockOthers loco unit } :=
    ⟨quiet.discovery, quiet.position, quiet.units.trans <|
      (second.table.sameUnits_takeControl unit loco).trans
        ((second.table.takeControl unit loco).sameUnits_blockOthers loco unit)⟩
  exact blocked.emit _

variable {station : Station σ}

theorem quiet_discardStale {unit : UInt8} {discard : Bool} {next : Station σ}
    (spent : station.discardStale unit = (discard, next)) : Quiet station next := by
  rw [show next = (station.discardStale unit).2 by rw [spent]]
  exact ⟨rfl, rfl, station.table.sameUnits_consumeBlocked unit⟩

variable [Layout σ]

theorem Quiet.sendLoco (quiet : Quiet first second) (unit : UInt8) (loco : UInt16) :
    Quiet first (second.sendLoco unit loco) := by
  unfold Station.sendLoco
  split
  · exact quiet.sendState unit loco _
  · exact quiet.send _

theorem quiet_onTake (unit : UInt8) (loco : UInt16) : Quiet station (station.onTake unit loco) := by
  unfold onTake
  split
  · rename_i state next asked
    have layout : Quiet station next := by
      rw [show next = (station.ask (Layout.takeControl · loco)).2 by rw [asked]]
      exact (Quiet.refl station).ask _
    have controls : Quiet station { next with table := next.table.takeControl unit loco } :=
      ⟨layout.discovery, layout.position,
        layout.units.trans (next.table.sameUnits_takeControl unit loco)⟩
    exact controls.sendState unit loco state
  · rename_i next asked
    rw [show next = (station.ask (Layout.takeControl · loco)).2 by rw [asked]]
    exact ((Quiet.refl station).ask _).send _

theorem quiet_onBrowse (unit : UInt8) (step : Browse) (index : UInt16) :
    Quiet station (station.onBrowse unit step index) := by
  unfold onBrowse
  dsimp only
  have deleted : Quiet station
      (if step = .delete then (station.ask (Layout.removeEntry · index)).2 else station) := by
    split
    · exact (Quiet.refl station).ask _
    · exact .refl station
  generalize (if step = .delete then (station.ask (Layout.removeEntry · index)).2 else station) =
    next at deleted ⊢
  split
  · exact deleted.send _
  · split
    · exact deleted.send _
    · exact (deleted.send _).foldl_send _ _

theorem quiet_onName (part : Fin 5) (data : Vector UInt8 6) :
    Quiet station (station.onName part data) := by
  unfold onName
  split
  · exact .of_eq rfl rfl rfl
  · split
    · exact .refl station
    · dsimp only
      split <;> exact .of_eq rfl rfl rfl

theorem quiet_configure (data : Vector UInt8 6) : Quiet station (station.configure data).2 := by
  unfold configure
  dsimp only
  split
  all_goals first
    | exact .of_eq rfl rfl rfl
    | split <;> exact .of_eq rfl rfl rfl

/-- **What a request does**: an echo is taken as such, a restart sends the search back to its
start and takes the next turn for it, and every other request is quiet. -/
theorem handle_cases (unit : UInt8) (request : UnitRequest) (data : Vector UInt8 6) :
    (request = .probeEcho ∧ station.handle unit request data = station.onEcho data) ∨
    (request = .restart ∧ station.handle unit request data =
      { station with discovery := .initial, position := .discovery }) ∨
    Quiet station (station.handle unit request data) := by
  unfold handle
  -- one case per request; only the echo and the restart leave the quiet ones
  cases request
  all_goals dsimp only
  case probeEcho => exact .inl ⟨rfl, rfl⟩
  case restart => exact .inr (.inl ⟨rfl, rfl⟩)
  all_goals refine .inr (.inr ?_)
  case ping => exact .refl station
  case version => exact (Quiet.refl station).send _
  case mode =>
    split
    · exact (Quiet.refl station).update _
    · exact .refl station
  case locoTake => exact quiet_onTake unit _
  case locoRelease =>
    split
    · have released : Quiet station { station with table := station.table.release unit } :=
        ⟨rfl, rfl, station.table.sameUnits_release unit⟩
      exact released.update _
    · exact (Quiet.refl station).update _
  case locoSpeed =>
    split
    · rename_i next spent
      exact quiet_discardStale spent
    · rename_i next spent
      exact ((quiet_discardStale spent).update _).authoritative unit _
  case locoFunc =>
    split
    · exact .refl station
    · split
      · rename_i next spent
        exact quiet_discardStale spent
      · rename_i next spent
        exact ((quiet_discardStale spent).update _).authoritative unit _
  case tractionCouple =>
    split
    · rename_i next asked
      rw [show next = (station.ask (Layout.couple · _ _)).2 by rw [asked]]
      exact ((Quiet.refl station).ask _).sendLoco unit _
    · rename_i next asked
      rw [show next = (station.ask (Layout.couple · _ _)).2 by rw [asked]]
      exact ((Quiet.refl station).ask _).send _
  case tractionClear =>
    split
    · rename_i next asked
      rw [show next = (station.ask (Layout.uncouple · _)).2 by rw [asked]]
      exact ((Quiet.refl station).ask _).sendLoco unit _
    · rename_i next asked
      rw [show next = (station.ask (Layout.uncouple · _)).2 by rw [asked]]
      exact (Quiet.refl station).ask _
  case turnout => exact ((Quiet.refl station).update _).send _
  case browse step => exact quiet_onBrowse unit step _
  case nameData part => exact quiet_onName part data
  case unitInfo => exact ⟨rfl, rfl, station.table.sameUnits_setRevisions unit _ _⟩
  case configure =>
    have configured : Quiet station (station.configure data).2 := quiet_configure data
    split
    · rename_i reply next answer
      rw [answer] at configured
      exact configured.send _
    · rename_i next answer
      rw [answer] at configured
      exact configured
  case debug => exact .refl station

/-- Refill the budget of a unit that was heard. -/
def touchUnit (station : Station σ) (unit : UInt8) : Station σ :=
  { station with table := station.table.touch unit }

omit [Layout σ] in
@[simp]
theorem touchUnit_layout (unit : UInt8) : (station.touchUnit unit).layout = station.layout := rfl

omit [Layout σ] in
@[simp]
theorem touchUnit_bus (unit : UInt8) : (station.touchUnit unit).bus = station.bus := rfl

omit [Layout σ] in
@[simp]
theorem touchUnit_edit (unit : UInt8) : (station.touchUnit unit).edit = station.edit := rfl

omit [Layout σ] in
/-- A question to the layout, as its answer and the station with the layout it leaves. -/
theorem ask_eq {α : Type} (question : σ → α × σ) :
    station.ask question =
      ((question station.layout).1, { station with layout := (question station.layout).2 }) :=
  rfl

/-- **What handling one block can do.** A block from a unit slot refills the slot's budget and is
then an echo, a restart or a quiet request; a broadcast echo is taken as an echo; anything else is
dropped. -/
theorem dispatch_cases (block : Block) :
    (∃ unit, block.unit? = some unit ∧
      (station.dispatch block = (station.touchUnit unit).onEcho block.data ∨
        station.dispatch block =
          { station.touchUnit unit with discovery := .initial, position := .discovery } ∨
        Quiet (station.touchUnit unit) (station.dispatch block))) ∨
    (block.unit? = none ∧ (station.dispatch block = station.onEcho block.data ∨
      station.dispatch block = station)) := by
  unfold dispatch
  split
  · rename_i unit found
    refine .inl ⟨unit, found, ?_⟩
    dsimp only
    split
    · rename_i request decoded
      rcases (station.touchUnit unit).handle_cases unit request block.data with
        ⟨-, echo⟩ | ⟨-, restart⟩ | quiet
      · exact .inl echo
      · exact .inr (.inl restart)
      · exact .inr (.inr quiet)
    · exact .inr (.inr (.refl _))
  · rename_i none
    refine .inr ⟨none, ?_⟩
    split
    · exact .inl rfl
    · exact .inr rfl

/-- A block from a unit slot carrying a known request is that request, handled once the unit's
budget is refilled. -/
theorem dispatch_of_request {block : Block} {unit : UInt8} {request : UnitRequest}
    (addressed : block.unit? = some unit)
    (decoded : UnitRequest.ofCode? block.command = some request) :
    station.dispatch block = (station.touchUnit unit).handle unit request block.data := by
  unfold dispatch
  rw [addressed]
  dsimp only
  rw [decoded]
  rfl

end Handlers

/-! ## Echoes -/

section Echo

variable {station : Station σ}

/-- **What an echo can do**: nothing, when malformed; otherwise the search takes it, and it moves
on, takes the schedule at the discovery position, or gives a slot to the serial named. -/
theorem onEcho_cases (data : Vector UInt8 6) :
    station.onEcho data = station ∨
    ∃ probe, Probe.ofData? data = some probe ∧
      (((station.discovery.echo probe).1 = .ignored ∧
          station.onEcho data = { station with discovery := (station.discovery.echo probe).2 }) ∨
        ((station.discovery.echo probe).1 = .descend ∧
          station.onEcho data =
            { station with discovery := (station.discovery.echo probe).2, position := .discovery }) ∨
        ∃ serial, (station.discovery.echo probe).1 = .found serial ∧
          station.onEcho data =
            { station with discovery := (station.discovery.echo probe).2 }.assign serial) := by
  unfold onEcho
  cases read : Probe.ofData? data with
  | none => exact .inl rfl
  | some probe =>
    refine .inr ⟨probe, rfl, ?_⟩
    dsimp only
    cases echoed : station.discovery.echo probe with
    | mk found discovery =>
      cases found with
      | ignored => exact .inl ⟨rfl, rfl⟩
      | descend => exact .inr (.inl ⟨rfl, rfl⟩)
      | found serial => exact .inr (.inr ⟨serial, rfl, rfl⟩)

/-- Naming a serial leaves the search where it was. -/
theorem echo_found {discovery : Discovery} {probe : Probe} {serial : UInt32}
    (found : (discovery.echo probe).1 = .found serial) : (discovery.echo probe).2 = discovery := by
  unfold Discovery.echo at found ⊢
  dsimp only at found ⊢
  split
  · rfl
  · rename_i related
    rw [if_neg related] at found
    split
    · rename_i below
      rw [dif_pos below] at found
      cases found
    · rfl

/-- An ignored echo leaves the search where it was. -/
theorem echo_ignored {discovery : Discovery} {probe : Probe}
    (ignored : (discovery.echo probe).1 = .ignored) : (discovery.echo probe).2 = discovery := by
  unfold Discovery.echo at ignored ⊢
  dsimp only at ignored ⊢
  split
  · rfl
  · rename_i related
    rw [if_neg related] at ignored
    split at ignored <;> cases ignored

end Echo

/-! ## A turn of the schedule -/

section Turn

variable (station : Station σ)

@[simp]
theorem table_advance : station.advance.table = station.table := by
  unfold advance
  split <;> rfl

@[simp]
theorem discovery_advance : station.advance.discovery = station.discovery := by
  unfold advance
  split <;> rfl

@[simp]
theorem table_sendProbe : station.sendProbe.table = station.table := rfl

@[simp]
theorem position_sendProbe : station.sendProbe.position = station.position := rfl

@[simp]
theorem discovery_poll (slot : Fin 64) : (station.poll slot).discovery = station.discovery := by
  unfold poll
  dsimp only
  split
  · rfl
  · split <;> rfl

@[simp]
theorem position_poll (slot : Fin 64) : (station.poll slot).position = station.position := by
  unfold poll
  dsimp only
  split
  · rfl
  · split <;> rfl

variable [Layout σ]

@[simp]
theorem table_broadcastStatus : station.broadcastStatus.table = station.table := rfl

@[simp]
theorem discovery_broadcastStatus : station.broadcastStatus.discovery = station.discovery := rfl

@[simp]
theorem position_broadcastStatus : station.broadcastStatus.position = station.position := rfl

/-- The scheduled action of the station's position. -/
def act : Station σ :=
  match station.position with
  | .poll slot => station.poll slot
  | .discovery => station.sendProbe
  | .status => station.broadcastStatus

/-- **A turn** handles the received blocks, acts, and moves the schedule on. -/
theorem step_eq : station.step = station.drain.act.advance := rfl

@[simp]
theorem position_act : station.act.position = station.position := by
  unfold act
  split <;> simp

end Turn

end Station

end RailBus
