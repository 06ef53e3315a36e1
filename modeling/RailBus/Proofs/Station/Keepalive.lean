import Mathlib
import RailBus.Proofs.Station.Exposure
import RailBus.Proofs.Station.QuietTurns
/-! # Keepalive budgets and connection reports

A slot's keepalive budget is refilled when its unit is heard and when discovery gives the slot
out, and every poll of the slot spends one of it. Over any run, from any station a fresh one can
become and whatever blocks it receives, the budget and the reports agree:

* a slot that is not live is vacant (`UnitTable.Tidy`), so a slot is never left half cleared;
* from a refill on, the budget and the polls sent to the slot add up to `aliveBudget`, so the
  slot is vacated at exactly the `aliveBudget`-th poll, and a slot that is not live is never
  polled (`Station.budget_add_pings`, `Station.no_ping_of_dead`);
* the connection reports of each slot follow its slot: every disconnection closes the connection
  reported just before it with the same serial, and a slot is held as given out exactly when the
  last report is its connection (`Reports`, `Station.Paired`).

The requests of a unit other than an echo are handled without touching a slot that is not live,
without polls and without connection reports (`Station.Steady`); so only refills, assignments and
polls move a slot's budget, and only assignments and polls report. The three together are
`Station.keepalive_agrees_with_reports`.
-/

namespace RailBus

/-! ## The connection reports of one slot -/

namespace Event

/-- Whether a report is of a unit connecting or disconnecting. -/
def isConnection : Event → Bool
  | .locoChanged _ => false
  | _ => true

/-- Whether a report is of the unit of a slot connecting or disconnecting. -/
def concerns (slot : Fin 64) : Event → Bool
  | .connected unit _ => unit == slot.val.toUInt8
  | .disconnected unit _ => unit == slot.val.toUInt8
  | .locoChanged _ => false

theorem concerns_of_isConnection {event : Event} (other : event.isConnection = false)
    (slot : Fin 64) : event.concerns slot = false := by
  cases event with
  | locoChanged loco => rfl
  | connected unit serial => cases other
  | disconnected unit serial => cases other

end Event

/-- The connection reports of a slot, oldest first. -/
def connectionsOf (slot : Fin 64) (events : List Event) : List Event :=
  events.filter (Event.concerns slot)

theorem connectionsOf_append_calm (slot : Fin 64) (events : List Event) {raised : List Event}
    (calm : ∀ event ∈ raised, event.isConnection = false) :
    connectionsOf slot (events ++ raised) = connectionsOf slot events := by
  have none : raised.filter (Event.concerns slot) = [] :=
    List.filter_eq_nil_iff.mpr fun event member => by
      simp [Event.concerns_of_isConnection (calm event member)]
  rw [connectionsOf, List.filter_append, none, List.append_nil]
  rfl

/-- **The reports of one unit as a connection protocol**: a connection may be reported while one
is open (a known serial found again), and a disconnection only closes the open connection, with
its serial. The index is the serial of the open connection. -/
inductive Reports (unit : UInt8) : List Event → Option UInt32 → Prop
  | nil : Reports unit [] none
  | connect {events : List Event} {current : Option UInt32} (serial : UInt32) :
      Reports unit events current → Reports unit (events ++ [.connected unit serial]) (some serial)
  | disconnect {events : List Event} {serial : UInt32} :
      Reports unit events (some serial) →
      Reports unit (events ++ [.disconnected unit serial]) none

namespace Reports

variable {unit : UInt8}

/-- An open connection is the last report. -/
theorem getLast_of_open {events : List Event} {serial : UInt32}
    (reports : Reports unit events (some serial)) :
    events.getLast? = some (.connected unit serial) := by
  cases reports with
  | connect _ _ => simp

/-- With no open connection, the last report is no connection. -/
theorem getLast_of_closed {events : List Event} (reports : Reports unit events none)
    (serial : UInt32) : events.getLast? ≠ some (.connected unit serial) := by
  cases reports with
  | nil => simp
  | disconnect _ => simp

/-- **Every disconnection follows the connection it closes**: the report before it is the
connection of its serial. -/
theorem connected_before {events : List Event} {current : Option UInt32}
    (reports : Reports unit events current) {before : List Event} {serial : UInt32}
    (opening : before ++ [.disconnected unit serial] <+: events) :
    before.getLast? = some (.connected unit serial) := by
  induction reports with
  | nil => simp at opening
  | connect next earlier ih =>
    rcases List.prefix_concat_iff.mp opening with whole | inside
    · have last := congrArg List.getLast? whole
      simp at last
    · exact ih inside
  | disconnect earlier ih =>
    rcases List.prefix_concat_iff.mp opening with whole | inside
    · obtain ⟨rfl, closed⟩ := List.append_inj' whole rfl
      simp only [List.cons.injEq, Event.disconnected.injEq, true_and, and_true] at closed
      rw [closed]
      exact earlier.getLast_of_open
    · exact ih inside

end Reports

/-! ## Requests that leave the slots' holders alone -/

namespace Station

variable {σ : Type}

/-- **A steady change**: no slot that is not live changes, the bus only gains sent blocks and none
of them is a keepalive poll, and no unit is reported connecting or disconnecting. -/
structure Steady (before after : Station σ) : Prop where
  dead : ∀ index, (before.table.slots.get index).isAlive = false →
    after.table.slots.get index = before.table.slots.get index
  sent : ∃ blocks, after.bus = { before.bus with sent := before.bus.sent ++ blocks } ∧
    ∀ block ∈ blocks, block.command ≠ Code.ping
  events : ∃ raised, after.events = before.events ++ raised ∧
    ∀ event ∈ raised, event.isConnection = false

namespace Steady

variable {first second third : Station σ}

protected theorem refl (station : Station σ) : Steady station station :=
  ⟨fun _ _ => rfl, ⟨[], by simp, by simp⟩, ⟨[], by simp, by simp⟩⟩

protected theorem trans (earlier : Steady first second) (later : Steady second third) :
    Steady first third := by
  obtain ⟨deadFirst, ⟨sentFirst, busFirst, quietFirst⟩, ⟨raisedFirst, eventsFirst, calmFirst⟩⟩ :=
    earlier
  obtain ⟨deadLater, ⟨sentLater, busLater, quietLater⟩, ⟨raisedLater, eventsLater, calmLater⟩⟩ :=
    later
  refine ⟨fun index dead => ?_, ⟨sentFirst ++ sentLater, ?_, ?_⟩,
    ⟨raisedFirst ++ raisedLater, by rw [eventsLater, eventsFirst, List.append_assoc], ?_⟩⟩
  · have kept := deadFirst index dead
    rw [deadLater index (kept ▸ dead), kept]
  · rw [busLater, busFirst, List.append_assoc]
  · intro block member
    rcases List.mem_append.mp member with inFirst | inLater
    · exact quietFirst block inFirst
    · exact quietLater block inLater
  · intro event member
    rcases List.mem_append.mp member with inFirst | inLater
    · exact calmFirst event inFirst
    · exact calmLater event inLater

/-- A change of the layout, the search, the schedule or the name edit alone. -/
theorem of_eq (table : second.table = first.table) (bus : second.bus = first.bus)
    (events : second.events = first.events) : Steady first second :=
  ⟨fun _ _ => by rw [table], ⟨[], by simp [bus], by simp⟩, ⟨[], by simp [events], by simp⟩⟩

theorem send (steady : Steady first second) {block : Block}
    (other : block.command ≠ Code.ping) : Steady first (second.send block) :=
  steady.trans ⟨fun _ _ => rfl, ⟨[block], rfl, by simpa using other⟩, ⟨[], by simp [Station.send],
    by simp⟩⟩

theorem emit (steady : Steady first second) {event : Event} (calm : event.isConnection = false) :
    Steady first (second.emit event) :=
  steady.trans ⟨fun _ _ => rfl, ⟨[], by simp [Station.emit], by simp⟩, ⟨[event], rfl,
    by simpa using calm⟩⟩

theorem update (steady : Steady first second) (change : σ → σ) :
    Steady first (second.update change) :=
  steady.trans (.of_eq rfl rfl rfl)

theorem ask {α : Type} (steady : Steady first second) (question : σ → α × σ) :
    Steady first (second.ask question).2 :=
  steady.trans (.of_eq rfl rfl rfl)

theorem foldl_send (steady : Steady first second) (parts : List Nat) (blockOf : Nat → Block)
    (other : ∀ part, (blockOf part).command ≠ Code.ping) :
    Steady first (parts.foldl (fun station part => station.send (blockOf part)) second) := by
  induction parts generalizing second with
  | nil => exact steady
  | cons part parts ih => exact ih (steady.send (other part))

/-- A change of what the live slot of a unit records. -/
theorem modify (steady : Steady first second) {unit : UInt8}
    (live : (first.table.lookup unit).isAlive = true) (change : Slot → Slot) :
    Steady first { second with table := second.table.modify unit change } := by
  refine ⟨fun index dead => ?_, steady.sent, steady.events⟩
  show (second.table.modify unit change).slots.get index = _
  rw [UnitTable.get_modify]
  split
  · rename_i same
    have : (first.table.lookup unit).isAlive = false := by
      rw [← same] at dead
      simpa [UnitTable.lookup, vector_get_eq_getElem] using dead
    rw [live] at this
    cases this
  · exact steady.dead index dead

/-- Marking the other drivers of a loco changes only live slots. -/
theorem blockOthers (steady : Steady first second) (loco : UInt16) (exempt : UInt8) :
    Steady first { second with table := second.table.blockOthers loco exempt } := by
  refine ⟨fun index dead => ?_, steady.sent, steady.events⟩
  have kept := steady.dead index dead
  have deadSecond : (second.table.slots.get index).isAlive = false := kept ▸ dead
  rw [← kept]
  simp only [UnitTable.blockOthers, vector_get_eq_getElem, Fin.getElem_fin,
    Vector.getElem_mapFinIdx] at deadSecond ⊢
  rw [if_neg (by simp [deadSecond])]

end Steady

/-- A block to a unit with another command than the keepalive poll is no poll. -/
theorem command_toUnit_ne_ping {command : UInt8} (other : command ≠ Code.ping) (unit : UInt8)
    (data : Vector UInt8 6) : (Block.toUnit unit command data).command ≠ Code.ping :=
  other

section Handlers

variable {first second : Station σ}

theorem Steady.sendState (steady : Steady first second) (unit : UInt8) (loco : UInt16)
    (state : LocoState) : Steady first (second.sendState unit loco state) := by
  unfold Station.sendState
  split
  dsimp only
  split
  · exact ((steady.send (command_toUnit_ne_ping (by decide) _ _)).send
      (command_toUnit_ne_ping (by decide) _ _)).send (command_toUnit_ne_ping (by decide) _ _)
  · exact (steady.send (command_toUnit_ne_ping (by decide) _ _)).send
      (command_toUnit_ne_ping (by decide) _ _)

theorem Steady.authoritative (steady : Steady first second) {unit : UInt8}
    (live : (first.table.lookup unit).isAlive = true) (loco : UInt16) :
    Steady first (second.authoritative unit loco) := by
  unfold Station.authoritative
  dsimp only
  have controls := steady.modify live fun slot => { slot with loco }
  exact (controls.blockOthers loco unit).emit rfl

variable {station : Station σ}

theorem steady_discardStale {unit : UInt8} (live : (station.table.lookup unit).isAlive = true)
    {discard : Bool} {next : Station σ} (spent : station.discardStale unit = (discard, next)) :
    Steady station next := by
  rw [show next = (station.discardStale unit).2 by rw [spent]]
  unfold discardStale UnitTable.consumeBlocked
  by_cases none : (station.table.lookup unit).blocked = 0
  · rw [if_pos none]
    exact .refl station
  · rw [if_neg none]
    exact (Steady.refl station).modify live _

variable [Layout σ]

theorem Steady.sendLoco (steady : Steady first second) (unit : UInt8) (loco : UInt16) :
    Steady first (second.sendLoco unit loco) := by
  unfold Station.sendLoco
  split
  · exact steady.sendState unit loco _
  · exact steady.send (command_toUnit_ne_ping (by decide) _ _)

theorem steady_onTake {unit : UInt8} (live : (station.table.lookup unit).isAlive = true)
    (loco : UInt16) : Steady station (station.onTake unit loco) := by
  unfold onTake
  split
  · rename_i state next asked
    have layout : Steady station next := by
      rw [show next = (station.ask (Layout.takeControl · loco)).2 by rw [asked]]
      exact (Steady.refl station).ask _
    exact (layout.modify live _).sendState unit loco state
  · rename_i next asked
    rw [show next = (station.ask (Layout.takeControl · loco)).2 by rw [asked]]
    exact ((Steady.refl station).ask _).send (command_toUnit_ne_ping (by decide) _ _)

theorem steady_onBrowse (unit : UInt8) (step : Browse) (index : UInt16) :
    Steady station (station.onBrowse unit step index) := by
  unfold onBrowse
  dsimp only
  have deleted : Steady station
      (if step = .delete then (station.ask (Layout.removeEntry · index)).2 else station) := by
    split
    · exact .of_eq rfl rfl rfl
    · exact .refl station
  generalize (if step = .delete then (station.ask (Layout.removeEntry · index)).2 else station) =
    next at deleted ⊢
  split
  · exact deleted.send (command_toUnit_ne_ping (by decide) _ _)
  · split
    · exact deleted.send (command_toUnit_ne_ping (by decide) _ _)
    · exact (deleted.send (command_toUnit_ne_ping (by decide) _ _)).foldl_send _ _
        fun _ => command_toUnit_ne_ping (by decide) _ _

theorem steady_onName (part : Fin 5) (data : Vector UInt8 6) :
    Steady station (station.onName part data) := by
  unfold onName
  split
  · exact .of_eq rfl rfl rfl
  · split
    · exact .refl station
    · dsimp only
      split <;> exact .of_eq rfl rfl rfl

theorem steady_configure (data : Vector UInt8 6) : Steady station (station.configure data).2 := by
  unfold configure
  dsimp only
  split
  all_goals first
    | exact .of_eq rfl rfl rfl
    | split <;> exact .of_eq rfl rfl rfl

/-- **Every request but an echo is steady** once its sender's slot is live. -/
theorem handle_steady {unit : UInt8} (live : (station.table.lookup unit).isAlive = true)
    (request : UnitRequest) (data : Vector UInt8 6) :
    (request = .probeEcho ∧ station.handle unit request data = station.onEcho data) ∨
    Steady station (station.handle unit request data) := by
  unfold handle
  cases request
  all_goals dsimp only
  case probeEcho => exact .inl ⟨rfl, rfl⟩
  all_goals refine .inr ?_
  case ping => exact .refl station
  case version => exact (Steady.refl station).send (command_toUnit_ne_ping (by decide) _ _)
  case mode =>
    split
    · exact (Steady.refl station).update _
    · exact .refl station
  case locoTake => exact steady_onTake live _
  case locoRelease =>
    split
    · have released := (Steady.refl station).modify live fun slot =>
        { slot with loco := 0, blocked := 0 }
      exact released.update _
    · exact (Steady.refl station).update _
  case locoSpeed =>
    split
    · rename_i next spent
      exact steady_discardStale live spent
    · rename_i next spent
      exact ((steady_discardStale live spent).update _).authoritative live _
  case locoFunc =>
    split
    · exact .refl station
    · split
      · rename_i next spent
        exact steady_discardStale live spent
      · rename_i next spent
        exact ((steady_discardStale live spent).update _).authoritative live _
  case tractionCouple =>
    split
    · rename_i next asked
      rw [show next = (station.ask (Layout.couple · _ _)).2 by rw [asked]]
      exact ((Steady.refl station).ask _).sendLoco unit _
    · rename_i next asked
      rw [show next = (station.ask (Layout.couple · _ _)).2 by rw [asked]]
      exact ((Steady.refl station).ask _).send (command_toUnit_ne_ping (by decide) _ _)
  case tractionClear =>
    split
    · rename_i next asked
      rw [show next = (station.ask (Layout.uncouple · _)).2 by rw [asked]]
      exact ((Steady.refl station).ask _).sendLoco unit _
    · rename_i next asked
      rw [show next = (station.ask (Layout.uncouple · _)).2 by rw [asked]]
      exact (Steady.refl station).ask _
  case turnout =>
    refine ((Steady.refl station).update _).send ?_
    rw [Block.command_broadcast]
    decide
  case browse step => exact steady_onBrowse unit step _
  case nameData part => exact steady_onName part data
  case restart => exact .of_eq rfl rfl rfl
  case unitInfo =>
    exact (Steady.refl station).modify live fun slot =>
      { slot with hwRev := data.get 0, swRev := data.get 1 }
  case configure =>
    have configured : Steady station (station.configure data).2 := steady_configure data
    split
    · rename_i reply next answer
      rw [answer] at configured
      exact configured.send (command_toUnit_ne_ping (by decide) _ _)
    · rename_i next answer
      rw [answer] at configured
      exact configured
  case debug => exact .refl station

end Handlers

end Station

/-! ## What a received block does to the slots -/

namespace UnitTable

theorem get_touch (table : UnitTable) (unit : UInt8) (index : Fin 64) :
    (table.touch unit).slots.get index =
      if slotIndex unit = index then { table.lookup unit with alive := aliveBudget }
      else table.slots.get index :=
  table.get_modify unit _ index

theorem get_assign (table : UnitTable) (unit : UInt8) (serial : UInt32) (index : Fin 64) :
    (table.assign unit serial).slots.get index =
      if slotIndex unit = index then { serial, alive := aliveBudget, assigned := true }
      else table.slots.get index :=
  table.get_modify unit _ index

theorem lookup_eq_get (table : UnitTable) (unit : UInt8) :
    table.lookup unit = table.slots.get (slotIndex unit) := by
  simp only [lookup, vector_get_eq_getElem]

theorem isAlive_touch (table : UnitTable) (unit : UInt8) :
    ((table.touch unit).lookup unit).isAlive = true := by
  rw [lookup_eq_get, get_touch, if_pos rfl]
  rfl

end UnitTable

namespace Station

variable {σ : Type} {station : Station σ}

/-- The station as the handling of a block starts: the budget of the block's sender refilled. -/
def hear (station : Station σ) (block : Block) : Station σ :=
  match block.unit? with
  | some unit => station.touchUnit unit
  | none => station

/-- **An echo is steady up to an assignment**: it only moves the search and the schedule, and
then may give a slot to the serial it names. -/
theorem onEcho_steady (data : Vector UInt8 6) :
    ∃ mid, Steady station mid ∧ UnitTable.SameUnits station.table mid.table ∧
      (station.onEcho data = mid ∨ ∃ serial, station.onEcho data = mid.assign serial) := by
  rcases station.onEcho_cases data with
    same | ⟨probe, -, ⟨-, moved⟩ | ⟨-, moved⟩ | ⟨serial, -, moved⟩⟩
  · exact ⟨station, .refl station, .refl _, .inl same⟩
  · exact ⟨{ station with discovery := (station.discovery.echo probe).2 }, .of_eq rfl rfl rfl,
      .refl _, .inl moved⟩
  · exact ⟨{ station with discovery := (station.discovery.echo probe).2, position := .discovery },
      .of_eq rfl rfl rfl, .refl _, .inl moved⟩
  · exact ⟨{ station with discovery := (station.discovery.echo probe).2 }, .of_eq rfl rfl rfl,
      .refl _, .inr ⟨serial, moved⟩⟩

variable [Layout σ]

/-- **What a block does to the slots**: its sender's budget is refilled, then the request is
handled steadily, keeping who holds each slot, and at most one slot is given out. -/
theorem dispatch_steady (block : Block) :
    ∃ mid, Steady (station.hear block) mid ∧
      UnitTable.SameUnits (station.hear block).table mid.table ∧
      (station.dispatch block = mid ∨ ∃ serial, station.dispatch block = mid.assign serial) := by
  unfold dispatch hear
  cases block.unit? with
  | none =>
    dsimp only
    split
    · exact onEcho_steady block.data
    · exact ⟨station, .refl station, .refl _, .inl rfl⟩
  | some unit =>
    dsimp only
    cases UnitRequest.ofCode? block.command with
    | none => exact ⟨_, .refl _, .refl _, .inl rfl⟩
    | some request =>
      dsimp only
      by_cases echo : request = .probeEcho
      · rw [echo]
        exact onEcho_steady block.data
      · have live := station.table.isAlive_touch unit
        rcases (station.touchUnit unit).handle_steady live request block.data with
          ⟨echoed, -⟩ | steady
        · exact absurd echoed echo
        refine ⟨_, steady, ?_, .inl rfl⟩
        rcases (station.touchUnit unit).handle_cases unit request block.data with
          ⟨echoed, -⟩ | ⟨-, restart⟩ | quiet
        · exact absurd echoed echo
        · rw [restart]
          exact .refl _
        · exact quiet.units

end Station

/-! ## A poll -/

namespace UnitTable

theorem decay_snd (table : UnitTable) (unit : UInt8) :
    (table.decay unit).2 = decide ((table.lookup unit).alive = 1) := by
  unfold decay
  dsimp only
  split
  · rename_i spent
    simp [spent]
  · split
    · rename_i last
      simp [last]
    · rename_i _ more
      simp [more]

/-- A poll's decay of its own slot: nothing when spent, vacant at the last poll, one less else. -/
theorem get_decay_self (table : UnitTable) (unit : UInt8) :
    (table.decay unit).1.slots.get (slotIndex unit) =
      if (table.lookup unit).alive = 0 then table.lookup unit
      else if (table.lookup unit).alive = 1 then Slot.vacant
      else { table.lookup unit with alive := (table.lookup unit).alive - 1 } := by
  unfold decay
  dsimp only
  split
  · rw [lookup_eq_get]
  · split
    · rw [get_modify, if_pos rfl]
    · rw [get_modify, if_pos rfl]

end UnitTable

namespace Station

variable {σ : Type} {station : Station σ}

/-- **A poll reports a disconnection** exactly when it spends the last of the budget of a slot
discovery gave out. -/
theorem events_poll (slot : Fin 64) :
    (station.poll slot).events = station.events ++
      if (station.table.slots.get slot).alive = 1 ∧ (station.table.slots.get slot).assigned then
        [.disconnected slot.val.toUInt8 (station.table.slots.get slot).serial]
      else [] := by
  unfold poll
  dsimp only
  rw [lookup_toUInt8]
  split
  · rename_i dead
    have spent : (station.table.slots.get slot).alive = 0 := by
      simpa [Slot.isAlive] using dead
    rw [if_neg (by omega), List.append_nil]
  · rw [UnitTable.decay_snd, lookup_toUInt8]
    by_cases last : (station.table.slots.get slot).alive = 1 ∧
        (station.table.slots.get slot).assigned
    · rw [if_pos (by simpa [Station.send] using last), if_pos last]
      rfl
    · rw [if_neg (by simpa [Station.send] using last), if_neg last, List.append_nil]
      rfl

end Station

/-! ## Slots that are not live are vacant -/

namespace UnitTable

/-- **Every slot that is not live is vacant.** -/
def Tidy (table : UnitTable) : Prop :=
  ∀ index : Fin 64, (table.slots.get index).isAlive = false → table.slots.get index = Slot.vacant

theorem tidy_empty : empty.Tidy := fun index _ => by
  simp [empty, vector_get_eq_getElem]

variable {table : UnitTable}

theorem Tidy.touch (tidy : table.Tidy) (unit : UInt8) : (table.touch unit).Tidy := by
  intro index dead
  rw [get_touch] at dead ⊢
  by_cases same : slotIndex unit = index
  · rw [if_pos same] at dead
    cases dead
  · rw [if_neg same] at dead ⊢
    exact tidy index dead

theorem Tidy.assign (tidy : table.Tidy) (unit : UInt8) (serial : UInt32) :
    (table.assign unit serial).Tidy := by
  intro index dead
  rw [get_assign] at dead ⊢
  by_cases same : slotIndex unit = index
  · rw [if_pos same] at dead
    cases dead
  · rw [if_neg same] at dead ⊢
    exact tidy index dead

theorem Tidy.decay (tidy : table.Tidy) (unit : UInt8) : (table.decay unit).1.Tidy := by
  intro index dead
  by_cases same : slotIndex unit = index
  · subst same
    rw [get_decay_self] at dead ⊢
    split
    · rename_i spent
      rw [if_pos spent] at dead
      rw [lookup_eq_get] at dead ⊢
      exact tidy _ dead
    · split
      · rfl
      · rename_i fresh more
        rw [if_neg fresh, if_neg more] at dead
        simp only [Slot.isAlive, decide_eq_false_iff_not] at dead
        omega
  · rw [get_decay_ne table same] at dead ⊢
    exact tidy index dead

end UnitTable

namespace Station

variable {σ : Type} {first second : Station σ}

theorem Steady.tidy (steady : Steady first second)
    (same : UnitTable.SameUnits first.table second.table) (tidy : first.table.Tidy) :
    second.table.Tidy := by
  intro index dead
  have deadFirst : (first.table.slots.get index).isAlive = false := by
    rw [← same.isAlive_eq index]
    exact dead
  rw [steady.dead index deadFirst]
  exact tidy index deadFirst

variable {station : Station σ}

theorem tidy_assign (tidy : station.table.Tidy) (serial : UInt32) :
    (station.assign serial).table.Tidy := by
  rcases station.assign_cases serial with ⟨-, same⟩ | ⟨slot, -, given⟩
  · rw [same]
    exact tidy
  · rw [given]
    exact tidy.assign _ serial

theorem tidy_poll (tidy : station.table.Tidy) (slot : Fin 64) : (station.poll slot).table.Tidy := by
  rw [table_poll]
  exact tidy.decay _

theorem tidy_hear (tidy : station.table.Tidy) (block : Block) :
    (station.hear block).table.Tidy := by
  unfold hear
  split
  · exact tidy.touch _
  · exact tidy

variable [Layout σ]

/-- Handling a received block, whatever it holds, leaves a slot not live only vacant. -/
theorem tidy_dispatch (tidy : station.table.Tidy) (block : Block) :
    (station.dispatch block).table.Tidy := by
  obtain ⟨mid, steady, same, result⟩ := station.dispatch_steady block
  have heard := steady.tidy same (tidy_hear tidy block)
  rcases result with handled | ⟨serial, handled⟩
  · rw [handled]
    exact heard
  · rw [handled]
    exact tidy_assign heard serial

/-- What every handled block keeps, the handling of the whole inbox keeps. -/
theorem foldl_dispatch_of (motive : Station σ → Prop)
    (kept : ∀ station block, motive station → motive (station.dispatch block)) (blocks : List Block)
    {start : Station σ} (holds : motive start) : motive (blocks.foldl dispatch start) := by
  induction blocks generalizing start with
  | nil => exact holds
  | cons block blocks ih => exact ih (kept _ block holds)

theorem tidy_step (tidy : station.table.Tidy) : station.step.table.Tidy := by
  have drained : station.drain.table.Tidy :=
    foldl_dispatch_of (fun station => station.table.Tidy)
      (fun _ block tidy => tidy_dispatch tidy block) _ tidy
  rw [step_eq, table_advance]
  unfold act
  split
  · exact tidy_poll drained _
  · exact drained
  · exact drained

/-- **A slot that is not live is vacant**, on every station a fresh one can become. -/
theorem tidy_of_exposed (exposed : station.Exposed) : station.table.Tidy := by
  induction exposed with
  | new layout config => exact UnitTable.tidy_empty
  | receive blocks _ tidy => exact tidy
  | step _ tidy => exact tidy_step tidy
  | update change _ tidy => exact tidy
  | updateFirmware image _ tidy =>
    unfold updateFirmware
    split <;> exact tidy
  | updateFirmwareHex text _ tidy =>
    unfold updateFirmwareHex updateFirmware
    split
    · exact tidy
    · split <;> exact tidy

end Station

/-! ## Connection reports follow the slots -/

namespace Slot

/-- The connection a slot stands for: its serial, when discovery gave it out. -/
def connection (slot : Slot) : Option UInt32 :=
  if slot.assigned then some slot.serial else none

end Slot

/-- A slot is held as given out exactly when the last report is its connection. -/
theorem Reports.assigned_iff {unit : UInt8} {events : List Event} {slot : Slot}
    (reports : Reports unit events slot.connection) :
    slot.assigned = true ↔ events.getLast? = some (.connected unit slot.serial) := by
  unfold Slot.connection at reports
  cases given : slot.assigned with
  | true =>
    rw [given, if_pos rfl] at reports
    exact ⟨fun _ => reports.getLast_of_open, fun _ => rfl⟩
  | false =>
    rw [given] at reports
    exact ⟨fun given => (Bool.false_ne_true given).elim,
      fun last => absurd last (reports.getLast_of_closed _)⟩


theorem toUInt8_inj {slot other : Fin 64} (same : slot.val.toUInt8 = other.val.toUInt8) :
    slot = other := by
  rw [← Station.slotIndex_toUInt8 slot, same, Station.slotIndex_toUInt8]

theorem concerns_connected (slot other : Fin 64) (serial : UInt32) :
    (Event.connected other.val.toUInt8 serial).concerns slot = decide (other = slot) := by
  rw [Bool.eq_iff_iff]
  simp only [Event.concerns, beq_iff_eq, decide_eq_true_eq]
  exact ⟨toUInt8_inj, fun same => same ▸ rfl⟩

theorem concerns_disconnected (slot other : Fin 64) (serial : UInt32) :
    (Event.disconnected other.val.toUInt8 serial).concerns slot = decide (other = slot) := by
  rw [Bool.eq_iff_iff]
  simp only [Event.concerns, beq_iff_eq, decide_eq_true_eq]
  exact ⟨toUInt8_inj, fun same => same ▸ rfl⟩

theorem connectionsOf_concat (slot : Fin 64) (events : List Event) (event : Event) :
    connectionsOf slot (events ++ [event]) =
      connectionsOf slot events ++ if event.concerns slot then [event] else [] := by
  unfold connectionsOf
  rw [List.filter_append]
  split <;> simp_all

namespace UnitTable

/-- A poll's decay of a slot, read at that slot. -/
theorem get_decay_slot (table : UnitTable) (slot : Fin 64) :
    (table.decay slot.val.toUInt8).1.slots.get slot =
      if (table.slots.get slot).alive = 0 then table.slots.get slot
      else if (table.slots.get slot).alive = 1 then Slot.vacant
      else { table.slots.get slot with alive := (table.slots.get slot).alive - 1 } := by
  have self := table.get_decay_self slot.val.toUInt8
  rwa [Station.slotIndex_toUInt8, Station.lookup_toUInt8] at self

end UnitTable

namespace Station

variable {σ : Type}

/-- **The reports of every slot follow the slot**: read as a connection protocol, the reports
concerning a slot leave open exactly the connection the slot stands for. -/
def Paired (station : Station σ) : Prop :=
  ∀ slot : Fin 64,
    Reports slot.val.toUInt8 (connectionsOf slot station.events)
      (station.table.slots.get slot).connection

variable {first second : Station σ}

/-- A change that keeps what every slot stands for and reports no connection keeps the pairing. -/
theorem Paired.of_calm (paired : first.Paired)
    (connections : ∀ index : Fin 64,
      (second.table.slots.get index).connection = (first.table.slots.get index).connection)
    (events : ∃ raised, second.events = first.events ++ raised ∧
      ∀ event ∈ raised, event.isConnection = false) : second.Paired := by
  intro slot
  obtain ⟨raised, events, calm⟩ := events
  rw [events, connectionsOf_append_calm slot _ calm, connections slot]
  exact paired slot

theorem Steady.paired (steady : Steady first second)
    (same : UnitTable.SameUnits first.table second.table) (paired : first.Paired) :
    second.Paired :=
  paired.of_calm (fun index => by simp only [Slot.connection, (same index).1, (same index).2.2])
    steady.events

variable {station : Station σ}

theorem paired_hear (paired : station.Paired) (block : Block) : (station.hear block).Paired := by
  unfold hear
  split
  · refine paired.of_calm (fun index => ?_) ⟨[], by simp [touchUnit], by simp⟩
    simp only [touchUnit]
    rw [UnitTable.get_touch]
    split
    · rename_i same
      rw [← same, ← UnitTable.lookup_eq_get]
      rfl
    · rfl
  · exact paired

/-- **An assignment opens the connection of its slot**, and reports it. -/
theorem paired_assign (paired : station.Paired) (serial : UInt32) :
    (station.assign serial).Paired := by
  rcases station.assign_cases serial with ⟨-, same⟩ | ⟨given, -, assigned⟩
  · rw [same]
    exact paired
  · rw [assigned]
    intro slot
    show Reports _ (connectionsOf slot (station.events ++ [.connected given.val.toUInt8 serial]))
      ((station.table.assign given.val.toUInt8 serial).slots.get slot).connection
    rw [connectionsOf_concat, concerns_connected, UnitTable.get_assign, Station.slotIndex_toUInt8]
    by_cases same : given = slot
    · subst same
      simp only [decide_true, if_true]
      exact .connect serial (paired given)
    · simp only [same, decide_false]
      simpa using paired slot

/-- **A poll closes the connection of a slot it vacates**, reporting the disconnection only when
discovery gave the slot out. -/
theorem paired_poll (paired : station.Paired) (polled : Fin 64) : (station.poll polled).Paired := by
  intro slot
  rw [events_poll, table_poll]
  by_cases same : polled = slot
  · subst same
    rw [UnitTable.get_decay_slot]
    have current := paired polled
    -- the three budgets a poll can meet: spent, the last poll, and more left
    by_cases spent : (station.table.slots.get polled).alive = 0
    · rw [if_neg (by omega), if_pos spent, List.append_nil]
      exact current
    by_cases last : (station.table.slots.get polled).alive = 1
    · rw [if_neg spent, if_pos last]
      cases given : (station.table.slots.get polled).assigned with
      | true =>
        rw [if_pos ⟨last, rfl⟩, connectionsOf_concat, concerns_disconnected,
          if_pos (decide_eq_true rfl)]
        rw [Slot.connection, if_pos given] at current
        exact .disconnect current
      | false =>
        rw [if_neg (fun both => by cases both.2), List.append_nil]
        rw [Slot.connection, if_neg (by rw [given]; decide)] at current
        exact current
    · rw [if_neg (by omega), if_neg spent, if_neg last, List.append_nil]
      exact current
  · rw [UnitTable.get_decay_ne _ (by rwa [Station.slotIndex_toUInt8])]
    split
    · rw [connectionsOf_concat, concerns_disconnected, decide_eq_false same, if_neg (by simp),
        List.append_nil]
      exact paired slot
    · rw [List.append_nil]
      exact paired slot

variable [Layout σ]

theorem paired_dispatch (paired : station.Paired) (block : Block) :
    (station.dispatch block).Paired := by
  obtain ⟨mid, steady, same, result⟩ := station.dispatch_steady block
  have heard := steady.paired same (paired_hear paired block)
  rcases result with handled | ⟨serial, handled⟩
  · rw [handled]
    exact heard
  · rw [handled]
    exact paired_assign heard serial

theorem paired_step (paired : station.Paired) : station.step.Paired := by
  have drained : station.drain.Paired :=
    foldl_dispatch_of (fun station => station.Paired)
      (fun _ block paired => paired_dispatch paired block) _ paired
  have acted : station.drain.act.Paired := by
    unfold act
    split
    · exact paired_poll drained _
    · exact drained
    · exact drained
  rw [step_eq]
  exact acted.of_calm (fun index => by rw [table_advance])
    ⟨[], by rw [events_advance, List.append_nil], by simp⟩

/-- **Every station a fresh one can become keeps its reports paired with its slots.** -/
theorem paired_of_exposed (exposed : station.Exposed) : station.Paired := by
  induction exposed with
  | new layout config =>
    intro slot
    have vacant : (Station.new layout config).table.slots.get slot = Slot.vacant := by
      simp [Station.new, UnitTable.empty, vector_get_eq_getElem]
    rw [vacant]
    exact .nil
  | receive blocks _ paired => exact paired
  | step _ paired => exact paired_step paired
  | update change _ paired => exact paired
  | updateFirmware image _ paired =>
    unfold updateFirmware
    split <;> exact paired
  | updateFirmwareHex text _ paired =>
    unfold updateFirmwareHex updateFirmware
    split
    · exact paired
    · split <;> exact paired

end Station

/-! ## Budgets and polls -/

namespace Block

theorem unitIndex?_unitAddress (unit : UInt8) :
    unitIndex? (unitAddress unit) = some (unit &&& 0x3f) := by
  revert unit
  refine forall_uint8_iff.mpr ?_
  decide +kernel

/-- The slot a received block designates is below 64. -/
theorem toNat_lt_of_unit? {block : Block} {unit : UInt8} (found : block.unit? = some unit) :
    unit.toNat < 64 := by
  unfold unit? unitIndex? at found
  split at found
  · cases found
    rw [UInt8.toNat_and]
    exact Nat.lt_of_le_of_lt Nat.and_le_right (by decide)
  · cases found

/-- A received block is from a slot exactly when its unit byte is the slot's. -/
theorem slotIndex_eq_iff {block : Block} {unit : UInt8} (found : block.unit? = some unit)
    (slot : Fin 64) : slotIndex unit = slot ↔ unit = slot.val.toUInt8 := by
  have below := toNat_lt_of_unit? found
  constructor
  · intro same
    apply UInt8.toNat_inj.mp
    have read := congrArg Fin.val same
    simp only [slotIndex] at read
    simp only [Nat.toUInt8, UInt8.toNat_ofNat']
    omega
  · rintro rfl
    exact Station.slotIndex_toUInt8 slot

end Block

namespace Station

variable {σ : Type} {station : Station σ}

theorem unit?_pingTo (slot : Fin 64) : (pingTo slot).unit? = some slot.val.toUInt8 := by
  have low : ∀ slot : Fin 64, slot.val.toUInt8 &&& 0x3f = slot.val.toUInt8 := by decide
  exact (Block.unitIndex?_unitAddress _).trans (congrArg some (low slot))

theorem pingTo_inj {slot other : Fin 64} (same : pingTo slot = pingTo other) : slot = other := by
  have read := congrArg Block.unit? same
  rw [unit?_pingTo, unit?_pingTo] at read
  exact toUInt8_inj (Option.some.inj read)

theorem command_pingTo (slot : Fin 64) : (pingTo slot).command = Code.ping := rfl

/-- Blocks that are no keepalive polls hold no poll to any slot. -/
theorem count_pingTo_eq_zero {blocks : List Block}
    (other : ∀ block ∈ blocks, block.command ≠ Code.ping) (slot : Fin 64) :
    blocks.count (pingTo slot) = 0 :=
  List.count_eq_zero.mpr fun member => other _ member (command_pingTo slot)

/-- Hearing a block refills the budget of its sender's slot alone. -/
theorem alive_hear (block : Block) (slot : Fin 64) :
    ((station.hear block).table.slots.get slot).alive =
      if block.unit? = some slot.val.toUInt8 then aliveBudget
      else (station.table.slots.get slot).alive := by
  unfold hear
  cases found : block.unit? with
  | none => simp
  | some unit =>
    show ((station.table.touch unit).slots.get slot).alive = _
    rw [UnitTable.get_touch]
    by_cases same : slotIndex unit = slot
    · rw [if_pos same, if_pos (congrArg some ((Block.slotIndex_eq_iff found slot).mp same))]
    · rw [if_neg same, if_neg (fun heard => same ((Block.slotIndex_eq_iff found slot).mpr
        (Option.some.inj heard)))]

end Station

namespace Event

/-- Whether a report is of the unit of a slot connecting. -/
def connects (slot : Fin 64) : Event → Bool
  | .connected unit _ => unit == slot.val.toUInt8
  | _ => false

theorem isConnection_of_connects {event : Event} {slot : Fin 64}
    (connecting : event.connects slot) : event.isConnection = true := by
  cases event with
  | connected unit serial => rfl
  | disconnected unit serial => rfl
  | locoChanged loco => cases connecting

end Event

/-- Whether reports raised name the unit of a slot connecting. -/
def Assigns (slot : Fin 64) (raised : List Event) : Prop :=
  ∃ event ∈ raised, event.connects slot = true

instance (slot : Fin 64) (raised : List Event) : Decidable (Assigns slot raised) :=
  inferInstanceAs (Decidable (∃ event ∈ raised, event.connects slot = true))

theorem assigns_append {slot : Fin 64} {first second : List Event} :
    Assigns slot (first ++ second) ↔ Assigns slot first ∨ Assigns slot second := by
  simp only [Assigns, List.mem_append, or_and_right, exists_or]

theorem not_assigns_of_calm {slot : Fin 64} {raised : List Event}
    (calm : ∀ event ∈ raised, event.isConnection = false) : ¬ Assigns slot raised :=
  fun ⟨event, member, connecting⟩ => by
    have connection := Event.isConnection_of_connects connecting
    rw [calm event member] at connection
    cases connection

theorem assigns_connected {slot other : Fin 64} {serial : UInt32} :
    Assigns slot [.connected other.val.toUInt8 serial] ↔ other = slot := by
  simp only [Assigns, List.mem_singleton, exists_eq_left, Event.connects, beq_iff_eq]
  exact ⟨toUInt8_inj, fun same => same ▸ rfl⟩

namespace Station

variable {σ : Type} {station : Station σ}

theorem bus_hear (block : Block) : (station.hear block).bus = station.bus := by
  unfold hear
  split <;> rfl

theorem events_hear (block : Block) : (station.hear block).events = station.events := by
  unfold hear
  split <;> rfl

variable [Layout σ]

/-- **What a block does to a slot's budget**: it sends no poll, and the budget is refilled when
the block is from the slot or the slot is given out, and kept otherwise. -/
theorem dispatch_budget (block : Block) (slot : Fin 64) :
    ∃ blocks raised,
      (station.dispatch block).bus = { station.bus with sent := station.bus.sent ++ blocks } ∧
      (∀ sent ∈ blocks, sent.command ≠ Code.ping) ∧
      (station.dispatch block).events = station.events ++ raised ∧
      ((station.dispatch block).table.slots.get slot).alive =
        if block.unit? = some slot.val.toUInt8 ∨ Assigns slot raised then aliveBudget
        else (station.table.slots.get slot).alive := by
  obtain ⟨mid, steady, same, result⟩ := station.dispatch_steady block
  obtain ⟨sentMid, busMid, quietMid⟩ := steady.sent
  obtain ⟨raisedMid, eventsMid, calmMid⟩ := steady.events
  rw [bus_hear] at busMid
  rw [events_hear] at eventsMid
  have aliveMid : (mid.table.slots.get slot).alive =
      if block.unit? = some slot.val.toUInt8 then aliveBudget
      else (station.table.slots.get slot).alive := by
    rw [← alive_hear]
    exact (same slot).2.1
  have keptMid : ∃ blocks raised,
      mid.bus = { station.bus with sent := station.bus.sent ++ blocks } ∧
      (∀ sent ∈ blocks, sent.command ≠ Code.ping) ∧ mid.events = station.events ++ raised ∧
      (mid.table.slots.get slot).alive =
        if block.unit? = some slot.val.toUInt8 ∨ Assigns slot raised then aliveBudget
        else (station.table.slots.get slot).alive := by
    refine ⟨sentMid, raisedMid, busMid, quietMid, eventsMid, ?_⟩
    rw [aliveMid]
    simp only [not_assigns_of_calm calmMid, or_false]
  rcases result with handled | ⟨serial, handled⟩
  · rw [handled]
    exact keptMid
  rw [handled]
  rcases mid.assign_cases serial with ⟨-, none⟩ | ⟨given, -, assigned⟩
  · rw [none]
    exact keptMid
  -- the assignment sends the unit its address and reports it connecting
  rw [assigned]
  refine ⟨sentMid ++ [Block.toUnit given.val.toUInt8 Code.setUnitAddress
    (dataOf ((partsOf serial).toList ++ [given.val.toUInt8]))],
    raisedMid ++ [.connected given.val.toUInt8 serial], ?_, ?_, ?_, ?_⟩
  · simp only [Station.send, Station.emit, Bus.send, busMid, List.append_assoc]
  · intro sent member
    rcases List.mem_append.mp member with early | address
    · exact quietMid sent early
    · rw [List.mem_singleton.mp address]
      exact command_toUnit_ne_ping (by decide) _ _
  · simp only [Station.send, Station.emit, eventsMid, List.append_assoc]
  · show ((mid.table.assign given.val.toUInt8 serial).slots.get slot).alive = _
    rw [UnitTable.get_assign, slotIndex_toUInt8]
    simp only [assigns_append, assigns_connected, not_assigns_of_calm calmMid, false_or]
    by_cases chosen : given = slot
    · rw [if_pos chosen, if_pos (.inr chosen)]
    · rw [if_neg chosen, aliveMid]
      by_cases heard : block.unit? = some slot.val.toUInt8
      · rw [if_pos heard, if_pos (.inl heard)]
      · rw [if_neg heard, if_neg (by simp [heard, chosen])]

end Station

namespace Station

variable {σ : Type} {station : Station σ}

theorem bus_poll (polled : Fin 64) :
    (station.poll polled).bus = { station.bus with sent := station.bus.sent ++
      if (station.table.slots.get polled).isAlive then [pingTo polled] else [] } := by
  unfold poll
  dsimp only
  rw [lookup_toUInt8]
  split
  · rename_i dead
    simp only [Bool.not_eq_true'] at dead
    rw [dead, if_neg Bool.false_ne_true, List.append_nil]
  · rename_i live
    have live : (station.table.slots.get polled).isAlive = true := by simpa using live
    rw [live, if_pos rfl]
    split <;> rfl

/-- **A poll spends what it sends**: the budget of a slot and the polls sent to it add up to the
budget before, and the poll reports no unit connecting. -/
theorem poll_budget (polled slot : Fin 64) :
    ∃ blocks raised,
      (station.poll polled).bus = { station.bus with sent := station.bus.sent ++ blocks } ∧
      (station.poll polled).events = station.events ++ raised ∧ ¬ Assigns slot raised ∧
      ((station.poll polled).table.slots.get slot).alive + blocks.count (pingTo slot) =
        (station.table.slots.get slot).alive := by
  refine ⟨_, _, bus_poll polled, events_poll polled, ?_, ?_⟩
  · split
    · simp [Assigns, Event.connects]
    · simp [Assigns]
  rw [table_poll]
  by_cases same : polled = slot
  · subst same
    rw [UnitTable.get_decay_slot]
    -- the three budgets a poll can meet: spent, the last poll, and more left
    by_cases spent : (station.table.slots.get polled).alive = 0
    · have dead : (station.table.slots.get polled).isAlive = false := by
        simp only [Slot.isAlive, spent]
        decide
      rw [if_pos spent, dead, if_neg Bool.false_ne_true]
      simp
    · have live : (station.table.slots.get polled).isAlive = true := by
        simpa [Slot.isAlive] using Nat.pos_of_ne_zero spent
      rw [if_neg spent, live, if_pos rfl, List.count_singleton_self]
      split
      · rename_i last
        simp only [Slot.vacant]
        omega
      · dsimp only
        omega
  · rw [UnitTable.get_decay_ne _ (by rwa [slotIndex_toUInt8])]
    split
    · rw [List.count_singleton, if_neg (fun other => same (pingTo_inj (beq_iff_eq.mp other))),
        Nat.add_zero]
    · rw [List.count_nil, Nat.add_zero]

variable [Layout σ]

/-- **The scheduled action spends what it sends**: it polls at most the slot of its position. -/
theorem act_budget (slot : Fin 64) :
    ∃ blocks raised,
      station.act.bus = { station.bus with sent := station.bus.sent ++ blocks } ∧
      station.act.events = station.events ++ raised ∧ ¬ Assigns slot raised ∧
      (station.act.table.slots.get slot).alive + blocks.count (pingTo slot) =
        (station.table.slots.get slot).alive := by
  unfold act
  split
  · exact poll_budget _ slot
  · refine ⟨[Block.broadcast Code.probe station.discovery.current.toData], [], rfl,
      (List.append_nil _).symm, by simp [Assigns], ?_⟩
    rw [count_pingTo_eq_zero (by simp [Code.probe, Code.ping]) slot]
    rfl
  · refine ⟨[Block.broadcast Code.status (dataOf [(Layout.mode station.layout).toByte,
      ({ round := station.round,
         state := Fin.ofNat 16 (Layout.turnoutRefresh station.layout
           station.round.val.toUInt8).toNat } : Refresh).toByte])], [], rfl,
      (List.append_nil _).symm, by simp [Assigns], ?_⟩
    rw [count_pingTo_eq_zero (by simp [Code.status, Code.ping]) slot]
    rfl

end Station

namespace Station

variable {σ : Type} [Layout σ]

/-- **Handling received blocks spends nothing**: a slot's budget is refilled when a block is from
the slot or the slot is given out, and is kept otherwise; no poll is sent. -/
theorem foldl_budget (slot : Fin 64) (blocks : List Block) (start : Station σ) :
    ∃ sent raised,
      (blocks.foldl dispatch start).bus = { start.bus with sent := start.bus.sent ++ sent } ∧
      (∀ block ∈ sent, block.command ≠ Code.ping) ∧
      (blocks.foldl dispatch start).events = start.events ++ raised ∧
      ((blocks.foldl dispatch start).table.slots.get slot).alive =
        if (∃ block ∈ blocks, block.unit? = some slot.val.toUInt8) ∨ Assigns slot raised
        then aliveBudget else (start.table.slots.get slot).alive := by
  induction blocks generalizing start with
  | nil => exact ⟨[], [], by simp, by simp, by simp, by simp [Assigns]⟩
  | cons block blocks ih =>
    obtain ⟨sentFirst, raisedFirst, busFirst, quietFirst, eventsFirst, aliveFirst⟩ :=
      start.dispatch_budget block slot
    obtain ⟨sentRest, raisedRest, busRest, quietRest, eventsRest, aliveRest⟩ :=
      ih (start.dispatch block)
    refine ⟨sentFirst ++ sentRest, raisedFirst ++ raisedRest, ?_, ?_, ?_, ?_⟩
    · rw [List.foldl_cons, busRest, busFirst]
      simp
    · intro sent member
      rcases List.mem_append.mp member with early | late
      · exact quietFirst sent early
      · exact quietRest sent late
    · rw [List.foldl_cons, eventsRest, eventsFirst, List.append_assoc]
    · rw [List.foldl_cons, aliveRest, aliveFirst]
      -- a refill by a later block, or else by the first one
      simp only [List.mem_cons, exists_eq_or_imp, assigns_append]
      have either : ((block.unit? = some slot.val.toUInt8 ∨
          ∃ block ∈ blocks, block.unit? = some slot.val.toUInt8) ∨
          Assigns slot raisedFirst ∨ Assigns slot raisedRest) ↔
          ((∃ block ∈ blocks, block.unit? = some slot.val.toUInt8) ∨ Assigns slot raisedRest) ∨
          (block.unit? = some slot.val.toUInt8 ∨ Assigns slot raisedFirst) :=
        or_or_or_comm.trans or_comm
      rw [if_congr either rfl rfl]
      conv_rhs => rw [ite_or]

/-- Handling the whole inbox: what `foldl_budget` says of the blocks waiting. -/
theorem drain_budget (station : Station σ) (slot : Fin 64) :
    ∃ sent raised,
      station.drain.bus = { station.bus with inbox := [], sent := station.bus.sent ++ sent } ∧
      (∀ block ∈ sent, block.command ≠ Code.ping) ∧
      station.drain.events = station.events ++ raised ∧
      (station.drain.table.slots.get slot).alive =
        if (∃ block ∈ station.bus.inbox, block.unit? = some slot.val.toUInt8) ∨ Assigns slot raised
        then aliveBudget else (station.table.slots.get slot).alive := by
  obtain ⟨sent, raised, bus, quiet, events, alive⟩ :=
    foldl_budget slot station.bus.inbox { station with bus := { station.bus with inbox := [] } }
  refine ⟨sent, raised, ?_, quiet, events, alive⟩
  unfold drain
  rw [bus]

/-- **What a turn does to a slot's budget**: it ends with the inbox handled, and the budget left
and the polls sent to the slot add up to the budget refilled, when a block waiting was from the
slot or the slot was given out, and to the budget before otherwise. -/
theorem step_budget (station : Station σ) (slot : Fin 64) :
    ∃ blocks raised,
      station.step.bus = { station.bus with inbox := [], sent := station.bus.sent ++ blocks } ∧
      station.step.events = station.events ++ raised ∧
      (station.step.table.slots.get slot).alive + blocks.count (pingTo slot) =
        if (∃ block ∈ station.bus.inbox, block.unit? = some slot.val.toUInt8) ∨ Assigns slot raised
        then aliveBudget else (station.table.slots.get slot).alive := by
  obtain ⟨sentDrain, raisedDrain, busDrain, quietDrain, eventsDrain, aliveDrain⟩ :=
    station.drain_budget slot
  obtain ⟨sentAct, raisedAct, busAct, eventsAct, calmAct, aliveAct⟩ := station.drain.act_budget slot
  refine ⟨sentDrain ++ sentAct, raisedDrain ++ raisedAct, ?_, ?_, ?_⟩
  · rw [step_eq, bus_advance, busAct, busDrain]
    simp
  · rw [step_eq, events_advance, eventsAct, eventsDrain, List.append_assoc]
  · rw [step_eq, table_advance, List.count_append, count_pingTo_eq_zero quietDrain, Nat.zero_add,
      aliveAct, aliveDrain]
    simp only [assigns_append, calmAct, or_false]

/-- **A run of turns**: before each, the station receives a batch of blocks. -/
def turns (station : Station σ) : List (List Block) → Station σ
  | [] => station
  | blocks :: rest => (station.receive blocks).step.turns rest

theorem Exposed.turns {station : Station σ} (exposed : station.Exposed) :
    ∀ batches, (station.turns batches).Exposed
  | [] => exposed
  | blocks :: rest => (Exposed.step (.receive blocks exposed)).turns rest

/-- **Turns that neither hear a slot nor give it out spend its budget poll by poll.** -/
theorem turns_budget (slot : Fin 64) (batches : List (List Block)) {station : Station σ}
    (empty : station.bus.inbox = [])
    (unheard : ∀ blocks ∈ batches, ∀ block ∈ blocks, block.unit? ≠ some slot.val.toUInt8) :
    ∃ blocks raised,
      (station.turns batches).bus.sent = station.bus.sent ++ blocks ∧
      (station.turns batches).events = station.events ++ raised ∧
      (¬ Assigns slot raised →
        ((station.turns batches).table.slots.get slot).alive + blocks.count (pingTo slot) =
          (station.table.slots.get slot).alive) := by
  induction batches generalizing station with
  | nil => exact ⟨[], [], by simp [turns], by simp [turns], fun _ => by simp [turns]⟩
  | cons batch rest ih =>
    obtain ⟨sentTurn, raisedTurn, busTurn, eventsTurn, aliveTurn⟩ :=
      (station.receive batch).step_budget slot
    have emptied : (station.receive batch).step.bus.inbox = [] := by rw [busTurn]
    obtain ⟨sentRest, raisedRest, sentLater, eventsLater, aliveLater⟩ :=
      ih emptied fun blocks member => unheard blocks (.tail _ member)
    refine ⟨sentTurn ++ sentRest, raisedTurn ++ raisedRest, ?_, ?_, fun unassigned => ?_⟩
    · rw [turns, sentLater, busTurn, List.append_assoc]
      rfl
    · rw [turns, eventsLater, eventsTurn, List.append_assoc]
      rfl
    · rw [assigns_append, not_or] at unassigned
      have heard : ¬ ∃ block ∈ (station.receive batch).bus.inbox,
          block.unit? = some slot.val.toUInt8 := by
        rintro ⟨block, member, sender⟩
        rw [show (station.receive batch).bus.inbox = station.bus.inbox ++ batch from rfl, empty,
          List.nil_append] at member
        exact unheard batch (.head _) block member sender
      rw [if_neg (fun refilled => refilled.elim heard unassigned.1)] at aliveTurn
      have later := aliveLater unassigned.2
      have kept : (station.receive batch).table = station.table := rfl
      rw [kept] at aliveTurn
      rw [turns, List.count_append]
      omega

end Station

namespace Station

variable {σ : Type} [Layout σ]

/-- The keepalive polls sent to a slot since the station was `start`. -/
def pingsSince (start now : Station σ) (slot : Fin 64) : Nat :=
  (now.bus.sent.drop start.bus.sent.length).count (pingTo slot)

/-- **From a refill on, the budget and the polls add up to `aliveBudget`.** Take a turn in which
the slot is heard or given out, then turns in which it is neither: after them the polls sent to
the slot since the refill number at most `aliveBudget`, the budget is what they left of it, and the
slot is vacant exactly when they used it all. -/
theorem budget_add_pings {station : Station σ} (exposed : station.Exposed) (slot : Fin 64)
    (refill : List Block) (later : List (List Block))
    (refilled : (∃ block ∈ station.bus.inbox ++ refill, block.unit? = some slot.val.toUInt8) ∨
      Assigns slot ((station.turns [refill]).events.drop station.events.length))
    (unheard : ∀ blocks ∈ later, ∀ block ∈ blocks, block.unit? ≠ some slot.val.toUInt8)
    (unassigned : ¬ Assigns slot ((station.turns (refill :: later)).events.drop
      (station.turns [refill]).events.length)) :
    pingsSince station (station.turns (refill :: later)) slot ≤ aliveBudget ∧
      ((station.turns (refill :: later)).table.slots.get slot).alive =
        aliveBudget - pingsSince station (station.turns (refill :: later)) slot ∧
      ((station.turns (refill :: later)).table.slots.get slot = Slot.vacant ↔
        pingsSince station (station.turns (refill :: later)) slot = aliveBudget) := by
  obtain ⟨sentTurn, raisedTurn, busTurn, eventsTurn, aliveTurn⟩ :=
    (station.receive refill).step_budget slot
  have emptied : (station.receive refill).step.bus.inbox = [] := by rw [busTurn]
  obtain ⟨sentRest, raisedRest, sentLater, eventsLater, aliveLater⟩ :=
    turns_budget slot later emptied unheard
  -- the first turn refills the slot, and the later ones do not give it out
  have refilledTurn : (∃ block ∈ (station.receive refill).bus.inbox,
      block.unit? = some slot.val.toUInt8) ∨ Assigns slot raisedTurn := by
    have raised : (station.turns [refill]).events.drop station.events.length = raisedTurn := by
      show (station.receive refill).step.events.drop _ = _
      rw [eventsTurn]
      exact List.drop_left
    rw [raised] at refilled
    exact refilled
  rw [if_pos refilledTurn] at aliveTurn
  have quietLater : ¬ Assigns slot raisedRest := by
    have raised : (station.turns (refill :: later)).events.drop
        (station.turns [refill]).events.length = raisedRest := by
      show ((station.receive refill).step.turns later).events.drop _ = _
      rw [eventsLater]
      exact List.drop_left
    rwa [raised] at unassigned
  have kept := aliveLater quietLater
  have pings : pingsSince station (station.turns (refill :: later)) slot =
      sentTurn.count (pingTo slot) + sentRest.count (pingTo slot) := by
    show ((((station.receive refill).step.turns later).bus.sent).drop _).count _ = _
    rw [sentLater, busTurn]
    show ((station.bus.sent ++ sentTurn ++ sentRest).drop _).count _ = _
    rw [List.append_assoc, List.drop_left, List.count_append]
  have tidy := tidy_of_exposed (exposed.turns (refill :: later))
  have final : (station.turns (refill :: later)).table =
      ((station.receive refill).step.turns later).table := rfl
  rw [pings, final]
  refine ⟨by omega, by omega, ⟨fun vacant => ?_, fun spent => ?_⟩⟩
  · rw [vacant] at kept
    simp only [Slot.vacant] at kept
    omega
  · have dead :
        (((station.receive refill).step.turns later).table.slots.get slot).isAlive = false := by
      simp only [Slot.isAlive, decide_eq_false_iff_not]
      omega
    exact tidy slot dead

/-- **A slot that is not live is not polled**: a turn whose handled blocks leave the slot not
live sends it no keepalive poll. -/
theorem no_ping_of_dead (station : Station σ) {slot : Fin 64}
    (dead : (station.drain.table.slots.get slot).isAlive = false) :
    pingTo slot ∉ station.step.bus.sent.drop station.bus.sent.length := by
  obtain ⟨sentDrain, -, busDrain, quietDrain, -⟩ := station.drain_budget slot
  obtain ⟨sentAct, -, busAct, -, -, aliveAct⟩ := station.drain.act_budget slot
  have spent : (station.drain.table.slots.get slot).alive = 0 := by
    simpa [Slot.isAlive] using dead
  have sent : station.step.bus.sent = station.bus.sent ++ (sentDrain ++ sentAct) := by
    rw [step_eq, bus_advance, busAct, busDrain, List.append_assoc]
  rw [sent, List.drop_left]
  refine List.count_eq_zero.mp ?_
  rw [List.count_append, count_pingTo_eq_zero quietDrain]
  omega

/-- **A slot not given out reports nothing when a poll vacates it**: the scheduled action of a
turn adds no report of a slot that, its blocks handled, discovery did not give out. -/
theorem connectionsOf_step_of_unassigned (station : Station σ) {slot : Fin 64}
    (unassigned : (station.drain.table.slots.get slot).assigned = false) :
    connectionsOf slot station.step.events = connectionsOf slot station.drain.events := by
  rw [step_eq, events_advance]
  unfold act
  split
  · rename_i polled _
    rw [events_poll]
    split
    · rename_i last
      have other : polled ≠ slot := by
        rintro rfl
        rw [unassigned] at last
        cases last.2
      rw [connectionsOf_concat, concerns_disconnected, decide_eq_false other, if_neg (by simp),
        List.append_nil]
    · rw [List.append_nil]
  · rfl
  · rfl

end Station

namespace Station

/-- **Keepalive budgets and connection reports agree**, on every station a fresh one can become
and for every slot. A slot that is not live is vacant. From a turn that hears the slot or gives it
out, through turns that do neither, the budget and the polls sent to the slot add up to
`aliveBudget`, and the slot is vacated at the poll that spends the last of it. A turn polls no slot
that is not live once its blocks are handled. The slot is held as given out exactly when the last
report concerning it is its connection; every disconnection comes right after the connection of the
same serial, so each connection is closed at most once; and a slot discovery did not give out
reports nothing when a poll vacates it. -/
theorem keepalive_agrees_with_reports {σ : Type} [Layout σ] {station : Station σ}
    (exposed : station.Exposed) (slot : Fin 64) :
    ((station.table.slots.get slot).isAlive = false →
      station.table.slots.get slot = Slot.vacant) ∧
    (∀ (refill : List Block) (later : List (List Block)),
      ((∃ block ∈ station.bus.inbox ++ refill, block.unit? = some slot.val.toUInt8) ∨
        Assigns slot ((station.turns [refill]).events.drop station.events.length)) →
      (∀ blocks ∈ later, ∀ block ∈ blocks, block.unit? ≠ some slot.val.toUInt8) →
      ¬ Assigns slot ((station.turns (refill :: later)).events.drop
        (station.turns [refill]).events.length) →
      pingsSince station (station.turns (refill :: later)) slot ≤ aliveBudget ∧
        ((station.turns (refill :: later)).table.slots.get slot).alive =
          aliveBudget - pingsSince station (station.turns (refill :: later)) slot ∧
        ((station.turns (refill :: later)).table.slots.get slot = Slot.vacant ↔
          pingsSince station (station.turns (refill :: later)) slot = aliveBudget)) ∧
    ((station.drain.table.slots.get slot).isAlive = false →
      pingTo slot ∉ station.step.bus.sent.drop station.bus.sent.length) ∧
    ((station.table.slots.get slot).assigned = true ↔
      (connectionsOf slot station.events).getLast? =
        some (.connected slot.val.toUInt8 (station.table.slots.get slot).serial)) ∧
    (∀ (before : List Event) (serial : UInt32),
      before ++ [.disconnected slot.val.toUInt8 serial] <+: connectionsOf slot station.events →
        before.getLast? = some (.connected slot.val.toUInt8 serial)) ∧
    ((station.drain.table.slots.get slot).assigned = false →
      connectionsOf slot station.step.events = connectionsOf slot station.drain.events) := by
  have paired := paired_of_exposed exposed slot
  exact ⟨tidy_of_exposed exposed slot,
    fun refill later refilled unheard unassigned =>
      budget_add_pings exposed slot refill later refilled unheard unassigned,
    fun dead => no_ping_of_dead station dead,
    paired.assigned_iff,
    fun _ _ opening => paired.connected_before opening,
    fun unassigned => connectionsOf_step_of_unassigned station unassigned⟩

/-- A fresh station hears unit 5 and then takes three turns hearing nothing: it probes, broadcasts
the status and polls slot 5, whose budget is then one poll short of `aliveBudget`. Slot 7, never
heard, is not polled. -/
theorem keepalive_agrees_after_turns :
    let station := (Station.new ({} : Store) {}).receive [Block.toUnit 5 Code.ping (dataOf [])]
    let later := station.turns [[], [], []]
    pingsSince station later 5 = 1 ∧ (later.table.slots.get 5).alive = aliveBudget - 1 ∧
      ((station.drain.table.slots.get 7).isAlive = false →
        pingTo 7 ∉ station.step.bus.sent.drop station.bus.sent.length) := by
  intro station later
  have exposed : station.Exposed := .receive _ (.new _ _)
  obtain ⟨-, budget, -⟩ := keepalive_agrees_with_reports exposed 5
  have heard : ∃ block ∈ station.bus.inbox ++ [], block.unit? = some (5 : Fin 64).val.toUInt8 :=
    ⟨Block.toUnit 5 Code.ping (dataOf []), List.mem_append_left _ (List.mem_singleton_self _),
      by decide⟩
  have quiet : ∀ blocks ∈ ([[], []] : List (List Block)), ∀ block ∈ blocks,
      block.unit? ≠ some (5 : Fin 64).val.toUInt8 := by
    simp
  have unassigned : ¬ Assigns 5 ((station.turns [[], [], []]).events.drop
      (station.turns [[]]).events.length) := by decide +kernel
  have polled : pingsSince station later 5 = 1 := by decide +kernel
  obtain ⟨-, alive, -⟩ := budget [] [[], []] (.inl heard) quiet unassigned
  exact ⟨polled, alive.trans (by rw [polled]), (keepalive_agrees_with_reports exposed 7).2.2.1⟩

end Station

end RailBus
