import Mathlib
import RailBus.Proofs.Station.Rotation

/-!
# Turns that give no address

A station that has received nothing takes its turn by polling, probing or broadcasting its status:
it sends no address and reports no unit connecting. Off discovery the schedule reaches the next
probe in at most 65 turns, one turn nearer with each.
-/

namespace RailBus

/-- Whether a report is of a unit connecting. -/
def Event.isConnected : Event → Bool
  | .connected _ _ => true
  | _ => false

namespace UnitTable

/-- A slot that is not live stays so when a poll spends a budget. -/
theorem isAlive_decay_of_dead (table : UnitTable) (unit : UInt8) {index : Fin 64}
    (dead : (table.slots.get index).isAlive = false) :
    ((table.decay unit).1.slots.get index).isAlive = false := by
  by_cases same : slotIndex unit = index
  · have spent : (table.lookup unit).alive = 0 := by
      simpa [lookup, same, Slot.isAlive, vector_get_eq_getElem] using dead
    unfold decay
    rw [if_pos spent]
    exact dead
  · rw [get_decay_ne table same]
    exact dead

end UnitTable

namespace Block

@[simp]
theorem command_toUnit (unit command : UInt8) (data : Vector UInt8 6) :
    (toUnit unit command data).command = command := rfl

@[simp]
theorem command_broadcast (command : UInt8) (data : Vector UInt8 6) :
    (broadcast command data).command = command := rfl

end Block

namespace Station

variable {σ : Type}

/-- From `before` to `after` the station sent only blocks that give no address, and reported no
unit connecting. -/
structure Unaddressed (before after : Station σ) : Prop where
  sent : ∃ blocks, after.bus.sent = before.bus.sent ++ blocks ∧
    ∀ block ∈ blocks, block.command ≠ Code.setUnitAddress
  events : ∃ raised, after.events = before.events ++ raised ∧
    ∀ event ∈ raised, event.isConnected = false

namespace Unaddressed

variable {first second third : Station σ}

protected theorem refl (station : Station σ) : Unaddressed station station :=
  ⟨⟨[], by simp, by simp⟩, ⟨[], by simp, by simp⟩⟩

protected theorem trans (earlier : Unaddressed first second) (later : Unaddressed second third) :
    Unaddressed first third := by
  obtain ⟨⟨sentFirst, busFirst, quietFirst⟩, ⟨raisedFirst, eventsFirst, calmFirst⟩⟩ := earlier
  obtain ⟨⟨sentLater, busLater, quietLater⟩, ⟨raisedLater, eventsLater, calmLater⟩⟩ := later
  refine ⟨⟨sentFirst ++ sentLater, by rw [busLater, busFirst, List.append_assoc], ?_⟩,
    ⟨raisedFirst ++ raisedLater, by rw [eventsLater, eventsFirst, List.append_assoc], ?_⟩⟩
  · intro block member
    rcases List.mem_append.mp member with inFirst | inLater
    · exact quietFirst block inFirst
    · exact quietLater block inLater
  · intro event member
    rcases List.mem_append.mp member with inFirst | inLater
    · exact calmFirst event inFirst
    · exact calmLater event inLater

theorem of_eq (sent : second.bus.sent = first.bus.sent) (events : second.events = first.events) :
    Unaddressed first second :=
  ⟨⟨[], by rw [sent, List.append_nil], by simp⟩, ⟨[], by rw [events, List.append_nil], by simp⟩⟩

theorem send (quiet : Unaddressed first second) {block : Block}
    (other : block.command ≠ Code.setUnitAddress) : Unaddressed first (second.send block) :=
  quiet.trans ⟨⟨[block], rfl, by simpa using other⟩, ⟨[], by simp [Station.send], by simp⟩⟩

theorem emit (quiet : Unaddressed first second) {event : Event} (calm : event.isConnected = false) :
    Unaddressed first (second.emit event) :=
  quiet.trans ⟨⟨[], by simp [Station.emit], by simp⟩, ⟨[event], rfl, by simpa using calm⟩⟩

end Unaddressed

/-- The addresses a station has sent since it was `start`. -/
def addressesSince (start now : Station σ) : List Block :=
  (now.bus.sent.drop start.bus.sent.length).filter fun block => block.command == Code.setUnitAddress

/-- The connections a station has reported since it was `start`. -/
def connectionsSince (start now : Station σ) : List Event :=
  (now.events.drop start.events.length).filter Event.isConnected

theorem filter_addresses_eq_nil {blocks : List Block}
    (none : ∀ block ∈ blocks, block.command ≠ Code.setUnitAddress) :
    blocks.filter (fun block => block.command == Code.setUnitAddress) = [] :=
  List.filter_eq_nil_iff.mpr fun block member => by simpa using none block member

theorem filter_connections_eq_nil {raised : List Event}
    (calm : ∀ event ∈ raised, event.isConnected = false) : raised.filter Event.isConnected = [] :=
  List.filter_eq_nil_iff.mpr fun event member => by simp [calm event member]

theorem Unaddressed.addressesSince_eq_nil {start now : Station σ} (quiet : Unaddressed start now) :
    addressesSince start now = [] := by
  obtain ⟨blocks, sent, none⟩ := quiet.sent
  rw [addressesSince, sent, List.drop_left, filter_addresses_eq_nil none]

theorem Unaddressed.connectionsSince_eq_nil {start now : Station σ} (quiet : Unaddressed start now) :
    connectionsSince start now = [] := by
  obtain ⟨raised, events, calm⟩ := quiet.events
  rw [connectionsSince, events, List.drop_left, filter_connections_eq_nil calm]

/-- Around one turn that sends one address, quiet stretches leave that address the only one. -/
theorem addressesSince_around {start first second now : Station σ} {block : Block}
    {rest : List Block} (before : Unaddressed start first)
    (given : second.bus.sent = first.bus.sent ++ block :: rest)
    (addressing : block.command = Code.setUnitAddress)
    (calm : ∀ other ∈ rest, other.command ≠ Code.setUnitAddress) (after : Unaddressed second now) :
    addressesSince start now = [block] := by
  obtain ⟨early, sentEarly, quietEarly⟩ := before.sent
  obtain ⟨late, sentLate, quietLate⟩ := after.sent
  have sent : now.bus.sent = start.bus.sent ++ (early ++ block :: (rest ++ late)) := by
    rw [sentLate, given, sentEarly]
    simp only [List.append_assoc, List.cons_append]
  rw [addressesSince, sent, List.drop_left, List.filter_append, List.filter_cons_of_pos (by simp [addressing]),
    List.filter_append, filter_addresses_eq_nil quietEarly, filter_addresses_eq_nil calm,
    filter_addresses_eq_nil quietLate]
  rfl

/-- Around one turn that reports one connection, quiet stretches leave it the only one. -/
theorem connectionsSince_around {start first second now : Station σ} {event : Event}
    {raised : List Event} (before : Unaddressed start first)
    (given : second.events = first.events ++ event :: raised) (connecting : event.isConnected = true)
    (calm : ∀ other ∈ raised, other.isConnected = false) (after : Unaddressed second now) :
    connectionsSince start now = [event] := by
  obtain ⟨early, eventsEarly, calmEarly⟩ := before.events
  obtain ⟨late, eventsLate, calmLate⟩ := after.events
  have events : now.events = start.events ++ (early ++ event :: (raised ++ late)) := by
    rw [eventsLate, given, eventsEarly]
    simp only [List.append_assoc, List.cons_append]
  rw [connectionsSince, events, List.drop_left, List.filter_append, List.filter_cons_of_pos connecting,
    List.filter_append, filter_connections_eq_nil calmEarly, filter_connections_eq_nil calm,
    filter_connections_eq_nil calmLate]
  rfl

theorem unaddressed_poll (station : Station σ) (slot : Fin 64) :
    Unaddressed station (station.poll slot) := by
  unfold poll
  dsimp only
  split
  · exact .refl station
  · have pinged : Unaddressed station
        (station.send (Block.toUnit slot.val.toUInt8 Code.ping (dataOf []))) :=
      (Unaddressed.refl station).send (by rw [Block.command_toUnit]; decide)
    split
    · refine (pinged.trans (.of_eq ?_ ?_)).emit ?_
      all_goals rfl
    · refine pinged.trans (.of_eq ?_ ?_)
      all_goals rfl

theorem events_advance (station : Station σ) : station.advance.events = station.events := by
  unfold advance
  split <;> rfl

variable [Layout σ]

/-- **A turn with nothing received gives no address** and reports no unit connecting. -/
theorem unaddressed_turn (station : Station σ) : Unaddressed station station.act.advance := by
  have acted : Unaddressed station station.act := by
    unfold act
    split
    · exact unaddressed_poll station _
    · unfold sendProbe
      refine (Unaddressed.of_eq ?_ ?_).send ?_
      · rfl
      · rfl
      · rw [Block.command_broadcast]
        decide
    · unfold broadcastStatus
      refine (Unaddressed.of_eq ?_ ?_).send ?_
      · rfl
      · rfl
      · rw [Block.command_broadcast]
        decide
  exact acted.trans (.of_eq (by rw [bus_advance]) (events_advance _))

theorem inbox_turn (station : Station σ) : station.act.advance.bus.inbox = station.bus.inbox := by
  rw [bus_advance]
  unfold act
  split
  · unfold poll
    dsimp only
    split
    · rfl
    · split <;> rfl
  · rfl
  · rfl

theorem dead_turn (station : Station σ) {slot : Fin 64}
    (dead : (station.table.slots.get slot).isAlive = false) :
    (station.act.advance.table.slots.get slot).isAlive = false := by
  rw [table_advance]
  unfold act
  split
  · rw [table_poll]
    exact UnitTable.isAlive_decay_of_dead _ _ dead
  · exact dead
  · exact dead

/-- Off discovery a turn sends a ping or a status broadcast, or nothing. -/
theorem sent_turn_of_ne {station : Station σ} (away : station.position ≠ .discovery) :
    ∃ blocks, station.act.advance.bus.sent = station.bus.sent ++ blocks ∧
      ∀ block ∈ blocks, block.command = Code.ping ∨ block.command = Code.status := by
  cases placed : station.position with
  | discovery => exact absurd placed away
  | poll slot =>
    refine ⟨_, sent_turn_of_poll placed, fun block member => .inl ?_⟩
    split at member
    · rw [List.mem_singleton.mp member]
      rfl
    · cases member
  | status =>
    obtain ⟨data, sent⟩ := sent_turn_of_status placed
    refine ⟨_, sent, fun block member => .inr ?_⟩
    rw [List.mem_singleton.mp member]
    rfl

omit [Layout σ] in
/-- The turns before the schedule is at discovery: the live slots still to poll, and after the
status broadcast all of them. -/
def turnsToProbe (station : Station σ) : Nat :=
  match station.position with
  | .poll slot => (station.table.liveAfter slot).length + 1
  | .discovery => 0
  | .status => station.table.alive.length + 1

omit [Layout σ] in
theorem turnsToProbe_le (station : Station σ) : station.turnsToProbe ≤ 65 := by
  have alive : station.table.alive.length ≤ 64 :=
    (List.length_filter_le _ _).trans (by rw [List.length_finRange])
  unfold turnsToProbe
  cases station.position with
  | poll slot =>
    have after : (station.table.liveAfter slot).length ≤ station.table.alive.length :=
      List.length_filter_le _ _
    dsimp only
    omega
  | discovery => exact Nat.zero_le _
  | status =>
    dsimp only
    omega

omit [Layout σ] in
theorem position_of_turnsToProbe {station : Station σ} (none : station.turnsToProbe = 0) :
    station.position = .discovery := by
  unfold turnsToProbe at none
  cases placed : station.position with
  | poll slot => simp [placed] at none
  | discovery => rfl
  | status => simp [placed] at none

/-- **Every turn off discovery brings the next probe one turn nearer.** -/
theorem turnsToProbe_turn {station : Station σ} (away : station.position ≠ .discovery) :
    station.act.advance.turnsToProbe + 1 = station.turnsToProbe := by
  cases placed : station.position with
  | discovery => exact absurd placed away
  | poll slot =>
    have before : station.turnsToProbe = (station.table.liveAfter slot).length + 1 := by
      unfold turnsToProbe
      rw [placed]
    rw [before]
    rcases poll_turn_cases placed with ⟨none, moved⟩ | ⟨next, ahead, moved, -⟩
    · have after : station.act.advance.turnsToProbe = 0 := by
        unfold turnsToProbe
        rw [moved]
      rw [after, none, List.length_nil]
    · have after : station.act.advance.turnsToProbe =
          (station.act.advance.table.liveAfter next).length + 1 := by
        unfold turnsToProbe
        rw [moved]
      rw [after, ahead, List.length_cons]
  | status =>
    have before : station.turnsToProbe = station.table.alive.length + 1 := by
      unfold turnsToProbe
      rw [placed]
    rw [before]
    rcases status_turn_cases placed with ⟨none, moved⟩ | ⟨first, alive, moved, -⟩
    · have after : station.act.advance.turnsToProbe = 0 := by
        unfold turnsToProbe
        rw [moved]
      rw [after, none, List.length_nil]
    · have after : station.act.advance.turnsToProbe =
          (station.act.advance.table.liveAfter first).length + 1 := by
        unfold turnsToProbe
        rw [moved]
      rw [after, table_turn_of_status placed, alive, List.length_cons]

end Station

end RailBus
