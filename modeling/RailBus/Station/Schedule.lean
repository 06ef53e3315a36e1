import RailBus.Station.Dispatch
/-! # The bus schedule

`Station.step` is one turn of the schedule: every block received so far is handled in order, then
the station does what its schedule position says, then it moves on.

* A unit slot is polled only while it is live: the poll costs one unit of its keepalive budget,
  and when the last unit is spent the slot is vacated and, if discovery had given the address,
  the unit's disconnection is reported.
* The discovery position broadcasts the next probe.
* The status position broadcasts the operating mode and the refresh byte: the round and four
  bits of turnout state for it. Rounds count 0 to 7 and wrap.

The schedule visits the live slots in ascending order, then discovery, then the status broadcast,
and starts over (`Position.next`). While discovery searches below its top level it keeps the
schedule to itself, one probe per step (`Station.preempted`).
-/

namespace RailBus

/-- The position after `position`, for a table: the next live slot, else discovery; discovery is
followed by the status broadcast, and that by the first live slot. -/
def Position.next (table : UnitTable) : Position → Position
  | .poll unit =>
    match table.alive.find? (·.val > unit.val) with
    | some next => .poll next
    | none => .discovery
  | .discovery => .status
  | .status =>
    match table.alive.head? with
    | some first => .poll first
    | none => .discovery

namespace Station

variable {σ : Type} [Layout σ]

/-- Handle every received block, oldest first. -/
def drain (station : Station σ) : Station σ :=
  station.bus.inbox.foldl dispatch { station with bus := { station.bus with inbox := [] } }

/-- Broadcast the next discovery probe. -/
def sendProbe (station : Station σ) : Station σ :=
  let (probe, discovery) := station.discovery.probe
  { station with discovery }.send (Block.broadcast Code.probe probe.toData)

/-- Broadcast the operating mode and the turnout refresh of the current round. -/
def broadcastStatus (station : Station σ) : Station σ :=
  let turnouts := Layout.turnoutRefresh station.layout station.round.val.toUInt8
  let refresh : Refresh := { round := station.round, state := Fin.ofNat 16 turnouts.toNat }
  { station with round := station.round + 1 }.send (Block.broadcast Code.status
    (dataOf [(Layout.mode station.layout).toByte, refresh.toByte]))

/-- **The keepalive poll of a slot**, when it is live. -/
def poll (station : Station σ) (slot : Fin 64) : Station σ :=
  let unit := slot.val.toUInt8
  let before := station.table.lookup unit
  if !before.isAlive then station
  else
    let station := station.send (Block.toUnit unit Code.ping (dataOf []))
    let (table, gone) := station.table.decay unit
    let station := { station with table }
    if gone ∧ before.assigned then station.emit (.disconnected unit before.serial) else station

/-- Whether discovery keeps the schedule: it is at the discovery position and below the top
level. -/
def preempted (station : Station σ) : Bool :=
  station.position == .discovery && station.discovery.level.val != 0

/-- Move the schedule on, unless discovery keeps it. -/
def advance (station : Station σ) : Station σ :=
  if station.preempted then station
  else { station with position := station.position.next station.table }

/-- **One turn of the schedule.** -/
def step (station : Station σ) : Station σ :=
  let station := station.drain
  let station := match station.position with
    | .poll slot => station.poll slot
    | .discovery => station.sendProbe
    | .status => station.broadcastStatus
  station.advance

end Station

end RailBus
