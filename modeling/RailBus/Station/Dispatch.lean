import RailBus.Station.Basic
import RailBus.Wire.Command
import RailBus.Wire.Packed
import RailBus.Wire.Septets
/-! # Handling what units send

`Station.dispatch` handles one received block. A block from a unit slot refills that slot's
keepalive budget and is then handled by its command; a broadcast block is only taken as a
discovery echo; anything else is dropped, as are unknown commands. Nothing a unit sends makes the
station fail: malformed requests are ignored.

The handlers, by request:

* version: the reported version (never below 2.4.0);
* mode: a new track operating mode, when the byte names one;
* take, release: a loco is taken over or given back; a taken loco's state is sent back as three
  blocks (speed and first functions, further functions, consist partner if any), an unavailable
  one is answered as such;
* speed, functions: unless the unit has stale updates to discard, the change is applied, the unit
  becomes the loco's controller, every other unit driving the loco discards its next updates, and
  the change is reported;
* couple, clear: consists, answered with the affected loco's state;
* turnout: applied and acknowledged to every unit;
* database steps: select, next, previous or delete, cycling through indices 1 to the count, and
  answered with the entry and its name in four parts, or with "empty";
* name parts: part 0 starts a name for a loco, parts 1 to 4 write three characters each, and
  part 4 stores the entry, the name cut at its first zero and stripped of trailing blanks;
* echo: the discovery search moves on, and a complete serial gets a slot, reusing the slot of a
  live unit with that serial, else the first slot that is not live;
* restart: discovery starts over and takes the next turn of the schedule;
* unit info: the unit's revisions are recorded;
* configuration: answered with the request's sub-code and its result.
-/

namespace RailBus

open Septets

namespace Station

variable {σ : Type} [Layout σ]

/-- Change the layout. -/
def update (station : Station σ) (change : σ → σ) : Station σ :=
  { station with layout := change station.layout }

/-- Ask the layout something that may change it. -/
def ask {α : Type} (station : Station σ) (question : σ → α × σ) : α × Station σ :=
  let (answer, layout) := question station.layout
  (answer, { station with layout })

/-- Six data bytes: the given ones, then zeros. -/
def dataOf (bytes : List UInt8) : Vector UInt8 6 :=
  Vector.ofFn fun index => bytes.getD index.val 0

/-- A loco address, then zeros. -/
def locoData (loco : UInt16) : Vector UInt8 6 :=
  dataOf [(split14 loco).1, (split14 loco).2]

/-- **A loco's state for a unit**: speed, drive byte and functions F0 to F13, then functions F14
to F27, then the consist partner if there is one. -/
def sendState (station : Station σ) (unit : UInt8) (loco : UInt16) (state : LocoState) :
    Station σ :=
  let (high, low) := split14 loco
  let drive : Drive :=
    { reverse := state.reverse, emergency := state.emergency, consist := state.consist.isSome,
      format := state.format.bits }
  let group (index : Nat) : UInt8 := ((state.functions >>> (7 * index).toUInt32) &&& 0x7f).toUInt8
  let station := station.send (Block.toUnit unit Code.locoState
    (dataOf [high, low, state.speed &&& 0x7f, drive.toByte, group 0, group 1]))
  let station := station.send (Block.toUnit unit Code.locoFunctions
    (dataOf [high, low, group 2, group 3]))
  match state.consist with
  | some partner =>
    station.send (Block.toUnit unit Code.locoConsist
      (dataOf [high, low, (split14 partner).1, (split14 partner).2]))
  | none => station

/-- Tell a unit the state of a loco, or that it is unavailable. -/
def sendLoco (station : Station σ) (unit : UInt8) (loco : UInt16) : Station σ :=
  match Layout.loco station.layout loco with
  | some state => station.sendState unit loco state
  | none => station.send (Block.toUnit unit Code.locoUnavailable (locoData loco))

/-- A unit takes a loco over. -/
def onTake (station : Station σ) (unit : UInt8) (loco : UInt16) : Station σ :=
  match station.ask (Layout.takeControl · loco) with
  | (some state, station) =>
    { station with table := station.table.takeControl unit loco }.sendState unit loco state
  | (none, station) => station.send (Block.toUnit unit Code.locoUnavailable (locoData loco))

/-- Spend one pending discard of a unit: true when its update must be dropped. -/
def discardStale (station : Station σ) (unit : UInt8) : Bool × Station σ :=
  let (table, discard) := station.table.consumeBlocked unit
  (discard, { station with table })

/-- A unit's change of a loco was applied: the unit controls the loco, the other controllers
discard their next updates, and the change is reported. -/
def authoritative (station : Station σ) (unit : UInt8) (loco : UInt16) : Station σ :=
  let table := (station.table.takeControl unit loco).blockOthers loco unit
  { station with table }.emit (.locoChanged loco)

/-- The index a database step shows, given the number of entries (at least 1). -/
def browseIndex (step : Browse) (index count : UInt16) : UInt16 :=
  match step with
  | .next => if index ≥ count then 1 else index + 1
  | .prev => if index ≤ 1 ∨ index > count then count else index - 1
  | _ => max 1 (min index count)

/-- The twelve name bytes of an entry for the wire: its bytes cut to seven bits, padded with
zeros. -/
def nameBytes (name : String) : List UInt8 :=
  let bytes := (name.toList.flatMap String.utf8EncodeChar).take nameLength
  bytes.map (· &&& 0x7f) ++ List.replicate (nameLength - bytes.length) 0

/-- **A step through the loco database.** -/
def onBrowse (station : Station σ) (unit : UInt8) (step : Browse) (index : UInt16) : Station σ :=
  let station := if step = .delete then (station.ask (Layout.removeEntry · index)).2 else station
  let count := Layout.locoCount station.layout
  if count = 0 then station.send (Block.toUnit unit Code.dbEmpty (dataOf []))
  else
    let index := browseIndex step index count
    match Layout.locoEntry station.layout index with
    | none => station.send (Block.toUnit unit Code.dbEmpty (dataOf []))
    | some entry =>
      let station := station.send (Block.toUnit unit Code.dbEntry
        (dataOf [(split14 index).1, (split14 index).2, (split14 entry.loco).1,
          (split14 entry.loco).2, entry.format.toByte]))
      let name := nameBytes entry.name
      (List.range 4).foldl (fun station part =>
        station.send (Block.toUnit unit Code.dbName
          (dataOf (part.toUInt8 :: (name.drop (3 * part)).take 3)))) station

/-- **A part of a loco name written from a unit.** -/
def onName (station : Station σ) (part : Fin 5) (data : Vector UInt8 6) : Station σ :=
  if part.val = 0 then
    let edit : NameEdit :=
      { loco := join14 (data.get 0) (data.get 1), format := Format.ofByte (data.get 2),
        name := Vector.replicate nameLength 0 }
    { station with edit := some edit }
  else match station.edit with
    | none => station
    | some edit =>
      let edit := edit.write (3 * (part.val - 1))
        [data.get 0 &&& 0x7f, data.get 1 &&& 0x7f, data.get 2 &&& 0x7f]
      if part.val < 4 then { station with edit := some edit }
      else
        { station with edit := none }.update
          (Layout.storeEntry · { loco := edit.loco, format := edit.format, name := edit.text })

/-- **Give a slot to a unit found by discovery** and tell the unit its address. -/
def assign (station : Station σ) (serial : UInt32) : Station σ :=
  match station.table.findSerial? serial <|> station.table.vacant? with
  | none => station
  | some slot =>
    let unit := slot.val.toUInt8
    let parts := partsOf serial
    let station := { station with table := station.table.assign unit serial }
    (station.emit (.connected unit serial)).send (Block.toUnit unit Code.setUnitAddress
      (dataOf (parts.toList ++ [unit])))

/-- **The echo of a discovery probe.** -/
def onEcho (station : Station σ) (data : Vector UInt8 6) : Station σ :=
  match Probe.ofData? data with
  | none => station
  | some probe =>
    let (found, discovery) := station.discovery.echo probe
    let station := { station with discovery }
    match found with
    | .ignored => station
    | .descend => { station with position := .discovery }
    | .found serial => station.assign serial

/-- **A configuration request**, and the reply when the request is known. -/
def configure (station : Station σ) (data : Vector UInt8 6) : Option (Vector UInt8 6) × Station σ :=
  let sub := data.get 0
  let first := join14 (data.get 1) (data.get 2)
  let reply (bytes : List UInt8) := some (dataOf (sub :: bytes))
  let pair (value : UInt16) := [(split14 value).1, (split14 value).2]
  let layout := station.layout
  match Setting.ofCode? sub with
  | none => (none, station)
  | some .flagsGet => (reply (pair (Layout.flags layout)), station)
  | some .flagsSet =>
    let station := station.update (Layout.setFlags · (Layout.flags layout ||| first))
    (reply (pair (Layout.flags station.layout)), station)
  | some .flagsClear =>
    let station := station.update (Layout.setFlags · (Layout.flags layout &&& ~~~first))
    (reply (pair (Layout.flags station.layout)), station)
  | some .modulesGet =>
    match ModuleKind.ofByte? (data.get 1) with
    | none => (none, station)
    | some kind => (reply [data.get 1, Layout.modules layout kind &&& 0x7f], station)
  | some .modulesSet =>
    match ModuleKind.ofByte? (data.get 1) with
    | none => (none, station)
    | some kind =>
      let station := (station.ask (Layout.setModules · kind (data.get 2))).2
      (reply [data.get 1, Layout.modules station.layout kind &&& 0x7f], station)
  | some .voltageGet => (reply (pair (Layout.voltage layout)), station)
  | some .voltageSet =>
    let (done, station) := station.ask (Layout.setVoltage · first)
    (reply [statusByte done], station)
  | some .currentGet => (reply (pair (Layout.current layout)), station)
  | some .currentSet =>
    let (done, station) := station.ask (Layout.setCurrent · first)
    (reply [statusByte done], station)
  | some .programRead =>
    let (value, station) := station.ask (Layout.readCv · first)
    let (high, low) := split8 (value.getD 0)
    (reply [data.get 1, data.get 2, statusByte value.isSome, high, low], station)
  | some .programWrite =>
    let (done, station) := station.ask (Layout.writeCv · first (join8 (data.get 3) (data.get 4)))
    (reply [data.get 1, data.get 2, statusByte done], station)
  | some .programReadBit =>
    let (value, station) := station.ask (Layout.readCvBit · first (data.get 3 &&& 7))
    (reply [data.get 1, data.get 2, data.get 3, statusByte value.isSome,
      if value.getD false then 1 else 0], station)
  | some .programWriteBit =>
    let (done, station) :=
      station.ask (Layout.writeCvBit · first (data.get 3 &&& 7) (data.get 4 != 0))
    (reply [data.get 1, data.get 2, data.get 3, statusByte done], station)
  | some .programReadAddress =>
    let (address, station) := station.ask Layout.readAddress
    (reply (statusByte address.isSome :: pair (address.getD 0)), station)
  | some .mainWrite =>
    let high := CvHigh.ofByte (data.get 3)
    let cv := (high.cv.val.toUInt16 <<< 7) ||| (data.get 4 &&& 0x7f).toUInt16
    let value := (if high.msb then (0x80 : UInt8) else 0) ||| (data.get 5 &&& 0x7f)
    let (done, station) := station.ask (Layout.pomWrite · first cv value)
    (reply [statusByte done], station)
  | some .mainWriteBit =>
    let (done, station) := station.ask (Layout.pomWriteBit · first
      (join14 (data.get 3) (data.get 4)) (data.get 5 &&& 7) (data.get 5 &&& 8 != 0))
    (reply [statusByte done], station)
  | some .mfxAssign =>
    let (done, station) := station.ask (Layout.mfxAssign · first)
    (reply [statusByte done], station)
  | some .formatGet => (reply [(Layout.format layout).toByte], station)
  | some .formatSet =>
    let (done, station) := station.ask (Layout.setFormat · (Format.ofByte (data.get 1)))
    (reply [statusByte done], station)

/-- Handle the request of a unit. -/
def handle (station : Station σ) (unit : UInt8) (request : UnitRequest) (data : Vector UInt8 6) :
    Station σ :=
  let loco := join14 (data.get 0) (data.get 1)
  match request with
  | .ping => station
  | .version =>
    let version := station.config.version.reported.toData
    station.send (Block.toUnit unit Code.version (dataOf version))
  | .mode =>
    match OperatingMode.ofByte? (data.get 0) with
    | some mode => station.update (Layout.setMode · mode)
    | none => station
  | .locoTake => station.onTake unit loco
  | .locoRelease =>
    let station := if (station.table.lookup unit).loco = loco then
      { station with table := station.table.release unit } else station
    station.update (Layout.release · loco)
  | .locoSpeed =>
    match station.discardStale unit with
    | (true, station) => station
    | (false, station) =>
      let drive := Drive.ofByte (data.get 3)
      (station.update (Layout.setSpeed · loco (data.get 2 &&& 0x7f) drive.reverse drive.emergency))
        |>.authoritative unit loco
  | .locoFunc =>
    if data.get 2 > 3 then station
    else match station.discardStale unit with
      | (true, station) => station
      | (false, station) =>
        (station.update (Layout.setFunctions · loco (data.get 2) (data.get 3 &&& 0x7f)))
          |>.authoritative unit loco
  | .tractionCouple =>
    let second := join14 (data.get 2) (data.get 3)
    match station.ask (Layout.couple · loco second) with
    | (true, station) => station.sendLoco unit second
    | (false, station) => station.send (Block.toUnit unit Code.locoUnavailable (locoData second))
  | .tractionClear =>
    match station.ask (Layout.uncouple · loco) with
    | (true, station) => station.sendLoco unit loco
    | (false, station) => station
  | .turnout =>
    let accessory := Accessory.ofByte (data.get 2 &&& 0x7f)
    (station.update (Layout.setTurnout · loco accessory.thrown accessory.on)).send
      (Block.broadcast Code.accessoryAck data)
  | .browse step => station.onBrowse unit step loco
  | .nameData part => station.onName part data
  | .probeEcho => station.onEcho data
  | .restart => { station with discovery := .initial, position := .discovery }
  | .unitInfo => { station with table := station.table.setRevisions unit (data.get 0) (data.get 1) }
  | .configure =>
    match station.configure data with
    | (some reply, station) => station.send (Block.toUnit unit Code.config reply)
    | (none, station) => station
  | .debug => station

/-- **Handle one received block.** -/
def dispatch (station : Station σ) (block : Block) : Station σ :=
  match block.unit? with
  | some unit =>
    let station := { station with table := station.table.touch unit }
    match UnitRequest.ofCode? block.command with
    | some request => station.handle unit request block.data
    | none => station
  | none =>
    if block.isBroadcast ∧ block.command = Code.probe then station.onEcho block.data else station

end Station

end RailBus
