import RailBus.Station.Schedule
/-! # A turn with the runtime's checks

The schedule turn of `Station.step` is written with total operations: words wrap, the status
round is a `Fin 8`, the search level a `Fin 4`, the name being written a vector of its length. The runtime that
runs a turn checks some operations and stops the program when a check fails (`Panic`): arithmetic
on a word that leaves its range, a value offered to a bit field too narrow for it, an index or the
end of a slice past the length of what it reads, a clamp whose bounds are the wrong way round.

`Station.stepChecked` is the turn with those checks made where the runtime makes them, on the
values the turn computes: the counter bump of the discovery search (`Discovery.advanceChecked`),
the round and turnout fields of the status broadcast and the round's increment
(`Station.broadcastStatusChecked`), the format field of a loco's drive byte
(`Station.sendStateChecked`), the index arithmetic of a database step and the name chunks of its
answer (`browseIndexChecked`, `Station.onBrowseChecked`), and the offset of a name part with the
slice it writes (`Station.onNameChecked`). The other requests make no check that can fail and are
handled as `Station.handle` handles them.
-/

namespace RailBus

/-- A failed runtime check, which stops the program. -/
inductive Panic where
  /-- Arithmetic on a word of `bits` bits left its range. -/
  | overflow (bits : Nat)
  /-- A value offered to a bit field too narrow for it. -/
  | field (overflow : FieldOverflow)
  /-- An index, or the end of a slice, past the length of what it reads. -/
  | outOfBounds (index length : Nat)
  /-- A slice whose start lies past its end. -/
  | reversed (start stop : Nat)
  /-- A clamp whose lower bound lies above its upper bound. -/
  | clamp
  deriving Repr

/-! ## Checked operations -/

namespace Strict

/-- Addition of bytes that stops on overflow. -/
def add8 (a b : UInt8) : Except Panic UInt8 :=
  if a.toNat + b.toNat < 256 then .ok (a + b) else .error (.overflow 8)

/-- Subtraction of bytes that stops below zero. -/
def sub8 (a b : UInt8) : Except Panic UInt8 :=
  if b ≤ a then .ok (a - b) else .error (.overflow 8)

/-- Addition of 16-bit words that stops on overflow. -/
def add16 (a b : UInt16) : Except Panic UInt16 :=
  if a.toNat + b.toNat < 65536 then .ok (a + b) else .error (.overflow 16)

/-- Subtraction of 16-bit words that stops below zero. -/
def sub16 (a b : UInt16) : Except Panic UInt16 :=
  if b ≤ a then .ok (a - b) else .error (.overflow 16)

/-- A 16-bit word brought into `[low, high]`, which stops when `high < low`. -/
def clamp16 (value low high : UInt16) : Except Panic UInt16 :=
  if low ≤ high then .ok (if value < low then low else if value > high then high else value)
  else .error .clamp

/-- The check of a read at `index` of something of `length` items. -/
def index (index length : Nat) : Except Panic Unit :=
  if index < length then .ok () else .error (.outOfBounds index length)

/-- The check of a slice from `start` up to `stop` of something of `length` items. -/
def slice (start stop length : Nat) : Except Panic Unit :=
  if stop ≤ length then
    if start ≤ stop then .ok () else .error (.reversed start stop)
  else .error (.outOfBounds stop length)

/-- A number as a field of `width` bits, stopping when it does not fit. -/
def field (width value : Nat) : Except Panic (Fin (Nat.pow 2 width)) :=
  (fitField width value).mapError .field

end Strict

namespace Discovery

/-- **The counter bump with its overflow check**: the counter of a level is a byte, bumped by
one, and a counter past its span is cleared and its carry taken one level up. -/
def advanceChecked (parts : Vector UInt8 4) (level : Fin 4) :
    Except Panic (Fin 4 × Vector UInt8 4) := do
  let bumped ← Strict.add8 (parts.get level) 1
  if bumped.toNat < span level then pure (level, parts.set level bumped level.isLt)
  else
    let cleared := parts.set level 0 level.isLt
    match level with
    | ⟨0, _⟩ => pure (0, cleared)
    | ⟨above + 1, bound⟩ => advanceChecked cleared ⟨above, Nat.lt_of_succ_lt bound⟩
termination_by level.val

/-- Emit the probe of the current position and move on, with the counter bump checked. -/
def probeChecked (discovery : Discovery) : Except Panic (Probe × Discovery) := do
  let probe := discovery.current
  let kept := if discovery.recent.length ≥ probeWindow then discovery.recent.tail
    else discovery.recent
  let (level, parts) ← advanceChecked discovery.parts discovery.level
  pure (probe, { level, parts, recent := kept ++ [probe] })

end Discovery

/-- The index a database step shows, with the arithmetic and the clamp checked. -/
def browseIndexChecked (step : Browse) (index count : UInt16) : Except Panic UInt16 :=
  match step with
  | .next => if index ≥ count then pure 1 else Strict.add16 index 1
  | .prev => if index ≤ 1 ∨ index > count then pure count else Strict.sub16 index 1
  | _ => Strict.clamp16 index 1 count

namespace Station

open Septets

variable {σ : Type} [Layout σ]

/-- Broadcast the next probe, with the counter bump checked. -/
def sendProbeChecked (station : Station σ) : Except Panic (Station σ) := do
  let (probe, discovery) ← station.discovery.probeChecked
  pure ({ station with discovery }.send (Block.broadcast Code.probe probe.toData))

/-- **The status broadcast with its checks**: the round and four bits of turnout state go into
fields of three and four bits, and the round is incremented as a byte before it wraps at 8. -/
def broadcastStatusChecked (station : Station σ) : Except Panic (Station σ) := do
  let turnouts := Layout.turnoutRefresh station.layout station.round.val.toUInt8
  let round ← Strict.field 3 station.round.val
  let state ← Strict.field 4 (turnouts &&& 0xf).toNat
  let next ← Strict.add8 station.round.val.toUInt8 1
  let refresh : Refresh := { round, state }
  pure ({ station with round := Fin.ofNat 8 next.toNat }.send (Block.broadcast Code.status
    (dataOf [(Layout.mode station.layout).toByte, refresh.toByte])))

/-- The scheduled action of the station's position, with its checks. -/
def actChecked (station : Station σ) : Except Panic (Station σ) :=
  match station.position with
  | .poll slot => pure (station.poll slot)
  | .discovery => station.sendProbeChecked
  | .status => station.broadcastStatusChecked

/-- A loco's state for a unit, with the format put into the three bits of the drive byte. -/
def sendStateChecked (station : Station σ) (unit : UInt8) (loco : UInt16) (state : LocoState) :
    Except Panic (Station σ) := do
  let (high, low) := split14 loco
  let format ← Strict.field 3 state.format.toByte.toNat
  let drive : Drive :=
    { reverse := state.reverse, emergency := state.emergency, consist := state.consist.isSome,
      format }
  let group (index : Nat) : UInt8 := ((state.functions >>> (7 * index).toUInt32) &&& 0x7f).toUInt8
  let station := station.send (Block.toUnit unit Code.locoState
    (dataOf [high, low, state.speed &&& 0x7f, drive.toByte, group 0, group 1]))
  let station := station.send (Block.toUnit unit Code.locoFunctions
    (dataOf [high, low, group 2, group 3]))
  match state.consist with
  | some partner =>
    pure (station.send (Block.toUnit unit Code.locoConsist
      (dataOf [high, low, (split14 partner).1, (split14 partner).2])))
  | none => pure station

/-- Tell a unit the state of a loco, or that it is unavailable, with the checks of the state. -/
def sendLocoChecked (station : Station σ) (unit : UInt8) (loco : UInt16) :
    Except Panic (Station σ) :=
  match Layout.loco station.layout loco with
  | some state => station.sendStateChecked unit loco state
  | none => pure (station.send (Block.toUnit unit Code.locoUnavailable (locoData loco)))

/-- A unit takes a loco over, with the checks of the state sent back. -/
def onTakeChecked (station : Station σ) (unit : UInt8) (loco : UInt16) :
    Except Panic (Station σ) :=
  match station.ask (Layout.takeControl · loco) with
  | (some state, station) =>
    { station with table := station.table.takeControl unit loco }.sendStateChecked unit loco state
  | (none, station) => pure (station.send (Block.toUnit unit Code.locoUnavailable (locoData loco)))

/-- **A database step with its checks**: the index arithmetic and clamp, and the three reads of
each name chunk. -/
def onBrowseChecked (station : Station σ) (unit : UInt8) (step : Browse) (index : UInt16) :
    Except Panic (Station σ) := do
  let station := if step = .delete then (station.ask (Layout.removeEntry · index)).2 else station
  let count := Layout.locoCount station.layout
  if count = 0 then pure (station.send (Block.toUnit unit Code.dbEmpty (dataOf [])))
  else
    let index ← browseIndexChecked step index count
    match Layout.locoEntry station.layout index with
    | none => pure (station.send (Block.toUnit unit Code.dbEmpty (dataOf [])))
    | some entry =>
      let station := station.send (Block.toUnit unit Code.dbEntry
        (dataOf [(split14 index).1, (split14 index).2, (split14 entry.loco).1,
          (split14 entry.loco).2, entry.format.toByte]))
      let name := nameBytes entry.name
      (List.range 4).foldlM (fun station part => do
        let chunk := (name.drop (3 * part)).take 3
        Strict.index 2 chunk.length
        pure (station.send (Block.toUnit unit Code.dbName (dataOf (part.toUInt8 :: chunk)))))
        station

/-- **A name part with its checks**: the part's offset is computed from its number less one, and
the three characters are written to a slice of the name. -/
def onNameChecked (station : Station σ) (part : Fin 5) (data : Vector UInt8 6) :
    Except Panic (Station σ) := do
  if part.val = 0 then
    let edit : NameEdit :=
      { loco := join14 (data.get 0) (data.get 1), format := Format.ofByte (data.get 2),
        name := Vector.replicate nameLength 0 }
    pure { station with edit := some edit }
  else match station.edit with
    | none => pure station
    | some edit =>
      let offset := (← Strict.sub8 part.val.toUInt8 1).toNat * 3
      Strict.slice offset (offset + 3) nameLength
      let edit := edit.write offset
        [data.get 0 &&& 0x7f, data.get 1 &&& 0x7f, data.get 2 &&& 0x7f]
      if part.val < 4 then pure { station with edit := some edit }
      else
        pure ({ station with edit := none }.update
          (Layout.storeEntry · { loco := edit.loco, format := edit.format, name := edit.text }))

/-- The request of a unit with its checks; the requests not listed make none that can fail. -/
def handleChecked (station : Station σ) (unit : UInt8) (request : UnitRequest)
    (data : Vector UInt8 6) : Except Panic (Station σ) :=
  let loco := join14 (data.get 0) (data.get 1)
  match request with
  | .locoTake => station.onTakeChecked unit loco
  | .tractionCouple =>
    let second := join14 (data.get 2) (data.get 3)
    match station.ask (Layout.couple · loco second) with
    | (true, station) => station.sendLocoChecked unit second
    | (false, station) =>
      pure (station.send (Block.toUnit unit Code.locoUnavailable (locoData second)))
  | .tractionClear =>
    match station.ask (Layout.uncouple · loco) with
    | (true, station) => station.sendLocoChecked unit loco
    | (false, station) => pure station
  | .browse step => station.onBrowseChecked unit step loco
  | .nameData part => station.onNameChecked part data
  | request => pure (station.handle unit request data)

/-- One received block with its checks. -/
def dispatchChecked (station : Station σ) (block : Block) : Except Panic (Station σ) :=
  match block.unit? with
  | some unit =>
    let station := { station with table := station.table.touch unit }
    match UnitRequest.ofCode? block.command with
    | some request => station.handleChecked unit request block.data
    | none => pure station
  | none => pure (station.dispatch block)

/-- Every received block with its checks, oldest first. -/
def drainChecked (station : Station σ) : Except Panic (Station σ) :=
  station.bus.inbox.foldlM dispatchChecked { station with bus := { station.bus with inbox := [] } }

/-- **One turn of the schedule with the runtime's checks.** -/
def stepChecked (station : Station σ) : Except Panic (Station σ) := do
  let station ← station.drainChecked
  let station ← station.actChecked
  pure station.advance

end Station

end RailBus
