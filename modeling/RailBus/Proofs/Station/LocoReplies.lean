import RailBus.Proofs.Wire.Codec
import RailBus.Proofs.Station.Handling
/-! # The state of a loco as a unit sees it

When a unit takes a loco over, or couples or uncouples one, the layout hands out the loco's state
(`Station.Returns`) and the station sends it to the unit in two or three blocks: the state reply
(the loco, its speed, the drive byte and functions F0 to F13), the functions reply (F14 to F27)
and, for a loco in a consist, the consist reply (its partner).

Every field reads back up to the width it has on the wire (`Station.ShowsState`): the loco and the
partner modulo `2 ^ 14` as 14-bit pairs, the speed modulo 128, the drive byte as the direction,
emergency stop, consist flag and format of the loco, and bit `7 * g + k` of the functions as bit
`k` of the `g`-th group of seven. The main statement is `Station.loco_replies_show_state`.
-/

namespace RailBus

open Septets

/-- Six data bytes read at a position: the listed byte, or zero past the list. -/
@[simp]
theorem Station.getElem_dataOf (bytes : List UInt8) (index : Nat) (below : index < 6) :
    (Station.dataOf bytes)[index] = bytes.getD index 0 := by
  simp only [Station.dataOf, Vector.getElem_ofFn]

/-- **Group `group` of the functions, cut to seven bits**, holds the functions' bits
`7 * group` to `7 * group + 6`. -/
theorem testBit_functionGroup (functions : UInt32) {group bit : Nat} (groupBelow : group < 4)
    (bitBelow : bit < 7) :
    ((functions >>> (7 * group).toUInt32) &&& 0x7f).toUInt8.toNat.testBit bit =
      functions.toNat.testBit (7 * group + bit) := by
  have shift : ((7 * group).toUInt32.toNat) % 32 = 7 * group := by
    simp only [Nat.toUInt32, UInt32.toNat_ofNat']
    omega
  simp only [UInt32.toNat_toUInt8, UInt32.toNat_and, UInt32.toNat_shiftRight, shift,
    UInt32.reduceToNat]
  rw [Nat.testBit_mod_two_pow, Nat.testBit_and, show (127 : Nat) = 2 ^ 7 - 1 from rfl,
    Nat.testBit_two_pow_sub_one, Nat.testBit_shiftRight]
  simp only [show bit < 8 by omega, bitBelow, decide_true, Bool.true_and, Bool.and_true]

namespace Station

variable {σ : Type}

/-- The blocks that show a loco to `unit`, in the order sent: the state reply, the functions reply
and, for a loco in a consist, the consist reply. -/
def stateReplies (unit : UInt8) (stateData functionsData : Vector UInt8 6)
    (consistData : Option (Vector UInt8 6)) : List Block :=
  [Block.toUnit unit Code.locoState stateData,
      Block.toUnit unit Code.locoFunctions functionsData] ++
    (consistData.map (Block.toUnit unit Code.locoConsist)).toList

/-- **What the replies show of a loco.** Read from the data bytes of the state, functions and
consist replies: each names the loco in its first two bytes, the state reply carries the speed, a
drive byte that reads back as the loco's direction, emergency stop, consist flag and format, and
functions F0 to F13 in two groups of seven; the functions reply carries F14 to F27; the consist
reply is there exactly for a loco in a consist and names its partner; the unused bytes are zero. -/
structure ShowsState (loco : UInt16) (state : LocoState) (stateData functionsData : Vector UInt8 6)
    (consistData : Option (Vector UInt8 6)) : Prop where
  names : ∀ data ∈ stateData :: functionsData :: consistData.toList,
    (join14 (data.get 0) (data.get 1)).toNat = loco.toNat % 2 ^ 14
  speed : (stateData.get 2).toNat = state.speed.toNat % 128
  drive : Drive.ofByte (stateData.get 3) =
    { reverse := state.reverse, emergency := state.emergency, consist := state.consist.isSome,
      format := state.format.bits }
  format : Format.ofBits (Drive.ofByte (stateData.get 3)).format = state.format
  functions : ∀ bit < 7,
    (stateData.get 4).toNat.testBit bit = state.functions.toNat.testBit bit ∧
      (stateData.get 5).toNat.testBit bit = state.functions.toNat.testBit (7 + bit) ∧
      (functionsData.get 2).toNat.testBit bit = state.functions.toNat.testBit (14 + bit) ∧
      (functionsData.get 3).toNat.testBit bit = state.functions.toNat.testBit (21 + bit)
  partner : ∀ partner, state.consist = some partner → ∃ data, consistData = some data ∧
    (join14 (data.get 2) (data.get 3)).toNat = partner.toNat % 2 ^ 14
  alone : state.consist = none → consistData = none
  padding : functionsData.get 4 = 0 ∧ functionsData.get 5 = 0 ∧
    ∀ data ∈ consistData, data.get 4 = 0 ∧ data.get 5 = 0

/-- `after` has sent, on top of what `before` had sent, the replies that show loco `loco` in state
`state` to `unit`. -/
def SendsState (before after : Station σ) (unit : UInt8) (loco : UInt16) (state : LocoState) :
    Prop :=
  ∃ stateData functionsData consistData,
    after.bus.sent = before.bus.sent ++ stateReplies unit stateData functionsData consistData ∧
      ShowsState loco state stateData functionsData consistData

/-- Replies counted from a station that had sent the same blocks. -/
theorem SendsState.of_sent {first second third : Station σ} {unit : UInt8} {loco : UInt16}
    {state : LocoState} (sends : SendsState second third unit loco state)
    (same : second.bus.sent = first.bus.sent) : SendsState first third unit loco state := by
  obtain ⟨stateData, functionsData, consistData, sent, shows⟩ := sends
  exact ⟨stateData, functionsData, consistData, by rw [sent, same], shows⟩

/-- **The replies for a loco's state show it.** -/
theorem sendsState_sendState (station : Station σ) (unit : UInt8) (loco : UInt16)
    (state : LocoState) :
    SendsState station (station.sendState unit loco state) unit loco state := by
  let drive : Drive :=
    { reverse := state.reverse, emergency := state.emergency, consist := state.consist.isSome,
      format := state.format.bits }
  let group (index : Nat) : UInt8 :=
    ((state.functions >>> (7 * index).toUInt32) &&& 0x7f).toUInt8
  let partnerData (partner : UInt16) : Vector UInt8 6 :=
    dataOf [(split14 loco).1, (split14 loco).2, (split14 partner).1, (split14 partner).2]
  refine ⟨dataOf [(split14 loco).1, (split14 loco).2, state.speed &&& 0x7f, drive.toByte, group 0,
      group 1], dataOf [(split14 loco).1, (split14 loco).2, group 2, group 3],
    state.consist.map partnerData, ?_, ?_⟩
  · unfold sendState
    cases consist : state.consist <;>
      simp [send, Bus.send, stateReplies, partnerData, drive, group, consist]
  · have groups : ∀ bit < 7, ∀ index < 4,
        (group index).toNat.testBit bit = state.functions.toNat.testBit (7 * index + bit) :=
      fun bit below index indexBelow => testBit_functionGroup state.functions indexBelow below
    constructor
    · intro data member
      simp only [List.mem_cons, Option.mem_toList, Option.map_eq_some_iff] at member
      rcases member with rfl | rfl | ⟨partner, -, rfl⟩
      all_goals simpa [partnerData] using join14_split14 loco
    · simpa using toNat_and_low state.speed
    · simp [drive]
    · simp [drive]
    · intro bit below
      simpa using And.intro (groups bit below 0 (by decide))
        (And.intro (groups bit below 1 (by decide))
          (And.intro (groups bit below 2 (by decide)) (groups bit below 3 (by decide))))
    · intro partner consist
      refine ⟨partnerData partner, by rw [consist]; rfl, ?_⟩
      simpa [partnerData] using join14_split14 partner
    · intro alone
      rw [alone]
      rfl
    · simp [partnerData]

variable [Layout σ]

/-- **The layout hands out the state of loco `loco`** while a request with data bytes `data` is
handled: a take request for the loco that the layout grants, or a couple request naming the loco
second or a clear request for the loco that the layout accepts, after which it knows the loco. -/
inductive Returns (layout : σ) (data : Vector UInt8 6) : UnitRequest → UInt16 → LocoState → Prop
  | take {loco : UInt16} {state : LocoState} (named : join14 (data.get 0) (data.get 1) = loco)
      (granted : (Layout.takeControl layout loco).1 = some state) :
      Returns layout data .locoTake loco state
  | couple {first loco : UInt16} {state : LocoState}
      (namedFirst : join14 (data.get 0) (data.get 1) = first)
      (named : join14 (data.get 2) (data.get 3) = loco)
      (coupled : (Layout.couple layout first loco).1 = true)
      (known : Layout.loco (Layout.couple layout first loco).2 loco = some state) :
      Returns layout data .tractionCouple loco state
  | clear {loco : UInt16} {state : LocoState} (named : join14 (data.get 0) (data.get 1) = loco)
      (cleared : (Layout.uncouple layout loco).1 = true)
      (known : Layout.loco (Layout.uncouple layout loco).2 loco = some state) :
      Returns layout data .tractionClear loco state

variable {station : Station σ} {unit : UInt8} {loco : UInt16} {state : LocoState}

theorem sendsState_sendLoco (known : Layout.loco station.layout loco = some state) :
    SendsState station (station.sendLoco unit loco) unit loco state := by
  unfold sendLoco
  rw [known]
  exact sendsState_sendState station unit loco state

theorem sendsState_onTake (granted : (Layout.takeControl station.layout loco).1 = some state) :
    SendsState station (station.onTake unit loco) unit loco state := by
  unfold onTake ask
  dsimp only
  generalize Layout.takeControl station.layout loco = answered at granted ⊢
  obtain ⟨answer, layout⟩ := answered
  subst granted
  exact (sendsState_sendState _ unit loco state).of_sent rfl

/-- **A loco whose state the layout hands out is shown to the unit that asked**: handling the
request sends, after what was sent before, the state reply, the functions reply and, exactly for a
loco in a consist, the consist reply, from which the unit reads back the loco and its partner
modulo `2 ^ 14`, the speed modulo 128, the direction, emergency stop, consist flag and format, and
all 28 functions. -/
theorem loco_replies_show_state {block : Block} {request : UnitRequest}
    (addressed : block.unit? = some unit)
    (decoded : UnitRequest.ofCode? block.command = some request)
    (returned : Returns station.layout block.data request loco state) :
    SendsState station (station.dispatch block) unit loco state := by
  rw [dispatch_of_request addressed decoded]
  -- hearing the unit changes neither the layout nor what was sent
  refine SendsState.of_sent ?_ (rfl : (station.touchUnit unit).bus.sent = station.bus.sent)
  unfold handle
  cases returned with
  | take named granted =>
    dsimp only
    rw [named]
    exact sendsState_onTake granted
  | couple namedFirst named coupled known =>
    dsimp only
    rw [namedFirst, named, ask_eq, touchUnit_layout, coupled]
    exact SendsState.of_sent (sendsState_sendLoco known) rfl
  | clear named cleared known =>
    dsimp only
    rw [named, ask_eq, touchUnit_layout, cleared]
    exact SendsState.of_sent (sendsState_sendLoco known) rfl

/-- Unit 1 takes loco 5, which drives backwards at speed 130 with functions set in all four
groups and is coupled to loco 9. -/
theorem loco_replies_show_state_coupled :
    let state : LocoState :=
      { speed := 130, reverse := true, functions := 0x0abcdef, consist := some 9 }
    let station := Station.new ({ locos := [(5, state)] } : Store) {}
    let block := Block.toUnit 1 0x10 (dataOf [0, 5])
    block.unit? = some 1 ∧ UnitRequest.ofCode? block.command = some .locoTake ∧
      Returns station.layout block.data .locoTake 5 state ∧
      SendsState station (station.dispatch block) 1 5 state := by
  intro state station block
  have addressed : block.unit? = some 1 := by decide
  have decoded : UnitRequest.ofCode? block.command = some .locoTake := by decide
  have returned : Returns station.layout block.data .locoTake 5 state :=
    .take (by decide) (by decide)
  exact ⟨addressed, decoded, returned, loco_replies_show_state addressed decoded returned⟩

end Station

end RailBus
