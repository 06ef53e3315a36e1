import Mathlib
import RailBus.Proofs.Station.Keepalive
/-! # Stale loco updates

When a unit's change of a loco is applied, every other live unit driving that loco has its next
`blockedUpdates` loco updates discarded: they are echoes, still in flight, of a state the change
has overridden (`UnitTable.blockOthers`). The count is kept per unit and not per loco, so the
unit's next updates spend it whatever loco they name, and taking a loco over does not clear it.

Which blocks move the count can be told from outside the table, from what a block asks, what the
station reports and what the slot records (`Station.mark`): another unit's reported change of the
loco a live slot drives sets it, the unit's own reported change, its giving back of the loco it
drives and the slot's assignment by discovery clear it, and an update of the unit that nothing
reports spends one. The table's count is what these marks add up to (`Station.blocked_run`), so a
unit's update is dropped exactly when such a change stands since the unit's last clearing with
fewer than `blockedUpdates` of its updates dropped after it (`Station.discards_follow_contest`).
-/

namespace RailBus

namespace Block

open Septets

/-- The loco whose speed or functions a block asks to change, with the unit asking: a speed
request, or a functions request of groups 0 to 3, from a unit slot. -/
def locoUpdate? (block : Block) : Option (UInt8 × UInt16) :=
  let loco := join14 (block.data.get 0) (block.data.get 1)
  match block.unit?, UnitRequest.ofCode? block.command with
  | some unit, some .locoSpeed => some (unit, loco)
  | some unit, some .locoFunc => if block.data.get 2 > 3 then none else some (unit, loco)
  | _, _ => none

/-- The change of the layout a loco update asks for: the speed, direction and emergency stop of a
speed request, or the seven functions of a group. -/
def locoChange {σ : Type} [Layout σ] (block : Block) : σ → σ :=
  let loco := join14 (block.data.get 0) (block.data.get 1)
  match UnitRequest.ofCode? block.command with
  | some .locoSpeed =>
    let drive := Drive.ofByte (block.data.get 3)
    (Layout.setSpeed · loco (block.data.get 2 &&& 0x7f) drive.reverse drive.emergency)
  | _ => (Layout.setFunctions · loco (block.data.get 2) (block.data.get 3 &&& 0x7f))

/-- The loco a block gives back, with the unit giving it. -/
def release? (block : Block) : Option (UInt8 × UInt16) :=
  match block.unit?, UnitRequest.ofCode? block.command with
  | some unit, some .locoRelease => some (unit, join14 (block.data.get 0) (block.data.get 1))
  | _, _ => none

/-- What a loco update is: a speed request, or a functions request of groups 0 to 3, from a unit
slot, naming its loco in the first two data bytes. -/
theorem locoUpdate?_eq_some {block : Block} {unit : UInt8} {loco : UInt16}
    (update : block.locoUpdate? = some (unit, loco)) :
    block.unit? = some unit ∧ loco = join14 (block.data.get 0) (block.data.get 1) ∧
      (UnitRequest.ofCode? block.command = some .locoSpeed ∨
        UnitRequest.ofCode? block.command = some .locoFunc ∧ ¬ block.data.get 2 > 3) := by
  unfold locoUpdate? at update
  split at update
  · rename_i sender found decoded
    cases update
    exact ⟨found, rfl, .inl decoded⟩
  · rename_i sender found decoded
    split at update
    · cases update
    · rename_i small
      cases update
      exact ⟨found, rfl, .inr ⟨decoded, small⟩⟩
  · cases update

end Block

/-- What handling one block does to the updates a slot's unit has still to see discarded. -/
inductive Mark where
  /-- Another unit had a change of the loco the slot's live unit drives applied. -/
  | contest
  /-- The unit had a change applied or gave back the loco it drives, or discovery gave the slot
  out. -/
  | clear
  /-- An update of the unit was discarded. -/
  | spend
  | pass
  deriving DecidableEq, Repr

namespace Mark

/-- The discards pending after a mark, from those pending before. -/
def pending (count : Nat) : Mark → Nat
  | contest => blockedUpdates
  | clear => 0
  | spend => count - 1
  | pass => count

/-- Marks that leave a contest standing: neither a clear nor a new contest. -/
def Settled (rest : List Mark) : Prop :=
  ∀ mark ∈ rest, mark = spend ∨ mark = pass

theorem foldl_pending_settled {rest : List Mark} (settled : Settled rest) (count : Nat) :
    rest.foldl pending count = count - rest.count spend := by
  induction rest generalizing count with
  | nil => rfl
  | cons mark rest ih =>
    have later : Settled rest := fun other member => settled other (.tail _ member)
    rw [List.foldl_cons, ih later]
    rcases settled mark (.head _) with rfl | rfl
    · simp only [pending, List.count_cons_self]
      omega
    · simp only [pending, List.count_cons, reduceCtorEq, beq_iff_eq, if_false, Nat.add_zero]

/-- After a contest that still stands, `blockedUpdates` less the updates discarded since. -/
theorem foldl_pending_contest (first : List Mark) {rest : List Mark} (settled : Settled rest)
    (count : Nat) :
    (first ++ contest :: rest).foldl pending count = blockedUpdates - rest.count spend := by
  rw [List.foldl_append, List.foldl_cons, foldl_pending_settled settled]
  rfl

/-- With no standing contest, nothing is pending. -/
theorem foldl_pending_unsettled {marks : List Mark}
    (none : ¬ ∃ first rest, marks = first ++ contest :: rest ∧ Settled rest) :
    marks.foldl pending 0 = 0 := by
  induction marks using List.reverseRecOn with
  | nil => rfl
  | append_singleton marks last ih =>
    rw [List.foldl_append, List.foldl_cons, List.foldl_nil]
    -- a spend or a pass at the end keeps a contest before it standing, so there is none
    have earlier (keeps : last = spend ∨ last = pass) :
        ¬ ∃ first rest, marks = first ++ contest :: rest ∧ Settled rest := by
      rintro ⟨first, rest, split, settled⟩
      refine none ⟨first, rest ++ [last], by rw [split]; simp, fun mark member => ?_⟩
      rcases List.mem_append.mp member with inRest | isLast
      · exact settled mark inRest
      · rw [List.mem_singleton.mp isLast]
        exact keeps
    cases last with
    | contest => exact absurd ⟨marks, [], rfl, fun _ member => by cases member⟩ none
    | clear => rfl
    | spend => rw [ih (earlier (.inl rfl))]; rfl
    | pass => rw [ih (earlier (.inr rfl))]; rfl

/-- **Discards are pending exactly while a contest stands** with fewer than `blockedUpdates`
updates discarded since. -/
theorem pending_pos_iff (marks : List Mark) :
    0 < marks.foldl pending 0 ↔ ∃ first rest, marks = first ++ contest :: rest ∧
      Settled rest ∧ rest.count spend < blockedUpdates := by
  constructor
  · intro positive
    by_cases standing : ∃ first rest, marks = first ++ contest :: rest ∧ Settled rest
    · obtain ⟨first, rest, split, settled⟩ := standing
      rw [split, foldl_pending_contest first settled] at positive
      exact ⟨first, rest, split, settled, by omega⟩
    · rw [foldl_pending_unsettled standing] at positive
      exact absurd positive (Nat.lt_irrefl 0)
  · rintro ⟨first, rest, rfl, settled, few⟩
    rw [foldl_pending_contest first settled]
    omega

end Mark

namespace UnitTable

theorem get_modify_of_ne (table : UnitTable) (unit : UInt8) (change : Slot → Slot)
    {index : Fin 64} (other : slotIndex unit ≠ index) :
    (table.modify unit change).slots.get index = table.slots.get index := by
  rw [get_modify, if_neg other]

theorem blocked_modify (table : UnitTable) (unit : UInt8) (change : Slot → Slot)
    (index : Fin 64) :
    ((table.modify unit change).slots.get index).blocked =
      if slotIndex unit = index then (change (table.lookup unit)).blocked
      else (table.slots.get index).blocked := by
  rw [get_modify]
  split <;> rfl

/-- A change that keeps what a slot has pending keeps it in every slot. -/
theorem blocked_modify_of (table : UnitTable) (unit : UInt8) {change : Slot → Slot}
    (keeps : ∀ slot, (change slot).blocked = slot.blocked) (index : Fin 64) :
    ((table.modify unit change).slots.get index).blocked = (table.slots.get index).blocked := by
  rw [blocked_modify]
  split
  · rename_i same
    rw [keeps, lookup_eq_get, same]
  · rfl

@[simp]
theorem blocked_touch (table : UnitTable) (unit : UInt8) (index : Fin 64) :
    ((table.touch unit).slots.get index).blocked = (table.slots.get index).blocked := by
  unfold touch
  apply blocked_modify_of
  intro slot
  rfl

@[simp]
theorem blocked_takeControl (table : UnitTable) (unit : UInt8) (loco : UInt16) (index : Fin 64) :
    ((table.takeControl unit loco).slots.get index).blocked = (table.slots.get index).blocked := by
  unfold takeControl
  apply blocked_modify_of
  intro slot
  rfl

theorem loco_touch (table : UnitTable) (unit : UInt8) :
    ((table.touch unit).lookup unit).loco = (table.lookup unit).loco := by
  rw [lookup_eq_get, get_touch, if_pos rfl]

theorem blocked_release (table : UnitTable) (unit : UInt8) (index : Fin 64) :
    ((table.release unit).slots.get index).blocked =
      if slotIndex unit = index then 0 else (table.slots.get index).blocked := by
  rw [release, blocked_modify]

theorem blocked_assign (table : UnitTable) (slot : Fin 64) (serial : UInt32) (index : Fin 64) :
    ((table.assign slot.val.toUInt8 serial).slots.get index).blocked =
      if slot = index then 0 else (table.slots.get index).blocked := by
  rw [assign, blocked_modify, Station.slotIndex_toUInt8]

theorem blocked_blockOthers (table : UnitTable) (loco : UInt16) (exempt : UInt8) (index : Fin 64) :
    ((table.blockOthers loco exempt).slots.get index).blocked =
      if index.val ≠ exempt.toNat ∧ (table.slots.get index).isAlive ∧
          (table.slots.get index).loco = loco
      then blockedUpdates else (table.slots.get index).blocked := by
  simp only [blockOthers, vector_get_eq_getElem, Fin.getElem_fin, Vector.getElem_mapFinIdx]
  split <;> rfl

/-- **Blocking after a unit's change**, seen from the slots as they were before the unit was heard:
the unit is exempt, and every other live slot driving the loco gets `blockedUpdates` pending. -/
theorem blocked_authoritative (table : UnitTable) {unit : UInt8} (below : unit.toNat < 64)
    (loco : UInt16) (index : Fin 64) :
    ((((table.touch unit).takeControl unit loco).blockOthers loco unit).slots.get index).blocked =
      if slotIndex unit ≠ index ∧ (table.slots.get index).isAlive ∧
          (table.slots.get index).loco = loco
      then blockedUpdates else (table.slots.get index).blocked := by
  rw [blocked_blockOthers]
  by_cases mine : slotIndex unit = index
  · have own : index.val = unit.toNat := by
      rw [← mine]
      exact Nat.mod_eq_of_lt below
    rw [if_neg fun exempt => exempt.1 own, if_neg fun other => other.1 mine, blocked_takeControl,
      blocked_touch]
  · -- the exemption compares the slot with the unit byte, which names the same slot below 64
    have own : index.val ≠ unit.toNat := fun same => mine (Fin.ext (by
      simp only [slotIndex, ← same, Nat.mod_eq_of_lt index.isLt]))
    have kept : ((table.touch unit).takeControl unit loco).slots.get index =
        table.slots.get index := by
      rw [takeControl, get_modify_of_ne _ _ _ mine, touch, get_modify_of_ne _ _ _ mine]
    simp only [kept, ne_eq, own, mine, not_false_eq_true, true_and]

end UnitTable

namespace Station

variable {σ : Type}

/-- **Handling that spares pending discards**: every slot has as many pending as before, and
nothing is reported. -/
structure KeepsPending (before after : Station σ) : Prop where
  blocked : ∀ index,
    (after.table.slots.get index).blocked = (before.table.slots.get index).blocked
  events : after.events = before.events

namespace KeepsPending

variable {first second third : Station σ}

protected theorem refl (station : Station σ) : KeepsPending station station :=
  ⟨fun _ => rfl, rfl⟩

protected theorem trans (earlier : KeepsPending first second) (later : KeepsPending second third) :
    KeepsPending first third :=
  ⟨fun index => (later.blocked index).trans (earlier.blocked index),
    later.events.trans earlier.events⟩

/-- A change of the bus, the layout, the search, the schedule or the name edit alone. -/
theorem of_eq (table : second.table = first.table) (events : second.events = first.events) :
    KeepsPending first second :=
  ⟨fun _ => by rw [table], events⟩

theorem send (keeps : KeepsPending first second) (block : Block) :
    KeepsPending first (second.send block) :=
  keeps.trans (.of_eq rfl rfl)

theorem update (keeps : KeepsPending first second) (change : σ → σ) :
    KeepsPending first (second.update change) :=
  keeps.trans (.of_eq rfl rfl)

theorem ask {α : Type} (keeps : KeepsPending first second) (question : σ → α × σ) :
    KeepsPending first (second.ask question).2 :=
  keeps.trans (.of_eq rfl rfl)

theorem foldl_send (keeps : KeepsPending first second) (parts : List Nat)
    (blockOf : Nat → Block) :
    KeepsPending first (parts.foldl (fun station part => station.send (blockOf part)) second) := by
  induction parts generalizing second with
  | nil => exact keeps
  | cons part parts ih => exact ih (keeps.send _)

/-- A change of what a slot records other than its pending discards. -/
theorem modify (keeps : KeepsPending first second) (unit : UInt8) (change : Slot → Slot)
    (spares : ∀ slot, (change slot).blocked = slot.blocked) :
    KeepsPending first { second with table := second.table.modify unit change } :=
  keeps.trans ⟨second.table.blocked_modify_of unit spares, rfl⟩

end KeepsPending

section Handlers

variable {first second : Station σ}

theorem KeepsPending.sendState (keeps : KeepsPending first second) (unit : UInt8) (loco : UInt16)
    (state : LocoState) : KeepsPending first (second.sendState unit loco state) := by
  unfold Station.sendState
  split
  dsimp only
  split
  · exact ((keeps.send _).send _).send _
  · exact (keeps.send _).send _

variable [Layout σ] {station : Station σ}

theorem KeepsPending.sendLoco (keeps : KeepsPending first second) (unit : UInt8) (loco : UInt16) :
    KeepsPending first (second.sendLoco unit loco) := by
  unfold Station.sendLoco
  split
  · exact keeps.sendState unit loco _
  · exact keeps.send _

theorem keepsPending_onTake (unit : UInt8) (loco : UInt16) :
    KeepsPending station (station.onTake unit loco) := by
  unfold onTake
  split
  · rename_i state next asked
    have layout : KeepsPending station next := by
      rw [show next = (station.ask (Layout.takeControl · loco)).2 by rw [asked]]
      exact (KeepsPending.refl station).ask _
    exact (layout.modify unit (fun slot => { slot with loco }) fun _ => rfl).sendState unit loco
      state
  · rename_i next asked
    rw [show next = (station.ask (Layout.takeControl · loco)).2 by rw [asked]]
    exact ((KeepsPending.refl station).ask _).send _

theorem keepsPending_onBrowse (unit : UInt8) (step : Browse) (index : UInt16) :
    KeepsPending station (station.onBrowse unit step index) := by
  unfold onBrowse
  dsimp only
  have deleted : KeepsPending station
      (if step = .delete then (station.ask (Layout.removeEntry · index)).2 else station) := by
    split
    · exact (KeepsPending.refl station).ask _
    · exact .refl station
  generalize (if step = .delete then (station.ask (Layout.removeEntry · index)).2 else station) =
    next at deleted ⊢
  split
  · exact deleted.send _
  · split
    · exact deleted.send _
    · exact (deleted.send _).foldl_send _ _

theorem keepsPending_onName (part : Fin 5) (data : Vector UInt8 6) :
    KeepsPending station (station.onName part data) := by
  unfold onName
  split
  · exact .of_eq rfl rfl
  · split
    · exact .refl station
    · dsimp only
      split <;> exact .of_eq rfl rfl

theorem keepsPending_configure (data : Vector UInt8 6) :
    KeepsPending station (station.configure data).2 := by
  unfold configure
  dsimp only
  split
  all_goals first
    | exact .of_eq rfl rfl
    | split <;> exact .of_eq rfl rfl

/-- **What a request does to pending discards**: only updates and releases change them, and an
echo is taken as such; every other request spares them and reports nothing. -/
theorem handle_keepsPending (unit : UInt8) (request : UnitRequest) (data : Vector UInt8 6) :
    request = .locoSpeed ∨ (request = .locoFunc ∧ ¬ data.get 2 > 3) ∨
    request = .locoRelease ∨
    (request = .probeEcho ∧ station.handle unit request data = station.onEcho data) ∨
    KeepsPending station (station.handle unit request data) := by
  unfold handle
  cases request
  all_goals dsimp only
  case locoSpeed => exact .inl rfl
  case locoRelease => exact .inr (.inr (.inl rfl))
  case probeEcho => exact .inr (.inr (.inr (.inl ⟨rfl, rfl⟩)))
  case locoFunc =>
    by_cases small : data.get 2 > 3
    · rw [if_pos small]
      exact .inr (.inr (.inr (.inr (.refl station))))
    · exact .inr (.inl ⟨rfl, small⟩)
  all_goals refine .inr (.inr (.inr (.inr ?_)))
  case ping => exact .refl station
  case version => exact (KeepsPending.refl station).send _
  case mode =>
    split
    · exact (KeepsPending.refl station).update _
    · exact .refl station
  case locoTake => exact keepsPending_onTake unit _
  case tractionCouple =>
    split
    · rename_i next asked
      rw [show next = (station.ask (Layout.couple · _ _)).2 by rw [asked]]
      exact ((KeepsPending.refl station).ask _).sendLoco unit _
    · rename_i next asked
      rw [show next = (station.ask (Layout.couple · _ _)).2 by rw [asked]]
      exact ((KeepsPending.refl station).ask _).send _
  case tractionClear =>
    split
    · rename_i next asked
      rw [show next = (station.ask (Layout.uncouple · _)).2 by rw [asked]]
      exact ((KeepsPending.refl station).ask _).sendLoco unit _
    · rename_i next asked
      rw [show next = (station.ask (Layout.uncouple · _)).2 by rw [asked]]
      exact (KeepsPending.refl station).ask _
  case turnout => exact ((KeepsPending.refl station).update _).send _
  case browse step => exact keepsPending_onBrowse unit step _
  case nameData part => exact keepsPending_onName part data
  case restart => exact .of_eq rfl rfl
  case unitInfo =>
    exact (KeepsPending.refl station).modify unit
      (fun slot => { slot with hwRev := data.get 0, swRev := data.get 1 }) fun _ => rfl
  case configure =>
    have configured : KeepsPending station (station.configure data).2 := keepsPending_configure data
    split
    · rename_i reply next answer
      rw [answer] at configured
      exact configured.send _
    · rename_i next answer
      rw [answer] at configured
      exact configured
  case debug => exact .refl station

end Handlers

/-! ## One block -/

section Dispatch

/-- An echo spares every slot's pending discards and reports nothing, or gives a slot out: its
pending discards are cleared and its connection reported. -/
theorem KeepsPending.onEcho {first second : Station σ} (keeps : KeepsPending first second)
    (data : Vector UInt8 6) :
    KeepsPending first (second.onEcho data) ∨
    ∃ (given : Fin 64) (serial : UInt32),
      (second.onEcho data).events = first.events ++ [.connected given.val.toUInt8 serial] ∧
      ∀ index, ((second.onEcho data).table.slots.get index).blocked =
        if given = index then 0 else (first.table.slots.get index).blocked := by
  rcases second.onEcho_cases data with
    same | ⟨probe, -, ⟨-, moved⟩ | ⟨-, moved⟩ | ⟨serial, -, moved⟩⟩
  · rw [same]
    exact .inl keeps
  · rw [moved]
    exact .inl (keeps.trans (.of_eq rfl rfl))
  · rw [moved]
    exact .inl (keeps.trans (.of_eq rfl rfl))
  · rw [moved]
    rcases assign_cases { second with discovery := (second.discovery.echo probe).2 } serial with
      ⟨-, kept⟩ | ⟨given, -, assigned⟩
    · rw [kept]
      exact .inl (keeps.trans (.of_eq rfl rfl))
    · rw [assigned]
      refine .inr ⟨given, serial, ?_, fun index => ?_⟩
      · show second.events ++ _ = _
        rw [keeps.events]
      · show ((second.table.assign given.val.toUInt8 serial).slots.get index).blocked = _
        rw [UnitTable.blocked_assign, keeps.blocked index]

variable [Layout σ] (station : Station σ)

theorem dispatch_of_locoUpdate_eq {block : Block} {unit : UInt8} {loco : UInt16}
    (update : block.locoUpdate? = some (unit, loco)) :
    station.dispatch block =
      match (station.touchUnit unit).discardStale unit with
      | (true, next) => next
      | (false, next) => (next.update block.locoChange).authoritative unit loco := by
  obtain ⟨found, rfl, decoded⟩ := Block.locoUpdate?_eq_some update
  unfold dispatch Block.locoChange
  rw [found]
  rcases decoded with speed | ⟨functions, small⟩
  · rw [speed]
    rfl
  · rw [functions]
    dsimp only [handle]
    rw [if_neg small]
    rfl

/-- **A loco update**: dropped while its unit has discards pending, spending one of them, and
otherwise applied to the layout and reported, leaving every other live unit that drives the loco
with `blockedUpdates` pending. -/
theorem dispatch_of_locoUpdate {block : Block} {unit : UInt8} {loco : UInt16}
    (update : block.locoUpdate? = some (unit, loco)) :
    (0 < (station.table.lookup unit).blocked ∧
      (station.dispatch block).events = station.events ∧
      (station.dispatch block).layout = station.layout ∧
      ∀ index, ((station.dispatch block).table.slots.get index).blocked =
        if slotIndex unit = index then (station.table.slots.get index).blocked - 1
        else (station.table.slots.get index).blocked) ∨
    ((station.table.lookup unit).blocked = 0 ∧
      (station.dispatch block).events = station.events ++ [.locoChanged loco] ∧
      (station.dispatch block).layout = block.locoChange station.layout ∧
      ∀ index, ((station.dispatch block).table.slots.get index).blocked =
        if slotIndex unit ≠ index ∧ (station.table.slots.get index).isAlive ∧
            (station.table.slots.get index).loco = loco
        then blockedUpdates else (station.table.slots.get index).blocked) := by
  have handled := station.dispatch_of_locoUpdate_eq update
  have below := Block.toNat_lt_of_unit? (Block.locoUpdate?_eq_some update).1
  -- hearing the unit refills its budget and leaves its pending discards
  have heard : ((station.table.touch unit).lookup unit).blocked =
      (station.table.lookup unit).blocked := by
    rw [UnitTable.lookup_eq_get, UnitTable.lookup_eq_get, UnitTable.blocked_touch]
  unfold discardStale UnitTable.consumeBlocked at handled
  by_cases idle : (station.table.lookup unit).blocked = 0
  · -- nothing pending: the update is applied to the layout, then the unit takes the loco
    have applied : station.dispatch block =
        ((station.touchUnit unit).update block.locoChange).authoritative unit loco := by
      simp only [touchUnit, heard, idle, if_true] at handled
      exact handled
    rw [applied]
    exact .inr ⟨idle, rfl, rfl, station.table.blocked_authoritative below loco⟩
  · -- discards pending: the update is dropped, spending one of them
    have dropped : station.dispatch block =
        { station.touchUnit unit with
          table := (station.table.touch unit).modify unit
            fun slot => { slot with blocked := slot.blocked - 1 } } := by
      simp only [touchUnit, heard, idle, if_false] at handled
      exact handled
    rw [dropped]
    refine .inl ⟨Nat.pos_of_ne_zero idle, rfl, rfl, fun index => ?_⟩
    rw [UnitTable.blocked_modify]
    split
    · rename_i mine
      show ((station.table.touch unit).lookup unit).blocked - 1 = _
      rw [heard, UnitTable.lookup_eq_get, mine]
    · exact UnitTable.blocked_touch _ _ _

/-- **A loco given back**: the unit's pending discards are cleared when the loco is the one its
slot records, and nothing is reported. -/
theorem dispatch_of_release {block : Block} {unit : UInt8} {loco : UInt16}
    (release : block.release? = some (unit, loco)) :
    (station.dispatch block).events = station.events ∧
      ∀ index, ((station.dispatch block).table.slots.get index).blocked =
        if slotIndex unit = index ∧ (station.table.lookup unit).loco = loco then 0
        else (station.table.slots.get index).blocked := by
  unfold Block.release? at release
  split at release
  · rename_i sender found decoded
    cases release
    unfold dispatch
    rw [found, decoded]
    dsimp only [handle]
    rw [UnitTable.loco_touch]
    refine ⟨by split <;> rfl, fun index => ?_⟩
    split
    · rename_i recorded
      show (((station.table.touch unit).release unit).slots.get index).blocked = _
      simp only [recorded, and_true]
      rw [UnitTable.blocked_release, UnitTable.blocked_touch]
    · rename_i recorded
      simp only [recorded, and_false, if_false]
      exact UnitTable.blocked_touch _ _ _
  · cases release

/-- **Any other block** spares every slot's pending discards and reports nothing, or is an echo
that gives a slot out. -/
theorem dispatch_of_other {block : Block} (update : block.locoUpdate? = none)
    (release : block.release? = none) :
    KeepsPending station (station.dispatch block) ∨
    ∃ (given : Fin 64) (serial : UInt32),
      (station.dispatch block).events = station.events ++ [.connected given.val.toUInt8 serial] ∧
      ∀ index, ((station.dispatch block).table.slots.get index).blocked =
        if given = index then 0 else (station.table.slots.get index).blocked := by
  unfold dispatch
  cases found : block.unit? with
  | none =>
    dsimp only
    split
    · exact (KeepsPending.refl station).onEcho block.data
    · exact .inl (.refl station)
  | some unit =>
    dsimp only
    have heard : KeepsPending station (station.touchUnit unit) :=
      ⟨station.table.blocked_touch unit, rfl⟩
    cases decoded : UnitRequest.ofCode? block.command with
    | none => exact .inl heard
    | some request =>
      dsimp only
      rcases (station.touchUnit unit).handle_keepsPending unit request block.data with
        speed | ⟨functions, small⟩ | released | ⟨-, echoed⟩ | keeps
      · simp [Block.locoUpdate?, found, decoded, speed] at update
      · unfold Block.locoUpdate? at update
        rw [found, decoded, functions] at update
        dsimp only at update
        rw [if_neg small] at update
        cases update
      · simp [Block.release?, found, decoded, released] at release
      · rw [show station.touchUnit unit = { station with table := station.table.touch unit }
          from rfl] at echoed
        rw [echoed]
        exact heard.onEcho block.data
      · exact .inl (heard.trans keeps)

end Dispatch

/-! ## Marks -/

section Marks

variable [Layout σ]

/-- The reports a block added as the station handled it. -/
def reported (station : Station σ) (block : Block) : List Event :=
  (station.dispatch block).events.drop station.events.length

/-- **What handling a block does to a slot**, told from what the block asks, what the station
reports and what the slot records: an update of the slot's unit spends a discard when nothing is
reported and clears the slot when its change is; another unit's reported change contests the
slot when its live unit drives that loco. -/
def mark (station : Station σ) (slot : Fin 64) (block : Block) : Mark :=
  let held := station.table.slots.get slot
  let reported := station.reported block
  match block.locoUpdate?, block.release? with
  | some (unit, loco), _ =>
    if slotIndex unit = slot then if reported = [] then .spend else .clear
    else if reported ≠ [] ∧ held.isAlive ∧ held.loco = loco then .contest else .pass
  | none, some (unit, loco) => if slotIndex unit = slot ∧ held.loco = loco then .clear else .pass
  | none, none => if reported.any (Event.concerns slot) then .clear else .pass

/-- The marks a run's blocks leave on a slot, oldest first. -/
def marks (station : Station σ) (slot : Fin 64) : List Block → List Mark
  | [] => []
  | block :: blocks => station.mark slot block :: (station.dispatch block).marks slot blocks

theorem reported_of_events {station : Station σ} {block : Block} {added : List Event}
    (events : (station.dispatch block).events = station.events ++ added) :
    station.reported block = added := by
  rw [reported, events, List.drop_left]

/-- **One block**: what a slot has pending after a block is what the block's mark makes of what
it had pending before. -/
theorem blocked_dispatch (station : Station σ) (slot : Fin 64) (block : Block) :
    ((station.dispatch block).table.slots.get slot).blocked =
      (station.mark slot block).pending (station.table.slots.get slot).blocked := by
  unfold mark
  cases update : block.locoUpdate? with
  | some request =>
    obtain ⟨unit, loco⟩ := request
    dsimp only
    rcases station.dispatch_of_locoUpdate update with
      ⟨-, events, -, blocked⟩ | ⟨idle, events, -, blocked⟩
    · rw [reported_of_events (events.trans (List.append_nil _).symm), blocked slot]
      by_cases mine : slotIndex unit = slot
      · simp only [mine, if_true]
        rfl
      · simp only [mine, if_false, ne_eq, not_true_eq_false, false_and]
        rfl
    · -- the sender had nothing pending, and keeps nothing
      rw [reported_of_events events, blocked slot]
      by_cases mine : slotIndex unit = slot
      · rw [if_pos mine, if_neg (List.cons_ne_nil _ _), if_neg fun other => other.1 mine, ← mine,
          ← UnitTable.lookup_eq_get, idle]
        rfl
      · simp only [mine, if_false, ne_eq, not_false_eq_true, true_and, List.cons_ne_nil]
        split <;> rfl
  | none =>
    cases release : block.release? with
    | some request =>
      obtain ⟨unit, loco⟩ := request
      dsimp only
      rw [(station.dispatch_of_release release).2 slot, UnitTable.lookup_eq_get]
      by_cases mine : slotIndex unit = slot
      · simp only [mine]
        split <;> rfl
      · simp only [mine, false_and, if_false]
        rfl
    | none =>
      dsimp only
      rcases station.dispatch_of_other update release with
        keeps | ⟨given, serial, events, blocked⟩
      · rw [reported_of_events (keeps.events.trans (List.append_nil _).symm), keeps.blocked slot]
        rfl
      · rw [reported_of_events events, blocked slot]
        simp only [List.any_cons, List.any_nil, Bool.or_false, concerns_connected]
        by_cases same : given = slot
        · simp only [same, decide_true, if_true]
          rfl
        · simp only [same, decide_false, if_false, Bool.false_eq_true]
          rfl

/-- **A whole run**: what a slot has pending after a run is what the run's marks add up to. -/
theorem blocked_run (start : Station σ) (slot : Fin 64) (blocks : List Block) :
    ((blocks.foldl dispatch start).table.slots.get slot).blocked =
      (start.marks slot blocks).foldl Mark.pending (start.table.slots.get slot).blocked := by
  induction blocks generalizing start with
  | nil => rfl
  | cons block blocks ih =>
    rw [List.foldl_cons, ih, marks, List.foldl_cons, blocked_dispatch]

/-- **Stale updates are dropped exactly while another unit's change stands.** Take a run from a
station where a slot has nothing pending, then an update from the slot's unit. The update is
dropped, neither reported nor applied to the layout, exactly when the run's marks on the slot hold
a contest (another unit's reported change of a loco the slot's live unit drove) with no clear and
no newer contest after it, and fewer than `blockedUpdates` of the unit's updates dropped since; the
loco the update names plays no part. Otherwise the layout applies it, it is reported, and it leaves
its unit with nothing pending. -/
theorem discards_follow_contest {start : Station σ} {slot : Fin 64}
    (calm : (start.table.slots.get slot).blocked = 0) (earlier : List Block) {message : Block}
    {unit : UInt8} {loco : UInt16} (update : message.locoUpdate? = some (unit, loco))
    (sender : slotIndex unit = slot) :
    let before := earlier.foldl dispatch start
    let after := before.dispatch message
    let stale := ∃ first rest, start.marks slot earlier = first ++ .contest :: rest ∧
      Mark.Settled rest ∧ rest.count .spend < blockedUpdates
    (stale ∧ after.events = before.events ∧ after.layout = before.layout) ∨
      (¬ stale ∧ after.events = before.events ++ [.locoChanged loco] ∧
        after.layout = message.locoChange before.layout ∧
        (after.table.slots.get slot).blocked = 0) := by
  intro before after stale
  have pending : 0 < (before.table.lookup unit).blocked ↔ stale := by
    rw [UnitTable.lookup_eq_get, sender, blocked_run, calm]
    exact Mark.pending_pos_iff _
  rcases before.dispatch_of_locoUpdate update with
    ⟨dropped, events, layout, -⟩ | ⟨idle, events, applied, blocked⟩
  · exact .inl ⟨pending.mp dropped, events, layout⟩
  · refine .inr ⟨fun standing => ?_, events, applied, ?_⟩
    · have := pending.mpr standing
      omega
    · rw [blocked slot, if_neg fun other => other.1 sender, ← sender,
        ← UnitTable.lookup_eq_get, idle]

/-- Two units drive loco 42 and the first sets its speed: the second unit's next update, an echo
of a speed that change overrode, is stale and dropped. -/
theorem discards_follow_contest_two_drivers :
    let start := Station.new ({} : Store) {}
    let earlier := [Block.toUnit 1 0x10 (dataOf [0, 42]), Block.toUnit 2 0x10 (dataOf [0, 42]),
      Block.toUnit 1 0x12 (dataOf [0, 42, 50])]
    let message := Block.toUnit 2 0x12 (dataOf [0, 42, 10])
    (start.table.slots.get 2).blocked = 0 ∧ message.locoUpdate? = some (2, 42) ∧
      slotIndex 2 = 2 ∧
      ((earlier.foldl dispatch start).dispatch message).events =
        (earlier.foldl dispatch start).events := by
  intro start earlier message
  have calm : (start.table.slots.get 2).blocked = 0 := by decide
  have update : message.locoUpdate? = some (2, 42) := by decide
  have sender : slotIndex 2 = 2 := by decide
  refine ⟨calm, update, sender, ?_⟩
  rcases discards_follow_contest calm earlier update sender with
    ⟨-, dropped, -⟩ | ⟨fresh, -, -, -⟩
  · exact dropped
  · have nothingSince : Mark.Settled [] := fun _ member => by cases member
    exact (fresh ⟨[.pass, .pass], [], by decide, nothingSince, by decide⟩).elim

/-- **Pending discards are the unit's, not the loco's.** Units 1 and 2 both change loco 5, which
leaves unit 1 with discards pending; its next update is then dropped although it names loco 7,
which no other unit has changed. -/
theorem stale_block_spans_locos :
    let before := [Block.toUnit 1 0x12 (dataOf [0, 5, 10]),
      Block.toUnit 2 0x12 (dataOf [0, 5, 20])].foldl dispatch (Station.new ({} : Store) {})
    before.events = [.locoChanged 5, .locoChanged 5] ∧
      (before.dispatch (Block.toUnit 1 0x12 (dataOf [0, 7, 30]))).events = before.events := by
  decide

end Marks

end Station

end RailBus
