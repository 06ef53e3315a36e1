/-! # The unit table

The master keeps one slot for each of the 64 unit addresses. A slot is live while its keepalive
budget `alive` is positive: every block heard from the unit refills the budget to `aliveBudget`
(`touch`), and every keepalive poll of the unit spends one (`decay`). The poll that spends the last
of it vacates the slot, and only that poll reports it (`decay` answers true).

A slot also remembers the loco its unit drives, and how many of the unit's next loco updates to
discard (`blocked`): when another unit changes that loco, echoes still in flight from this unit
would undo the change, so they are dropped (`blockOthers`, `consumeBlocked`).

Units are named by any byte, taken modulo 64.
-/

namespace RailBus

/-- The keepalive budget of a unit just heard from, in polls. -/
def aliveBudget : Nat := 210

/-- The number of stale loco updates discarded after another unit took over a loco. -/
def blockedUpdates : Nat := 2

/-- What the master knows about one unit. -/
structure Slot where
  /-- The 24-bit serial number, 0 when vacant. -/
  serial : UInt32 := 0
  hwRev : UInt8 := 0
  swRev : UInt8 := 0
  /-- Polls left before the unit counts as gone. -/
  alive : Nat := 0
  /-- The loco driven from this unit, 0 for none. -/
  loco : UInt16 := 0
  /-- Upcoming loco updates from this unit to discard. -/
  blocked : Nat := 0
  /-- The address was given by discovery rather than revived by traffic. -/
  assigned : Bool := false
  deriving DecidableEq, Repr, Inhabited

namespace Slot

/-- A slot with nothing in it. -/
def vacant : Slot := {}

def isAlive (slot : Slot) : Bool :=
  slot.alive > 0

end Slot

/-- The slot a unit byte designates. -/
def slotIndex (unit : UInt8) : Fin 64 :=
  ⟨unit.toNat % 64, Nat.mod_lt _ (by decide)⟩

/-- The 64 unit slots. -/
structure UnitTable where
  slots : Vector Slot 64
  deriving DecidableEq, Repr

namespace UnitTable

/-- A table of vacant slots. -/
def empty : UnitTable :=
  { slots := Vector.replicate 64 Slot.vacant }

/-- The slot of a unit. -/
def lookup (table : UnitTable) (unit : UInt8) : Slot :=
  table.slots[slotIndex unit]

/-- Change the slot of a unit. -/
def modify (table : UnitTable) (unit : UInt8) (change : Slot → Slot) : UnitTable :=
  { slots := table.slots.set (slotIndex unit) (change (table.lookup unit)) }

/-- The indices of the live slots, ascending. -/
def alive (table : UnitTable) : List (Fin 64) :=
  (List.finRange 64).filter fun index => table.slots[index].isAlive

/-- Refill the budget of a unit that was heard. -/
def touch (table : UnitTable) (unit : UInt8) : UnitTable :=
  table.modify unit fun slot => { slot with alive := aliveBudget }

/-- **Spend one poll of a unit's budget.** True exactly when this spends the last of it; the slot
is then vacated. -/
def decay (table : UnitTable) (unit : UInt8) : UnitTable × Bool :=
  let slot := table.lookup unit
  if slot.alive = 0 then (table, false)
  else if slot.alive = 1 then (table.modify unit fun _ => Slot.vacant, true)
  else (table.modify unit fun slot => { slot with alive := slot.alive - 1 }, false)

/-- The first slot that is not live. -/
def vacant? (table : UnitTable) : Option (Fin 64) :=
  (List.finRange 64).find? fun index => !table.slots[index].isAlive

/-- The first live slot of the unit with a serial number. -/
def findSerial? (table : UnitTable) (serial : UInt32) : Option (Fin 64) :=
  (table.alive).find? fun index => table.slots[index].serial == serial

/-- Give a slot to a unit found by discovery. -/
def assign (table : UnitTable) (unit : UInt8) (serial : UInt32) : UnitTable :=
  table.modify unit fun _ => { serial, alive := aliveBudget, assigned := true }

/-- Record the revisions a unit reported. -/
def setRevisions (table : UnitTable) (unit : UInt8) (hwRev swRev : UInt8) : UnitTable :=
  table.modify unit fun slot => { slot with hwRev, swRev }

/-- Record that a unit drives a loco. -/
def takeControl (table : UnitTable) (unit : UInt8) (loco : UInt16) : UnitTable :=
  table.modify unit fun slot => { slot with loco }

/-- Forget the loco a unit drives, and its pending discards. -/
def release (table : UnitTable) (unit : UInt8) : UnitTable :=
  table.modify unit fun slot => { slot with loco := 0, blocked := 0 }

/-- **After a unit changed a loco**, make every other live unit driving it discard its next
`blockedUpdates` updates. The exempt unit is compared with the slot index as a whole byte. -/
def blockOthers (table : UnitTable) (loco : UInt16) (exempt : UInt8) : UnitTable :=
  { slots := table.slots.mapFinIdx fun index slot _ =>
      if index ≠ exempt.toNat ∧ slot.isAlive ∧ slot.loco = loco then
        { slot with blocked := blockedUpdates }
      else slot }

/-- **Spend one pending discard** of a unit: true when its update must be dropped. -/
def consumeBlocked (table : UnitTable) (unit : UInt8) : UnitTable × Bool :=
  if (table.lookup unit).blocked = 0 then (table, false)
  else (table.modify unit fun slot => { slot with blocked := slot.blocked - 1 }, true)

end UnitTable

end RailBus
