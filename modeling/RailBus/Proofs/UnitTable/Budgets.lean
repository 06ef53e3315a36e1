import Mathlib
import RailBus.Proofs.Station.StaleUpdates
/-! # The budgets of the unit table

Eight calls change a unit table (`UnitTable.Call`); its other functions only read it. Over every
sequence of calls from the empty table, every keepalive budget stays at most `aliveBudget` and
every count of pending discards at most `blockedUpdates` (`UnitTable.Bounded`).

A decay answers true exactly when it spends the last poll of a budget, and it then leaves the
slot vacant. A touch or an assignment refills a budget; every later decay of the slot spends one
poll of it and no other call changes it (`UnitTable.alive_run`), so after a refill only the
`aliveBudget`-th decay of the slot answers true, as long as no other refill of the slot comes
between (`UnitTable.decay_after_refill`).

Blocking after a change spares every slot that is not live, and the slot of the exempt unit when
the exempt byte is a slot index. Units are named by any byte, taken modulo 64, but blocking
compares the exempt byte with the slot indices as it is: a byte from 64 on spares no slot, not
even its own (`UnitTable.blockOthers_blocks_exempt_beyond_slots`).

Main statement: `UnitTable.calls_keep_budgets`.
-/

namespace RailBus

/-- A slot whose budget and count of pending discards are within their bounds. -/
def Slot.Fits (slot : Slot) : Prop :=
  slot.alive ≤ aliveBudget ∧ slot.blocked ≤ blockedUpdates

namespace UnitTable

/-- A call that changes a unit table. -/
inductive Call where
  | touch (unit : UInt8)
  | decay (unit : UInt8)
  | assign (unit : UInt8) (serial : UInt32)
  | setRevisions (unit hwRev swRev : UInt8)
  | takeControl (unit : UInt8) (loco : UInt16)
  | release (unit : UInt8)
  | blockOthers (loco : UInt16) (exempt : UInt8)
  | consumeBlocked (unit : UInt8)
  deriving DecidableEq, Repr

namespace Call

/-- Whether a call spends a poll of a slot. -/
def decays (slot : Fin 64) : Call → Bool
  | .decay unit => decide (slotIndex unit = slot)
  | _ => false

/-- Whether a call refills the budget of a slot. -/
def refills (slot : Fin 64) : Call → Bool
  | .touch unit => decide (slotIndex unit = slot)
  | .assign unit _ => decide (slotIndex unit = slot)
  | _ => false

end Call

/-- **One call on a table**: the table after it. -/
def call (table : UnitTable) : Call → UnitTable
  | .touch unit => table.touch unit
  | .decay unit => (table.decay unit).1
  | .assign unit serial => table.assign unit serial
  | .setRevisions unit hwRev swRev => table.setRevisions unit hwRev swRev
  | .takeControl unit loco => table.takeControl unit loco
  | .release unit => table.release unit
  | .blockOthers loco exempt => table.blockOthers loco exempt
  | .consumeBlocked unit => (table.consumeBlocked unit).1

/-- The table after calls one after another. -/
def run (table : UnitTable) (calls : List Call) : UnitTable :=
  calls.foldl call table

@[simp]
theorem run_nil (table : UnitTable) : table.run [] = table := rfl

@[simp]
theorem run_cons (table : UnitTable) (request : Call) (calls : List Call) :
    table.run (request :: calls) = (table.call request).run calls := rfl

/-! ## Bounds -/

/-- **Every budget and every count of pending discards is within its bound.** -/
def Bounded (table : UnitTable) : Prop :=
  ∀ index : Fin 64, (table.slots.get index).Fits

theorem bounded_empty : empty.Bounded := fun index => by
  simp [empty, vector_get_eq_getElem, Slot.Fits, Slot.vacant]

variable {table : UnitTable}

/-- A change of one slot that keeps slots within their bounds keeps the table within them. -/
theorem Bounded.modify (bounded : table.Bounded) (unit : UInt8) {change : Slot → Slot}
    (keeps : ∀ slot, slot.Fits → (change slot).Fits) : (table.modify unit change).Bounded := by
  intro index
  rw [get_modify]
  split
  · rw [lookup_eq_get]
    exact keeps _ (bounded _)
  · exact bounded index

theorem Bounded.decay (bounded : table.Bounded) (unit : UInt8) : (table.decay unit).1.Bounded := by
  unfold UnitTable.decay
  dsimp only
  split
  · exact bounded
  · split
    · exact bounded.modify unit fun _ _ => ⟨Nat.zero_le _, Nat.zero_le _⟩
    · exact bounded.modify unit fun _ fits => ⟨Nat.le_trans (Nat.sub_le _ _) fits.1, fits.2⟩

theorem Bounded.consumeBlocked (bounded : table.Bounded) (unit : UInt8) :
    (table.consumeBlocked unit).1.Bounded := by
  unfold UnitTable.consumeBlocked
  split
  · exact bounded
  · exact bounded.modify unit fun _ fits => ⟨fits.1, Nat.le_trans (Nat.sub_le _ _) fits.2⟩

theorem Bounded.blockOthers (bounded : table.Bounded) (loco : UInt16) (exempt : UInt8) :
    (table.blockOthers loco exempt).Bounded := by
  intro index
  have alive := (sameUnits_blockOthers table loco exempt index).2.1
  refine ⟨alive ▸ (bounded index).1, ?_⟩
  rw [blocked_blockOthers]
  split
  · exact Nat.le_refl _
  · exact (bounded index).2

/-- **One call keeps every slot within its bounds.** -/
theorem Bounded.call (bounded : table.Bounded) (request : Call) : (table.call request).Bounded := by
  cases request with
  | touch unit => exact bounded.modify unit fun _ fits => ⟨Nat.le_refl _, fits.2⟩
  | decay unit => exact bounded.decay unit
  | assign unit serial => exact bounded.modify unit fun _ _ => ⟨Nat.le_refl _, Nat.zero_le _⟩
  | setRevisions unit hwRev swRev => exact bounded.modify unit fun _ fits => fits
  | takeControl unit loco => exact bounded.modify unit fun _ fits => fits
  | release unit => exact bounded.modify unit fun _ fits => ⟨fits.1, Nat.zero_le _⟩
  | blockOthers loco exempt => exact bounded.blockOthers loco exempt
  | consumeBlocked unit => exact bounded.consumeBlocked unit

/-- Calls one after another keep every slot within its bounds. -/
theorem Bounded.run (bounded : table.Bounded) (calls : List Call) : (table.run calls).Bounded := by
  induction calls generalizing table with
  | nil => exact bounded
  | cons request rest ih => exact ih (bounded.call request)

/-! ## Counting a budget down -/

/-- A decay answers true exactly when it spends the last poll of the budget. -/
theorem decay_snd_eq_true_iff (table : UnitTable) (unit : UInt8) :
    (table.decay unit).2 = true ↔ (table.lookup unit).alive = 1 := by
  rw [decay_snd, decide_eq_true_iff]

/-- The decay that spends the last poll leaves the slot vacant. -/
theorem lookup_decay_of_last {unit : UInt8} (last : (table.lookup unit).alive = 1) :
    (table.decay unit).1.lookup unit = Slot.vacant := by
  rw [lookup_eq_get (table.decay unit).1, get_decay_self, if_neg (by omega), if_pos last]

/-- **A call that does not refill a slot**: a decay of the slot spends one poll of its budget,
down to zero, and every other call leaves the budget as it is. -/
theorem alive_call {slot : Fin 64} {request : Call} (keeps : request.refills slot = false)
    (table : UnitTable) :
    ((table.call request).slots.get slot).alive =
      (table.slots.get slot).alive - if request.decays slot then 1 else 0 := by
  -- the calls that keep who holds each slot keep every budget
  have kept : ∀ after, SameUnits table after →
      (after.slots.get slot).alive = (table.slots.get slot).alive - 0 :=
    fun _ same => (same slot).2.1
  cases request with
  | touch unit =>
    have other : slotIndex unit ≠ slot := by simpa [Call.refills] using keeps
    simp only [call, get_touch, if_neg other, Call.decays, Bool.false_eq_true, if_false,
      Nat.sub_zero]
  | assign unit serial =>
    have other : slotIndex unit ≠ slot := by simpa [Call.refills] using keeps
    simp only [call, get_assign, if_neg other, Call.decays, Bool.false_eq_true, if_false,
      Nat.sub_zero]
  | decay unit =>
    by_cases polled : slotIndex unit = slot
    · -- the polled slot: nothing to spend at zero, vacant at one, one less above
      subst polled
      simp only [Call.decays, decide_true, if_true]
      show ((table.decay unit).1.slots.get (slotIndex unit)).alive = _
      rw [get_decay_self, ← lookup_eq_get]
      split
      · omega
      · split
        · rename_i last
          simp only [Slot.vacant, last]
        · rfl
    · simp only [call, get_decay_ne table polled, Call.decays, polled, decide_false,
        Bool.false_eq_true, if_false, Nat.sub_zero]
  | setRevisions unit hwRev swRev => exact kept _ (sameUnits_setRevisions table unit hwRev swRev)
  | takeControl unit loco => exact kept _ (sameUnits_takeControl table unit loco)
  | release unit => exact kept _ (sameUnits_release table unit)
  | blockOthers loco exempt => exact kept _ (sameUnits_blockOthers table loco exempt)
  | consumeBlocked unit => exact kept _ (sameUnits_consumeBlocked table unit)

/-- A refill of a slot gives it the whole budget. -/
theorem alive_call_of_refills {slot : Fin 64} {request : Call} (refilled : request.refills slot = true)
    (table : UnitTable) : ((table.call request).slots.get slot).alive = aliveBudget := by
  cases request with
  | touch unit =>
    have same : slotIndex unit = slot := by simpa [Call.refills] using refilled
    simp only [call, get_touch, if_pos same]
  | assign unit serial =>
    have same : slotIndex unit = slot := by simpa [Call.refills] using refilled
    simp only [call, get_assign, if_pos same]
  | _ => simp [Call.refills] at refilled

/-- **Calls that do not refill a slot count its budget down by its decays.** -/
theorem alive_run {slot : Fin 64} (table : UnitTable) {calls : List Call}
    (keeps : ∀ request ∈ calls, request.refills slot = false) :
    ((table.run calls).slots.get slot).alive =
      (table.slots.get slot).alive - calls.countP (·.decays slot) := by
  -- induction on the calls, one decay of the slot at a time
  induction calls generalizing table with
  | nil => rfl
  | cons request rest ih =>
    rw [run_cons, ih _ fun later member => keeps later (List.mem_cons_of_mem _ member),
      alive_call (keeps request List.mem_cons_self), List.countP_cons]
    split <;> omega

/-- **After a refill, only the `aliveBudget`-th decay of the slot answers true**, as long as no
other refill of the slot comes between. -/
theorem decay_after_refill (table : UnitTable) {slot : Fin 64} {refill : Call}
    (refilled : refill.refills slot = true) {before : List Call}
    (keeps : ∀ request ∈ before, request.refills slot = false) {unit : UInt8}
    (polled : slotIndex unit = slot) :
    ((table.run (refill :: before)).decay unit).2 =
      decide (before.countP (·.decays slot) + 1 = aliveBudget) := by
  have left : ((table.run (refill :: before)).slots.get slot).alive =
      aliveBudget - before.countP (·.decays slot) := by
    rw [run_cons, alive_run _ keeps, alive_call_of_refills refilled]
  rw [decay_snd, lookup_eq_get, polled, left]
  simp only [aliveBudget]
  apply decide_eq_decide.mpr
  omega

/-! ## Blocking -/

/-- **Blocking spares a slot that is not live, and the slot whose index is the exempt byte.** -/
theorem blocked_blockOthers_of_spared (table : UnitTable) (loco : UInt16) (exempt : UInt8)
    {index : Fin 64} (spared : (table.slots.get index).isAlive = false ∨ index.val = exempt.toNat) :
    ((table.blockOthers loco exempt).slots.get index).blocked = (table.slots.get index).blocked := by
  rw [blocked_blockOthers, if_neg]
  rintro ⟨other, live, -⟩
  rcases spared with dead | same
  · rw [dead] at live
    exact Bool.false_ne_true live
  · exact other same

/-- An exempt byte below 64 is the index of the slot it designates. -/
theorem val_slotIndex_of_lt {unit : UInt8} (below : unit.toNat < 64) :
    (slotIndex unit).val = unit.toNat := by
  simp only [slotIndex]
  omega

/-- **The unit table keeps its budgets.** Over every sequence of calls from the empty table, every
budget stays at most `aliveBudget` and every count of pending discards at most `blockedUpdates`. A
decay answers true exactly when the budget it spends was 1, and then leaves the slot vacant. After
a touch or an assignment of a unit, the decays of the unit answer true exactly at the
`aliveBudget`-th of them, as long as no touch or assignment of the unit comes between. Blocking for
an exempt unit whose byte is below 64 never raises the count of a slot that is not live, nor of the
exempt unit. -/
theorem calls_keep_budgets (exempt : UInt8) (indexed : exempt.toNat < 64) :
    (∀ (calls : List Call) (index : Fin 64),
      ((empty.run calls).slots.get index).alive ≤ aliveBudget ∧
        ((empty.run calls).slots.get index).blocked ≤ blockedUpdates) ∧
    (∀ (table : UnitTable) (unit : UInt8),
      ((table.decay unit).2 = true ↔ (table.lookup unit).alive = 1) ∧
        ((table.decay unit).2 = true → (table.decay unit).1.lookup unit = Slot.vacant)) ∧
    (∀ (table : UnitTable) (unit : UInt8) (refill : Call) (before : List Call),
      refill.refills (slotIndex unit) = true →
      (∀ request ∈ before, request.refills (slotIndex unit) = false) →
      ((table.run (refill :: before)).decay unit).2 =
        decide (before.countP (·.decays (slotIndex unit)) + 1 = aliveBudget)) ∧
    (∀ (table : UnitTable) (loco : UInt16) (index : Fin 64),
      (table.slots.get index).isAlive = false ∨ slotIndex exempt = index →
      ((table.blockOthers loco exempt).slots.get index).blocked =
        (table.slots.get index).blocked) := by
  refine ⟨fun calls index => bounded_empty.run calls index, fun table unit => ?_,
    fun table unit refill before refilled keeps => decay_after_refill table refilled keeps rfl,
    fun table loco index spared => ?_⟩
  · refine ⟨decay_snd_eq_true_iff table unit, fun last => lookup_decay_of_last ?_⟩
    exact (decay_snd_eq_true_iff table unit).mp last
  · apply blocked_blockOthers_of_spared
    rcases spared with dead | rfl
    · exact .inl dead
    · exact .inr (val_slotIndex_of_lt indexed)

/-- Unit 1 driving loco 42 keeps its count when it is the exempt unit of blocking for loco 42. -/
theorem calls_keep_budgets_exempt_one :
    (1 : UInt8).toNat < 64 ∧
      ((((empty.touch 1).takeControl 1 42).blockOthers 42 1).slots.get 1).blocked =
        (((empty.touch 1).takeControl 1 42).slots.get 1).blocked :=
  ⟨by decide, (calls_keep_budgets 1 (by decide)).2.2.2 _ 42 1 (.inr rfl)⟩

/-- **A unit byte from 64 on is not spared by blocking**: unit 65 designates slot 1, yet blocking
after a change by unit 65 raises the count of slot 1 from 0 to `blockedUpdates`. -/
theorem blockOthers_blocks_exempt_beyond_slots :
    slotIndex 65 = slotIndex 1 ∧
      (((empty.touch 1).takeControl 1 42).lookup 65).blocked = 0 ∧
      ((((empty.touch 1).takeControl 1 42).blockOthers 42 65).lookup 65).blocked =
        blockedUpdates := by
  decide

end UnitTable

end RailBus
