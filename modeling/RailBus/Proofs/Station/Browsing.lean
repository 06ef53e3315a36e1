import RailBus.Proofs.Station.LocoReplies
import RailBus.Proofs.Station.Exposure
/-! # Walking through the loco database

A unit steps through the loco database with four requests, select, next, previous and delete,
each naming a 1-based index as a 14-bit pair. The station deletes the entry first for a delete
(`Station.browsedLayout`), then counts the entries: with none it answers "empty"; otherwise it
shows the index the step leads to (`Station.browseIndex`), with the entry's index, loco and format
and then its name in four parts (`Station.browseReplies`).

The next index follows the last one with the first, the previous one precedes the first with the
last, and select and delete clamp the index to the entries; next and previous undo each other
(`browseIndex_prev_next`, `browseIndex_next_prev`). A unit that keeps asking for the entry after
the one it was shown names that entry by the index bytes it was shown (`Station.nextShown`). Up to
`2 ^ 14` entries it then meets every entry once in every run of as many requests as there are
entries (`Station.perm_iterate_nextShown`). Beyond that the index `2 ^ 14` reaches the unit as 0,
the next request shows entry 1 again, and the entries above `2 ^ 14` are never shown
(`Station.nextShown_le`). The main statement is `Station.database_browse_cycles`.
-/

namespace RailBus

open Septets

namespace Station

/-! ## The index a step shows -/

theorem toNat_browseIndex_next (index count : UInt16) :
    (browseIndex .next index count).toNat =
      if index.toNat < count.toNat then index.toNat + 1 else 1 := by
  have room := count.toNat_lt
  simp only [browseIndex, ge_iff_le, UInt16.le_iff_toNat_le]
  split <;> split
  all_goals try simp only [UInt16.toNat_add, UInt16.toNat_one]
  all_goals omega

theorem toNat_browseIndex_prev (index count : UInt16) :
    (browseIndex .prev index count).toNat =
      if 2 ≤ index.toNat ∧ index.toNat ≤ count.toNat then index.toNat - 1 else count.toNat := by
  have room := index.toNat_lt
  simp only [browseIndex, UInt16.le_iff_toNat_le, gt_iff_lt, UInt16.lt_iff_toNat_lt,
    UInt16.reduceToNat]
  split <;> split
  all_goals try simp only [UInt16.toNat_sub, UInt16.reduceToNat]
  all_goals omega

theorem toNat_browseIndex_clamp (step : Browse) (neitherWay : step ≠ .next ∧ step ≠ .prev)
    (index count : UInt16) :
    (browseIndex step index count).toNat = max 1 (min index.toNat count.toNat) := by
  cases step
  case next => exact absurd rfl neitherWay.1
  case prev => exact absurd rfl neitherWay.2
  all_goals simp [browseIndex, UInt16.toNat_max, UInt16.toNat_min]

theorem browseIndex_next_of_lt {index count : UInt16} (below : index < count) :
    browseIndex .next index count = index + 1 := by
  rw [UInt16.lt_iff_toNat_lt] at below
  simp only [browseIndex, ge_iff_le, UInt16.le_iff_toNat_le]
  rw [if_neg (by omega)]

/-- Next wraps to the first entry from the last one and from every index outside the entries. -/
theorem browseIndex_next_of_not {index count : UInt16} (outside : ¬ (1 ≤ index ∧ index < count)) :
    browseIndex .next index count = 1 := by
  simp only [UInt16.le_iff_toNat_le, UInt16.lt_iff_toNat_lt, UInt16.reduceToNat] at outside
  apply UInt16.toNat_inj.mp
  simp only [toNat_browseIndex_next, UInt16.reduceToNat]
  split <;> omega

theorem browseIndex_prev_of_le {index count : UInt16} (low : 2 ≤ index) (high : index ≤ count) :
    browseIndex .prev index count = index - 1 := by
  simp only [UInt16.le_iff_toNat_le, UInt16.reduceToNat] at low high
  simp only [browseIndex, UInt16.le_iff_toNat_le, gt_iff_lt, UInt16.lt_iff_toNat_lt,
    UInt16.reduceToNat]
  rw [if_neg (by omega)]

/-- Previous wraps to the last entry from the first one and from every index outside the
entries. -/
theorem browseIndex_prev_of_not {index count : UInt16} (outside : ¬ (2 ≤ index ∧ index ≤ count)) :
    browseIndex .prev index count = count := by
  simp only [UInt16.le_iff_toNat_le, UInt16.reduceToNat] at outside
  apply UInt16.toNat_inj.mp
  rw [toNat_browseIndex_prev, if_neg outside]

/-- **Every step shows an index among the entries** while there are any. -/
theorem browseIndex_mem (step : Browse) (index : UInt16) {count : UInt16} (entries : count ≠ 0) :
    1 ≤ browseIndex step index count ∧ browseIndex step index count ≤ count := by
  have positive : count.toNat ≠ 0 := fun zero => entries (UInt16.toNat_inj.mp zero)
  simp only [UInt16.le_iff_toNat_le, UInt16.reduceToNat]
  cases step
  case next => rw [toNat_browseIndex_next]; split <;> omega
  case prev => rw [toNat_browseIndex_prev]; split <;> omega
  case select => rw [toNat_browseIndex_clamp .select ⟨by decide, by decide⟩]; omega
  case delete => rw [toNat_browseIndex_clamp .delete ⟨by decide, by decide⟩]; omega

/-- Select and delete show an index among the entries as it is. -/
theorem browseIndex_of_mem {step : Browse} (neitherWay : step ≠ .next ∧ step ≠ .prev)
    {index count : UInt16} (low : 1 ≤ index.toNat) (high : index.toNat ≤ count.toNat) :
    browseIndex step index count = index := by
  apply UInt16.toNat_inj.mp
  rw [toNat_browseIndex_clamp step neitherWay]
  omega

/-- Select and delete clamp the index to the entries, as a clamp to `1 ..= count` does. -/
theorem clamp16_browseIndex {step : Browse} (neitherWay : step ≠ .next ∧ step ≠ .prev)
    (index : UInt16) {count : UInt16} (entries : 1 ≤ count) :
    Strict.clamp16 index 1 count = .ok (browseIndex step index count) := by
  have bound := toNat_browseIndex_clamp step neitherWay index count
  simp only [UInt16.le_iff_toNat_le, UInt16.reduceToNat] at entries
  simp only [Strict.clamp16, UInt16.le_iff_toNat_le, UInt16.reduceToNat, entries, if_true,
    gt_iff_lt, UInt16.lt_iff_toNat_lt, Except.ok.injEq]
  apply UInt16.toNat_inj.mp
  rw [bound]
  split
  · simp only [UInt16.reduceToNat]; omega
  · split <;> omega

/-- Previous undoes next on the indices of the entries. -/
theorem browseIndex_prev_next {index count : UInt16} (low : 1 ≤ index) (high : index ≤ count) :
    browseIndex .prev (browseIndex .next index count) count = index := by
  simp only [UInt16.le_iff_toNat_le, UInt16.reduceToNat] at low high
  apply UInt16.toNat_inj.mp
  rw [toNat_browseIndex_prev, toNat_browseIndex_next]
  split <;> split <;> omega

/-- Next undoes previous on the indices of the entries. -/
theorem browseIndex_next_prev {index count : UInt16} (low : 1 ≤ index) (high : index ≤ count) :
    browseIndex .next (browseIndex .prev index count) count = index := by
  simp only [UInt16.le_iff_toNat_le, UInt16.reduceToNat] at low high
  apply UInt16.toNat_inj.mp
  rw [toNat_browseIndex_next, toNat_browseIndex_prev]
  split <;> split <;> omega

/-! ## A unit walking forward -/

/-- **The index shown after `shown`** to a unit that asks for the next entry, naming the entry it
was shown by the index bytes it received. -/
def nextShown (count shown : UInt16) : UInt16 :=
  browseIndex .next (join14 (split14 shown).1 (split14 shown).2) count

/-- A request for the next entry never shows an index above `2 ^ 14`: the index it names came over
the wire as a 14-bit pair. -/
theorem nextShown_le (count shown : UInt16) : (nextShown count shown).toNat ≤ 2 ^ 14 := by
  have named := join14_split14 shown
  have wire : (join14 (split14 shown).1 (split14 shown).2).toNat < 2 ^ 14 := by
    rw [named]
    exact Nat.mod_lt _ (by decide)
  rw [nextShown, toNat_browseIndex_next]
  split <;> omega

/-- Up to `2 ^ 14` entries, the entry after `shown` is the next one, or the first after the last. -/
theorem toNat_nextShown {count shown : UInt16} (high : shown.toNat ≤ count.toNat)
    (narrow : count.toNat ≤ 2 ^ 14) :
    (nextShown count shown).toNat = shown.toNat % count.toNat + 1 := by
  have named := join14_split14 shown
  rw [nextShown, toNat_browseIndex_next, named]
  rcases Nat.lt_or_eq_of_le high with below | last
  · -- below the last entry the index travels intact
    rw [Nat.mod_eq_of_lt below, Nat.mod_eq_of_lt (show shown.toNat < 2 ^ 14 by omega), if_pos below]
  · -- the last entry wraps, and at `2 ^ 14` it arrives as 0, which wraps as well
    rw [last, Nat.mod_self]
    split <;> rename_i wrapped
    · have arrived : count.toNat % 2 ^ 14 = 0 := by
        rcases Nat.lt_or_eq_of_le narrow with small | top
        · rw [Nat.mod_eq_of_lt small] at wrapped; omega
        · rw [top, Nat.mod_self]
      omega
    · rfl

/-- Beyond `2 ^ 14` entries the entry after `shown` is the next one up to `2 ^ 14`, and after
`2 ^ 14`, which reaches the station as 0, the first: the index travels modulo `2 ^ 14`. -/
theorem toNat_nextShown_of_wide {count : UInt16} (wide : 2 ^ 14 < count.toNat) (shown : UInt16) :
    (nextShown count shown).toNat = shown.toNat % 2 ^ 14 + 1 := by
  rw [nextShown, toNat_browseIndex_next, join14_split14]
  split <;> omega

/-- A walk that goes from each index of `1 ..= period` to the next and from `period` back to 1
is, after `steps` requests, `steps` places further on round the period. -/
theorem toNat_iterate_of_cycle {count : UInt16} {period : Nat}
    (cycle : ∀ shown : UInt16, 1 ≤ shown.toNat → shown.toNat ≤ period →
      (nextShown count shown).toNat = shown.toNat % period + 1)
    {shown : UInt16} (low : 1 ≤ shown.toNat) (high : shown.toNat ≤ period) (steps : Nat) :
    ((nextShown count)^[steps] shown).toNat = (shown.toNat - 1 + steps) % period + 1 := by
  have positive : 0 < period := by omega
  induction steps with
  | zero =>
    rw [Function.iterate_zero_apply, Nat.add_zero, Nat.mod_eq_of_lt (by omega)]
    omega
  | succ steps ih =>
    have within : (shown.toNat - 1 + steps) % period < period := Nat.mod_lt _ positive
    rw [Function.iterate_succ_apply', cycle _ (by omega) (by omega), ih, Nat.mod_add_mod,
      Nat.add_assoc]

/-- After `steps` requests from `shown`, the unit is shown the entry `steps` places further on,
counted round the entries. -/
theorem toNat_iterate_nextShown {count shown : UInt16} (low : 1 ≤ shown.toNat)
    (high : shown.toNat ≤ count.toNat) (narrow : count.toNat ≤ 2 ^ 14) (steps : Nat) :
    ((nextShown count)^[steps] shown).toNat = (shown.toNat - 1 + steps) % count.toNat + 1 :=
  toNat_iterate_of_cycle (fun _ _ below => toNat_nextShown below narrow) low high steps

/-- **Beyond `2 ^ 14` entries a unit walking forward goes round the first `2 ^ 14` only.** -/
theorem toNat_iterate_nextShown_of_wide {count shown : UInt16} (wide : 2 ^ 14 < count.toNat)
    (low : 1 ≤ shown.toNat) (high : shown.toNat ≤ 2 ^ 14) (steps : Nat) :
    ((nextShown count)^[steps] shown).toNat = (shown.toNat - 1 + steps) % 2 ^ 14 + 1 :=
  toNat_iterate_of_cycle (fun shown _ _ => toNat_nextShown_of_wide wide shown) low high steps

/-- **A unit walking forward meets every entry once in every `count` requests**, when there are
at most `2 ^ 14` entries: the indices shown are the entries' indices, rotated. -/
theorem perm_iterate_nextShown {count shown : UInt16} (low : 1 ≤ shown.toNat)
    (high : shown.toNat ≤ count.toNat) (narrow : count.toNat ≤ 2 ^ 14) (before : Nat) :
    ((List.range count.toNat).map fun later =>
      ((nextShown count)^[before + later + 1] shown).toNat).Perm
        (List.range' 1 count.toNat) := by
  have positive : 0 < count.toNat := by omega
  have rotated : ((List.range count.toNat).map fun later =>
      ((nextShown count)^[before + later + 1] shown).toNat) =
        (List.range' 1 count.toNat).rotate ((shown.toNat + before) % count.toNat) := by
    apply List.ext_getElem
    · simp
    · intro later inMap inRotated
      simp only [List.getElem_map, List.getElem_range, List.getElem_rotate, List.getElem_range',
        List.length_range', toNat_iterate_nextShown low high narrow, Nat.add_mod_mod]
      rw [show shown.toNat - 1 + (before + later + 1) = later + (shown.toNat + before) by omega]
      omega
  rw [rotated]
  exact List.rotate_perm _ _

/-- **Beyond `2 ^ 14` entries a unit walking forward misses entries.** With 16385 entries, a unit
walking forward from the first one is shown entry `2 ^ 14` as index 0, is then shown the first
entry again, and is never shown the last one. -/
theorem forward_walk_misses_top_entry :
    ¬ ∀ count shown : UInt16, 1 ≤ shown → shown ≤ count → ∀ before : Nat,
      ((List.range count.toNat).map fun later =>
        ((nextShown count)^[before + later + 1] shown).toNat).Perm (List.range' 1 count.toNat) := by
  intro walks
  have perm := walks 16385 1 (by decide) (by decide) 0
  have top : 16385 ∈ List.range' 1 (16385 : UInt16).toNat := by simp
  obtain ⟨later, -, shown⟩ := List.mem_map.mp (perm.mem_iff.mpr top)
  rw [Function.iterate_succ_apply'] at shown
  have bounded := nextShown_le 16385 ((nextShown 16385)^[0 + later] 1)
  omega

/-! ## What a step sends -/

variable {σ : Type} [Layout σ]

/-- The layout a database step reads: the one the deletion leaves, for a delete. -/
def browsedLayout (layout : σ) (step : Browse) (index : UInt16) : σ :=
  if step = .delete then (Layout.removeEntry layout index).2 else layout

theorem browsedLayout_of_ne {step : Browse} (kept : step ≠ .delete) (layout : σ) (index : UInt16) :
    browsedLayout layout step index = layout :=
  if_neg kept

/-- The station a database step reads from holds the layout the step reads. -/
theorem ite_delete_eq_browsedLayout (station : Station σ) (step : Browse) (index : UInt16) :
    (if step = .delete then (station.ask (Layout.removeEntry · index)).2 else station) =
      { station with layout := browsedLayout station.layout step index } := by
  unfold browsedLayout
  split <;> rfl

/-- The four parts of a name as sent to `unit`: part `p` carries the name bytes `3 * p` to
`3 * p + 2`. -/
def nameParts (unit : UInt8) (name : String) : List Block :=
  (List.range 4).map fun part => Block.toUnit unit Code.dbName
    (dataOf (part.toUInt8 :: ((nameBytes name).drop (3 * part)).take 3))

/-- **The answer that shows index `shown`**: the entry there with its index, loco and format, then
its name in four parts; "empty" when the layout has no entry there. -/
def browseReplies (unit : UInt8) (shown : UInt16) : Option LocoEntry → List Block
  | some entry => Block.toUnit unit Code.dbEntry (dataOf [(split14 shown).1, (split14 shown).2,
      (split14 entry.loco).1, (split14 entry.loco).2, entry.format.toByte]) ::
    nameParts unit entry.name
  | none => [Block.toUnit unit Code.dbEmpty (dataOf [])]

omit [Layout σ] in
theorem sent_foldl_send (station : Station σ) (parts : List Nat) (blockOf : Nat → Block) :
    (parts.foldl (fun station part => station.send (blockOf part)) station).bus.sent =
      station.bus.sent ++ parts.map blockOf := by
  induction parts generalizing station with
  | nil => simp
  | cons part parts ih =>
    rw [List.foldl_cons, ih]
    simp [send, Bus.send]

/-- **What a database step sends**: "empty" when the layout it reads has no entries, and otherwise
the answer showing the index the step leads to. -/
theorem sent_onBrowse (station : Station σ) (unit : UInt8) (step : Browse) (index : UInt16) :
    (station.onBrowse unit step index).bus.sent = station.bus.sent ++
      let layout := browsedLayout station.layout step index
      if Layout.locoCount layout = 0 then [Block.toUnit unit Code.dbEmpty (dataOf [])]
      else browseReplies unit (browseIndex step index (Layout.locoCount layout))
        (Layout.locoEntry layout (browseIndex step index (Layout.locoCount layout))) := by
  unfold onBrowse
  rw [ite_delete_eq_browsedLayout]
  dsimp only
  generalize browsedLayout station.layout step index = layout
  split
  · simp [send, Bus.send]
  · generalize Layout.locoEntry layout (browseIndex step index (Layout.locoCount layout)) = found
    cases found with
    | none => simp [send, Bus.send, browseReplies]
    | some entry =>
      rw [sent_foldl_send]
      simp [send, Bus.send, browseReplies, nameParts]

theorem handle_browse (station : Station σ) (unit : UInt8) (step : Browse) (data : Vector UInt8 6) :
    station.handle unit (.browse step) data =
      station.onBrowse unit step (join14 (data.get 0) (data.get 1)) :=
  rfl

/-- **Browsing the loco database.** A select, next, previous or delete request from a unit is
answered from the layout the deletion leaves: "empty" when it has no entries, and otherwise the
answer showing an index among the entries (the entry with its index, loco and format and its name
in four parts, or "empty" when the layout has no entry there). Next moves to the following index
and from the last or from outside the entries to the first, previous to the preceding index and
from the first or from outside the entries to the last, select and delete clamp the index to the
entries, and next and previous undo each other. A unit that keeps asking for the entry after the
one it was shown, naming it by the index bytes it was shown, meets every entry once in every run of
as many requests as there are entries, when there are at most `2 ^ 14`. It is never shown an index
above `2 ^ 14`; beyond `2 ^ 14` entries it goes round the first `2 ^ 14`, since the index `2 ^ 14`
reaches the station as 0 and the request after it shows entry 1 again. -/
theorem database_browse_cycles :
    (∀ {σ : Type} [Layout σ] (station : Station σ) (block : Block) (unit : UInt8) (step : Browse),
      block.unit? = some unit → UnitRequest.ofCode? block.command = some (.browse step) →
      let index := join14 (block.data.get 0) (block.data.get 1)
      let layout := browsedLayout station.layout step index
      let count := Layout.locoCount layout
      (count = 0 → (station.dispatch block).bus.sent =
        station.bus.sent ++ [Block.toUnit unit Code.dbEmpty (dataOf [])]) ∧
      (count ≠ 0 → 1 ≤ browseIndex step index count ∧ browseIndex step index count ≤ count ∧
        (station.dispatch block).bus.sent = station.bus.sent ++
          browseReplies unit (browseIndex step index count)
            (Layout.locoEntry layout (browseIndex step index count)))) ∧
    (∀ index count : UInt16,
      (1 ≤ index → index < count → browseIndex .next index count = index + 1) ∧
      (¬ (1 ≤ index ∧ index < count) → browseIndex .next index count = 1) ∧
      (2 ≤ index → index ≤ count → browseIndex .prev index count = index - 1) ∧
      (¬ (2 ≤ index ∧ index ≤ count) → browseIndex .prev index count = count) ∧
      (1 ≤ count → Strict.clamp16 index 1 count = .ok (browseIndex .select index count) ∧
        Strict.clamp16 index 1 count = .ok (browseIndex .delete index count)) ∧
      (1 ≤ index → index ≤ count →
        browseIndex .prev (browseIndex .next index count) count = index ∧
          browseIndex .next (browseIndex .prev index count) count = index)) ∧
    (∀ count shown : UInt16, count.toNat ≤ 2 ^ 14 → 1 ≤ shown → shown ≤ count → ∀ before : Nat,
      ((List.range count.toNat).map fun later =>
        ((nextShown count)^[before + later + 1] shown).toNat).Perm (List.range' 1 count.toNat)) ∧
    (∀ count shown : UInt16, (nextShown count shown).toNat ≤ 2 ^ 14 ∧
      (2 ^ 14 < count.toNat → 1 ≤ shown → shown.toNat ≤ 2 ^ 14 → ∀ steps : Nat,
        ((nextShown count)^[steps] shown).toNat = (shown.toNat - 1 + steps) % 2 ^ 14 + 1)) := by
  refine ⟨?_, ?_, ?_, fun count shown => ⟨nextShown_le count shown, fun wide low high steps => ?_⟩⟩
  · intro σ _ station block unit step addressed decoded
    have sent := sent_onBrowse (station.touchUnit unit) unit step
      (join14 (block.data.get 0) (block.data.get 1))
    simp only [touchUnit_layout, touchUnit_bus] at sent
    dsimp only
    rw [dispatch_of_request addressed decoded, handle_browse, sent]
    refine ⟨fun empty => by simp only [empty, if_true], fun entries => ?_⟩
    obtain ⟨low, high⟩ :=
      browseIndex_mem step (join14 (block.data.get 0) (block.data.get 1)) entries
    exact ⟨low, high, by simp only [entries, if_false]⟩
  · intro index count
    refine ⟨fun _ below => browseIndex_next_of_lt below, browseIndex_next_of_not,
      browseIndex_prev_of_le, browseIndex_prev_of_not, fun entries => ?_,
      fun low high => ⟨browseIndex_prev_next low high, browseIndex_next_prev low high⟩⟩
    exact ⟨clamp16_browseIndex ⟨by decide, by decide⟩ index entries,
      clamp16_browseIndex ⟨by decide, by decide⟩ index entries⟩
  · intro count shown narrow low high before
    simp only [UInt16.le_iff_toNat_le, UInt16.reduceToNat] at low high
    exact perm_iterate_nextShown low high narrow before
  · simp only [UInt16.le_iff_toNat_le, UInt16.reduceToNat] at low
    exact toNat_iterate_nextShown_of_wide wide low high steps

/-- With three entries, next from the last shows the first; with 16385, a unit shown entry
`2 ^ 14` is shown entry 1 and then entry 2. -/
theorem database_browse_cycles_wraps :
    browseIndex .next 3 3 = 1 ∧ ((nextShown 16385)^[2] 16384).toNat = 2 :=
  ⟨(database_browse_cycles.2.1 3 3).2.1 (by decide),
    ((database_browse_cycles.2.2.2 16385 16384).2 (by decide) (by decide) (by decide) 2).trans
      (by decide)⟩

end Station

end RailBus
