import Mathlib
import RailBus.Proofs.Discovery.Cursor

/-!
# The search on its way to one serial

The parts a search holds while it closes in on one unit's serial: above its level the serial's own
parts, at its level a counter, below it zeros. A probe agrees with the serial exactly when its
counter is the serial's part; its counter moves on within the level, and the echo at a level above
the last takes the search one level down with its counter at 0. A probe's data reads back as the
probe.
-/

namespace RailBus

namespace Probe

theorem ofData?_toData {probe : Probe} (shape : Shape probe.level probe.parts) :
    ofData? probe.toData = some probe := by
  obtain ⟨fits, zeros⟩ := shape
  have first : probe.toData[0].toNat = probe.level.val := by
    have := probe.level.isLt
    simp [toData, Nat.toUInt8, UInt8.toNat_ofNat']
    omega
  have part : ∀ index : Fin 4,
      (if index ≤ probe.level then probe.toData[index.val + 1] else 0) = probe.parts.get index := by
    intro index
    split
    · rename_i below
      have : index.val ≤ probe.level.val := below
      simp [toData, this]
    · rename_i above
      have : probe.level.val < index.val := by simpa using above
      rw [zeros index this]
  unfold ofData?
  rw [dif_pos (by rw [first]; exact probe.level.isLt)]
  have level : (⟨probe.toData[0].toNat, first ▸ probe.level.isLt⟩ : Fin 4) = probe.level :=
    Fin.ext first
  simp only [level, part]
  have checked : ((List.finRange 4).all fun index =>
      decide (index > probe.level) || decide ((probe.parts.get index).toNat < span index)) = true := by
    simp only [List.all_eq_true, Bool.or_eq_true, decide_eq_true_eq]
    exact fun index _ => .inr (fits index)
  rw [if_pos checked]
  simp only [vector_get_eq_getElem, Fin.getElem_fin, Vector.ofFn_getElem]

end Probe

namespace Discovery

/-- The search parts at `level` on the way to `serial`: the serial's own parts above the level,
the counter at it, and zeros below. -/
def partsToward (serial : UInt32) (level : Fin 4) (counter : UInt8) : Vector UInt8 4 :=
  Vector.ofFn fun index =>
    if index < level then (partsOf serial).get index else if index = level then counter else 0

variable {serial : UInt32}

theorem get_partsToward (serial : UInt32) (level : Fin 4) (counter : UInt8) (index : Fin 4) :
    (partsToward serial level counter).get index =
      if index < level then (partsOf serial).get index else if index = level then counter else 0 := by
  simp [partsToward, vector_get_eq_getElem]

theorem partsToward_top_zero : partsToward serial 0 0 = #v[0, 0, 0, 0] := by
  apply Vector.ext
  intro index below
  have key := get_partsToward serial 0 0 ⟨index, below⟩
  simp only [vector_get_eq_getElem, Fin.getElem_fin] at key
  rw [key]
  interval_cases index <;> rfl

/-- The parts on the way to a serial have the shape of a probe at the level. -/
theorem shape_partsToward {level : Fin 4} {counter : UInt8} (small : counter.toNat < span level) :
    Shape level (partsToward serial level counter) := by
  refine ⟨fun index => ?_, fun index below => ?_⟩
  · rw [get_partsToward]
    split
    · exact partsFit_partsOf serial index
    · split
      · rename_i same
        rw [same]
        exact small
      · exact zero_lt_span index
  · rw [get_partsToward, if_neg (by rw [Fin.lt_def]; omega), if_neg (by rw [Fin.ext_iff]; omega)]

/-- **A probe on the way to a serial agrees with it** exactly when its counter is the serial's
part at its level. -/
theorem within_partsToward {level : Fin 4} {counter : UInt8} :
    Within (partsToward serial level counter) (level.val + 1) serial ↔
      counter = (partsOf serial).get level := by
  constructor
  · intro within
    have own := within level (by omega)
    rwa [get_partsToward, if_neg (lt_irrefl level), if_pos rfl] at own
  · intro own index below
    rw [get_partsToward]
    split
    · rfl
    · rename_i above
      rw [if_pos (Fin.ext (by rw [Fin.lt_def] at above; omega)), own]
      congr 1
      exact Fin.ext (by rw [Fin.lt_def] at above; omega)

/-- The counter moves on within its level. -/
theorem advance_partsToward {level : Fin 4} {counter : UInt8}
    (room : counter.toNat + 1 < span level) :
    advance (partsToward serial level counter) level = (level, partsToward serial level (counter + 1)) := by
  have small : counter.toNat < span level := by omega
  rw [advance_of_lt (shape_partsToward small).1 (by rw [get_partsToward, if_neg (lt_irrefl level), if_pos rfl]; exact room)]
  congr 1
  apply Vector.ext
  intro index below
  rw [Vector.getElem_set]
  have key := get_partsToward serial level (counter + 1) ⟨index, below⟩
  have before := get_partsToward serial level counter ⟨index, below⟩
  simp only [vector_get_eq_getElem, Fin.getElem_fin] at key before
  rw [key]
  split
  · rename_i same
    have : (⟨index, below⟩ : Fin 4) = level := Fin.ext same.symm
    rw [if_neg (by rw [this]; exact lt_irrefl level), if_pos this, get_partsToward,
      if_neg (lt_irrefl level), if_pos rfl]
  · rename_i other
    have : (⟨index, below⟩ : Fin 4) ≠ level := fun same => other (by rw [← same])
    rw [before, if_neg this, if_neg this]

/-- **An echo at a level above the last takes the search one level down**, its counter at 0. -/
theorem descend_partsToward {level : Fin 4} (below : level.val < 3) :
    (Vector.ofFn fun index : Fin 4 =>
      if index.val ≤ level.val then (partsToward serial level ((partsOf serial).get level))[index]
      else 0) = partsToward serial ⟨level.val + 1, Nat.succ_lt_succ below⟩ 0 := by
  apply Vector.ext
  intro index inside
  have next := get_partsToward serial ⟨level.val + 1, by omega⟩ 0 ⟨index, inside⟩
  simp only [vector_get_eq_getElem, Fin.getElem_fin] at next
  simp only [Vector.getElem_ofFn]
  rw [next, ← vector_get_eq_getElem, get_partsToward]
  simp only [Fin.lt_def, Fin.ext_iff, vector_get_eq_getElem, Fin.getElem_fin]
  rcases Nat.lt_trichotomy index level.val with lower | same | higher
  · simp [lower, lower.le, Nat.lt_succ_of_lt lower]
  · subst same
    simp
  · have outside : ¬index ≤ level.val := by omega
    have beyond : ¬index < level.val + 1 := by omega
    simp [outside, beyond]

/-- The top level's counter wraps: a probe there keeps the search at the top level. -/
theorem level_advance_zero (parts : Vector UInt8 4) : (advance parts 0).1 = 0 := by
  rw [advance]
  dsimp only
  split
  · rfl
  · rfl

theorem span_of_deep {level : Fin 4} (deep : level.val ≠ 0) : span level = 128 := by
  revert level
  decide

/-- At the last level the parts on the way to a serial, with its own last part, are its parts. -/
theorem partsToward_last : partsToward serial 3 ((partsOf serial).get 3) = partsOf serial := by
  apply Vector.ext
  intro index below
  show (partsToward serial 3 ((partsOf serial).get 3)).get ⟨index, below⟩ =
    (partsOf serial).get ⟨index, below⟩
  rw [get_partsToward]
  interval_cases index <;> rfl

end Discovery

end RailBus
