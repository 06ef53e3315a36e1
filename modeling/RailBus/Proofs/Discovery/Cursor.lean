import RailBus.Proofs.Wire.SevenBit
/-! # Serial parts and the cursor of the search

A 24-bit serial is its four parts read back (`serialOf_partsOf`): the parts are the fields of 3,
7, 7 and 7 bits, and `serialOf` puts them back at the same places. So a serial is known once a
probe agrees with it on all four parts.

The search keeps a cursor: a level and the parts, the counter of the level in its part, the
parts above it fixed and those below it zero (`Shape`). `advance` moves the counter on and, past
the last value, climbs to the level above (`advance_of_lt`, `advance_of_last`, `climb_succ`).
A probe's own echo always counts as related, since the probe is the newest recent one, so the
echo of the probe just sent takes the search one level down, or names the serial at the last
level (`Discovery.echo_probe`).
-/

namespace RailBus

/-! ## Serials and their parts -/

private theorem or_fields {a b c d : Nat} (hb : b < 2 ^ 7) (hc : c < 2 ^ 7) (hd : d < 2 ^ 7) :
    a <<< 21 ||| b <<< 14 ||| c <<< 7 ||| d = a * 2 ^ 21 + b * 2 ^ 14 + c * 2 ^ 7 + d := by
  rw [Nat.or_assoc, Nat.or_assoc, ← Nat.shiftLeft_add_eq_or_of_lt hd,
    ← Nat.shiftLeft_add_eq_or_of_lt (show c <<< 7 + d < 2 ^ 14 by omega),
    ← Nat.shiftLeft_add_eq_or_of_lt (show b <<< 14 + (c <<< 7 + d) < 2 ^ 21 by omega)]
  omega

private theorem and_seven (x : Nat) : x &&& 7 = x % 8 :=
  Nat.and_two_pow_sub_one_eq_mod x 3

private theorem and_low (x : Nat) : x &&& 127 = x % 128 :=
  Nat.and_two_pow_sub_one_eq_mod x 7

theorem toNat_serialOf (parts : Vector UInt8 4) :
    (serialOf parts).toNat = (parts.get 0).toNat % 8 * 2 ^ 21 + (parts.get 1).toNat % 128 * 2 ^ 14 +
      (parts.get 2).toNat % 128 * 2 ^ 7 + (parts.get 3).toNat % 128 := by
  show (serialOf parts).toNat = parts[0].toNat % 8 * 2 ^ 21 + parts[1].toNat % 128 * 2 ^ 14 +
    parts[2].toNat % 128 * 2 ^ 7 + parts[3].toNat % 128
  simp only [serialOf, UInt32.toNat_or, UInt32.toNat_shiftLeft, UInt8.toNat_toUInt32,
    UInt8.toNat_and]
  simp only [UInt8.reduceToNat, UInt32.reduceToNat, and_seven, and_low, Nat.reduceMod]
  rw [Nat.mod_eq_of_lt (show (parts[0].toNat % 8) <<< 21 < 2 ^ 32 by omega),
    Nat.mod_eq_of_lt (show (parts[1].toNat % 128) <<< 14 < 2 ^ 32 by omega),
    Nat.mod_eq_of_lt (show (parts[2].toNat % 128) <<< 7 < 2 ^ 32 by omega)]
  exact or_fields (by omega) (by omega) (by omega)

theorem toNat_partsOf (serial : UInt32) :
    ((partsOf serial).get 0).toNat = serial.toNat / 2 ^ 21 % 8 ∧
      ((partsOf serial).get 1).toNat = serial.toNat / 2 ^ 14 % 128 ∧
      ((partsOf serial).get 2).toNat = serial.toNat / 2 ^ 7 % 128 ∧
      ((partsOf serial).get 3).toNat = serial.toNat % 128 := by
  show (partsOf serial)[0].toNat = _ ∧ (partsOf serial)[1].toNat = _ ∧
    (partsOf serial)[2].toNat = _ ∧ (partsOf serial)[3].toNat = _
  simp only [partsOf, Vector.getElem_mk, List.getElem_toArray, List.getElem_cons_zero,
    List.getElem_cons_succ, UInt32.toNat_toUInt8, UInt32.toNat_and, UInt32.toNat_shiftRight,
    UInt32.reduceToNat, and_seven, and_low, Nat.reduceMod, Nat.shiftRight_eq_div_pow]
  omega

/-- **A 24-bit serial is its parts read back.** -/
theorem serialOf_partsOf {serial : UInt32} (narrow : serial.toNat < 2 ^ 24) :
    serialOf (partsOf serial) = serial := by
  apply UInt32.toNat_inj.mp
  obtain ⟨part0, part1, part2, part3⟩ := toNat_partsOf serial
  rw [toNat_serialOf, part0, part1, part2, part3]
  omega

/-- The parts of a serial fit the spans of their levels. -/
theorem partsFit_partsOf (serial : UInt32) : PartsFit (partsOf serial) := by
  obtain ⟨part0, part1, part2, part3⟩ := toNat_partsOf serial
  have spans : span 0 = 8 ∧ span 1 = 128 ∧ span 2 = 128 ∧ span 3 = 128 := by decide
  intro index
  match index with
  | ⟨0, _⟩ => exact (show ((partsOf serial).get 0).toNat < span 0 by omega)
  | ⟨1, _⟩ => exact (show ((partsOf serial).get 1).toNat < span 1 by omega)
  | ⟨2, _⟩ => exact (show ((partsOf serial).get 2).toNat < span 2 by omega)
  | ⟨3, _⟩ => exact (show ((partsOf serial).get 3).toNat < span 3 by omega)

/-! ## Agreeing with a serial on the upper parts -/

/-- The parts agree with those of a serial below `depth`. -/
def Within (parts : Vector UInt8 4) (depth : Nat) (serial : UInt32) : Prop :=
  ∀ index : Fin 4, index.val < depth → parts.get index = (partsOf serial).get index

instance (parts : Vector UInt8 4) (depth : Nat) (serial : UInt32) :
    Decidable (Within parts depth serial) := by
  unfold Within
  infer_instance

theorem within_zero (parts : Vector UInt8 4) (serial : UInt32) : Within parts 0 serial :=
  fun _ below => absurd below (Nat.not_lt_zero _)

theorem within_succ {parts : Vector UInt8 4} {level : Fin 4} {serial : UInt32} :
    Within parts (level.val + 1) serial ↔
      Within parts level.val serial ∧ parts.get level = (partsOf serial).get level := by
  constructor
  · intro within
    exact ⟨fun index below => within index (by omega), within level (by omega)⟩
  · rintro ⟨above, here⟩ index below
    by_cases same : index = level
    · rw [same]
      exact here
    · exact above index (by have := Fin.val_ne_of_ne same; omega)

/-- Changing a part at or below `depth` changes nothing above it. -/
theorem within_set {parts : Vector UInt8 4} {depth : Nat} {level : Fin 4}
    (deep : depth ≤ level.val) (value : UInt8) (serial : UInt32) :
    Within (parts.set level value level.isLt) depth serial ↔ Within parts depth serial := by
  have untouched : ∀ index : Fin 4, index.val < depth →
      (parts.set level value level.isLt).get index = parts.get index :=
    fun index below => by
      rw [vector_get_eq_getElem, vector_get_eq_getElem, Fin.getElem_fin, Fin.getElem_fin,
        Vector.getElem_set_ne _ _ (by omega)]
  constructor
  · intro within index below
    rw [← untouched index below]
    exact within index below
  · intro within index below
    rw [untouched index below]
    exact within index below

/-- Parts that agree with a serial everywhere are its parts. -/
theorem eq_partsOf_of_within {parts : Vector UInt8 4} {serial : UInt32}
    (within : Within parts 4 serial) : parts = partsOf serial :=
  Vector.ext fun index inside => within ⟨index, inside⟩ inside

/-! ## The cursor -/

/-- A cursor at `level`: the parts fit, and those below the level are zero. -/
def Shape (level : Fin 4) (parts : Vector UInt8 4) : Prop :=
  PartsFit parts ∧ ∀ index : Fin 4, level.val < index.val → parts.get index = 0

namespace Discovery

/-- The cursor after the last counter of a level: the counter runs past its span. -/
def climb (parts : Vector UInt8 4) (level : Fin 4) : Fin 4 × Vector UInt8 4 :=
  advance (parts.setIfInBounds level (span level - 1).toUInt8) level

/-- The counter of a level set to its last value, as `advance` leaves it before it runs over. -/
theorem climb_eq (parts : Vector UInt8 4) (level : Fin 4) :
    climb parts level = advance (parts.set level (span level - 1).toUInt8 level.isLt) level := by
  rw [climb]
  congr 1
  apply Vector.ext
  intro index inside
  rw [Vector.getElem_setIfInBounds inside, Vector.getElem_set]

theorem toNat_add_one_of_fits {part : UInt8} {level : Fin 4} (fits : part.toNat < span level) :
    (part + 1).toNat = part.toNat + 1 := by
  have := span_le level
  rw [UInt8.toNat_add, UInt8.toNat_one, Nat.mod_eq_of_lt (by omega)]

/-- A counter with room moves on within its level. -/
theorem advance_of_lt {parts : Vector UInt8 4} {level : Fin 4} (fits : PartsFit parts)
    (room : (parts.get level).toNat + 1 < span level) :
    advance parts level = (level, parts.set level (parts.get level + 1) level.isLt) := by
  have bumped : (parts[level] + 1).toNat < span level := by
    rw [← vector_get_eq_getElem, toNat_add_one_of_fits (fits level)]; exact room
  rw [advance, if_pos bumped]
  rfl

theorem toNat_get_bump {parts : Vector UInt8 4} {level : Fin 4} (fits : PartsFit parts) :
    ((parts.set level (parts.get level + 1) level.isLt).get level).toNat =
      (parts.get level).toNat + 1 := by
  rw [vector_get_eq_getElem, Fin.getElem_fin, Vector.getElem_set_self]
  exact toNat_add_one_of_fits (fits level)

/-- The last counter of a level climbs. -/
theorem advance_of_last {parts : Vector UInt8 4} {level : Fin 4}
    (last : (parts.get level).toNat + 1 = span level) :
    advance parts level = climb parts level := by
  have same : (span level - 1).toUInt8 = parts.get level := by
    apply UInt8.toNat_inj.mp
    have := span_le level
    simp only [Nat.toUInt8, UInt8.toNat_ofNat']
    omega
  rw [climb_eq, same, vector_get_eq_getElem, Fin.getElem_fin, Vector.set_getElem_self]

theorem climb_set (parts : Vector UInt8 4) (level : Fin 4) (value : UInt8) :
    climb (parts.set level value level.isLt) level = climb parts level := by
  rw [climb_eq, climb_eq, Vector.set_set]

/-- Every level below the top has seven-bit counters. -/
theorem span_succ {level : Nat} (below : level + 1 < 4) : span ⟨level + 1, below⟩ = 128 := by
  match level, below with
  | 0, _ => rfl
  | 1, _ => rfl
  | 2, _ => rfl

/-- **Climbing out of a level below the top** moves the counter of the level above on. -/
theorem climb_succ {parts : Vector UInt8 4} {level : Nat} (below : level + 1 < 4)
    (zero : parts.get ⟨level + 1, below⟩ = 0) :
    climb parts ⟨level + 1, below⟩ = advance parts ⟨level, Nat.lt_of_succ_lt below⟩ := by
  have wide := span_succ below
  have cleared : (parts.set (level + 1) (span ⟨level + 1, below⟩ - 1).toUInt8).set
      (level + 1) 0 = parts := by
    rw [Vector.set_set, ← zero, vector_get_eq_getElem, Fin.getElem_fin, Vector.set_getElem_self]
  rw [climb_eq, advance, if_neg (by rw [Fin.getElem_fin, Vector.getElem_set_self, wide]; decide)]
  dsimp only
  rw [cleared]

end Discovery

theorem Shape.succ {level : Fin 4} {parts : Vector UInt8 4} (shape : Shape level parts)
    (below : level.val + 1 < 4) : Shape ⟨level.val + 1, below⟩ parts :=
  ⟨shape.1, fun index above => shape.2 index (by simp only at above; omega)⟩

theorem Shape.bump {level : Fin 4} {parts : Vector UInt8 4} (shape : Shape level parts)
    (room : (parts.get level).toNat + 1 < span level) :
    Shape level (parts.set level (parts.get level + 1) level.isLt) := by
  refine ⟨partsFit_set shape.1 ?_, fun index above => ?_⟩
  · rw [Discovery.toNat_add_one_of_fits (shape.1 level)]
    exact room
  · rw [vector_get_eq_getElem, Fin.getElem_fin, Vector.getElem_set_ne _ _ (by omega)]
    exact shape.2 index above

/-- Keeping the parts down to a level keeps a cursor at that level as it is. -/
theorem Shape.ofFn_eq {level : Fin 4} {parts : Vector UInt8 4} (shape : Shape level parts) :
    (Vector.ofFn fun index : Fin 4 => if index.val ≤ level.val then parts.get index else 0) =
      parts := by
  apply Vector.ext
  intro index inside
  rw [Vector.getElem_ofFn]
  split
  · rfl
  · rename_i above
    exact (shape.2 ⟨index, inside⟩ (by omega)).symm

namespace Discovery

@[simp]
theorem probe_fst (discovery : Discovery) : discovery.probe.1 = discovery.current := rfl

@[simp]
theorem current_level (discovery : Discovery) : discovery.current.level = discovery.level := rfl

@[simp]
theorem current_parts (discovery : Discovery) : discovery.current.parts = discovery.parts := rfl

@[simp]
theorem level_probe (discovery : Discovery) :
    discovery.probe.2.level = (advance discovery.parts discovery.level).1 := rfl

@[simp]
theorem parts_probe (discovery : Discovery) :
    discovery.probe.2.parts = (advance discovery.parts discovery.level).2 := rfl

/-- **The echo of the probe just sent** is related: it takes the search one level down, or at the
last level names the serial of the probe's parts. -/
theorem echo_probe (discovery : Discovery) :
    discovery.probe.2.echo discovery.current =
      if below : discovery.level.val < 3 then
        (.descend, ⟨⟨discovery.level.val + 1, Nat.succ_lt_succ below⟩,
          Vector.ofFn fun index =>
            if index.val ≤ discovery.level.val then discovery.parts[index] else 0,
          []⟩)
      else (.found (serialOf discovery.parts), discovery.probe.2) := by
  have related : discovery.probe.2.recent.contains discovery.current = true := by
    simp [probe]
  unfold echo
  rw [related]
  rfl

end Discovery

end RailBus
