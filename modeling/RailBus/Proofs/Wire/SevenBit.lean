import RailBus.Wire.Packed
import RailBus.Wire.Septets
import RailBus.Wire.Command
import RailBus.Version
import RailBus.Discovery
import RailBus.Proofs.Wire.Valid
/-! # Fields that fit a data byte

A block validates only when its data bytes lie below 0x80 (`Block.valid_iff`), so every field the
master puts in a reply must fit seven bits. This module shows that each encoder the replies use
does: the two halves of a 14-bit value, of an 8-bit CV value, the drive and refresh bytes, the
format, mode and status numbers, the version triplet and the serial parts.

Probes are the exception: their data bytes are the parts of the discovery search, which fit only
because the search keeps every part below the span of its level (`PartsFit`). Every move of the
search keeps that (`Discovery.partsFit_probe`, `Discovery.partsFit_echo`), because a counter that
runs past its span is reset and an echo is only read when its parts fit.
-/

namespace RailBus

/-- Every byte of the list lies below 0x80: the list can travel as data bytes. -/
def SevenBit (bytes : List UInt8) : Prop :=
  ∀ byte ∈ bytes, byte < 0x80

@[simp]
theorem sevenBit_nil : SevenBit [] := by
  simp [SevenBit]

@[simp]
theorem sevenBit_cons {byte : UInt8} {bytes : List UInt8} :
    SevenBit (byte :: bytes) ↔ byte < 0x80 ∧ SevenBit bytes := by
  simp [SevenBit]

@[simp]
theorem sevenBit_append {first second : List UInt8} :
    SevenBit (first ++ second) ↔ SevenBit first ∧ SevenBit second := by
  simp only [SevenBit, List.mem_append]
  constructor
  · intro below
    exact ⟨fun byte member => below byte (.inl member),
      fun byte member => below byte (.inr member)⟩
  · rintro ⟨first, second⟩ byte (member | member)
    · exact first byte member
    · exact second byte member

@[simp]
theorem sevenBit_replicate_zero (count : Nat) : SevenBit (List.replicate count 0) := by
  intro byte member
  rw [List.eq_of_mem_replicate member]
  decide

theorem SevenBit.take {bytes : List UInt8} (clean : SevenBit bytes) (count : Nat) :
    SevenBit (bytes.take count) :=
  fun byte member => clean byte (List.mem_of_mem_take member)

theorem SevenBit.drop {bytes : List UInt8} (clean : SevenBit bytes) (count : Nat) :
    SevenBit (bytes.drop count) :=
  fun byte member => clean byte (List.mem_of_mem_drop member)

/-! ## Bytes of bounded value -/

theorem lt_of_toNat_lt {byte : UInt8} (small : byte.toNat < 0x80) : byte < 0x80 :=
  UInt8.lt_iff_toNat_lt.mpr small

@[simp]
theorem and_low_lt (byte : UInt8) : byte &&& 0x7f < 0x80 := by
  revert byte
  refine forall_uint8_iff.mpr ?_
  decide +kernel

theorem toUInt8_and_low_lt_of_uint16 (value : UInt16) : (value &&& 0x7f).toUInt8 < 0x80 := by
  apply lt_of_toNat_lt
  have masked : (value &&& 0x7f).toNat ≤ 0x7f := by
    rw [UInt16.toNat_and]
    exact Nat.and_le_right
  rw [UInt16.toNat_toUInt8]
  omega

theorem toUInt8_and_lt_of_uint32 (value : UInt32) {mask : UInt32} (narrow : mask.toNat < 0x80) :
    (value &&& mask).toUInt8 < 0x80 := by
  apply lt_of_toNat_lt
  have masked : (value &&& mask).toNat ≤ mask.toNat := by
    rw [UInt32.toNat_and]
    exact Nat.and_le_right
  rw [UInt32.toNat_toUInt8]
  omega

theorem toUInt8_lt_of_lt {value : Nat} (small : value < 0x80) : value.toUInt8 < 0x80 := by
  apply lt_of_toNat_lt
  simp only [Nat.toUInt8, UInt8.toNat_ofNat', Nat.reducePow]
  omega

namespace Septets

@[simp]
theorem split14_fst_lt (value : UInt16) : (split14 value).1 < 0x80 :=
  toUInt8_and_low_lt_of_uint16 _

@[simp]
theorem split14_snd_lt (value : UInt16) : (split14 value).2 < 0x80 :=
  toUInt8_and_low_lt_of_uint16 _

@[simp]
theorem split8_fst_lt (value : UInt8) : (split8 value).1 < 0x80 := by
  revert value
  refine forall_uint8_iff.mpr ?_
  decide +kernel

@[simp]
theorem split8_snd_lt (value : UInt8) : (split8 value).2 < 0x80 :=
  and_low_lt value

end Septets

@[simp]
theorem Drive.toByte_lt (drive : Drive) : drive.toByte < 0x80 := by
  have format := drive.format.isLt
  apply toUInt8_lt_of_lt
  simp only [flagAt, Nat.pow_eq, Nat.reducePow]
  split <;> split <;> split <;> omega

@[simp]
theorem Refresh.toByte_lt (refresh : Refresh) : refresh.toByte < 0x80 := by
  have round := refresh.round.isLt
  have state := refresh.state.isLt
  exact toUInt8_lt_of_lt (by omega)

@[simp]
theorem Format.toByte_lt (format : Format) : format.toByte < 0x80 := by
  cases format <;> decide

@[simp]
theorem OperatingMode.toByte_lt (mode : OperatingMode) : mode.toByte < 0x80 := by
  cases mode <;> decide

@[simp]
theorem statusByte_lt (done : Bool) : statusByte done < 0x80 := by
  cases done <;> decide

@[simp]
theorem Version.sevenBit_toData (version : Version) : SevenBit version.toData := by
  simp [Version.toData]

@[simp]
theorem sevenBit_partsOf (serial : UInt32) : SevenBit (partsOf serial).toList := by
  show SevenBit [_, _, _, _]
  simp only [sevenBit_cons, sevenBit_nil, and_true]
  exact ⟨toUInt8_and_lt_of_uint32 _ (by decide), toUInt8_and_lt_of_uint32 _ (by decide),
    toUInt8_and_lt_of_uint32 _ (by decide), toUInt8_and_lt_of_uint32 _ (by decide)⟩

/-! ## The parts of the discovery search -/

/-- Every part lies below the span of its level. -/
def PartsFit (parts : Vector UInt8 4) : Prop :=
  ∀ index : Fin 4, (parts.get index).toNat < span index

theorem span_le (index : Fin 4) : span index ≤ 0x80 := by
  revert index
  decide

theorem zero_lt_span (index : Fin 4) : (0 : UInt8).toNat < span index :=
  Nat.two_pow_pos _

theorem partsFit_set {parts : Vector UInt8 4} (fits : PartsFit parts) {index : Fin 4}
    {value : UInt8} (small : value.toNat < span index) : PartsFit (parts.set index value) := by
  intro other
  rw [vector_get_eq_getElem, Fin.getElem_fin, Vector.getElem_set]
  by_cases same : index.val = other.val
  · rw [if_pos same, ← Fin.ext same]
    exact small
  · rw [if_neg same]
    exact fits other

namespace Discovery

theorem partsFit_initial : PartsFit initial.parts := by
  unfold PartsFit
  decide

/-- Moving a counter on keeps every part in its span: a counter that would run past it is reset. -/
theorem partsFit_advance {parts : Vector UInt8 4} (fits : PartsFit parts) (level : Fin 4) :
    PartsFit (advance parts level).2 := by
  fun_induction advance parts level with
  | case1 parts level bumped bumpedFits =>
    exact partsFit_set fits bumpedFits
  | case2 parts isLt bumped overflow cleared =>
    exact partsFit_set fits (zero_lt_span _)
  | case3 parts above bound bumped overflow cleared ih =>
    exact ih (partsFit_set fits (zero_lt_span _))

theorem partsFit_probe {discovery : Discovery} (fits : PartsFit discovery.parts) :
    PartsFit discovery.probe.2.parts :=
  partsFit_advance fits discovery.level

/-- An echo moves the search down only under parts that fit. -/
theorem partsFit_echo {discovery : Discovery} (fits : PartsFit discovery.parts) {echo : Probe}
    (echoFits : PartsFit echo.parts) : PartsFit (discovery.echo echo).2.parts := by
  unfold Discovery.echo
  dsimp only
  split
  · exact fits
  · split
    · intro index
      rw [vector_get_eq_getElem, Fin.getElem_fin, Vector.getElem_ofFn]
      split
      · exact echoFits index
      · exact zero_lt_span index
    · exact fits

end Discovery

namespace Probe

/-- A probe read from data has parts that fit: a part out of its span is refused. -/
theorem partsFit_ofData? {data : Vector UInt8 6} {probe : Probe}
    (read : ofData? data = some probe) :
    PartsFit probe.parts := by
  unfold ofData? at read
  dsimp only at read
  split at read
  · rename_i levelFits
    split at read
    · rename_i allFit
      cases read
      intro index
      have checked := List.all_eq_true.mp allFit index (List.mem_finRange index)
      rw [vector_get_eq_getElem, Fin.getElem_fin, Vector.getElem_ofFn]
      by_cases above : index > ⟨data[0].toNat, levelFits⟩
      · rw [if_neg (Fin.not_le.mpr above)]
        exact zero_lt_span index
      · simpa [above] using checked
    · cases read
  · cases read

/-- **The data of a probe whose parts fit are seven-bit bytes.** -/
theorem sevenBit_toData {probe : Probe} (fits : PartsFit probe.parts) :
    SevenBit probe.toData.toList := by
  intro byte member
  rw [toData, Vector.toList_ofFn] at member
  obtain ⟨index, rfl⟩ := List.mem_ofFn.mp member
  split
  · exact toUInt8_lt_of_lt (by have := probe.level.isLt; omega)
  · split
    · apply lt_of_toNat_lt
      have fit := fits ⟨index.val - 1, by omega⟩
      have bound := span_le ⟨index.val - 1, by omega⟩
      rw [vector_get_eq_getElem, Fin.getElem_fin] at fit
      dsimp only at fit
      omega
    · decide

end Probe

end RailBus
