import Mathlib
import RailBus.Proofs.Wire.Valid
import RailBus.Firmware.HexRecord
/-! # The grammar of a HEX record line

A record line is a colon and pairs of hexadecimal digits, either case, spelling the bytes
`[count, offset high, offset low, type, payload…, checksum]`. This module states what decoding a
line gives as a relation read off the format (`LineVerdict`): the line trimmed of blanks must start
with a colon; the text bytes after it must be an even number of at least ten; each must be a digit,
where a record that fills its 260 bytes before the first byte that is no digit is too long; and the
bytes the digits spell (`Spells`) are then judged by `BytesVerdict`: the count against their number,
their sum modulo 256, two payload bytes for a base record, and the type. A well-formed line stands
for the record its type names (`meaning`).

The main statement is `decodeLine_follows_grammar`: a line decodes to a result exactly when that
result is its verdict, and a line written from a record of a known type the way a HEX writer puts
it (`recordLine`) reads back as that record. It rests on a soundness lemma per verdict
(`decodeChars_of_verdict`) and on every line having one (`lineVerdict_exists`); the digit pairs are
read by `readPairs_of_spells` and `readPairs_of_bad`.
-/

namespace RailBus.Firmware

open Text

/-! ## Hexadecimal digits -/

/-- The hexadecimal digits of the values 0 to 15, in lower case. -/
def lowerDigits : List Char := "0123456789abcdef".toList

/-- The hexadecimal digits of the values 0 to 15, in upper case. -/
def upperDigits : List Char := "0123456789ABCDEF".toList

/-- A text byte is the digit of a value below 16, in either case. -/
def IsDigit (value : Nat) (byte : UInt8) : Prop :=
  value < 16 ∧ (byte.toNat = (lowerDigits.getD value ' ').toNat ∨
    byte.toNat = (upperDigits.getD value ' ').toNat)

instance (value : Nat) (byte : UInt8) : Decidable (IsDigit value byte) := by
  unfold IsDigit
  infer_instance

/-- A text byte is a hexadecimal digit. -/
def IsHex (byte : UInt8) : Prop :=
  ∃ value, IsDigit value byte

instance : DecidablePred IsHex := fun byte =>
  decidable_of_iff (∃ value, value < 16 ∧ IsDigit value byte)
    ⟨fun ⟨value, _, digit⟩ => ⟨value, digit⟩, fun ⟨value, digit⟩ => ⟨value, digit.1, digit⟩⟩

/-- Both spellings of each value read as that value. -/
theorem nibble?_digits : ∀ value, value < 16 →
    nibble? (lowerDigits.getD value ' ').toNat.toUInt8 = some value.toUInt8 ∧
      nibble? (upperDigits.getD value ' ').toNat.toUInt8 = some value.toUInt8 := by
  decide

theorem nibble?_of_isDigit {value : Nat} {byte : UInt8} (digit : IsDigit value byte) :
    nibble? byte = some value.toUInt8 := by
  have same : byte = UInt8.ofNat byte.toNat := (@UInt8.ofNat_toNat byte).symm
  obtain ⟨small, lower | upper⟩ := digit
  · rw [same, lower]
    exact (nibble?_digits value small).1
  · rw [same, upper]
    exact (nibble?_digits value small).2

/-- Whatever reads as a value is its digit. -/
theorem isDigit_of_nibble? {byte value : UInt8} (read : nibble? byte = some value) :
    IsDigit value.toNat byte := by
  have each : ∀ byte : UInt8,
      (nibble? byte).all (fun value => decide (IsDigit value.toNat byte)) = true := by
    refine forall_uint8_iff.mpr ?_
    decide +kernel
  simpa [read] using each byte

theorem nibble?_eq_none_iff {byte : UInt8} : nibble? byte = none ↔ ¬ IsHex byte := by
  constructor
  · rintro none ⟨value, digit⟩
    rw [nibble?_of_isDigit digit] at none
    cases none
  · intro notHex
    cases reading : nibble? byte with
    | none => rfl
    | some value => exact absurd ⟨_, isDigit_of_nibble? reading⟩ notHex

theorem nibble_of_isDigit {value : Nat} {byte : UInt8} (digit : IsDigit value byte) :
    nibble byte = .ok value.toUInt8 := by
  rw [nibble, nibble?_of_isDigit digit]

theorem nibble_of_not_isHex {byte : UInt8} (notHex : ¬ IsHex byte) : nibble byte = .error .badDigit := by
  rw [nibble, nibble?_eq_none_iff.mpr notHex]

/-- A byte is its two digit values put back together. -/
theorem assemble_digits : ∀ byte : UInt8,
    ((byte.toNat / 16).toUInt8 <<< 4 ||| (byte.toNat % 16).toUInt8) = byte := by
  refine forall_uint8_iff.mpr ?_
  decide +kernel

/-! ## Digits spelling bytes -/

/-- Text bytes spell bytes in pairs of hexadecimal digits, the high digit first. -/
inductive Spells : List UInt8 → List UInt8 → Prop
  | nil : Spells [] []
  | cons {high low byte : UInt8} {digits bytes : List UInt8}
      (highDigit : IsDigit (byte.toNat / 16) high) (lowDigit : IsDigit (byte.toNat % 16) low)
      (rest : Spells digits bytes) : Spells (high :: low :: digits) (byte :: bytes)

theorem Spells.length {digits bytes : List UInt8} (spells : Spells digits bytes) :
    digits.length = 2 * bytes.length := by
  induction spells with
  | nil => rfl
  | cons _ _ _ ih =>
    simp only [List.length_cons, ih]
    omega

theorem Spells.isHex {digits bytes : List UInt8} (spells : Spells digits bytes) :
    ∀ digit ∈ digits, IsHex digit := by
  induction spells with
  | nil => simp
  | cons highDigit lowDigit _ ih =>
    intro digit member
    rcases List.mem_cons.mp member with rfl | member
    · exact ⟨_, highDigit⟩
    rcases List.mem_cons.mp member with rfl | member
    · exact ⟨_, lowDigit⟩
    · exact ih digit member

/-- An even number of hexadecimal digits spells bytes. -/
theorem spells_of_isHex : ∀ {digits : List UInt8}, (∀ digit ∈ digits, IsHex digit) →
    digits.length % 2 = 0 → ∃ bytes, Spells digits bytes
  | [], _, _ => ⟨[], .nil⟩
  | [_], _, odd => by simp at odd
  | high :: low :: rest, hex, even => by
    obtain ⟨highValue, highDigit⟩ := hex high (by simp)
    obtain ⟨lowValue, lowDigit⟩ := hex low (by simp)
    have restHex : ∀ digit ∈ rest, IsHex digit := fun digit member => hex digit (by simp [member])
    obtain ⟨bytes, spells⟩ := spells_of_isHex restHex (by simp at even; omega)
    have highSmall := highDigit.1
    have lowSmall := lowDigit.1
    have fits : (16 * highValue + lowValue) % 256 = 16 * highValue + lowValue := by omega
    refine ⟨(16 * highValue + lowValue).toUInt8 :: bytes, .cons ?_ ?_ spells⟩
    · simpa [UInt8.toNat_ofNat', fits, show (16 * highValue + lowValue) / 16 = highValue by omega]
        using highDigit
    · simpa [UInt8.toNat_ofNat', fits, show (16 * highValue + lowValue) % 16 = lowValue by omega]
        using lowDigit

/-! ## Reading the digit pairs -/

/-- A pair of digits read as two values gives the byte of those values, unless the record is full. -/
theorem readPairs_pair {high low highValue lowValue : UInt8} {held : Nat} {rest : List UInt8}
    (highRead : nibble high = .ok highValue) (lowRead : nibble low = .ok lowValue) :
    readPairs held (high :: low :: rest) =
      if held = recordCapacity then .error .badLength
      else (readPairs (held + 1) rest).map (((highValue <<< 4) ||| lowValue) :: ·) := by
  simp only [readPairs, highRead, lowRead]
  split
  · rfl
  · cases readPairs (held + 1) rest <;> rfl

/-- **Pairs that spell bytes read as those bytes**, unless they overrun the 260 bytes of a
record. -/
theorem readPairs_of_spells {digits bytes : List UInt8} (spells : Spells digits bytes) {held : Nat}
    (room : held ≤ recordCapacity) :
    readPairs held digits = if held + bytes.length ≤ recordCapacity then .ok bytes else .error .badLength := by
  induction spells generalizing held with
  | nil => simp [readPairs, room]; rfl
  | @cons high low byte digits bytes highDigit lowDigit rest ih =>
    rw [readPairs_pair (nibble_of_isDigit highDigit) (nibble_of_isDigit lowDigit),
      assemble_digits]
    by_cases full : held = recordCapacity
    · simp [full, recordCapacity]
    · rw [if_neg full, ih (by omega)]
      by_cases fits : held + 1 + bytes.length ≤ recordCapacity
      · simp [fits, show held + (bytes.length + 1) ≤ recordCapacity by omega]; rfl
      · simp [fits, show ¬ held + (bytes.length + 1) ≤ recordCapacity by omega]; rfl

/-- **The first byte that is no digit stops the reading**: with the digit error, unless the
record filled up on the pairs before it. -/
theorem readPairs_of_bad : ∀ {good after : List UInt8} {bad : UInt8} {held : Nat},
    (∀ digit ∈ good, IsHex digit) → ¬ IsHex bad → (good ++ bad :: after).length % 2 = 0 →
    held ≤ recordCapacity →
    readPairs held (good ++ bad :: after) =
      .error (if recordCapacity < held + good.length / 2 then .badLength else .badDigit)
  | [], after, bad, held, _, notHex, even, room => by
    obtain ⟨next, after, rfl⟩ : ∃ next rest, after = next :: rest := by
      cases after with
      | nil => simp at even
      | cons next rest => exact ⟨next, rest, rfl⟩
    simp [readPairs, nibble_of_not_isHex notHex, show ¬ recordCapacity < held by omega]
    rfl
  | [high], after, bad, held, hex, notHex, _, room => by
    obtain ⟨_, highDigit⟩ := hex high (by simp)
    simp [readPairs, nibble_of_isDigit highDigit, nibble_of_not_isHex notHex,
      show ¬ recordCapacity < held by omega]
    rfl
  | high :: low :: good, after, bad, held, hex, notHex, even, room => by
    obtain ⟨_, highDigit⟩ := hex high (by simp)
    obtain ⟨_, lowDigit⟩ := hex low (by simp)
    have halves : (good.length + 2) / 2 = good.length / 2 + 1 := by omega
    rw [List.cons_append, List.cons_append,
      readPairs_pair (nibble_of_isDigit highDigit) (nibble_of_isDigit lowDigit)]
    by_cases full : held = recordCapacity
    · simp [full, halves]
    · rw [if_neg full, readPairs_of_bad (fun digit member => hex digit (by simp [member])) notHex
        (by simp at even ⊢; omega) (by omega)]
      simp [halves, show held + 1 + good.length / 2 = held + (good.length / 2 + 1) by omega]
      rfl

/-! ## The fields of a line -/

/-- The sum of bytes modulo 256. -/
def sumMod (bytes : List UInt8) : Nat :=
  (bytes.map UInt8.toNat).sum % 256

/-- The big-endian value of the first two payload bytes. -/
def word (payload : List UInt8) : Nat :=
  (payload.getD 0 0).toNat * 256 + (payload.getD 1 0).toNat

/-- The record a type names, given the offset and the payload of its line. -/
def meaning (kind : UInt8) (offset : Nat) (payload : List UInt8) : Record :=
  if kind = 0 then .data offset.toUInt16 payload
  else if kind = 1 then .endOfFile
  else if kind = 2 then .base (word payload * 16).toUInt32
  else if kind = 4 then .base (word payload * 65536).toUInt32
  else .start

/-- What the bytes of a line stand for: a count `n`, the offset in two bytes, the type, `n` payload
bytes and a checksum. The checks come in this order: the count against the number of bytes, the sum
of all bytes modulo 256, the two payload bytes of a base record, and the type. -/
inductive BytesVerdict : List UInt8 → Except HexError Record → Prop
  | badCount {count : UInt8} {rest : List UInt8} (mismatch : rest.length ≠ count.toNat + 4) :
      BytesVerdict (count :: rest) (.error .badLength)
  | badChecksum {count high low kind check : UInt8} {payload : List UInt8}
      (counted : payload.length = count.toNat)
      (unbalanced : sumMod (count :: high :: low :: kind :: (payload ++ [check])) ≠ 0) :
      BytesVerdict (count :: high :: low :: kind :: (payload ++ [check])) (.error .badChecksum)
  | badBase {count high low kind check : UInt8} {payload : List UInt8}
      (counted : payload.length = count.toNat)
      (balanced : sumMod (count :: high :: low :: kind :: (payload ++ [check])) = 0)
      (isBase : kind = 2 ∨ kind = 4) (notWord : count ≠ 2) :
      BytesVerdict (count :: high :: low :: kind :: (payload ++ [check])) (.error .badLength)
  | unknownType {count high low kind check : UInt8} {payload : List UInt8}
      (counted : payload.length = count.toNat)
      (balanced : sumMod (count :: high :: low :: kind :: (payload ++ [check])) = 0)
      (unknown : 5 < kind) :
      BytesVerdict (count :: high :: low :: kind :: (payload ++ [check])) (.error (.unknownType kind))
  | record {count high low kind check : UInt8} {payload : List UInt8}
      (counted : payload.length = count.toNat)
      (balanced : sumMod (count :: high :: low :: kind :: (payload ++ [check])) = 0)
      (known : kind ≤ 5) (isWord : kind = 2 ∨ kind = 4 → count = 2) :
      BytesVerdict (count :: high :: low :: kind :: (payload ++ [check]))
        (.ok (meaning kind (high.toNat * 256 + low.toNat) payload))

/-- Bytes whose count matches their number fit a record. -/
theorem length_fields_le {count high low kind check : UInt8} {payload : List UInt8}
    (matching : payload.length = count.toNat) :
    (count :: high :: low :: kind :: (payload ++ [check])).length ≤ 260 := by
  have := count.toNat_lt
  simp only [List.length_cons, List.length_append, List.length_nil, matching]
  omega

/-- More bytes than a record holds are always refused as too long. -/
theorem BytesVerdict.eq_badLength {bytes : List UInt8} {result : Except HexError Record}
    (verdict : BytesVerdict bytes result) (long : 260 < bytes.length) :
    result = .error .badLength := by
  cases verdict with
  | badCount _ => rfl
  | badChecksum matching _ => exact absurd long (Nat.not_lt.mpr (length_fields_le matching))
  | badBase _ _ _ _ => rfl
  | unknownType matching _ _ => exact absurd long (Nat.not_lt.mpr (length_fields_le matching))
  | record matching _ _ _ => exact absurd long (Nat.not_lt.mpr (length_fields_le matching))

theorem toNat_foldl_add (bytes : List UInt8) (start : UInt8) :
    (bytes.foldl (· + ·) start).toNat = (start.toNat + (bytes.map UInt8.toNat).sum) % 256 := by
  induction bytes generalizing start with
  | nil => simp
  | cons byte rest ih =>
    rw [List.foldl_cons, ih, UInt8.toNat_add]
    simp only [List.map_cons, List.sum_cons]
    omega

theorem byteSum_eq_zero_iff (bytes : List UInt8) : byteSum bytes = 0 ↔ sumMod bytes = 0 := by
  rw [← UInt8.toNat_inj, byteSum, toNat_foldl_add, sumMod]
  simp

theorem toNat_offset (high low : UInt8) :
    ((high.toUInt16 <<< 8) ||| low.toUInt16).toNat = high.toNat * 256 + low.toNat := by
  have lowSmall := low.toNat_lt
  have highSmall := high.toNat_lt
  simp only [UInt16.toNat_or, UInt16.toNat_shiftLeft, UInt8.toNat_toUInt16, UInt16.reduceToNat,
    Nat.reduceMod]
  rw [Nat.mod_eq_of_lt (show high.toNat <<< 8 < 2 ^ 16 by omega),
    ← Nat.shiftLeft_add_eq_or_of_lt lowSmall]
  omega

theorem offset_eq (high low : UInt8) :
    ((high.toUInt16 <<< 8) ||| low.toUInt16) = (high.toNat * 256 + low.toNat).toUInt16 := by
  apply UInt16.toNat_inj.mp
  have := high.toNat_lt
  have := low.toNat_lt
  rw [toNat_offset, Nat.toUInt16, UInt16.toNat_ofNat', Nat.mod_eq_of_lt (by omega)]

theorem toUInt32_shiftLeft (value : UInt16) {shift : UInt32} (small : shift.toNat ≤ 16) :
    value.toUInt32 <<< shift = (value.toNat * 2 ^ shift.toNat).toUInt32 := by
  apply UInt32.toNat_inj.mp
  have below := value.toNat_lt
  have room : value.toNat * 2 ^ shift.toNat < 2 ^ 32 :=
    calc value.toNat * 2 ^ shift.toNat < 2 ^ 16 * 2 ^ 16 :=
          Nat.mul_lt_mul_of_lt_of_le below (Nat.pow_le_pow_right (by decide) small) (by positivity)
      _ = 2 ^ 32 := by norm_num
  simp only [UInt32.toNat_shiftLeft, UInt16.toNat_toUInt32, Nat.shiftLeft_eq]
  rw [Nat.mod_eq_of_lt (show shift.toNat < 32 by omega), Nat.mod_eq_of_lt room]
  simp only [Nat.toUInt32, UInt32.toNat_ofNat', Nat.mod_eq_of_lt room]

/-- A record of a known type, a base record with its two bytes, is what its type names. -/
theorem ofBytes_eq_meaning {kind high low : UInt8} {payload : List UInt8} (known : kind ≤ 5)
    (isWord : kind = 2 ∨ kind = 4 → payload.length = 2) :
    Record.ofBytes kind ((high.toUInt16 <<< 8) ||| low.toUInt16) payload =
      .ok (meaning kind (high.toNat * 256 + low.toNat) payload) := by
  have kinds : ∀ kind : UInt8, kind ≤ 5 →
      kind = 0 ∨ kind = 1 ∨ kind = 2 ∨ kind = 3 ∨ kind = 4 ∨ kind = 5 := by
    refine forall_uint8_iff.mpr ?_
    decide +kernel
  rcases kinds kind known with rfl | rfl | rfl | rfl | rfl | rfl
  · rw [offset_eq]
    rfl
  · rfl
  · obtain ⟨first, second, rfl⟩ := List.length_eq_two.mp (isWord (.inl rfl))
    show Except.ok (Record.base (((first.toUInt16 <<< 8) ||| second.toUInt16).toUInt32 <<< 4)) =
      .ok (.base ((first.toNat * 256 + second.toNat) * 16).toUInt32)
    rw [toUInt32_shiftLeft _ (by decide), toNat_offset]
    rfl
  · rfl
  · obtain ⟨first, second, rfl⟩ := List.length_eq_two.mp (isWord (.inr rfl))
    show Except.ok (Record.base (((first.toUInt16 <<< 8) ||| second.toUInt16).toUInt32 <<< 16)) =
      .ok (.base ((first.toNat * 256 + second.toNat) * 65536).toUInt32)
    rw [toUInt32_shiftLeft _ (by decide), toNat_offset]
    rfl
  · rfl

theorem ofBytes_of_unknown {kind : UInt8} (unknown : 5 < kind) (offset : UInt16)
    (payload : List UInt8) : Record.ofBytes kind offset payload = .error (.unknownType kind) := by
  unfold Record.ofBytes
  split <;> simp_all

theorem word?_of_length {payload : List UInt8} (notTwo : payload.length ≠ 2) :
    word? payload = .error .badLength := by
  match payload, notTwo with
  | [], _ => rfl
  | [_], _ => rfl
  | [_, _], notTwo => exact absurd rfl notTwo
  | _ :: _ :: _ :: _, _ => rfl

theorem ofBytes_of_badBase {kind : UInt8} (isBase : kind = 2 ∨ kind = 4) {payload : List UInt8}
    (notWord : payload.length ≠ 2) (offset : UInt16) :
    Record.ofBytes kind offset payload = .error .badLength := by
  rcases isBase with rfl | rfl
  · simp [Record.ofBytes, word?_of_length notWord]
  · simp [Record.ofBytes, word?_of_length notWord]

/-! ## Lines -/

/-- What a line, trimmed of blanks, decodes to. Its digits are the text bytes after the colon, and
the checks come in this order: the colon; an even number of at least ten digits; each digit, where
a record that fills up before the first one that is no digit is too long; and then what the bytes
they spell stand for. -/
inductive LineVerdict : List Char → Except HexError Record → Prop
  | missingColon {chars : List Char} (noColon : ∀ rest, chars ≠ ':' :: rest) :
      LineVerdict chars (.error .missingColon)
  | badLength {rest : List Char}
      (oddOrShort : (utf8 rest).length % 2 = 1 ∨ (utf8 rest).length < 10) :
      LineVerdict (':' :: rest) (.error .badLength)
  | badDigit {rest : List Char} {good after : List UInt8} {bad : UInt8}
      (split : utf8 rest = good ++ bad :: after) (even : (utf8 rest).length % 2 = 0)
      (long : 10 ≤ (utf8 rest).length) (digits : ∀ digit ∈ good, IsHex digit) (notDigit : ¬ IsHex bad) :
      LineVerdict (':' :: rest) (.error (if 260 < good.length / 2 then .badLength else .badDigit))
  | read {rest : List Char} {bytes : List UInt8} {result : Except HexError Record}
      (spells : Spells (utf8 rest) bytes) (long : 5 ≤ bytes.length)
      (verdict : BytesVerdict bytes result) :
      LineVerdict (':' :: rest) result

theorem decodeChars_of_missingColon {line : List Char} (noColon : ∀ rest, trimBlank line ≠ ':' :: rest) :
    decodeChars line = .error .missingColon := by
  unfold decodeChars
  split
  · rename_i rest trimmed
    exact absurd trimmed (noColon rest)
  · rfl

theorem decodeChars_of_badLength {line rest : List Char} (trimmed : trimBlank line = ':' :: rest)
    (oddOrShort : (utf8 rest).length % 2 = 1 ∨ (utf8 rest).length < 10) :
    decodeChars line = .error .badLength := by
  have : (utf8 rest).length % 2 ≠ 0 ∨ (utf8 rest).length < 10 := by omega
  simp only [decodeChars, trimmed, bind, Except.bind, pure, Except.pure, if_pos this]
  rfl

theorem decodeChars_of_badDigit {line rest : List Char} {good after : List UInt8} {bad : UInt8}
    (trimmed : trimBlank line = ':' :: rest) (split : utf8 rest = good ++ bad :: after)
    (even : (utf8 rest).length % 2 = 0) (long : 10 ≤ (utf8 rest).length)
    (digits : ∀ digit ∈ good, IsHex digit) (notDigit : ¬ IsHex bad) :
    decodeChars line = .error (if 260 < good.length / 2 then .badLength else .badDigit) := by
  have counted : ¬ ((utf8 rest).length % 2 ≠ 0 ∨ (utf8 rest).length < 10) := by omega
  have read := readPairs_of_bad digits notDigit (split ▸ even) (show 0 ≤ recordCapacity by decide)
  rw [← split] at read
  simp only [recordCapacity, Nat.zero_add] at read
  simp only [decodeChars, trimmed, bind, Except.bind, pure, Except.pure, if_neg counted, read]

/-- Bytes read with the count matching their number: the sum is checked, then the type. -/
theorem decodeChars_of_fields {line rest : List Char} {count high low kind check : UInt8}
    {payload : List UInt8} (trimmed : trimBlank line = ':' :: rest)
    (counted : ¬ ((utf8 rest).length % 2 ≠ 0 ∨ (utf8 rest).length < 10))
    (read : readPairs 0 (utf8 rest) = .ok (count :: high :: low :: kind :: (payload ++ [check])))
    (matching : payload.length = count.toNat) :
    decodeChars line =
      if sumMod (count :: high :: low :: kind :: (payload ++ [check])) = 0 then
        Record.ofBytes kind ((high.toUInt16 <<< 8) ||| low.toUInt16) payload
      else .error .badChecksum := by
  have fits : (count :: high :: low :: kind :: (payload ++ [check])).length = count.toNat + 5 := by
    simp only [List.length_cons, List.length_append, List.length_nil, matching]
  simp only [decodeChars, trimmed, bind, Except.bind, pure, Except.pure, if_neg counted, read,
    fits, ne_eq, not_true_eq_false, ↓reduceIte, List.take_left' matching, byteSum_eq_zero_iff]
  by_cases balanced : sumMod (count :: high :: low :: kind :: (payload ++ [check])) = 0
  · simp [balanced]
  · simp [balanced]
    rfl

/-- **Bytes that fit a record are checked as their verdict says.** -/
theorem decodeChars_of_read {line rest : List Char} {bytes : List UInt8}
    {result : Except HexError Record} (trimmed : trimBlank line = ':' :: rest)
    (spells : Spells (utf8 rest) bytes) (long : 5 ≤ bytes.length)
    (verdict : BytesVerdict bytes result) : decodeChars line = result := by
  have length := spells.length
  have counted : ¬ ((utf8 rest).length % 2 ≠ 0 ∨ (utf8 rest).length < 10) := by omega
  have read := readPairs_of_spells spells (show 0 ≤ recordCapacity by decide)
  by_cases short : bytes.length ≤ 260
  · rw [if_pos (by simpa [recordCapacity] using short)] at read
    cases verdict with
    | @badCount count fields mismatch =>
      obtain ⟨high, low, kind, tail, rfl⟩ : ∃ high low kind tail, fields = high :: low :: kind :: tail := by
        match fields, long with
        | high :: low :: kind :: tail, _ => exact ⟨high, low, kind, tail, rfl⟩
      simp only [decodeChars, trimmed, bind, Except.bind, pure, Except.pure, if_neg counted, read]
      simp only [List.length_cons] at mismatch ⊢
      rw [if_pos (by omega)]
      rfl
    | badChecksum matching unbalanced =>
      rw [decodeChars_of_fields trimmed counted read matching, if_neg unbalanced]
    | @badBase count high low kind check payload matching balanced isBase notWord =>
      have notTwo : payload.length ≠ 2 := by
        rw [matching]
        exact fun two => notWord (UInt8.toNat_inj.mp two)
      rw [decodeChars_of_fields trimmed counted read matching, if_pos balanced,
        ofBytes_of_badBase isBase notTwo]
    | unknownType matching balanced unknown =>
      rw [decodeChars_of_fields trimmed counted read matching, if_pos balanced,
        ofBytes_of_unknown unknown]
    | record matching balanced known isWord =>
      rw [decodeChars_of_fields trimmed counted read matching, if_pos balanced,
        ofBytes_eq_meaning known fun isBase => by rw [matching, isWord isBase]; rfl]
  · rw [if_neg (by simpa [recordCapacity] using short)] at read
    rw [verdict.eq_badLength (by omega)]
    simp only [decodeChars, trimmed, bind, Except.bind, pure, Except.pure, if_neg counted, read]

/-- **A line decodes as its verdict says.** -/
theorem decodeChars_of_verdict {line : List Char} {result : Except HexError Record}
    (verdict : LineVerdict (trimBlank line) result) : decodeChars line = result := by
  generalize trimmed : trimBlank line = chars at verdict
  cases verdict with
  | missingColon noColon => exact decodeChars_of_missingColon (trimmed ▸ noColon)
  | badLength oddOrShort => exact decodeChars_of_badLength trimmed oddOrShort
  | badDigit split even long digits notDigit =>
    exact decodeChars_of_badDigit trimmed split even long digits notDigit
  | read spells long verdict => exact decodeChars_of_read trimmed spells long verdict

/-- Bytes that are not all digits have a first one that is not. -/
theorem exists_first_not_isHex : ∀ {digits : List UInt8}, ¬ (∀ digit ∈ digits, IsHex digit) →
    ∃ good bad after, digits = good ++ bad :: after ∧ (∀ digit ∈ good, IsHex digit) ∧ ¬ IsHex bad
  | [], notAll => absurd (fun _ member => absurd member List.not_mem_nil) notAll
  | digit :: rest, notAll => by
    by_cases first : IsHex digit
    · have restNotAll : ¬ ∀ other ∈ rest, IsHex other := fun all =>
        notAll fun other member => (List.mem_cons.mp member).elim (· ▸ first) (all other)
      obtain ⟨good, bad, after, split, digits, notDigit⟩ := exists_first_not_isHex restNotAll
      refine ⟨digit :: good, bad, after, by rw [split]; rfl, fun other member => ?_, notDigit⟩
      exact (List.mem_cons.mp member).elim (· ▸ first) (digits other)
    · exact ⟨[], digit, rest, rfl, fun _ member => absurd member List.not_mem_nil, first⟩

/-- Every list of at least five bytes has a verdict. -/
theorem bytesVerdict_exists {bytes : List UInt8} (long : 5 ≤ bytes.length) :
    ∃ result, BytesVerdict bytes result := by
  obtain ⟨count, fields, rfl⟩ : ∃ count fields, bytes = count :: fields := by
    cases bytes with
    | nil => simp at long
    | cons count fields => exact ⟨count, fields, rfl⟩
  by_cases mismatch : fields.length ≠ count.toNat + 4
  · exact ⟨_, .badCount mismatch⟩
  obtain ⟨high, low, kind, tail, rfl⟩ : ∃ high low kind tail, fields = high :: low :: kind :: tail := by
    match fields, long with
    | high :: low :: kind :: tail, _ => exact ⟨high, low, kind, tail, rfl⟩
  have nonempty : tail ≠ [] := by
    rintro rfl
    simp at mismatch
  rw [← List.dropLast_append_getLast nonempty]
  have matching : tail.dropLast.length = count.toNat := by
    simp only [List.length_cons, ne_eq, not_not] at mismatch
    simp only [List.length_dropLast]
    omega
  by_cases balanced : sumMod (count :: high :: low :: kind :: (tail.dropLast ++ [tail.getLast nonempty])) = 0
  · by_cases isBase : kind = 2 ∨ kind = 4
    · by_cases isWord : count = 2
      · exact ⟨_, .record matching balanced (by rcases isBase with rfl | rfl <;> decide)
          fun _ => isWord⟩
      · exact ⟨_, .badBase matching balanced isBase isWord⟩
    · by_cases unknown : 5 < kind
      · exact ⟨_, .unknownType matching balanced unknown⟩
      · exact ⟨_, .record matching balanced (UInt8.not_lt.mp unknown) fun base => absurd base isBase⟩
  · exact ⟨_, .badChecksum matching balanced⟩

/-- Every trimmed line has a verdict. -/
theorem lineVerdict_exists (chars : List Char) : ∃ result, LineVerdict chars result := by
  by_cases colon : ∃ rest, chars = ':' :: rest
  · obtain ⟨rest, rfl⟩ := colon
    by_cases oddOrShort : (utf8 rest).length % 2 = 1 ∨ (utf8 rest).length < 10
    · exact ⟨_, .badLength oddOrShort⟩
    have even : (utf8 rest).length % 2 = 0 := by omega
    have long : 10 ≤ (utf8 rest).length := by omega
    by_cases digits : ∀ digit ∈ utf8 rest, IsHex digit
    · obtain ⟨bytes, spells⟩ := spells_of_isHex digits even
      have enough : 5 ≤ bytes.length := by
        have := spells.length
        omega
      obtain ⟨result, verdict⟩ := bytesVerdict_exists enough
      exact ⟨result, .read spells enough verdict⟩
    · obtain ⟨good, bad, after, split, digits, notDigit⟩ := exists_first_not_isHex digits
      exact ⟨_, .badDigit split even long digits notDigit⟩
  · exact ⟨_, .missingColon fun rest same => colon ⟨rest, same⟩⟩

/-- **A line decodes to a result exactly when that is its verdict.** -/
theorem decodeChars_eq_iff (line : List Char) (result : Except HexError Record) :
    decodeChars line = result ↔ LineVerdict (trimBlank line) result := by
  constructor
  · rintro rfl
    obtain ⟨result, verdict⟩ := lineVerdict_exists (trimBlank line)
    rwa [decodeChars_of_verdict verdict]
  · exact decodeChars_of_verdict

theorem decodeLine_eq_iff (line : String) (result : Except HexError Record) :
    decodeLine line = result ↔ LineVerdict (trimBlank line.toList) result :=
  decodeChars_eq_iff line.toList result

/-! ## Writing a record line -/

/-- The two upper-case digits of a byte. -/
def upperPair (byte : UInt8) : List Char :=
  [upperDigits.getD (byte.toNat / 16) ' ', upperDigits.getD (byte.toNat % 16) ' ']

/-- The bytes of a record line before its checksum: the count, the offset high byte first, the
type and the payload. -/
def recordFields (kind : UInt8) (offset : UInt16) (payload : List UInt8) : List UInt8 :=
  [payload.length.toUInt8, (offset >>> 8).toUInt8, offset.toUInt8, kind] ++ payload

/-- **A record line as a HEX file writer puts it**: a colon, then the count, the offset, the type,
the payload and the checksum that brings the sum of all bytes to 0 modulo 256, each as two
upper-case digits, and a line feed. -/
def recordLine (kind : UInt8) (offset : UInt16) (payload : List UInt8) : String :=
  let fields := recordFields kind offset payload
  String.ofList (':' :: (fields ++ [0 - byteSum fields]).flatMap upperPair ++ ['\n'])

theorem upperDigits_facts : ∀ value, value < 16 →
    isBlank (upperDigits.getD value ' ') = false ∧
      String.utf8EncodeChar (upperDigits.getD value ' ') =
        [(upperDigits.getD value ' ').toNat.toUInt8] ∧
      IsDigit value (upperDigits.getD value ' ').toNat.toUInt8 := by
  decide

/-- Upper-case digit pairs spell the bytes they were written from. -/
theorem spells_upperPairs (bytes : List UInt8) : Spells (utf8 (bytes.flatMap upperPair)) bytes := by
  induction bytes with
  | nil => exact .nil
  | cons byte rest ih =>
    have := byte.toNat_lt
    have high := upperDigits_facts (byte.toNat / 16) (by omega)
    have low := upperDigits_facts (byte.toNat % 16) (by omega)
    have pair : utf8 (upperPair byte) =
        [(upperDigits.getD (byte.toNat / 16) ' ').toNat.toUInt8,
          (upperDigits.getD (byte.toNat % 16) ' ').toNat.toUInt8] := by
      simp only [utf8, upperPair, List.flatMap_cons, List.flatMap_nil, high.2.1, low.2.1]
      rfl
    rw [List.flatMap_cons, utf8, List.flatMap_append, ← utf8, ← utf8, pair]
    exact .cons high.2.2 low.2.2 ih

/-- A blank at the end of a text goes with the trim. -/
theorem trimBlank_append_blank (chars : List Char) {c : Char} (blank : isBlank c = true) :
    trimBlank (chars ++ [c]) = trimBlank chars := by
  unfold trimBlank
  rw [List.dropWhile_append]
  split
  · rename_i gone
    rw [List.isEmpty_iff.mp gone, List.dropWhile_cons_of_pos blank]
    rfl
  · rw [trimBlankEnd, trimBlankEnd, List.reverse_append, List.reverse_singleton,
      List.singleton_append, List.dropWhile_cons_of_pos blank]

/-- Characters none of which is blank are their own trim. -/
theorem trimBlank_of_solid {chars : List Char} (solid : ∀ c ∈ chars, isBlank c = false) :
    trimBlank chars = chars := by
  have keep : ∀ {chars : List Char}, (∀ c ∈ chars, isBlank c = false) →
      chars.dropWhile isBlank = chars := by
    intro chars solid
    cases chars with
    | nil => rfl
    | cons c rest => exact List.dropWhile_cons_of_neg (by simp [solid c List.mem_cons_self])
  rw [trimBlank, keep solid, trimBlankEnd,
    keep fun c member => solid c (List.mem_reverse.mp member), List.reverse_reverse]

/-- A colon and digit pairs hold no blank. -/
theorem solid_upperPairs (bytes : List UInt8) :
    ∀ c ∈ ':' :: bytes.flatMap upperPair, isBlank c = false := by
  intro c member
  rcases List.mem_cons.mp member with rfl | member
  · decide
  obtain ⟨byte, _, inPair⟩ := List.mem_flatMap.mp member
  have := byte.toNat_lt
  rcases List.mem_pair.mp inPair with rfl | rfl
  · exact (upperDigits_facts _ (by omega)).1
  · exact (upperDigits_facts _ (by omega)).1

/-- The checksum a writer appends brings the sum of all bytes to 0 modulo 256. -/
theorem sumMod_append_check (fields : List UInt8) :
    sumMod (fields ++ [0 - byteSum fields]) = 0 := by
  rw [← byteSum_eq_zero_iff, byteSum, List.foldl_append, ← byteSum]
  simp

/-- **A record line written from a record of a known type reads back as that record.** -/
theorem decodeLine_recordLine {kind : UInt8} {offset : UInt16} {payload : List UInt8}
    (known : kind ≤ 5) (fits : payload.length ≤ 255)
    (isWord : kind = 2 ∨ kind = 4 → payload.length = 2) :
    decodeLine (recordLine kind offset payload) = .ok (meaning kind offset.toNat payload) := by
  have counted : payload.length = payload.length.toUInt8.toNat := by
    simp only [Nat.toUInt8, UInt8.toNat_ofNat']
    omega
  have parts : ((offset >>> 8).toUInt8).toNat * 256 + offset.toUInt8.toNat = offset.toNat := by
    have := offset.toNat_lt
    simp only [UInt16.toNat_toUInt8, UInt16.toNat_shiftRight, UInt16.reduceToNat, Nat.reduceMod,
      Nat.shiftRight_eq_div_pow]
    omega
  rw [decodeLine, recordLine, String.toList_ofList, ← parts]
  have trimmed := trimBlank_append_blank (':' :: (recordFields kind offset payload ++
    [0 - byteSum (recordFields kind offset payload)]).flatMap upperPair)
    (show isBlank '\n' = true by decide)
  rw [trimBlank_of_solid (solid_upperPairs _)] at trimmed
  refine decodeChars_of_read trimmed (spells_upperPairs _)
    (by simp [recordFields]) ?_
  exact .record counted (sumMod_append_check (recordFields kind offset payload)) known
    fun isBase => by rw [isWord isBase]; rfl

/-- **A HEX line decodes by the record grammar.** A line decodes to a result exactly when that is
its verdict: when the line, trimmed of blanks, is a colon and an even number of at least ten digits
that spell a count, an offset, a type up to 5, the counted payload (two bytes for a base record) and
a checksum bringing the sum to 0 modulo 256, the result is the record the type names; otherwise it
is the error of the first check that fails. In particular a record line written from a record of a
known type reads back as that record. -/
theorem decodeLine_follows_grammar :
    (∀ (line : String) (result : Except HexError Record),
      decodeLine line = result ↔ LineVerdict (trimBlank line.toList) result) ∧
    ∀ (kind : UInt8) (offset : UInt16) (payload : List UInt8), kind ≤ 5 → payload.length ≤ 255 →
      (kind = 2 ∨ kind = 4 → payload.length = 2) →
      decodeLine (recordLine kind offset payload) = .ok (meaning kind offset.toNat payload) :=
  ⟨decodeLine_eq_iff, fun _ _ _ known fits isWord => decodeLine_recordLine known fits isWord⟩

/-- The segment base record 0x1200 written and read back: base address 0x12000. -/
theorem decodeLine_follows_grammar_segment :
    decodeLine (recordLine 2 0 [0x12, 0x00]) = .ok (.base 0x12000) := by
  rw [decodeLine_follows_grammar.2 2 0 [0x12, 0x00] (by decide) (by decide) fun _ => rfl]
  rfl

end RailBus.Firmware
