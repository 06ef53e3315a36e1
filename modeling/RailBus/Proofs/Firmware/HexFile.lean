import Mathlib
import RailBus.Proofs.Firmware.HexGrammar
import RailBus.Firmware.Image
/-! # Reading a HEX file

`Image.ofHex` reads a HEX text line by line, with a base address that base records move. This
module says what it reads in terms of the lines alone. The lines are cut as a line reader cuts them
(`textLines`); those with more than blanks are decoded, up to and with the first end record
(`readResults`). The first of these that fails is the error of the whole file (`FirstError`), and
when none fails the image is the empty one after the writes of the records read (`dataWrites`):
each data record's bytes at its offset above the address of the last base record before it. The
main statement is `ofHex_reads_records`.

The proof is one induction over the lines, generalizing the records read so far
(`loadLines_reads`), with the image and the base address the reader holds being those the writes
and the last base record of those records give (`dataWrites_concat`, `baseAfter_concat`). A base
record moves the base to at most 0xFFFF0000, so no write runs past the 32-bit address space
(`dataWrites_lt`).
-/

namespace RailBus.Firmware

open Text

/-! ## Lines of a text -/

/-- A line without the carriage return that ends it, if one does. -/
def dropReturn (line : List Char) : List Char :=
  if line.getLast? = some '\r' then line.dropLast else line

/-- **The lines of a text** as a line reader cuts them: at each line feed, with a carriage return
right before the feed taken off; the empty piece after a final line feed is no line. -/
def textLines (text : String) : List (List Char) :=
  let pieces := text.toList.splitOn '\n'
  let ended := pieces.dropLast.map dropReturn
  if pieces.getLast? = some [] then ended else ended ++ [pieces.getLastD []]

theorem trimBlank_dropReturn (line : List Char) : trimBlank (dropReturn line) = trimBlank line := by
  unfold dropReturn
  split
  · rename_i last
    have nonempty : line ≠ [] := by
      rintro rfl
      cases last
    have whole := List.dropLast_append_getLast nonempty
    rw [List.getLast?_eq_some_getLast nonempty, Option.some.injEq] at last
    rw [last] at whole
    conv_rhs => rw [← whole]
    rw [trimBlank_append_blank _ (by decide)]
  · rfl

/-- A line decodes as its trim does. -/
theorem decodeChars_congr {line other : List Char} (same : trimBlank line = trimBlank other) :
    decodeChars line = decodeChars other := by
  simp only [decodeChars, same]

/-! ## Reading lines into an image -/

namespace Image

theorem loadLines_nil (image : Image) (base : Nat) : image.loadLines base [] = .ok image := rfl

theorem loadLines_cons_blank (image : Image) (base : Nat) {line : List Char}
    (blank : (trimBlank line).isEmpty) (rest : List (List Char)) :
    image.loadLines base (line :: rest) = image.loadLines base rest := by
  simp only [loadLines, blank, ↓reduceIte]

/-- Lines that trim alike read alike. -/
theorem loadLines_congr {lines others : List (List Char)}
    (same : List.Forall₂ (fun line other => trimBlank line = trimBlank other) lines others)
    (image : Image) (base : Nat) : image.loadLines base lines = image.loadLines base others := by
  induction same generalizing image base with
  | nil => rfl
  | @cons line other rest rest' trimmed _ ih =>
    simp only [loadLines, trimmed, decodeChars_congr trimmed]
    split
    · exact ih image base
    · split
      · rfl
      · exact ih _ base
      · exact ih image _
      · rfl
      · exact ih image base

/-- A blank last line changes nothing. -/
theorem loadLines_append_blank (image : Image) (base : Nat) (lines : List (List Char))
    {line : List Char} (blank : (trimBlank line).isEmpty) :
    image.loadLines base (lines ++ [line]) = image.loadLines base lines := by
  induction lines generalizing image base with
  | nil => simp [loadLines, blank]
  | cons first rest ih =>
    simp only [List.cons_append, loadLines]
    split
    · exact ih image base
    · split
      · rfl
      · exact ih _ base
      · exact ih image _
      · rfl
      · exact ih image base

/-- **Reading a text reads its lines.** -/
theorem ofHex_eq_loadLines (text : String) (limit : Nat) :
    ofHex text limit = (empty limit).loadLines 0 (textLines text) := by
  have nonempty := List.splitOn_ne_nil '\n' text.toList
  have pieces := List.dropLast_append_getLast nonempty
  have returns : List.Forall₂ (fun line other => trimBlank line = trimBlank other)
      (text.toList.splitOn '\n').dropLast ((text.toList.splitOn '\n').dropLast.map dropReturn) :=
    List.forall₂_map_right_iff.mpr
      (List.forall₂_same.mpr fun line _ => (trimBlank_dropReturn line).symm)
  rw [ofHex, textLines, List.getLast?_eq_some_getLast nonempty, List.getLastD_eq_getLast?,
    List.getLast?_eq_some_getLast nonempty, Option.getD_some]
  conv_lhs => rw [← pieces]
  split
  · rename_i empty
    rw [Option.some.injEq] at empty
    rw [loadLines_append_blank _ _ _ (by rw [empty]; rfl)]
    exact loadLines_congr returns _ _
  · exact loadLines_congr (List.rel_append returns (List.forall₂_same.mpr fun _ _ => rfl)) _ _

end Image

/-! ## What a reader reads -/

/-- Whether a decoded line is the end record. -/
def isEndRecord : Except HexError Record → Bool
  | .ok .endOfFile => true
  | _ => false

/-- **The decoded lines a reader reads**: every line with more than blanks in it, decoded, up to and
with the first end record. -/
def readResults (lines : List (List Char)) : List (Except HexError Record) :=
  let results := (lines.filter fun line => !(trimBlank line).isEmpty).map decodeChars
  results.take (results.findIdx isEndRecord + 1)

/-- The error of the first decoded line that fails, every line before it being a record. -/
def FirstError (results : List (Except HexError Record)) (error : HexError) : Prop :=
  ∃ (records : List Record) (after : List (Except HexError Record)),
    results = records.map .ok ++ .error error :: after

theorem readResults_nil : readResults [] = [] := rfl

theorem readResults_cons_blank {line : List Char} (blank : (trimBlank line).isEmpty)
    (rest : List (List Char)) : readResults (line :: rest) = readResults rest := by
  simp [readResults, blank]

/-- A line that decodes to a record holds more than blanks. -/
theorem filled_of_decodeChars {line : List Char} {record : Record}
    (read : decodeChars line = .ok record) : (trimBlank line).isEmpty = false := by
  cases empty : (trimBlank line).isEmpty with
  | false => rfl
  | true =>
    rw [decodeChars_of_missingColon fun rest colon => by simp [colon] at empty] at read
    cases read

theorem readResults_cons_end {line : List Char} (ends : decodeChars line = .ok .endOfFile)
    (rest : List (List Char)) : readResults (line :: rest) = [.ok .endOfFile] := by
  simp only [readResults, List.filter_cons, filled_of_decodeChars ends, Bool.not_false,
    ↓reduceIte, List.map_cons, ends, List.findIdx_cons]
  rfl

theorem readResults_cons {line : List Char} (filled : (trimBlank line).isEmpty = false)
    (going : isEndRecord (decodeChars line) = false) (rest : List (List Char)) :
    readResults (line :: rest) = decodeChars line :: readResults rest := by
  simp [readResults, filled, going, List.findIdx_cons]

theorem firstError_cons_ok (record : Record) (rest : List (Except HexError Record))
    (error : HexError) : FirstError (.ok record :: rest) error ↔ FirstError rest error := by
  constructor
  · rintro ⟨records, after, split⟩
    cases records with
    | nil => cases split
    | cons first others =>
      simp only [List.map_cons, List.cons_append, List.cons.injEq] at split
      exact ⟨others, after, split.2⟩
  · rintro ⟨records, after, split⟩
    exact ⟨record :: records, after, by rw [split]; rfl⟩

theorem firstError_cons_error (failed : HexError) (rest : List (Except HexError Record))
    (error : HexError) : FirstError (.error failed :: rest) error ↔ error = failed := by
  constructor
  · rintro ⟨records, after, split⟩
    cases records with
    | nil =>
      simp only [List.map_nil, List.nil_append, List.cons.injEq, Except.error.injEq] at split
      exact split.1.symm
    | cons first others => simp at split
  · rintro rfl
    exact ⟨[], rest, rfl⟩

theorem not_firstError_nil (error : HexError) : ¬ FirstError [] error := by
  rintro ⟨records, after, split⟩
  simp at split

/-! ## The writes of the records read -/

/-- The base address a record sets, if it is a base record. -/
def Record.baseAddress? : Record → Option Nat
  | .base address => some address.toNat
  | _ => none

/-- The base address in force after records: that of the last base record, 0 if none. -/
def baseAfter (records : List Record) : Nat :=
  ((records.filterMap Record.baseAddress?).getLast?).getD 0

/-- **The writes records ask for**, in order: each data record's bytes at its offset above the base
address in force before it. -/
def dataWrites (records : List Record) : List (Nat × List UInt8) :=
  records.zipIdx.filterMap fun (record, index) =>
    match record with
    | .data offset bytes => some (baseAfter (records.take index) + offset.toNat, bytes)
    | _ => none

/-- Writes applied to an image in order. -/
def Image.applyWrites (image : Image) (writes : List (Nat × List UInt8)) : Image :=
  writes.foldl (fun image write => image.write write.1.toUInt32 write.2) image

theorem baseAfter_concat (records : List Record) (record : Record) :
    baseAfter (records ++ [record]) = record.baseAddress?.getD (baseAfter records) := by
  unfold baseAfter
  rw [List.filterMap_append, List.getLast?_append]
  cases record <;> simp [Record.baseAddress?]

/-- A record read after others adds its own write, if it is a data record. -/
theorem dataWrites_concat (records : List Record) (record : Record) :
    dataWrites (records ++ [record]) = dataWrites records ++
      match record with
      | .data offset bytes => [(baseAfter records + offset.toNat, bytes)]
      | _ => [] := by
  unfold dataWrites
  rw [List.zipIdx_append, List.filterMap_append]
  congr 1
  · apply List.filterMap_congr
    rintro ⟨earlier, index⟩ member
    have before := (List.mem_zipIdx member).2.1
    simp only [Nat.zero_add] at before
    dsimp only
    rw [List.take_append_of_le_length (by omega)]
  · cases record <;> simp [List.take_left' rfl]

theorem applyWrites_append (image : Image) (first second : List (Nat × List UInt8)) :
    image.applyWrites (first ++ second) = (image.applyWrites first).applyWrites second := by
  simp only [Image.applyWrites, List.foldl_append]

/-! ## Reading lines -/

/-- A line holding a record other than the end adds that record to those read. -/
theorem loadLines_cons_record (image : Image) (done : List Record) {line : List Char}
    {record : Record} (read : decodeChars line = .ok record) (going : record ≠ .endOfFile)
    (rest : List (List Char)) :
    (image.applyWrites (dataWrites done)).loadLines (baseAfter done) (line :: rest) =
      (image.applyWrites (dataWrites (done ++ [record]))).loadLines (baseAfter (done ++ [record]))
        rest := by
  have filled := filled_of_decodeChars read
  rw [dataWrites_concat, baseAfter_concat, applyWrites_append]
  cases record with
  | data offset bytes =>
    simp only [Image.loadLines, filled, read, Record.baseAddress?, Option.getD_none]
    rfl
  | endOfFile => exact absurd rfl going
  | base address =>
    simp only [Image.loadLines, filled, read, Record.baseAddress?, Option.getD_some]
    rfl
  | start =>
    simp only [Image.loadLines, filled, read, Record.baseAddress?, Option.getD_none]
    rfl

/-- A line that fails to decode fails the whole reading. -/
theorem loadLines_cons_error (image : Image) (base : Nat) {line : List Char} {failed : HexError}
    (filled : (trimBlank line).isEmpty = false) (read : decodeChars line = .error failed)
    (rest : List (List Char)) : image.loadLines base (line :: rest) = .error failed := by
  simp only [Image.loadLines, filled, read]
  rfl

/-- The end record stops the reading, whatever lines follow. -/
theorem loadLines_cons_end (image : Image) (base : Nat) {line : List Char}
    (read : decodeChars line = .ok .endOfFile) (rest : List (List Char)) :
    image.loadLines base (line :: rest) = .ok image := by
  simp only [Image.loadLines, filled_of_decodeChars read, read]
  rfl

/-- **Reading lines after some records** fails with the first error among the lines read, and
otherwise applies the writes of all records read, those before and those of the lines. -/
theorem loadLines_reads (image : Image) (done : List Record) (lines : List (List Char)) :
    (∀ error, (image.applyWrites (dataWrites done)).loadLines (baseAfter done) lines = .error error ↔
      FirstError (readResults lines) error) ∧
    ∀ records, readResults lines = records.map .ok →
      (image.applyWrites (dataWrites done)).loadLines (baseAfter done) lines =
        .ok (image.applyWrites (dataWrites (done ++ records))) := by
  induction lines generalizing done with
  | nil =>
    refine ⟨fun error => ?_, fun records read => ?_⟩
    · simp only [Image.loadLines_nil, readResults_nil, reduceCtorEq, false_iff]
      exact not_firstError_nil error
    · rw [readResults_nil, eq_comm, List.map_eq_nil_iff] at read
      rw [read, List.append_nil, Image.loadLines_nil]
  | cons line rest ih =>
    by_cases blank : (trimBlank line).isEmpty
    · rw [Image.loadLines_cons_blank _ _ blank, readResults_cons_blank blank]
      exact ih done
    rw [Bool.not_eq_true] at blank
    cases read : decodeChars line with
    | error failed =>
      rw [readResults_cons blank (by rw [read]; rfl), read, loadLines_cons_error _ _ blank read]
      refine ⟨fun error => ?_, fun records read => ?_⟩
      · rw [firstError_cons_error, Except.error.injEq, eq_comm]
      · cases records with
        | nil => cases read
        | cons first others => cases read
    | ok record =>
      by_cases ends : record = .endOfFile
      · subst ends
        rw [readResults_cons_end read, loadLines_cons_end _ _ read]
        refine ⟨fun error => ?_, fun records read => ?_⟩
        · simp only [reduceCtorEq, false_iff, firstError_cons_ok]
          exact not_firstError_nil error
        · cases records with
          | nil => cases read
          | cons first others =>
            simp only [List.map_cons, List.cons.injEq, Except.ok.injEq] at read
            obtain ⟨rfl, none⟩ := read
            rw [eq_comm, List.map_eq_nil_iff] at none
            rw [none, dataWrites_concat, List.append_nil]
      · rw [readResults_cons blank (by rw [read]; cases record <;> simp_all [isEndRecord]), read,
          loadLines_cons_record image done read ends]
        obtain ⟨failing, succeeding⟩ := ih (done ++ [record])
        refine ⟨fun error => ?_, fun records read => ?_⟩
        · rw [firstError_cons_ok, failing]
        · cases records with
          | nil => cases read
          | cons first others =>
            simp only [List.map_cons, List.cons.injEq, Except.ok.injEq] at read
            obtain ⟨rfl, later⟩ := read
            rw [succeeding others later, List.append_assoc, List.singleton_append]

/-! ## No write runs past the address space -/

/-- A decoded record is what the type of its line names. -/
theorem exists_meaning_of_decodeChars {line : List Char} {record : Record}
    (read : decodeChars line = .ok record) :
    ∃ kind offset payload, record = meaning kind offset payload := by
  have verdict := (decodeChars_eq_iff line _).mp read
  generalize trimBlank line = chars at verdict
  cases verdict with
  | read _ _ bytes =>
    cases bytes with
    | record => exact ⟨_, _, _, rfl⟩

/-- A base record moves the base to at most 0xFFFF0000: a segment times 16 or an upper word times
65536. -/
theorem meaning_base_le {kind : UInt8} {offset : Nat} {payload : List UInt8} {address : UInt32}
    (names : meaning kind offset payload = .base address) : address.toNat ≤ 0xFFFF0000 := by
  have small : word payload ≤ 0xFFFF := by
    have := (payload.getD 0 0).toNat_lt
    have := (payload.getD 1 0).toNat_lt
    unfold word
    omega
  unfold meaning at names
  split_ifs at names
  · cases names
    simp only [Nat.toUInt32, UInt32.toNat_ofNat']
    omega
  · cases names
    simp only [Nat.toUInt32, UInt32.toNat_ofNat']
    omega

theorem base_le_of_decodeChars {line : List Char} {address : UInt32}
    (read : decodeChars line = .ok (.base address)) : address.toNat ≤ 0xFFFF0000 := by
  obtain ⟨kind, offset, payload, names⟩ := exists_meaning_of_decodeChars read
  exact meaning_base_le names.symm

/-- Every result read is the decoding of one of the lines. -/
theorem exists_line_of_mem_readResults {lines : List (List Char)}
    {result : Except HexError Record} (member : result ∈ readResults lines) :
    ∃ line ∈ lines, decodeChars line = result := by
  obtain ⟨line, kept, rfl⟩ := List.mem_map.mp (List.mem_of_mem_take member)
  exact ⟨line, List.mem_of_mem_filter kept, rfl⟩

theorem baseAfter_le {records : List Record}
    (low : ∀ address, Record.base address ∈ records → address.toNat ≤ 0xFFFF0000) :
    baseAfter records ≤ 0xFFFF0000 := by
  unfold baseAfter
  cases last : (records.filterMap Record.baseAddress?).getLast? with
  | none => simp
  | some base =>
    obtain ⟨record, member, sets⟩ := List.mem_filterMap.mp (List.mem_of_getLast? last)
    cases record with
    | base address =>
      simp only [Record.baseAddress?, Option.some.injEq] at sets
      rw [Option.getD_some, ← sets]
      exact low address member
    | _ => cases sets

/-- **No write of records runs past the address space**, when their base addresses stay below
0xFFFF0000: a data offset adds at most 0xFFFF. -/
theorem dataWrites_lt {records : List Record}
    (low : ∀ address, Record.base address ∈ records → address.toNat ≤ 0xFFFF0000) :
    ∀ write ∈ dataWrites records, write.1 < 2 ^ 32 := by
  intro write member
  obtain ⟨⟨record, index⟩, _, writes⟩ := List.mem_filterMap.mp member
  cases record with
  | data offset bytes =>
    simp only [Option.some.injEq] at writes
    rw [← writes]
    have base : baseAfter (records.take index) ≤ 0xFFFF0000 :=
      baseAfter_le fun address member => low address (List.mem_of_mem_take member)
    have := offset.toNat_lt
    omega
  | _ => cases writes

/-! ## Reading a HEX file -/

/-- **A HEX file is read record by record.** Of the lines of the text with more than blanks in
them, decoded up to and with the first end record, the first that fails is the error of the
whole file; the lines after the first end record are never looked at. When none fails, the image
is the empty image with the chunk budget after the writes of the records read: each data record's
bytes at its offset above the address of the last base record before it, 0 if none, and none of
these addresses runs past the 32-bit address space. -/
theorem ofHex_reads_records (text : String) (limit : Nat) :
    (∀ error, Image.ofHex text limit = .error error ↔
      FirstError (readResults (textLines text)) error) ∧
    ∀ records, readResults (textLines text) = records.map .ok →
      Image.ofHex text limit = .ok ((Image.empty limit).applyWrites (dataWrites records)) ∧
        ∀ write ∈ dataWrites records, write.1 < 2 ^ 32 := by
  obtain ⟨failing, succeeding⟩ := loadLines_reads (Image.empty limit) [] (textLines text)
  have start : (Image.empty limit).applyWrites (dataWrites []) = Image.empty limit := rfl
  rw [start, show baseAfter [] = 0 from rfl, ← Image.ofHex_eq_loadLines] at failing succeeding
  refine ⟨failing, fun records read => ⟨succeeding records read, dataWrites_lt ?_⟩⟩
  intro address member
  have result : Except.ok (Record.base address) ∈ readResults (textLines text) := by
    rw [read]
    exact List.mem_map_of_mem member
  obtain ⟨line, _, decoded⟩ := exists_line_of_mem_readResults result
  exact base_le_of_decodeChars decoded

/-- The file of an upper base record, a data record, the end record and a data record after it:
the last one is never read. -/
theorem ofHex_reads_records_upper :
    Image.ofHex ":020000040001F9\n:0400100001020304E2\n:00000001FF\n:0400200005060708BE\n" 16 =
      .ok ((Image.empty 16).applyWrites (dataWrites [.base 0x10000, .data 0x10 [1, 2, 3, 4], .endOfFile])) :=
  ((ofHex_reads_records _ 16).2 _ (by decide)).1

end RailBus.Firmware
