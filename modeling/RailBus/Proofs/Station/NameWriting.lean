import RailBus.Proofs.Station.Browsing
/-! # Writing a loco name

A unit writes a loco's name in five messages. The first (part 0) names the loco and its format
and starts a name of twelve zero bytes; parts 1 to 4 each write three characters, cut to seven
bits, at bytes `3 * (part - 1)` to `3 * part - 1`; part 4 also stores the entry, its name cut at
the first zero and stripped of trailing blanks. The name being written is one for the whole bus,
so parts from any unit write into it, in any order, and the last message of each part decides its
bytes (`Station.writtenByte`). Parts that come when no name is being written are dropped.

Every other request leaves the name being written alone (`Station.edit_dispatch`), so through any
run of blocks after a first part the name is the one its part messages wrote
(`Station.writtenEdit`, `Station.foldl_dispatch_writing`), and the last part stores it
(`Station.dispatch_last_part`). A name of at most twelve seven-bit characters with no zero and no
blank at its end (`Station.Writable`) is stored as written and browsed as its characters padded
with zeros (`Station.text_paddedName`, `Station.nameBytes_eq_paddedName`,
`Station.browse_written_name`). The main statement is `Station.name_writing_round_trips`.
-/

namespace RailBus

open Septets

namespace Block

/-- The name part a block carries with its data bytes: a request from a unit slot for one of the
five parts. -/
def namePart? (block : Block) : Option (Fin 5 × Vector UInt8 6) :=
  match block.unit?, UnitRequest.ofCode? block.command with
  | some _, some (.nameData part) => some (part, block.data)
  | _, _ => none

theorem namePart?_eq_some {block : Block} {part : Fin 5} {data : Vector UInt8 6}
    (carries : block.namePart? = some (part, data)) :
    ∃ unit, block.unit? = some unit ∧
      UnitRequest.ofCode? block.command = some (.nameData part) ∧ data = block.data := by
  unfold namePart? at carries
  split at carries
  · rename_i unit requested found decoded
    simp only [Option.some.injEq, Prod.mk.injEq] at carries
    obtain ⟨rfl, rfl⟩ := carries
    exact ⟨unit, found, decoded, rfl⟩
  · cases carries

end Block

/-- The characters without their blank tail are all of them when the last is not blank. -/
theorem Text.trimBlankEnd_of_getLast? {chars : List Char}
    (solid : ∀ char ∈ chars.getLast?, Text.isBlank char = false) :
    Text.trimBlankEnd chars = chars := by
  unfold Text.trimBlankEnd
  cases reversed : chars.reverse with
  | nil =>
    rw [List.reverse_eq_nil_iff.mp reversed]
    rfl
  | cons last rest =>
    have ending : last ∈ chars.getLast? := by
      rw [← List.head?_reverse, reversed]
      rfl
    rw [List.dropWhile_cons_of_neg (by simp [solid last ending]), ← reversed, List.reverse_reverse]

namespace Station

variable {σ : Type}

/-! ## The name being written, through the other requests -/

section Edit

variable {station : Station σ}

@[simp]
theorem edit_send (block : Block) : (station.send block).edit = station.edit := rfl

theorem edit_foldl_send (parts : List Nat) (blockOf : Nat → Block) :
    (parts.foldl (fun station part => station.send (blockOf part)) station).edit =
      station.edit := by
  induction parts generalizing station with
  | nil => rfl
  | cons part parts ih => exact ih

theorem edit_sendState (unit : UInt8) (loco : UInt16) (state : LocoState) :
    (station.sendState unit loco state).edit = station.edit := by
  unfold sendState
  split
  dsimp only
  split <;> rfl

theorem edit_assign (serial : UInt32) : (station.assign serial).edit = station.edit := by
  unfold assign
  split <;> rfl

theorem edit_onEcho (data : Vector UInt8 6) : (station.onEcho data).edit = station.edit := by
  rcases station.onEcho_cases data with
    same | ⟨probe, -, ⟨-, echoed⟩ | ⟨-, echoed⟩ | ⟨serial, -, echoed⟩⟩
  · rw [same]
  · rw [echoed]
  · rw [echoed]
  · rw [echoed, edit_assign]

variable [Layout σ]

theorem edit_sendLoco (unit : UInt8) (loco : UInt16) :
    (station.sendLoco unit loco).edit = station.edit := by
  unfold sendLoco
  split
  · exact edit_sendState unit loco _
  · rfl

theorem edit_onTake (unit : UInt8) (loco : UInt16) :
    (station.onTake unit loco).edit = station.edit := by
  unfold onTake
  rw [ask_eq]
  cases (Layout.takeControl station.layout loco).1 <;> simp only [edit_sendState, edit_send]

theorem edit_onBrowse (unit : UInt8) (step : Browse) (index : UInt16) :
    (station.onBrowse unit step index).edit = station.edit := by
  unfold onBrowse
  rw [ite_delete_eq_browsedLayout]
  dsimp only
  split
  · rfl
  · split
    · rfl
    · exact edit_foldl_send _ _

theorem edit_configure (data : Vector UInt8 6) :
    (station.configure data).2.edit = station.edit := by
  unfold configure
  dsimp only
  split
  all_goals first
    | rfl
    | split <;> rfl

/-- **Only name parts touch the name being written.** -/
theorem edit_handle (unit : UInt8) {request : UnitRequest} (data : Vector UInt8 6)
    (other : ∀ part, request ≠ .nameData part) :
    (station.handle unit request data).edit = station.edit := by
  unfold handle
  cases request
  all_goals dsimp only
  case nameData part => exact absurd rfl (other part)
  case locoTake => exact edit_onTake unit _
  case tractionCouple =>
    rw [ask_eq]
    cases (Layout.couple station.layout _ _).1 <;> simp only [edit_sendLoco, edit_send]
  case tractionClear =>
    rw [ask_eq]
    cases (Layout.uncouple station.layout _).1 <;> simp only [edit_sendLoco]
  case browse step => exact edit_onBrowse unit step _
  case probeEcho => exact edit_onEcho data
  case configure =>
    have configured : (station.configure data).2.edit = station.edit := edit_configure data
    split <;> rename_i answer <;> rw [answer] at configured <;> exact configured
  case mode => split <;> rfl
  case locoRelease => split <;> rfl
  case locoSpeed =>
    unfold discardStale
    rcases station.table.consumeBlocked unit with ⟨table, _ | _⟩ <;> rfl
  case locoFunc =>
    unfold discardStale
    split
    · rfl
    · rcases station.table.consumeBlocked unit with ⟨table, _ | _⟩ <;> rfl
  all_goals rfl

theorem edit_dispatch {block : Block} (other : block.namePart? = none) :
    (station.dispatch block).edit = station.edit := by
  unfold dispatch
  split
  · rename_i unit found
    dsimp only
    split
    · rename_i request decoded
      apply edit_handle
      intro part named
      subst named
      simp [Block.namePart?, found, decoded] at other
    · rfl
  · split
    · exact edit_onEcho _
    · rfl

end Edit

/-! ## The bytes the parts write -/

/-- **Byte `index` of the name the part messages `parts` write.** The byte belongs to part
`index / 3 + 1`; the last message of that part writes it, cut to seven bits, and a byte that no
message wrote is zero. -/
def writtenByte (parts : List (Fin 5 × Vector UInt8 6)) (index : Nat) : UInt8 :=
  match (parts.filter fun message => message.1.val == index / 3 + 1).getLast? with
  | some message => message.2.toList.getD (index % 3) 0 &&& 0x7f
  | none => 0

/-- The twelve name bytes the part messages `parts` write. -/
def writtenName (parts : List (Fin 5 × Vector UInt8 6)) : List UInt8 :=
  (List.range nameLength).map (writtenByte parts)

@[simp]
theorem writtenByte_nil (index : Nat) : writtenByte [] index = 0 := rfl

/-- A further message decides the bytes of its own part and leaves the others. -/
theorem writtenByte_concat (parts : List (Fin 5 × Vector UInt8 6)) (part : Fin 5)
    (data : Vector UInt8 6) (index : Nat) :
    writtenByte (parts ++ [(part, data)]) index =
      if part.val = index / 3 + 1 then data.toList.getD (index % 3) 0 &&& 0x7f
      else writtenByte parts index := by
  unfold writtenByte
  rw [List.filter_append]
  by_cases own : part.val = index / 3 + 1
  · simp [own]
  · simp [own]

/-- The same, with the part's bytes named by the range `3 * (part - 1)` to `3 * part - 1` they
cover; part 0 covers none. -/
theorem writtenByte_append_part (parts : List (Fin 5 × Vector UInt8 6)) (part : Fin 5)
    (data : Vector UInt8 6) (index : Nat) :
    writtenByte (parts ++ [(part, data)]) index =
      if 3 * (part.val - 1) ≤ index ∧ index < 3 * part.val then
        data.toList.getD (index - 3 * (part.val - 1)) 0 &&& 0x7f
      else writtenByte parts index := by
  rw [writtenByte_concat]
  by_cases own : part.val = index / 3 + 1
  · have covered : 3 * (part.val - 1) ≤ index ∧ index < 3 * part.val := by omega
    have lane : index - 3 * (part.val - 1) = index % 3 := by omega
    rw [if_pos own, if_pos covered, lane]
  · have outside : ¬ (3 * (part.val - 1) ≤ index ∧ index < 3 * part.val) := by omega
    rw [if_neg own, if_neg outside]

/-- The name bytes after a write of `chars` from `offset` on. -/
theorem get_write (edit : NameEdit) (offset : Nat) (chars : List UInt8) (index : Fin nameLength) :
    (edit.write offset chars).name.get index =
      if offset ≤ index.val then chars.getD (index.val - offset) (edit.name.get index)
      else edit.name.get index := by
  simp only [NameEdit.write, Vector.get_ofFn]

/-- **Writing a part's characters where they belong** keeps the name equal to what the part
messages wrote, the new message last. -/
theorem get_write_part {edit : NameEdit} {parts : List (Fin 5 × Vector UInt8 6)}
    (bytes : ∀ index : Fin nameLength, edit.name.get index = writtenByte parts index.val)
    {part : Fin 5} (low : part.val ≠ 0) (data : Vector UInt8 6) (index : Fin nameLength) :
    (edit.write (3 * (part.val - 1))
        [data.get 0 &&& 0x7f, data.get 1 &&& 0x7f, data.get 2 &&& 0x7f]).name.get index =
      writtenByte (parts ++ [(part, data)]) index.val := by
  rw [get_write, writtenByte_concat, ← bytes index]
  have below := index.isLt
  simp only [nameLength] at below
  by_cases own : part.val = index.val / 3 + 1
  · -- the byte is the part's, at the position the remainder names
    have offset : 3 * (part.val - 1) ≤ index.val := by omega
    have position : index.val - 3 * (part.val - 1) = index.val % 3 := by omega
    rw [if_pos offset, if_pos own, position]
    have lane : index.val % 3 < 3 := Nat.mod_lt _ (by decide)
    interval_cases (index.val % 3) <;> simp [List.getD_eq_getElem?_getD]
  · -- another part's byte lies before the write or past its three characters
    rw [if_neg own]
    split
    · rw [List.getD_eq_default _ _ (by simp only [List.length_cons, List.length_nil]; omega)]
    · rfl

/-- **The name being written** after part 0 named loco `loco` in format `format` and the part
messages `parts` followed. -/
def writtenEdit (loco : UInt16) (format : Format) (parts : List (Fin 5 × Vector UInt8 6)) :
    NameEdit :=
  { loco, format, name := Vector.ofFn fun index => writtenByte parts index.val }

theorem writtenEdit_nil (loco : UInt16) (format : Format) :
    writtenEdit loco format [] = { loco, format, name := Vector.replicate nameLength 0 } :=
  rfl

theorem write_writtenEdit (loco : UInt16) (format : Format) (parts : List (Fin 5 × Vector UInt8 6))
    {part : Fin 5} (low : part.val ≠ 0) (data : Vector UInt8 6) :
    (writtenEdit loco format parts).write (3 * (part.val - 1))
        [data.get 0 &&& 0x7f, data.get 1 &&& 0x7f, data.get 2 &&& 0x7f] =
      writtenEdit loco format (parts ++ [(part, data)]) := by
  have bytes : ∀ index : Fin nameLength,
      (writtenEdit loco format parts).name.get index = writtenByte parts index.val :=
    fun index => Vector.get_ofFn _ index
  have written := get_write_part bytes low data
  unfold writtenEdit at written ⊢
  unfold NameEdit.write at written ⊢
  congr 1
  apply Vector.ext
  intro index below
  simpa using written ⟨index, below⟩

theorem toList_name_writtenEdit (loco : UInt16) (format : Format)
    (parts : List (Fin 5 × Vector UInt8 6)) :
    (writtenEdit loco format parts).name.toList = writtenName parts := by
  apply List.ext_getElem
  · simp [writtenEdit, writtenName]
  · intro index below _
    simp [writtenEdit, writtenName]

theorem text_writtenEdit (loco : UInt16) (format : Format) (parts : List (Fin 5 × Vector UInt8 6)) :
    (writtenEdit loco format parts).text = String.ofList (Text.trimBlankEnd
      (((writtenName parts).takeWhile (· ≠ 0)).map fun byte => Char.ofNat byte.toNat)) := by
  unfold NameEdit.text
  rw [toList_name_writtenEdit]

/-! ## Names that read back as written -/

/-- **A name that survives writing**: at most twelve characters, each of seven bits and not
zero, the last of them not blank. -/
structure Writable (name : String) : Prop where
  short : name.length ≤ nameLength
  sevenBit : ∀ char ∈ name.toList, 0 < char.toNat ∧ char.toNat < 0x80
  unpadded : ∀ char ∈ name.toList.getLast?, Text.isBlank char = false

instance (name : String) : Decidable (Writable name) :=
  decidable_of_iff (name.length ≤ nameLength ∧
      (∀ char ∈ name.toList, 0 < char.toNat ∧ char.toNat < 0x80) ∧
      ∀ char ∈ name.toList.getLast?, Text.isBlank char = false)
    ⟨fun ⟨short, sevenBit, unpadded⟩ => ⟨short, sevenBit, unpadded⟩,
      fun ⟨short, sevenBit, unpadded⟩ => ⟨short, sevenBit, unpadded⟩⟩

/-- The twelve bytes of a name of seven-bit characters: its characters, then zeros. -/
def paddedName (name : String) : List UInt8 :=
  name.toList.map (fun char => char.toNat.toUInt8) ++ List.replicate (nameLength - name.length) 0

theorem utf8EncodeChar_of_lt {char : Char} (below : char.toNat < 0x80) :
    String.utf8EncodeChar char = [char.toNat.toUInt8] := by
  have small : char.val.toNat ≤ 0x7f := by
    rw [← Char.toNat_val] at below
    omega
  unfold String.utf8EncodeChar
  rw [if_pos small]
  rfl

theorem toNat_toUInt8_char {char : Char} (below : char.toNat < 0x80) :
    char.toNat.toUInt8.toNat = char.toNat := by
  simp only [Nat.toUInt8, UInt8.toNat_ofNat']
  omega

/-- **The bytes browsing sends for a writable name** are its characters padded with zeros. -/
theorem nameBytes_eq_paddedName {name : String} (writable : Writable name) :
    nameBytes name = paddedName name := by
  have encoded : name.toList.flatMap String.utf8EncodeChar =
      name.toList.map fun char => char.toNat.toUInt8 := by
    rw [List.flatMap_congr fun char member =>
      utf8EncodeChar_of_lt (writable.sevenBit char member).2, List.map_eq_flatMap]
  have short : (name.toList.map fun char => char.toNat.toUInt8).length ≤ nameLength := by
    rw [List.length_map, String.length_toList]
    exact writable.short
  unfold nameBytes paddedName
  dsimp only
  rw [encoded, List.take_of_length_le short, List.map_map, List.length_map, String.length_toList]
  congr 1
  apply List.map_congr_left
  intro char member
  have below := (writable.sevenBit char member).2
  apply UInt8.toNat_inj.mp
  rw [Function.comp_apply, toNat_and_low, toNat_toUInt8_char below]
  omega

/-- **A writable name is stored as written** from its padded bytes: the cut at the first zero
keeps its characters and the trim finds no blank tail. -/
theorem text_paddedName {name : String} (writable : Writable name) :
    String.ofList (Text.trimBlankEnd (((paddedName name).takeWhile (· ≠ 0)).map
      fun byte => Char.ofNat byte.toNat)) = name := by
  have solid : ∀ byte ∈ name.toList.map (fun char => char.toNat.toUInt8),
      decide (byte ≠ 0) = true := by
    simp only [List.mem_map, decide_eq_true_eq]
    rintro byte ⟨char, member, rfl⟩ zero
    have positive := writable.sevenBit char member
    have read := congrArg UInt8.toNat zero
    rw [toNat_toUInt8_char positive.2] at read
    simp only [UInt8.toNat_zero] at read
    omega
  have read : ∀ char ∈ name.toList, Char.ofNat (char.toNat.toUInt8.toNat) = char := by
    intro char member
    rw [toNat_toUInt8_char (writable.sevenBit char member).2, Char.ofNat_toNat]
  have zeros : (List.replicate (nameLength - name.length) (0 : UInt8)).takeWhile
      (fun byte => decide (byte ≠ 0)) = [] := by
    rw [List.takeWhile_replicate, if_neg (by decide)]
  have chars : (name.toList.map fun char => char.toNat.toUInt8).map
      (fun byte => Char.ofNat byte.toNat) = name.toList := by
    rw [List.map_map]
    exact (List.map_congr_left read).trans (List.map_id' _)
  unfold paddedName
  rw [List.takeWhile_append_of_pos solid, zeros, List.append_nil, chars,
    Text.trimBlankEnd_of_getLast? writable.unpadded, String.ofList_toList]

/-- The data of the character part after `part` earlier ones, for a name of bytes `bytes`: its
bytes `3 * part` to `3 * part + 2`. -/
def nameChunk (bytes : List UInt8) (part : Nat) : Vector UInt8 6 :=
  dataOf ((bytes.drop (3 * part)).take 3)

theorem getD_nameChunk (bytes : List UInt8) (part : Nat) {lane : Nat} (below : lane < 3) :
    (nameChunk bytes part).toList.getD lane 0 = bytes.getD (3 * part + lane) 0 := by
  rw [List.getD_eq_getElem _ _ (by simp only [Vector.length_toList]; omega), Vector.getElem_toList,
    nameChunk, getElem_dataOf _ _ (by omega)]
  simp only [List.getD_eq_getElem?_getD, List.getElem?_take, if_pos below, List.getElem?_drop]

/-- **The four character parts of a name, in order, write its bytes** when there are twelve of
them, each of seven bits. -/
theorem writtenName_nameChunk {bytes : List UInt8} (length : bytes.length = nameLength)
    (sevenBit : ∀ byte ∈ bytes, byte < 0x80) :
    writtenName [(1, nameChunk bytes 0), (2, nameChunk bytes 1), (3, nameChunk bytes 2),
      (4, nameChunk bytes 3)] = bytes := by
  apply List.ext_getElem
  · simp [writtenName, length]
  · intro index below _
    simp only [writtenName, List.length_map, List.length_range] at below
    simp only [writtenName, List.getElem_map, List.getElem_range]
    have part : index / 3 < 4 := by simp only [nameLength] at below; omega
    have lane : index % 3 < 3 := Nat.mod_lt _ (by decide)
    have byte := getD_nameChunk bytes (index / 3) lane
    rw [Nat.div_add_mod, List.getD_eq_getElem bytes 0 (by omega)] at byte
    have small := sevenBit _ (List.getElem_mem (by omega : index < bytes.length))
    -- the part holding the byte is the only message that writes it
    have chosen : writtenByte [(1, nameChunk bytes 0), (2, nameChunk bytes 1),
        (3, nameChunk bytes 2), (4, nameChunk bytes 3)] index =
        (nameChunk bytes (index / 3)).toList.getD (index % 3) 0 &&& 0x7f := by
      interval_cases split : index / 3 <;> simp [writtenByte, split]
    rw [chosen, byte]
    apply UInt8.toNat_inj.mp
    rw [toNat_and_low]
    rw [UInt8.lt_iff_toNat_lt] at small
    exact Nat.mod_eq_of_lt small

theorem length_paddedName {name : String} (writable : Writable name) :
    (paddedName name).length = nameLength := by
  have short := writable.short
  simp only [paddedName, List.length_append, List.length_map, String.length_toList,
    List.length_replicate]
  omega

theorem lt_of_mem_paddedName {name : String} (writable : Writable name) :
    ∀ byte ∈ paddedName name, byte < 0x80 := by
  intro byte member
  simp only [paddedName, List.mem_append, List.mem_map, List.mem_replicate] at member
  rcases member with ⟨char, member, rfl⟩ | ⟨-, rfl⟩
  · rw [UInt8.lt_iff_toNat_lt, toNat_toUInt8_char (writable.sevenBit char member).2]
    exact (writable.sevenBit char member).2
  · decide

/-! ## A name through a run of blocks -/

variable [Layout σ]

theorem handle_nameData (station : Station σ) (unit : UInt8) (part : Fin 5)
    (data : Vector UInt8 6) :
    station.handle unit (.nameData part) data = station.onName part data :=
  rfl

theorem dispatch_of_namePart (station : Station σ) {block : Block} {part : Fin 5}
    {data : Vector UInt8 6} (carries : block.namePart? = some (part, data)) :
    ∃ unit, station.dispatch block = (station.touchUnit unit).onName part data := by
  obtain ⟨unit, addressed, decoded, rfl⟩ := Block.namePart?_eq_some carries
  refine ⟨unit, ?_⟩
  rw [dispatch_of_request addressed decoded, handle_nameData]

variable {station : Station σ} {block : Block} {data : Vector UInt8 6}

/-- A name part sends nothing. -/
theorem bus_dispatch_namePart {part : Fin 5} (carries : block.namePart? = some (part, data)) :
    (station.dispatch block).bus = station.bus := by
  obtain ⟨unit, handled⟩ := dispatch_of_namePart station carries
  rw [handled]
  unfold onName
  split
  · rfl
  · split
    · rfl
    · split <;> rfl

/-- **A first part starts the name** of the loco it names, all zero, and leaves the layout. -/
theorem dispatch_first_part (station : Station σ) (carries : block.namePart? = some (0, data)) :
    (station.dispatch block).edit =
        some (writtenEdit (join14 (data.get 0) (data.get 1)) (Format.ofByte (data.get 2)) []) ∧
      (station.dispatch block).layout = station.layout := by
  obtain ⟨unit, handled⟩ := dispatch_of_namePart station carries
  rw [handled, writtenEdit_nil]
  exact ⟨rfl, rfl⟩

/-- **A middle part writes its three characters** into the name being written. -/
theorem dispatch_middle_part {loco : UInt16} {format : Format}
    {parts : List (Fin 5 × Vector UInt8 6)} {part : Fin 5} (editing : station.edit = some (writtenEdit loco format parts))
    (carries : block.namePart? = some (part, data)) (low : part.val ≠ 0) (high : part.val < 4) :
    (station.dispatch block).edit = some (writtenEdit loco format (parts ++ [(part, data)])) ∧
      (station.dispatch block).layout = station.layout := by
  obtain ⟨unit, handled⟩ := dispatch_of_namePart station carries
  rw [handled]
  unfold onName
  rw [if_neg low, touchUnit_edit, editing]
  dsimp only
  rw [if_pos high, write_writtenEdit loco format parts low data]
  exact ⟨rfl, rfl⟩

/-- **The last part stores the entry** the name being written makes, and ends the edit. -/
theorem dispatch_last_part {loco : UInt16} {format : Format} {parts : List (Fin 5 × Vector UInt8 6)}
    (editing : station.edit = some (writtenEdit loco format parts))
    (carries : block.namePart? = some (4, data)) :
    (station.dispatch block).edit = none ∧
      (station.dispatch block).layout = Layout.storeEntry station.layout
        { loco, format, name := (writtenEdit loco format (parts ++ [(4, data)])).text } := by
  obtain ⟨unit, handled⟩ := dispatch_of_namePart station carries
  rw [handled]
  unfold onName
  rw [if_neg (by decide), touchUnit_edit, editing]
  dsimp only
  rw [if_neg (by decide), write_writtenEdit loco format parts (by decide) data]
  exact ⟨rfl, rfl⟩

/-- A part other than the first, while no name is being written, is dropped. -/
theorem dispatch_orphan_part {part : Fin 5} (idle : station.edit = none)
    (carries : block.namePart? = some (part, data)) (low : part.val ≠ 0) :
    (station.dispatch block).edit = none ∧ (station.dispatch block).layout = station.layout := by
  obtain ⟨unit, handled⟩ := dispatch_of_namePart station carries
  rw [handled]
  unfold onName
  rw [if_neg low, touchUnit_edit, idle]
  exact ⟨idle, rfl⟩

/-- **Through a run of blocks with no first or last part**, the name being written gains the
part messages of the run, in order. -/
theorem foldl_dispatch_writing {loco : UInt16} {format : Format}
    {parts : List (Fin 5 × Vector UInt8 6)} (blocks : List Block)
    (middle : ∀ block ∈ blocks, ∀ message ∈ block.namePart?, message.1.val ≠ 0 ∧ message.1.val < 4)
    (editing : station.edit = some (writtenEdit loco format parts)) :
    (blocks.foldl dispatch station).edit =
      some (writtenEdit loco format (parts ++ blocks.filterMap Block.namePart?)) := by
  induction blocks generalizing station parts with
  | nil => simpa using editing
  | cons block blocks ih =>
    have rest := fun later member => middle later (List.mem_cons_of_mem block member)
    rw [List.foldl_cons]
    cases carries : block.namePart? with
    | none =>
      rw [List.filterMap_cons_none carries]
      exact ih rest (by rw [edit_dispatch carries, editing])
    | some message =>
      obtain ⟨part, data⟩ := message
      obtain ⟨low, high⟩ := middle block List.mem_cons_self (part, data) carries
      rw [List.filterMap_cons_some carries, List.append_cons]
      exact ih rest (dispatch_middle_part editing carries low high).1

/-- **While no name is being written**, a run of blocks with no first part starts none. -/
theorem foldl_dispatch_idle (blocks : List Block)
    (unnamed : ∀ block ∈ blocks, ∀ message ∈ block.namePart?, message.1.val ≠ 0)
    (idle : station.edit = none) : (blocks.foldl dispatch station).edit = none := by
  induction blocks generalizing station with
  | nil => exact idle
  | cons block blocks ih =>
    rw [List.foldl_cons]
    apply ih fun later member => unnamed later (List.mem_cons_of_mem block member)
    cases carries : block.namePart? with
    | none => rw [edit_dispatch carries, idle]
    | some message =>
      obtain ⟨part, data⟩ := message
      exact (dispatch_orphan_part idle carries (unnamed block List.mem_cons_self _ carries)).1

/-- **Writing a name in five parts**, the first part and then parts one to four in order, stores
the entry those parts make, ends the edit and sends nothing. -/
theorem foldl_dispatch_name (station : Station σ) {first second third fourth fifth : Block}
    {named one two three four : Vector UInt8 6}
    (starts : first.namePart? = some (0, named)) (writesOne : second.namePart? = some (1, one))
    (writesTwo : third.namePart? = some (2, two)) (writesThree : fourth.namePart? = some (3, three))
    (writesFour : fifth.namePart? = some (4, four)) :
    let written := [first, second, third, fourth, fifth].foldl dispatch station
    written.edit = none ∧ written.bus = station.bus ∧
      written.layout = Layout.storeEntry station.layout
        { loco := join14 (named.get 0) (named.get 1), format := Format.ofByte (named.get 2),
          name := (writtenEdit (join14 (named.get 0) (named.get 1)) (Format.ofByte (named.get 2))
            [(1, one), (2, two), (3, three), (4, four)]).text } := by
  intro written
  obtain ⟨editOne, layoutOne⟩ := dispatch_first_part station starts
  obtain ⟨editTwo, layoutTwo⟩ := dispatch_middle_part editOne writesOne (by decide) (by decide)
  obtain ⟨editThree, layoutThree⟩ := dispatch_middle_part editTwo writesTwo (by decide) (by decide)
  obtain ⟨editFour, layoutFour⟩ :=
    dispatch_middle_part editThree writesThree (by decide) (by decide)
  obtain ⟨editFive, layoutFive⟩ := dispatch_last_part editFour writesFour
  simp only [List.nil_append, List.cons_append] at editFive layoutFive
  simp only [written, List.foldl_cons, List.foldl_nil]
  refine ⟨editFive, ?_, ?_⟩
  · rw [bus_dispatch_namePart writesFour, bus_dispatch_namePart writesThree,
      bus_dispatch_namePart writesTwo, bus_dispatch_namePart writesOne,
      bus_dispatch_namePart starts]
  · rw [layoutFive, layoutFour, layoutThree, layoutTwo, layoutOne]

end Station

/-- The in-memory layout lists a stored entry last, one past the entries it had. -/
theorem Store.locoEntry_storeEntry (store : Store) (entry : LocoEntry) {index : UInt16}
    (last : index.toNat = store.entries.length + 1) :
    (store.storeEntry entry).locoEntry index = some entry := by
  have nonzero : index ≠ 0 := by
    intro zero
    rw [zero, UInt16.toNat_zero] at last
    omega
  unfold Store.locoEntry Store.storeEntry
  rw [if_neg nonzero, last, Nat.add_sub_cancel]
  exact List.getElem?_concat_length

/-- The in-memory layout counts a stored entry with the others. -/
theorem Store.toNat_locoCount_storeEntry (store : Store) (entry : LocoEntry)
    (room : store.entries.length + 1 + store.extraCount < 2 ^ 16) :
    (Layout.locoCount (Layout.storeEntry store entry)).toNat =
      store.entries.length + 1 + store.extraCount := by
  show (Store.locoCount (Store.storeEntry store entry)).toNat = _
  simp only [Store.locoCount, Store.storeEntry, Store.log, List.length_append,
    List.length_singleton, Nat.toUInt16, UInt16.toNat_ofNat']
  omega

namespace Station

/-- **A written name is browsed as written.** On the in-memory layout, a name of at most twelve
seven-bit characters with no zero and no blank at its end, written in a first part and then its
four character parts in order, is shown by a select of the index one past the entries there were,
with the loco and format of the first part and the name itself. -/
theorem browse_written_name (station : Station Store)
    {first second third fourth fifth select : Block}
    {unit : UInt8} {named : Vector UInt8 6} {name : String} (writable : Writable name)
    (starts : first.namePart? = some (0, named))
    (writesOne : second.namePart? = some (1, nameChunk (paddedName name) 0))
    (writesTwo : third.namePart? = some (2, nameChunk (paddedName name) 1))
    (writesThree : fourth.namePart? = some (3, nameChunk (paddedName name) 2))
    (writesFour : fifth.namePart? = some (4, nameChunk (paddedName name) 3))
    (addressed : select.unit? = some unit)
    (decoded : UnitRequest.ofCode? select.command = some (.browse .select))
    (indexed : (join14 (select.data.get 0) (select.data.get 1)).toNat =
      station.layout.entries.length + 1)
    (room : station.layout.entries.length + 1 + station.layout.extraCount < 2 ^ 16) :
    ([first, second, third, fourth, fifth, select].foldl dispatch station).bus.sent =
      station.bus.sent ++ browseReplies unit (join14 (select.data.get 0) (select.data.get 1))
        (some
          { loco := join14 (named.get 0) (named.get 1), format := Format.ofByte (named.get 2),
            name }) := by
  obtain ⟨-, bus, layout⟩ :=
    foldl_dispatch_name station starts writesOne writesTwo writesThree writesFour
  rw [text_writtenEdit, writtenName_nameChunk (length_paddedName writable)
    (lt_of_mem_paddedName writable), text_paddedName writable] at layout
  have unfolded : [first, second, third, fourth, fifth, select].foldl dispatch station =
      ([first, second, third, fourth, fifth].foldl dispatch station).dispatch select := rfl
  rw [unfolded]
  generalize [first, second, third, fourth, fifth].foldl dispatch station = written at bus layout ⊢
  rw [dispatch_of_request addressed decoded, handle_browse]
  generalize join14 (select.data.get 0) (select.data.get 1) = index at indexed ⊢
  rw [sent_onBrowse, touchUnit_bus, bus]
  -- the stored entry is one past the others, so the select shows it at the index asked for
  have counted := fun entry => Store.toNat_locoCount_storeEntry station.layout entry room
  have nonzero : ∀ entry : LocoEntry,
      Layout.locoCount (Layout.storeEntry station.layout entry) ≠ 0 := by
    intro entry zero
    have count := counted entry
    rw [zero, UInt16.toNat_zero] at count
    omega
  have shown : ∀ entry : LocoEntry,
      browseIndex .select index (Layout.locoCount (Layout.storeEntry station.layout entry)) =
        index :=
    fun entry => browseIndex_of_mem ⟨by decide, by decide⟩ (by omega) (by rw [counted]; omega)
  have found : ∀ entry : LocoEntry,
      Layout.locoEntry (Layout.storeEntry station.layout entry) index = some entry :=
    fun entry => Store.locoEntry_storeEntry station.layout entry indexed
  simp only [touchUnit_layout, browsedLayout_of_ne (by decide : Browse.select ≠ .delete), layout,
    nonzero, if_false, shown, found]

/-- **Writing loco names.** After a first part, naming a loco and a format, and any blocks with
no first or last part among them, the first last part stores one entry, with that loco and format
and the name the part messages wrote cut at its first zero and stripped of its blank tail, and
ends the edit. The twelve name bytes start at zero and each part message writes the bytes of its
part, cut to seven bits, the last message of a part deciding them, whichever unit sent it. While
no name is being written, a part other than the first stores nothing and starts nothing, and no
block but a first part starts a name. A name of at most twelve seven-bit characters, none zero
and the last not blank, written in its five parts on the in-memory layout, is browsed at the index
one past the entries there were as the loco and format named and the name itself, its four name
parts carrying its characters padded with zeros. -/
theorem name_writing_round_trips :
    (∀ {σ : Type} [Layout σ] (station : Station σ) (first last : Block) (middle : List Block)
      (named written : Vector UInt8 6),
      first.namePart? = some (0, named) →
      (∀ block ∈ middle, ∀ message ∈ block.namePart?, message.1.val ≠ 0 ∧ message.1.val < 4) →
      last.namePart? = some (4, written) →
      let before := middle.foldl dispatch (station.dispatch first)
      (before.dispatch last).edit = none ∧
        (before.dispatch last).layout = Layout.storeEntry before.layout
          { loco := join14 (named.get 0) (named.get 1), format := Format.ofByte (named.get 2),
            name := String.ofList (Text.trimBlankEnd
              (((writtenName (middle.filterMap Block.namePart? ++ [(4, written)])).takeWhile
                (· ≠ 0)).map fun byte => Char.ofNat byte.toNat)) }) ∧
    (∀ index, writtenByte [] index = 0) ∧
    (∀ (parts : List (Fin 5 × Vector UInt8 6)) (part : Fin 5) (data : Vector UInt8 6) (index : Nat),
      writtenByte (parts ++ [(part, data)]) index =
        if 3 * (part.val - 1) ≤ index ∧ index < 3 * part.val then
          data.toList.getD (index - 3 * (part.val - 1)) 0 &&& 0x7f
        else writtenByte parts index) ∧
    (∀ {σ : Type} [Layout σ] (station : Station σ) (block : Block) (part : Fin 5)
      (data : Vector UInt8 6),
      station.edit = none → block.namePart? = some (part, data) → part.val ≠ 0 →
      (station.dispatch block).edit = none ∧ (station.dispatch block).layout = station.layout) ∧
    (∀ {σ : Type} [Layout σ] (station : Station σ) (blocks : List Block),
      station.edit = none → (∀ block ∈ blocks, ∀ message ∈ block.namePart?, message.1.val ≠ 0) →
      (blocks.foldl dispatch station).edit = none) ∧
    (∀ (station : Station Store) (first second third fourth fifth select : Block) (unit : UInt8)
      (named : Vector UInt8 6) (name : String),
      Writable name → first.namePart? = some (0, named) →
      second.namePart? = some (1, nameChunk (paddedName name) 0) →
      third.namePart? = some (2, nameChunk (paddedName name) 1) →
      fourth.namePart? = some (3, nameChunk (paddedName name) 2) →
      fifth.namePart? = some (4, nameChunk (paddedName name) 3) →
      select.unit? = some unit → UnitRequest.ofCode? select.command = some (.browse .select) →
      (join14 (select.data.get 0) (select.data.get 1)).toNat = station.layout.entries.length + 1 →
      station.layout.entries.length + 1 + station.layout.extraCount < 2 ^ 16 →
      ([first, second, third, fourth, fifth, select].foldl dispatch station).bus.sent =
        station.bus.sent ++ browseReplies unit (join14 (select.data.get 0) (select.data.get 1))
          (some
            { loco := join14 (named.get 0) (named.get 1), format := Format.ofByte (named.get 2),
              name })) ∧
    (∀ (unit : UInt8) (name : String), Writable name →
      nameParts unit name = (List.range 4).map fun part => Block.toUnit unit Code.dbName
        (dataOf (part.toUInt8 :: ((paddedName name).drop (3 * part)).take 3))) := by
  refine ⟨?_, writtenByte_nil, writtenByte_append_part, ?_, ?_, ?_, ?_⟩
  · intro σ _ station first last middle named written starts middleParts ends
    have editing := foldl_dispatch_writing middle middleParts (dispatch_first_part station starts).1
    rw [List.nil_append] at editing
    rw [← text_writtenEdit]
    exact dispatch_last_part editing ends
  · intro σ _ station block part data idle carries low
    exact dispatch_orphan_part idle carries low
  · intro σ _ station blocks idle unnamed
    exact foldl_dispatch_idle blocks unnamed idle
  · intro station first second third fourth fifth select unit named name writable starts writesOne
      writesTwo writesThree writesFour addressed decoded indexed room
    exact browse_written_name station writable starts writesOne writesTwo writesThree writesFour
      addressed decoded indexed room
  · intro unit name writable
    rw [nameParts, nameBytes_eq_paddedName writable]

/-- Unit 3 names loco 218, of the 28-step format, "BR 218" on a fresh station and selects the
first entry: it is shown the loco, its format and the name it wrote. -/
theorem name_writing_round_trips_fresh :
    let station := Station.new ({} : Store) {}
    let name := "BR 218"
    let select := Block.toUnit 3 0x30 (dataOf [0, 1])
    ([Block.toUnit 3 0x34 (dataOf [1, 90, 1]), Block.toUnit 3 0x35 (nameChunk (paddedName name) 0),
        Block.toUnit 3 0x36 (nameChunk (paddedName name) 1),
        Block.toUnit 3 0x37 (nameChunk (paddedName name) 2),
        Block.toUnit 3 0x38 (nameChunk (paddedName name) 3), select].foldl dispatch station).bus.sent =
      station.bus.sent ++ browseReplies 3 1 (some { loco := 218, format := .dcc28, name }) := by
  intro station name select
  have chars : name.toList = ['B', 'R', ' ', '2', '1', '8'] := by simp [name]
  have writable : Writable name := by
    constructor
    · rw [← String.length_toList, chars]; decide
    · rw [chars]; simp
    · rw [chars]; simp [Text.isBlank]
  -- a part message of unit 3 carries its data, whatever the data
  have carries (code : UInt8) (part : Fin 5)
      (decoded : UnitRequest.ofCode? code = some (.nameData part)) (data : Vector UInt8 6) :
      (Block.toUnit 3 code data).namePart? = some (part, data) := by
    have addressed : (Block.toUnit 3 code data).unit? = some 3 := by
      show unitIndex? (unitAddress 3) = some 3
      decide
    unfold Block.namePart?
    rw [addressed, show (Block.toUnit 3 code data).command = code from rfl, decoded]
    rfl
  have index : join14 (select.data.get 0) (select.data.get 1) = 1 := by decide
  have loco : join14 ((dataOf [1, 90, 1]).get 0) ((dataOf [1, 90, 1]).get 1) = 218 := by decide
  have format : Format.ofByte ((dataOf [1, 90, 1]).get 2) = .dcc28 := by decide
  have round := name_writing_round_trips.2.2.2.2.2.1 station
    (Block.toUnit 3 0x34 (dataOf [1, 90, 1])) (Block.toUnit 3 0x35 (nameChunk (paddedName name) 0))
    (Block.toUnit 3 0x36 (nameChunk (paddedName name) 1))
    (Block.toUnit 3 0x37 (nameChunk (paddedName name) 2))
    (Block.toUnit 3 0x38 (nameChunk (paddedName name) 3)) select 3 (dataOf [1, 90, 1]) name
    writable (carries _ _ rfl _) (carries _ _ rfl _) (carries _ _ rfl _) (carries _ _ rfl _)
    (carries _ _ rfl _) (by decide) rfl (by decide) (by decide)
  rw [index, loco, format] at round
  exact round

end Station

end RailBus
