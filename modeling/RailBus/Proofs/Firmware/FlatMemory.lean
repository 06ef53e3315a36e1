import RailBus.Proofs.Firmware.FrameCut
/-! # Writing into an image is writing into flat memory with a chunk budget

Seen from outside, an image is flat memory allocated in 64-byte chunks (`Memory`): the set of
its chunk bases, and the byte at every address one of them covers (`Image.memory`). Writing
bytes at an address is then this process (`Memory.writeChunks`): cut the addresses written, up to
the end of the address space, at chunk boundaries (`chunkBases`); for each piece in ascending
order, a chunk that is held, or that the budget still has room for, is filled with the piece's
bytes, a new one starting erased; the first chunk that is neither ends the write, dropping it and
everything after it.

Every image that a chunk budget and a sequence of writes build (`Image.Built`) writes this way
(`Image.write_is_chunked_memory_write`), and what follows comes from the process: the chunk bases
stay aligned inside the address space and within the budget, a write changes no byte outside the
addresses it writes, and writing the same bytes twice is writing them once. The last needs the
view to determine the image (`Image.WellFormed.ext_memory`).
-/

namespace RailBus.Firmware

/-- **Flat memory allocated in chunks**: the bases of the chunks held, and the byte at each address
they cover. -/
structure Memory where
  keys : Finset Nat
  bytes : Nat → Option UInt8

namespace Memory

/-- The byte flash reads at an address, erased where no chunk covers it. -/
def read (memory : Memory) (address : Nat) : UInt8 :=
  (memory.bytes address).getD erased

/-- **Fill the chunk at `base` from `data`**: a chunk not held yet is added, erased, and every
address of the chunk where `data` has a byte takes it. -/
def fill (memory : Memory) (base : Nat) (data : Nat → Option UInt8) : Memory where
  keys := insert base memory.keys
  bytes address :=
    if address - address % chunkSize = base then
      (data address).or (if base ∈ memory.keys then memory.bytes address else some erased)
    else memory.bytes address

/-- **Write `data` into the chunks at `bases`, in order**, within a budget of `limit` chunks: a
chunk held already, or one the budget has room for, is filled; the first that is neither ends the
write. -/
def writeChunks (memory : Memory) (limit : Nat) (data : Nat → Option UInt8) :
    List Nat → Memory
  | [] => memory
  | base :: rest =>
    if base ∈ memory.keys ∨ memory.keys.card < limit then
      (memory.fill base data).writeChunks limit data rest
    else memory

variable {memory : Memory} {limit : Nat} {data : Nat → Option UInt8}

@[simp]
theorem writeChunks_nil : memory.writeChunks limit data [] = memory := rfl

theorem writeChunks_cons_of_fits {base : Nat} {rest : List Nat}
    (fits : base ∈ memory.keys ∨ memory.keys.card < limit) :
    memory.writeChunks limit data (base :: rest) =
      (memory.fill base data).writeChunks limit data rest :=
  if_pos fits

theorem writeChunks_cons_of_full {base : Nat} {rest : List Nat}
    (full : ¬(base ∈ memory.keys ∨ memory.keys.card < limit)) :
    memory.writeChunks limit data (base :: rest) = memory :=
  if_neg full

@[simp]
theorem keys_fill (base : Nat) : (memory.fill base data).keys = insert base memory.keys := rfl

/-- Filling depends on the data only inside the chunk filled. -/
theorem fill_congr {other : Nat → Option UInt8} (base : Nat)
    (agree : ∀ address, address - address % chunkSize = base → data address = other address) :
    memory.fill base data = memory.fill base other := by
  simp only [fill, Memory.mk.injEq, true_and]
  funext address
  by_cases inChunk : address - address % chunkSize = base
  · simp only [inChunk, ↓reduceIte, agree address inChunk]
  · simp only [inChunk, ↓reduceIte]

/-- A write depends on the data only inside the chunks it may fill. -/
theorem writeChunks_congr {other : Nat → Option UInt8} {bases : List Nat}
    (agree : ∀ base ∈ bases, ∀ address, address - address % chunkSize = base →
      data address = other address) :
    memory.writeChunks limit data bases = memory.writeChunks limit other bases := by
  induction bases generalizing memory with
  | nil => rfl
  | cons base rest ih =>
      unfold writeChunks
      split
      · rw [fill_congr base (agree base List.mem_cons_self)]
        exact ih fun later member => agree later (List.mem_cons_of_mem base member)
      · rfl

/-- Chunks once held stay held. -/
theorem keys_subset_writeChunks (bases : List Nat) :
    memory.keys ⊆ (memory.writeChunks limit data bases).keys := by
  induction bases generalizing memory with
  | nil => exact Finset.Subset.refl _
  | cons base rest ih =>
      unfold writeChunks
      split
      · have later : (memory.fill base data).keys ⊆ _ := ih
        exact (Finset.subset_insert base memory.keys).trans later
      · exact Finset.Subset.refl _

/-- **A write stays within the budget**: a chunk is only added while there is room for it. -/
theorem card_writeChunks_le (bases : List Nat) (within : memory.keys.card ≤ limit) :
    (memory.writeChunks limit data bases).keys.card ≤ limit := by
  induction bases generalizing memory with
  | nil => exact within
  | cons base rest ih =>
      unfold writeChunks
      split
      · next fits =>
          apply ih
          rw [keys_fill]
          rcases fits with held | room
          · rw [Finset.insert_eq_of_mem held]
            exact within
          · exact (Finset.card_insert_le base memory.keys).trans room
      · exact within

/-- Every byte the memory holds lies in a chunk it holds. -/
def Covered (memory : Memory) : Prop :=
  ∀ address value, memory.bytes address = some value →
    address - address % chunkSize ∈ memory.keys

theorem Covered.fill (covered : memory.Covered) (base : Nat) : (memory.fill base data).Covered := by
  intro address value held
  simp only [Memory.fill] at held
  rw [keys_fill, Finset.mem_insert]
  by_cases inChunk : address - address % chunkSize = base
  · exact .inl inChunk
  · rw [if_neg inChunk] at held
    exact .inr (covered address value held)

theorem Covered.writeChunks (covered : memory.Covered) (bases : List Nat) :
    (memory.writeChunks limit data bases).Covered := by
  induction bases generalizing memory with
  | nil => exact covered
  | cons base rest ih =>
      unfold Memory.writeChunks
      split
      · exact ih (covered.fill base)
      · exact covered

/-- Where the data has no byte, filling keeps every byte held, and what flash reads. -/
theorem Covered.fill_of_none (covered : memory.Covered) {address : Nat}
    (untouched : data address = none) (base : Nat) :
    (∀ value, memory.bytes address = some value →
        (memory.fill base data).bytes address = some value) ∧
      (memory.fill base data).read address = memory.read address := by
  simp only [Memory.fill, read, untouched, Option.none_or]
  by_cases inChunk : address - address % chunkSize = base
  · simp only [inChunk, ↓reduceIte]
    by_cases held : base ∈ memory.keys
    · simp [held]
    · -- a chunk not held covers no byte, so it reads erased before and after
      have absent : memory.bytes address = none := by
        cases found : memory.bytes address with
        | none => rfl
        | some value => exact absurd (inChunk ▸ covered address value found) held
      simp [held, absent]
  · simp [inChunk]

/-- **A write keeps every byte outside the data**, and what flash reads there. -/
theorem Covered.writeChunks_of_none (covered : memory.Covered) {address : Nat}
    (untouched : data address = none) (bases : List Nat) :
    (∀ value, memory.bytes address = some value →
        (memory.writeChunks limit data bases).bytes address = some value) ∧
      (memory.writeChunks limit data bases).read address = memory.read address := by
  induction bases generalizing memory with
  | nil => exact ⟨fun _ held => held, rfl⟩
  | cons base rest ih =>
      unfold Memory.writeChunks
      split
      · obtain ⟨keeps, reads⟩ := covered.fill_of_none untouched base
        obtain ⟨laterKeeps, laterReads⟩ := ih (covered.fill base)
        exact ⟨fun value held => laterKeeps value (keeps value held), laterReads.trans reads⟩
      · exact ⟨fun _ held => held, rfl⟩

/-! ### Writing the same data twice -/

theorem bytes_fill_of_some {base address : Nat} (inChunk : address - address % chunkSize = base)
    {value : UInt8} (given : data address = some value) :
    (memory.fill base data).bytes address = some value := by
  simp [Memory.fill, inChunk, given]

/-- A write leaves the chunks it does not reach as they are. -/
theorem bytes_writeChunks_of_not_mem {bases : List Nat} {address : Nat}
    (missed : address - address % chunkSize ∉ bases) :
    (memory.writeChunks limit data bases).bytes address = memory.bytes address := by
  induction bases generalizing memory with
  | nil => rfl
  | cons base rest ih =>
      simp only [List.mem_cons, not_or] at missed
      obtain ⟨differs, laterMissed⟩ := missed
      unfold Memory.writeChunks
      split
      · rw [ih laterMissed]
        simp [Memory.fill, differs]
      · rfl

/-- Filling a held chunk that already holds the data changes nothing. -/
theorem fill_of_filled {base : Nat} (held : base ∈ memory.keys)
    (filled : ∀ address, address - address % chunkSize = base → ∀ value,
      data address = some value → memory.bytes address = some value) :
    memory.fill base data = memory := by
  simp only [Memory.fill, Finset.insert_eq_of_mem held, held, ↓reduceIte]
  congr
  funext address
  by_cases inChunk : address - address % chunkSize = base
  · rw [if_pos inChunk]
    cases given : data address with
    | none => rfl
    | some value => exact (filled address inChunk value given).symm
  · rw [if_neg inChunk]

/-- **Writing the same data over the same chunks twice is writing it once.** -/
theorem writeChunks_writeChunks {bases : List Nat} (distinct : bases.Nodup) :
    (memory.writeChunks limit data bases).writeChunks limit data bases =
      memory.writeChunks limit data bases := by
  induction bases generalizing memory with
  | nil => rfl
  | cons base rest ih =>
      obtain ⟨fresh, restDistinct⟩ := List.nodup_cons.mp distinct
      by_cases fits : base ∈ memory.keys ∨ memory.keys.card < limit
      · rw [writeChunks_cons_of_fits fits]
        -- the second pass finds the chunk at `base` held, and filled by the first
        have held : base ∈ ((memory.fill base data).writeChunks limit data rest).keys :=
          keys_subset_writeChunks rest (Finset.mem_insert_self base memory.keys)
        have filled := fill_of_filled held fun address inChunk value given => by
          rw [bytes_writeChunks_of_not_mem (inChunk ▸ fresh)]
          exact bytes_fill_of_some inChunk given
        rw [writeChunks_cons_of_fits (.inl held), filled, ih restDistinct]
      · rw [writeChunks_cons_of_full fits, writeChunks_cons_of_full fits]

end Memory

/-- **The bases of the chunks that the addresses from `start` to below `stop` meet**, ascending. -/
def chunkBases (start stop : Nat) : List Nat :=
  if start < stop then
    (List.range' (start / chunkSize) ((stop - 1) / chunkSize + 1 - start / chunkSize)).map
      (chunkSize * ·)
  else []

/-- The byte a write of `bytes` at `address` puts at `target`, if any. -/
def writeData (address : Nat) (bytes : List UInt8) (target : Nat) : Option UInt8 :=
  if address ≤ target then bytes[target - address]? else none

namespace Image

/-- **An image seen as flat memory.** -/
def memory (image : Image) : Memory :=
  ⟨image.bases.toFinset, image.byte?⟩

/-- **The images a chunk budget and a sequence of writes build.** -/
inductive Built (limit : Nat) : Image → Prop
  | empty : Built limit (empty limit)
  | write {image : Image} (built : Built limit image) (address : UInt32) (bytes : List UInt8) :
      Built limit (image.write address bytes)

/-! ## Chunk lists with ascending bases -/

theorem chunk?_eq_none_iff {image : Image} {base : Nat} :
    image.chunk? base = none ↔ base ∉ image.bases := by
  simp only [chunk?, bases, List.lookup_eq_none_iff, bne_iff_ne, ne_eq, List.mem_map, not_exists,
    not_and]
  exact ⟨fun absent entry member same => absent entry member same.symm,
    fun absent entry member same => absent entry member same.symm⟩

theorem lookup_cons_of_ne {key other : Nat} {bytes : List UInt8} {rest : List (Nat × List UInt8)}
    (differs : other ≠ key) : ((key, bytes) :: rest).lookup other = rest.lookup other := by
  simp only [List.lookup_cons, beq_false_of_ne differs]

/-- Nothing is found below every base of a list. -/
theorem lookup_eq_none_of_forall_lt {chunks : List (Nat × List UInt8)} {base : Nat}
    (below : ∀ entry ∈ chunks, base < entry.1) : chunks.lookup base = none := by
  simp only [List.lookup_eq_none_iff, bne_iff_ne, ne_eq]
  intro entry member same
  have := below entry member
  omega

/-- Below the first base of an ascending chunk list, nothing is found. -/
theorem lookup_eq_none_of_lt {first : Nat} {bytes : List UInt8} {rest : List (Nat × List UInt8)}
    (ascending : ((first, bytes) :: rest).map Prod.fst |>.Pairwise (· < ·)) {base : Nat}
    (below : base < first) : ((first, bytes) :: rest).lookup base = none := by
  simp only [List.map_cons, List.pairwise_cons, List.mem_map] at ascending
  apply lookup_eq_none_of_forall_lt
  intro entry member
  rcases List.mem_cons.mp member with rfl | later
  · exact below
  · exact Nat.lt_trans below (ascending.1 entry.1 ⟨entry, later, rfl⟩)

/-- **What an update leaves at each base**: the changed chunk at the updated base, inserted
erased if absent, and the old chunk elsewhere. -/
theorem lookup_updateChunk (base : Nat) (change : List UInt8 → List UInt8)
    {chunks : List (Nat × List UInt8)} (ascending : (chunks.map Prod.fst).Pairwise (· < ·))
    (other : Nat) :
    (updateChunk base change chunks).lookup other =
      if other = base then some (change ((chunks.lookup base).getD erasedChunk))
      else chunks.lookup other := by
  induction chunks with
  | nil => by_cases same : other = base <;> simp [updateChunk, same]
  | cons head rest ih =>
      obtain ⟨first, bytes⟩ := head
      by_cases below : base < first
      · have absent := lookup_eq_none_of_lt ascending below
        simp only [updateChunk, below, ↓reduceIte, absent, Option.getD_none]
        by_cases same : other = base
        · simp [same]
        · simp only [same, ↓reduceIte, lookup_cons_of_ne same]
      have restAscending := (List.pairwise_cons.mp ascending).2
      by_cases equal : base = first
      · subst equal
        by_cases same : other = base
        · simp [updateChunk, same]
        · simp only [updateChunk, Nat.lt_irrefl, ↓reduceIte, same, lookup_cons_of_ne same]
      simp only [updateChunk, below, equal, ↓reduceIte]
      by_cases same : other = first
      · subst same
        simp [Ne.symm equal]
      · simp only [lookup_cons_of_ne same, lookup_cons_of_ne equal, ih restAscending]

theorem mem_bases_iff_isSome {image : Image} {base : Nat} :
    base ∈ image.bases ↔ (image.chunk? base).isSome := by
  rw [← not_iff_not, chunk?_eq_none_iff.symm, Option.not_isSome_iff_eq_none]

end Image

/-! ## Placing bytes fills a chunk -/

/-- A patched chunk reads the copied bytes where they were copied and its old bytes elsewhere. -/
theorem getElem?_patch {chunk bytes : List UInt8} {offset : Nat} (room : offset ≤ chunk.length)
    (index : Nat) :
    (patch chunk offset bytes)[index]? =
      (if offset ≤ index then bytes[index - offset]? else none).or chunk[index]? := by
  unfold patch
  by_cases before : index < offset
  · rw [List.append_assoc, List.getElem?_append_left (by simp; omega),
      List.getElem?_take_of_lt before, if_neg (by omega), Option.none_or]
  have taken : (chunk.take offset).length = offset := by simp; omega
  rw [List.append_assoc, List.getElem?_append_right (by omega), taken, if_pos (by omega)]
  by_cases inside : index - offset < bytes.length
  · rw [List.getElem?_append_left inside, List.getElem?_eq_getElem inside, Option.some_or]
  · have beyond : bytes[index - offset]? = none := List.getElem?_eq_none (by omega)
    rw [List.getElem?_append_right (by omega), List.getElem?_drop, beyond, Option.none_or]
    congr 1
    omega

/-- Within the chunk at `base`, a write from `base + offset` is read by the offset in the chunk. -/
theorem writeData_in_chunk {base offset address : Nat} {bytes : List UInt8}
    (inChunk : address - address % chunkSize = base) :
    writeData (base + offset) bytes address =
      if offset ≤ address % chunkSize then bytes[address % chunkSize - offset]? else none := by
  have split : address = base + address % chunkSize := by
    have := Nat.mod_le address chunkSize
    omega
  unfold writeData
  by_cases reaches : offset ≤ address % chunkSize
  · rw [if_pos (by omega), if_pos reaches]
    congr 1
    omega
  · rw [if_neg (by omega), if_neg reaches]

namespace Image

variable {image : Image}

/-- **Placing bytes in a chunk fills that chunk of the memory**, a new chunk starting erased. -/
theorem WellFormed.memory_place (shape : image.WellFormed) {next : Image} {base offset : Nat}
    {bytes : List UInt8} (room : offset ≤ chunkSize)
    (placed : image.place base offset bytes = some next) :
    next.memory = image.memory.fill base (writeData (base + offset) bytes) := by
  unfold Image.place at placed
  split at placed
  · cases placed
  cases placed
  have lookup := lookup_updateChunk base (patch · offset bytes) shape.ascending
  simp only [memory, Memory.fill, Memory.mk.injEq]
  constructor
  · ext other
    simp only [List.mem_toFinset, Finset.mem_insert, mem_bases_iff_isSome, chunk?, lookup]
    by_cases same : other = base <;> simp [same]
  · funext address
    simp only [byte?, chunk?, lookup]
    by_cases inChunk : address - address % chunkSize = base
    · have whole : ((image.chunks.lookup base).getD erasedChunk).length = chunkSize :=
        shape.length_getD base
      rw [if_pos inChunk, if_pos inChunk, Option.bind_some, writeData_in_chunk inChunk,
        getElem?_patch (by rw [whole]; exact room), inChunk]
      congr 1
      cases found : image.chunks.lookup base with
      | none =>
          have absent : base ∉ image.bases := chunk?_eq_none_iff.mp found
          have inside : address % chunkSize < chunkSize := Nat.mod_lt _ (by decide)
          simp [List.mem_toFinset, absent, erasedChunk, inside]
      | some chunk =>
          have present : base ∈ image.bases := mem_bases_iff_isSome.mpr (by simp [chunk?, found])
          simp [List.mem_toFinset, present]
    · simp only [inChunk, ↓reduceIte]

end Image

/-! ## Cutting a write at chunk boundaries -/

/-- The chunk of an address starts at a whole number of chunks. -/
theorem sub_mod_chunkSize (address : Nat) :
    address - address % chunkSize = chunkSize * (address / chunkSize) := by
  unfold chunkSize
  omega

theorem chunkBases_of_le {start stop : Nat} (empty : stop ≤ start) : chunkBases start stop = [] :=
  if_neg (Nat.not_lt.mpr empty)

/-- **The first piece of a write lies in the chunk of its start**; the rest starts at the next
chunk. -/
theorem chunkBases_cons {start stop : Nat} (nonempty : start < stop) :
    chunkBases start stop =
      (start - start % chunkSize) :: chunkBases (start - start % chunkSize + chunkSize) stop := by
  have next : (start - start % chunkSize + chunkSize) / chunkSize = start / chunkSize + 1 := by
    unfold chunkSize
    omega
  have count : (stop - 1) / chunkSize + 1 - start / chunkSize =
      ((stop - 1) / chunkSize + 1 - (start / chunkSize + 1)) + 1 := by
    unfold chunkSize
    omega
  unfold chunkBases
  rw [if_pos nonempty, count, List.range'_succ, List.map_cons, ← sub_mod_chunkSize]
  congr 1
  by_cases more : start - start % chunkSize + chunkSize < stop
  · rw [if_pos more, next]
  · have last : (stop - 1) / chunkSize + 1 - (start / chunkSize + 1) = 0 := by
      unfold chunkSize at *
      omega
    rw [if_neg more, last, List.range'_zero, List.map_nil]

/-- A write inside the address space with bytes to write starts with the chunk of its address. -/
theorem chunkBases_write {address : Nat} {bytes : List UInt8} (inside : address < addressSpace)
    (nonempty : bytes ≠ []) :
    chunkBases address (min (address + bytes.length) addressSpace) =
      (address - address % chunkSize) ::
        chunkBases (address - address % chunkSize + chunkSize)
          (min (address + bytes.length) addressSpace) := by
  have positive := List.length_pos_iff.mpr nonempty
  exact chunkBases_cons (by omega)

/-- Every piece lies in a chunk at or above the chunk of the start. -/
theorem le_of_mem_chunkBases {start stop base : Nat} (member : base ∈ chunkBases start stop) :
    start - start % chunkSize ≤ base := by
  unfold chunkBases at member
  split at member
  · obtain ⟨index, range, rfl⟩ := List.mem_map.mp member
    have above := (List.mem_range'_1.mp range).1
    rw [sub_mod_chunkSize]
    exact Nat.mul_le_mul_left chunkSize above
  · cases member

/-- The pieces lie in distinct chunks. -/
theorem nodup_chunkBases (start stop : Nat) : (chunkBases start stop).Nodup := by
  unfold chunkBases
  split
  · exact List.Nodup.map (fun _ _ same => Nat.eq_of_mul_eq_mul_left (by decide) same)
      List.nodup_range'
  · exact List.nodup_nil

/-- A write running past the end of the address space keeps only its piece in the last chunk. -/
example : chunkBases 0xFFFFFFF0 (min (0xFFFFFFF0 + 32) addressSpace) = [0xFFFFFFC0] := by decide

/-- The first piece of a write takes the bytes of the write that fall in its chunk. -/
theorem writeData_take {address target : Nat} {bytes : List UInt8}
    (inChunk : target - target % chunkSize = address - address % chunkSize) :
    writeData address (bytes.take (min bytes.length (chunkSize - address % chunkSize))) target =
      writeData address bytes target := by
  unfold writeData
  split
  · next reaches =>
      have inside : target - address < chunkSize - address % chunkSize := by
        have := Nat.mod_lt target (show 0 < chunkSize by decide)
        have := Nat.mod_le target chunkSize
        have := Nat.mod_le address chunkSize
        omega
      rw [List.getElem?_take]
      by_cases short : target - address < bytes.length
      · rw [if_pos (by omega)]
      · rw [if_neg (by omega), List.getElem?_eq_none (by omega)]
  · rfl

/-- Past its first bytes, a write reads as the write of the rest. -/
theorem writeData_drop {address count target : Nat} {bytes : List UInt8}
    (past : address + count ≤ target) :
    writeData (address + count) (bytes.drop count) target = writeData address bytes target := by
  unfold writeData
  rw [if_pos past, if_pos (by omega), List.getElem?_drop]
  congr 1
  omega

/-! ## Writing an image -/

namespace Image

variable {image : Image}

theorem limit_place {next : Image} {base offset : Nat} {bytes : List UInt8}
    (placed : image.place base offset bytes = some next) : next.limit = image.limit := by
  unfold Image.place at placed
  split at placed
  · cases placed
  · cases placed
    rfl

/-- The chunk bases are distinct, so there are as many as chunks. -/
theorem WellFormed.card_keys (shape : image.WellFormed) : image.memory.keys.card = image.size := by
  simp only [memory, size]
  rw [List.toFinset_card_of_nodup (shape.ascending.imp Nat.ne_of_lt), bases, List.length_map]

/-- **Placing fails exactly when the chunk is new and the budget is spent.** -/
theorem WellFormed.place_eq_none_iff (shape : image.WellFormed) {base offset : Nat}
    {bytes : List UInt8} :
    image.place base offset bytes = none ↔
      ¬(base ∈ image.memory.keys ∨ image.memory.keys.card < image.limit) := by
  rw [shape.card_keys]
  unfold Image.place
  simp only [memory, List.mem_toFinset, not_or, Nat.not_lt, Option.isNone_iff_eq_none,
    chunk?_eq_none_iff]
  split
  · next full => simpa using full
  · next room => simpa using room

theorem WellFormed.fits_of_place (shape : image.WellFormed) {next : Image} {base offset : Nat}
    {bytes : List UInt8} (placed : image.place base offset bytes = some next) :
    base ∈ image.memory.keys ∨ image.memory.keys.card < image.limit :=
  Classical.byContradiction fun full => by
    rw [shape.place_eq_none_iff.mpr full] at placed
    cases placed

theorem limit_writeAt (address : Nat) (bytes : List UInt8) :
    (image.writeAt address bytes).limit = image.limit := by
  induction image, address, bytes using Image.writeAt.induct with
  | case1 image address => rw [writeAt_nil]
  | case2 image address bytes nonempty offset here unplaced =>
      rw [writeAt_of_place_none nonempty unplaced]
  | case3 image address bytes nonempty offset here next placed more ih =>
      simp only [offset, here] at placed more
      rw [writeAt_of_place_some nonempty placed, if_pos more, ih, limit_place placed]
  | case4 image address bytes nonempty offset here next placed last =>
      simp only [offset, here] at placed last
      rw [writeAt_of_place_some nonempty placed, if_neg last, limit_place placed]

/-- **The first piece of a write fills the chunk of its address with the write's bytes.** -/
theorem WellFormed.memory_placePiece (shape : image.WellFormed) {next : Image} {address : Nat}
    {bytes : List UInt8}
    (placed : image.place (address - address % chunkSize) (address % chunkSize)
      (bytes.take (min bytes.length (chunkSize - address % chunkSize))) = some next) :
    next.memory = image.memory.fill (address - address % chunkSize) (writeData address bytes) := by
  have room : address % chunkSize ≤ chunkSize := Nat.le_of_lt (Nat.mod_lt _ (by decide))
  rw [shape.memory_place room placed, Nat.sub_add_cancel (Nat.mod_le _ _)]
  exact Memory.fill_congr _ fun target inChunk => writeData_take inChunk

/-- **Writing inside the address space writes flat memory chunk by chunk.** -/
theorem WellFormed.memory_writeAt (shape : image.WellFormed) {address : Nat}
    (inside : address < addressSpace) (bytes : List UInt8) :
    (image.writeAt address bytes).memory =
      image.memory.writeChunks image.limit (writeData address bytes)
        (chunkBases address (min (address + bytes.length) addressSpace)) := by
  -- the induction follows the pieces of the write; each fills the chunk `chunkBases_write` puts
  -- first
  induction image, address, bytes using Image.writeAt.induct with
  | case1 image address =>
      rw [writeAt_nil, List.length_nil, Nat.add_zero, chunkBases_of_le (Nat.min_le_left _ _)]
      rfl
  | case2 image address bytes nonempty offset here unplaced =>
      rw [writeAt_of_place_none nonempty unplaced, chunkBases_write inside nonempty,
        Memory.writeChunks_cons_of_full (shape.place_eq_none_iff.mp unplaced)]
  | case3 image address bytes nonempty offset here next placed more ih =>
      simp only [offset, here] at placed more
      -- the rest of the write starts at the next chunk boundary and ends where the write ends
      have boundary : address - address % chunkSize + chunkSize =
          address + min bytes.length (chunkSize - address % chunkSize) := by
        unfold chunkSize at *
        omega
      have stop : address + min bytes.length (chunkSize - address % chunkSize) +
          (bytes.length - min bytes.length (chunkSize - address % chunkSize)) =
            address + bytes.length := by
        omega
      rw [writeAt_of_place_some nonempty placed, if_pos more,
        ih (shape.placePiece inside placed) more.2, List.length_drop, stop,
        shape.memory_placePiece placed, limit_place placed, chunkBases_write inside nonempty,
        Memory.writeChunks_cons_of_fits (shape.fits_of_place placed), boundary]
      apply Memory.writeChunks_congr
      intro base member target inChunk
      apply writeData_drop
      have atLeast := le_of_mem_chunkBases member
      have below := Nat.mod_le target chunkSize
      rw [← boundary] at atLeast ⊢
      unfold chunkSize at *
      omega
  | case4 image address bytes nonempty offset here next placed last =>
      simp only [offset, here] at placed last
      -- the piece placed was the last: the write ends inside this chunk or at the address space
      have ends : min (address + bytes.length) addressSpace ≤
          address - address % chunkSize + chunkSize := by
        unfold chunkSize at *
        omega
      rw [writeAt_of_place_some nonempty placed, if_neg last, shape.memory_placePiece placed,
        chunkBases_write inside nonempty, chunkBases_of_le ends,
        Memory.writeChunks_cons_of_fits (shape.fits_of_place placed), Memory.writeChunks_nil]

/-- Every byte an image holds lies in a chunk it holds. -/
theorem covered_memory (image : Image) : image.memory.Covered := by
  intro address value held
  simp only [memory, List.mem_toFinset]
  apply mem_bases_iff_isSome.mpr
  simp only [memory, byte?] at held
  cases found : image.chunk? (address - address % chunkSize) with
  | none => simp [found] at held
  | some chunk => rfl

/-! ## The view determines the image -/

/-- **Chunk lists with ascending bases are determined by what they hold at each base.** -/
theorem eq_of_lookup_eq : ∀ {chunks others : List (Nat × List UInt8)},
    (chunks.map Prod.fst).Pairwise (· < ·) → (others.map Prod.fst).Pairwise (· < ·) →
    (∀ base, chunks.lookup base = others.lookup base) → chunks = others
  | [], [], _, _, _ => rfl
  | [], (base, bytes) :: _, _, _, same => by simpa using same base
  | (base, bytes) :: _, [], _, _, same => by simpa using same base
  | (base, bytes) :: rest, (other, chunk) :: others, ascending, othersAscending, same => by
      -- the first bases agree: the smaller would be found in one list only
      have first : base = other := by
        rcases Nat.lt_trichotomy base other with below | equal | above
        · have found := same base
          rw [List.lookup_cons_self, lookup_eq_none_of_lt othersAscending below] at found
          cases found
        · exact equal
        · have found := same other
          rw [List.lookup_cons_self, lookup_eq_none_of_lt ascending above] at found
          cases found
      subst first
      have held : bytes = chunk := by simpa using same base
      subst held
      simp only [List.map_cons, List.pairwise_cons, List.mem_map] at ascending othersAscending
      congr 1
      refine eq_of_lookup_eq ascending.2 othersAscending.2 fun key => ?_
      by_cases atFirst : key = base
      · -- neither rest holds the first base
        subst atFirst
        rw [lookup_eq_none_of_forall_lt fun entry member =>
            ascending.1 entry.1 ⟨entry, member, rfl⟩,
          lookup_eq_none_of_forall_lt fun entry member =>
            othersAscending.1 entry.1 ⟨entry, member, rfl⟩]
      · have found := same key
        rwa [lookup_cons_of_ne atFirst, lookup_cons_of_ne atFirst] at found

/-- Inside an aligned chunk, the byte at an offset is the chunk's. -/
theorem byte?_add {base offset : Nat} (aligned : base % chunkSize = 0)
    (inside : offset < chunkSize) :
    image.byte? (base + offset) = (image.chunk? base).bind fun chunk => chunk[offset]? := by
  have remainder : (base + offset) % chunkSize = offset := by
    unfold chunkSize at *
    omega
  rw [byte?, remainder, Nat.add_sub_cancel]

theorem WellFormed.length_of_chunk? (shape : image.WellFormed) {base : Nat} {chunk : List UInt8}
    (found : image.chunk? base = some chunk) : chunk.length = chunkSize := by
  simpa [found] using shape.length_getD base

/-- **An image of the shape is determined by its budget and its view as flat memory.** -/
theorem WellFormed.ext_memory {other : Image} (shape : image.WellFormed)
    (otherShape : other.WellFormed) (limit : image.limit = other.limit)
    (same : image.memory = other.memory) : image = other := by
  have keys : image.bases.toFinset = other.bases.toFinset := congrArg Memory.keys same
  have bytes : image.byte? = other.byte? := congrArg Memory.bytes same
  have held (base : Nat) : base ∈ image.bases ↔ base ∈ other.bases := by
    rw [← List.mem_toFinset, keys, List.mem_toFinset]
  have chunks : image.chunks = other.chunks := by
    refine eq_of_lookup_eq shape.ascending otherShape.ascending fun base => ?_
    change image.chunk? base = other.chunk? base
    by_cases present : base ∈ image.bases
    · -- both hold a chunk there, and the view reads it byte by byte
      obtain ⟨chunk, found⟩ := Option.isSome_iff_exists.mp (mem_bases_iff_isSome.mp present)
      obtain ⟨otherChunk, otherFound⟩ :=
        Option.isSome_iff_exists.mp (mem_bases_iff_isSome.mp ((held base).mp present))
      have aligned := shape.aligned base present
      rw [found, otherFound, Option.some.injEq]
      apply List.ext_getElem?
      intro offset
      by_cases inside : offset < chunkSize
      · have reads := congrFun bytes (base + offset)
        rwa [byte?_add aligned inside, byte?_add aligned inside, found, otherFound,
          Option.bind_some, Option.bind_some] at reads
      · rw [List.getElem?_eq_none (by rw [shape.length_of_chunk? found]; omega),
          List.getElem?_eq_none (by rw [otherShape.length_of_chunk? otherFound]; omega)]
    · rw [chunk?_eq_none_iff.mpr present, chunk?_eq_none_iff.mpr (mt (held base).mpr present)]
  cases image
  cases other
  simp only [Image.mk.injEq]
  exact ⟨chunks, limit⟩

/-! ## Images built by writes -/

namespace Built

variable {limit : Nat}

theorem wellFormed (built : image.Built limit) : image.WellFormed := by
  induction built with
  | empty => exact wellFormed_empty limit
  | write _ address bytes shape => exact shape.write address bytes

theorem limit_eq (built : image.Built limit) : image.limit = limit := by
  induction built with
  | empty => rfl
  | write _ address bytes same => rw [Image.write, limit_writeAt, same]

/-- A write to a built image is the chunked write of its memory within the budget. -/
theorem memory_write (built : image.Built limit) (address : UInt32) (bytes : List UInt8) :
    (image.write address bytes).memory =
      image.memory.writeChunks limit (writeData address.toNat bytes)
        (chunkBases address.toNat (min (address.toNat + bytes.length) addressSpace)) := by
  rw [← built.limit_eq]
  exact built.wellFormed.memory_writeAt address.toNat_lt bytes

/-- **A built image holds no more chunks than its budget.** -/
theorem card_keys_le (built : image.Built limit) : image.memory.keys.card ≤ limit := by
  induction built with
  | empty => simp [memory, bases, Image.empty]
  | write built address bytes within =>
      rw [built.memory_write address bytes]
      exact Memory.card_writeChunks_le _ within

end Built

/-- **Writing into an image is writing into flat memory with a chunk budget.** Writing bytes at an
address into an image built from an empty image of budget `limit` by writes keeps the budget, and
its view as flat memory is the view before, written chunk by chunk over the chunks that the
addresses written meet up to the end of the address space, stopping at the first new chunk the
budget has no room for. So every chunk base stays aligned inside the address space, the chunks
stay within the budget, every byte outside the addresses written stays as it was (a new chunk
reading erased), and writing the same bytes again changes nothing. -/
theorem write_is_chunked_memory_write {limit : Nat} (built : image.Built limit) (address : UInt32)
    (bytes : List UInt8) :
    let written := image.write address bytes
    written.limit = limit ∧
      written.memory = image.memory.writeChunks limit (writeData address.toNat bytes)
        (chunkBases address.toNat (min (address.toNat + bytes.length) addressSpace)) ∧
      (∀ base ∈ written.memory.keys, base % chunkSize = 0 ∧ base < addressSpace) ∧
      written.memory.keys.card ≤ limit ∧
      (∀ target, target < address.toNat ∨ address.toNat + bytes.length ≤ target →
        (∀ value, image.byte? target = some value → written.byte? target = some value) ∧
          written.read target = image.read target) ∧
      written.write address bytes = written := by
  intro written
  have writtenBuilt : written.Built limit := built.write address bytes
  have flat := built.memory_write address bytes
  refine ⟨writtenBuilt.limit_eq, flat, fun base member => ?_, writtenBuilt.card_keys_le,
    fun target outside => ?_, ?_⟩
  · have present : base ∈ written.bases := List.mem_toFinset.mp member
    have shape := writtenBuilt.wellFormed
    exact ⟨shape.aligned base present, shape.below base present⟩
  · have untouched : writeData address.toNat bytes target = none := by
      unfold writeData
      split
      · exact List.getElem?_eq_none (by omega)
      · rfl
    show (∀ value, image.memory.bytes target = some value →
        written.memory.bytes target = some value) ∧
      written.memory.read target = image.memory.read target
    rw [flat]
    exact image.covered_memory.writeChunks_of_none untouched _
  · -- the second write runs the same chunked write over its own result, which changes nothing
    have again := writtenBuilt.write address bytes
    refine again.wellFormed.ext_memory writtenBuilt.wellFormed ?_ ?_
    · rw [again.limit_eq, writtenBuilt.limit_eq]
    · rw [writtenBuilt.memory_write, flat, Memory.writeChunks_writeChunks (nodup_chunkBases _ _)]

/-- A write that runs past the end of the address space, into a chunk written before. -/
theorem write_past_address_space :
    let image := (empty 2).write 0xFFFFFFC0 [1]
    let address : UInt32 := 0xFFFFFFF0
    let bytes := List.replicate 32 (7 : UInt8)
    let written := image.write address bytes
    image.Built 2 ∧
      written.limit = 2 ∧
      written.memory = image.memory.writeChunks 2 (writeData address.toNat bytes)
        (chunkBases address.toNat (min (address.toNat + bytes.length) addressSpace)) ∧
      (∀ base ∈ written.memory.keys, base % chunkSize = 0 ∧ base < addressSpace) ∧
      written.memory.keys.card ≤ 2 ∧
      (∀ target, target < address.toNat ∨ address.toNat + bytes.length ≤ target →
        (∀ value, image.byte? target = some value → written.byte? target = some value) ∧
          written.read target = image.read target) ∧
      written.write address bytes = written := by
  intro image address bytes written
  have built : image.Built 2 := .write .empty 0xFFFFFFC0 [1]
  exact ⟨built, write_is_chunked_memory_write built address bytes⟩

end Image

end RailBus.Firmware
