/-! # Bounded queues

A queue holds at most `capacity` items, first in first out, in a ring of `capacity` cells: its
items fill `count` cells from the cell `front` on, and wrap around at the end of the ring. A push
writes the cell after the last item; a pop reads the cell at the front and moves the front on, and
leaves the old cell as it is, no longer read. When the ring is full a new item is refused: `push?`
gives nothing back (the caller still has the item), and `pushOrDrop` drops the item and counts the
loss in `dropped`, a 32-bit counter that wraps around. `popUpTo` pops several of the oldest at once.
Clearing the queue forgets its items and keeps the count.

The structure carries the invariant of its ring: the ring has `capacity` cells, the front is one of
them, at most `capacity` cells are in use, and every cell in use holds an item. `Queue.items` reads
the items off the ring, oldest first; each operation is described through it (`Queue.items_push`,
`Queue.pop_view`, ...).
-/

namespace RailBus

namespace Queue

variable {α : Type}

/-- The cell `offset` places after `front` in a ring of `capacity` cells, wrapping around once. -/
def ringIndex (front offset capacity : Nat) : Nat :=
  if front + offset < capacity then front + offset else front + offset - capacity

/-- What a cell holds, if the cell exists and is filled. -/
def cellAt (cells : Array (Option α)) (index : Nat) : Option α :=
  (cells[index]?).join

/-- The items of `count` cells of a ring from `front` on, oldest first. -/
def readRing (cells : Array (Option α)) (front capacity : Nat) : Nat → List α
  | 0 => []
  | count + 1 =>
    readRing cells front capacity count ++ (cellAt cells (ringIndex front count capacity)).toList

end Queue

/-- A first-in first-out queue of bounded length, kept in a ring of cells. -/
structure Queue (α : Type) where
  capacity : Nat
  /-- The ring. A cell out of use may still hold an item popped before. -/
  cells : Array (Option α)
  /-- The cell of the oldest item. -/
  front : Nat
  /-- The number of items held. -/
  count : Nat
  /-- Items dropped because the queue was full. -/
  dropped : UInt32
  sized : cells.size = capacity
  front_lt : 0 < capacity → front < capacity
  count_le : count ≤ capacity
  filled : ∀ offset, offset < count →
    (Queue.cellAt cells (Queue.ringIndex front offset capacity)).isSome = true
  deriving DecidableEq

namespace Queue

variable {α : Type}

/-! ## The ring -/

theorem ringIndex_lt {front offset capacity : Nat} (front_lt : front < capacity)
    (offset_le : offset ≤ capacity) : ringIndex front offset capacity < capacity := by
  unfold ringIndex
  split <;> omega

theorem ringIndex_zero {front capacity : Nat} (front_lt : front < capacity) :
    ringIndex front 0 capacity = front := by
  rw [ringIndex, Nat.add_zero, if_pos front_lt]

/-- Offsets short of a whole turn name different cells. -/
theorem ringIndex_ne {front capacity first second : Nat}
    (earlier : first < second) (below : second < capacity) :
    ringIndex front first capacity ≠ ringIndex front second capacity := by
  unfold ringIndex
  split <;> split <;> omega

/-- Moving the front on by one shifts every later offset by one. -/
theorem ringIndex_next {front offset capacity : Nat} (front_lt : front < capacity)
    (offset_lt : offset + 1 ≤ capacity) :
    ringIndex (ringIndex front 1 capacity) offset capacity = ringIndex front (offset + 1) capacity := by
  unfold ringIndex
  split <;> split <;> split <;> omega

theorem cellAt_setIfInBounds_ne {cells : Array (Option α)} {index other : Nat} (value : Option α)
    (apart : index ≠ other) : cellAt (cells.setIfInBounds index value) other = cellAt cells other := by
  simp only [cellAt, Array.getElem?_setIfInBounds_ne apart]

theorem cellAt_setIfInBounds_self {cells : Array (Option α)} {index : Nat} (value : Option α)
    (inside : index < cells.size) : cellAt (cells.setIfInBounds index value) index = value := by
  simp only [cellAt, Array.getElem?_setIfInBounds_self_of_lt inside, Option.join_some]

/-- A write outside the cells in use leaves what the ring reads. -/
theorem readRing_setIfInBounds {cells : Array (Option α)} {front capacity index : Nat}
    (value : Option α) {count : Nat}
    (outside : ∀ offset, offset < count → index ≠ ringIndex front offset capacity) :
    readRing (cells.setIfInBounds index value) front capacity count =
      readRing cells front capacity count := by
  induction count with
  | zero => rfl
  | succ count ih =>
    simp only [readRing]
    rw [ih fun offset below => outside offset (Nat.lt_succ_of_lt below),
      cellAt_setIfInBounds_ne value (outside count (Nat.lt_succ_self count))]

/-- A ring of one more cell reads its first cell, then the rest from the next cell on. -/
theorem readRing_succ_front {cells : Array (Option α)} {front capacity : Nat}
    (front_lt : front < capacity) {count : Nat} (fits : count + 1 ≤ capacity) :
    readRing cells front capacity (count + 1) =
      (cellAt cells front).toList ++ readRing cells (ringIndex front 1 capacity) capacity count := by
  -- induction on the cells read after the first
  induction count with
  | zero => simp [readRing, ringIndex_zero front_lt]
  | succ count ih =>
    rw [readRing, ih (by omega), readRing, ringIndex_next front_lt (by omega), List.append_assoc]

/-- Cells that all hold an item read as that many items. -/
theorem length_readRing {cells : Array (Option α)} {front capacity count : Nat}
    (filled : ∀ offset, offset < count → (cellAt cells (ringIndex front offset capacity)).isSome) :
    (readRing cells front capacity count).length = count := by
  induction count with
  | zero => rfl
  | succ count ih =>
    obtain ⟨item, last⟩ := Option.isSome_iff_exists.mp (filled count (Nat.lt_succ_self count))
    rw [readRing, List.length_append, ih fun offset below => filled offset (Nat.lt_succ_of_lt below),
      last]
    rfl

/-! ## Building queues -/

/-- A ring with a cell free has its front among its cells. -/
theorem front_lt_of_roomy (queue : Queue α) (roomy : queue.count < queue.capacity) :
    queue.front < queue.capacity :=
  queue.front_lt (Nat.zero_lt_of_lt roomy)

/-- A ring with an item in it has its front among its cells. -/
theorem front_lt_of_held (queue : Queue α) (held : queue.count ≠ 0) :
    queue.front < queue.capacity :=
  queue.front_lt (Nat.lt_of_lt_of_le (Nat.pos_of_ne_zero held) queue.count_le)

/-- The cell after the last item, where a push writes, is in the ring. -/
theorem back_lt (queue : Queue α) (roomy : queue.count < queue.capacity) :
    ringIndex queue.front queue.count queue.capacity < queue.cells.size := by
  rw [queue.sized]
  exact ringIndex_lt (queue.front_lt_of_roomy roomy) (Nat.le_of_lt roomy)

theorem size_push (queue : Queue α) (item : α) :
    (queue.cells.setIfInBounds (ringIndex queue.front queue.count queue.capacity)
      (some item)).size = queue.capacity := by
  rw [Array.size_setIfInBounds, queue.sized]

/-- After a write at the back every cell in use, and the back, hold an item. -/
theorem filled_push (queue : Queue α) (item : α) (roomy : queue.count < queue.capacity) :
    ∀ offset, offset < queue.count + 1 →
      (cellAt (queue.cells.setIfInBounds (ringIndex queue.front queue.count queue.capacity)
        (some item)) (ringIndex queue.front offset queue.capacity)).isSome = true := by
  intro offset below
  by_cases last : offset = queue.count
  · rw [last, cellAt_setIfInBounds_self _ (queue.back_lt roomy)]
    rfl
  · have earlier : offset < queue.count := by omega
    rw [cellAt_setIfInBounds_ne _ (ringIndex_ne earlier roomy).symm]
    exact queue.filled offset earlier

theorem front_lt_pop (queue : Queue α) (positive : 0 < queue.capacity) :
    ringIndex queue.front 1 queue.capacity < queue.capacity :=
  ringIndex_lt (queue.front_lt positive) positive

/-- After the front moves on, the cells still in use are the old ones but the first. -/
theorem filled_pop (queue : Queue α) :
    ∀ offset, offset < queue.count - 1 →
      (cellAt queue.cells (ringIndex (ringIndex queue.front 1 queue.capacity) offset
        queue.capacity)).isSome = true := by
  intro offset below
  have := queue.count_le
  rw [ringIndex_next (queue.front_lt_of_held (by omega)) (by omega)]
  exact queue.filled (offset + 1) (by omega)

/-- An empty queue of a capacity. -/
def empty (capacity : Nat) : Queue α :=
  { capacity
    cells := Array.replicate capacity none
    front := 0
    count := 0
    dropped := 0
    sized := Array.size_replicate
    front_lt := fun positive => positive
    count_le := Nat.zero_le _
    filled := fun _ nothing => absurd nothing (Nat.not_lt_zero _) }

/-- The items held, oldest first. -/
def items (queue : Queue α) : List α :=
  readRing queue.cells queue.front queue.capacity queue.count

/-- The number of items held. -/
def length (queue : Queue α) : Nat :=
  queue.count

/-- Whether no item is held. -/
def isEmpty (queue : Queue α) : Bool :=
  queue.count == 0

/-- The number of items that still fit. -/
def room (queue : Queue α) : Nat :=
  queue.capacity - queue.count

/-- **Add an item at the back**, or nothing when the queue is full. -/
def push? (queue : Queue α) (item : α) : Option (Queue α) :=
  if roomy : queue.count < queue.capacity then
    some
      { queue with
        cells := queue.cells.setIfInBounds (ringIndex queue.front queue.count queue.capacity)
          (some item)
        count := queue.count + 1
        sized := queue.size_push item
        count_le := roomy
        filled := queue.filled_push item roomy }
  else none

/-- **Add an item at the back, or drop and count it** when the queue is full; the flag tells
whether it was added. -/
def pushOrDrop (queue : Queue α) (item : α) : Queue α × Bool :=
  match queue.push? item with
  | some next => (next, true)
  | none => ({ queue with dropped := queue.dropped + 1 }, false)

/-- **Take the oldest item**, from the front cell, and move the front on. -/
def pop (queue : Queue α) : Option α × Queue α :=
  if queue.count = 0 then (none, queue)
  else
    (cellAt queue.cells queue.front,
      { queue with
        front := ringIndex queue.front 1 queue.capacity
        count := queue.count - 1
        front_lt := queue.front_lt_pop
        count_le := Nat.le_trans (Nat.sub_le _ _) queue.count_le
        filled := queue.filled_pop })

/-- Take up to `many` of the oldest items, one pop at a time. -/
def popUpTo (queue : Queue α) : Nat → List α × Queue α
  | 0 => ([], queue)
  | many + 1 =>
    match queue.pop with
    | (some item, rest) => (item :: (rest.popUpTo many).1, (rest.popUpTo many).2)
    | (none, rest) => ([], rest)

/-- Forget every item; the count of dropped items stays. -/
def clear (queue : Queue α) : Queue α :=
  { queue with
    front := 0
    count := 0
    front_lt := fun positive => positive
    count_le := Nat.zero_le _
    filled := fun _ nothing => absurd nothing (Nat.not_lt_zero _) }

/-! ## The operations seen through the items -/

/-- **The ring holds exactly `count` items.** -/
theorem length_items (queue : Queue α) : queue.items.length = queue.count :=
  length_readRing queue.filled

/-- A queue holds no more items than its capacity. -/
theorem fits (queue : Queue α) : queue.items.length ≤ queue.capacity := by
  rw [length_items]
  exact queue.count_le

theorem length_eq (queue : Queue α) : queue.length = queue.items.length :=
  (length_items queue).symm

theorem isEmpty_eq (queue : Queue α) : queue.isEmpty = queue.items.isEmpty := by
  rw [isEmpty, ← length_items]
  cases queue.items <;> rfl

theorem room_eq (queue : Queue α) : queue.room = queue.capacity - queue.items.length := by
  rw [room, length_items]

@[simp]
theorem items_empty (capacity : Nat) : (empty capacity : Queue α).items = [] := rfl

@[simp]
theorem dropped_empty (capacity : Nat) : (empty capacity : Queue α).dropped = 0 := rfl

@[simp]
theorem items_clear (queue : Queue α) : queue.clear.items = [] := rfl

@[simp]
theorem dropped_clear (queue : Queue α) : queue.clear.dropped = queue.dropped := rfl

@[simp]
theorem capacity_clear (queue : Queue α) : queue.clear.capacity = queue.capacity := rfl

/-- **A push writes the cell after the last item**, and the items gain it at the end. -/
theorem items_push (queue : Queue α) (item : α) (roomy : queue.count < queue.capacity) :
    readRing (queue.cells.setIfInBounds (ringIndex queue.front queue.count queue.capacity)
      (some item)) queue.front queue.capacity (queue.count + 1) = queue.items ++ [item] := by
  rw [readRing, readRing_setIfInBounds _ fun offset below =>
    (ringIndex_ne below roomy).symm, cellAt_setIfInBounds_self _ (queue.back_lt roomy)]
  rfl

/-- A push succeeds exactly while there is room, and then appends the item. -/
theorem push?_eq_none_iff {queue : Queue α} {item : α} :
    queue.push? item = none ↔ queue.capacity ≤ queue.items.length := by
  rw [length_items]
  unfold push?
  split
  · rename_i roomy
    simp only [reduceCtorEq, false_iff, Nat.not_le]
    exact roomy
  · rename_i full
    simp only [true_iff]
    omega

/-- What a push that succeeds leaves: the item appended, the capacity and the count of drops
kept. -/
theorem of_push?_eq_some {queue next : Queue α} {item : α} (pushed : queue.push? item = some next) :
    queue.items.length < queue.capacity ∧ next.items = queue.items ++ [item] ∧
      next.capacity = queue.capacity ∧ next.dropped = queue.dropped := by
  unfold push? at pushed
  split at pushed
  · rename_i roomy
    cases pushed
    exact ⟨by rw [length_items]; exact roomy, queue.items_push item roomy, rfl, rfl⟩
  · cases pushed

theorem pushOrDrop_of_lt (queue : Queue α) (item : α) (roomy : queue.count < queue.capacity) :
    queue.pushOrDrop item =
      ({ queue with
        cells := queue.cells.setIfInBounds (ringIndex queue.front queue.count queue.capacity)
          (some item)
        count := queue.count + 1
        sized := queue.size_push item
        count_le := roomy
        filled := queue.filled_push item roomy }, true) := by
  simp only [pushOrDrop, push?, roomy, dite_true]

theorem pushOrDrop_of_le (queue : Queue α) (item : α) (full : queue.capacity ≤ queue.count) :
    queue.pushOrDrop item = ({ queue with dropped := queue.dropped + 1 }, false) := by
  simp only [pushOrDrop, push?, Nat.not_lt.mpr full, dite_false]

@[simp]
theorem capacity_pushOrDrop (queue : Queue α) (item : α) :
    (queue.pushOrDrop item).1.capacity = queue.capacity := by
  by_cases roomy : queue.count < queue.capacity
  · rw [pushOrDrop_of_lt queue item roomy]
  · rw [pushOrDrop_of_le queue item (Nat.le_of_not_lt roomy)]

/-- The items after a push or drop: the item is added iff there was room. -/
theorem items_pushOrDrop (queue : Queue α) (item : α) :
    (queue.pushOrDrop item).1.items =
      if queue.items.length < queue.capacity then queue.items ++ [item] else queue.items := by
  rw [length_items]
  by_cases roomy : queue.count < queue.capacity
  · rw [pushOrDrop_of_lt queue item roomy, if_pos roomy]
    exact queue.items_push item roomy
  · rw [pushOrDrop_of_le queue item (Nat.le_of_not_lt roomy), if_neg roomy]
    rfl

/-- The count after a push or drop: one more iff there was no room. -/
theorem dropped_pushOrDrop (queue : Queue α) (item : α) :
    (queue.pushOrDrop item).1.dropped =
      if queue.items.length < queue.capacity then queue.dropped else queue.dropped + 1 := by
  rw [length_items]
  by_cases roomy : queue.count < queue.capacity
  · rw [pushOrDrop_of_lt queue item roomy, if_pos roomy]
  · rw [pushOrDrop_of_le queue item (Nat.le_of_not_lt roomy), if_neg roomy]

/-- The flag of a push or drop: whether there was room. -/
theorem pushOrDrop_snd (queue : Queue α) (item : α) :
    (queue.pushOrDrop item).2 = decide (queue.items.length < queue.capacity) := by
  rw [length_items]
  by_cases roomy : queue.count < queue.capacity
  · rw [pushOrDrop_of_lt queue item roomy, decide_eq_true roomy]
  · rw [pushOrDrop_of_le queue item (Nat.le_of_not_lt roomy), decide_eq_false roomy]

/-- **A pop gives the oldest item and leaves the others**: the front cell holds the head of the
items, and the ring from the next cell on holds the rest. -/
theorem pop_view (queue : Queue α) :
    queue.pop.1 = queue.items.head? ∧ queue.pop.2.items = queue.items.tail := by
  unfold pop
  split
  · rename_i held
    have nothing : queue.items = [] := List.eq_nil_of_length_eq_zero (by rw [length_items, held])
    simp only [nothing, List.head?_nil, List.tail_nil, and_self]
  · rename_i held
    have front_lt := queue.front_lt_of_held held
    have split_off : queue.items = (cellAt queue.cells queue.front).toList ++
        readRing queue.cells (ringIndex queue.front 1 queue.capacity) queue.capacity
          (queue.count - 1) := by
      have := queue.count_le
      rw [items, ← readRing_succ_front front_lt (by omega), Nat.sub_add_cancel (by omega)]
    -- the front cell is the first in use, so it holds an item
    have first := queue.filled 0 (by omega)
    rw [ringIndex_zero front_lt] at first
    obtain ⟨item, held_first⟩ := Option.isSome_iff_exists.mp first
    rw [held_first] at split_off
    rw [split_off, held_first]
    exact ⟨rfl, rfl⟩

@[simp]
theorem capacity_pop (queue : Queue α) : queue.pop.2.capacity = queue.capacity := by
  unfold pop
  split <;> rfl

@[simp]
theorem dropped_pop (queue : Queue α) : queue.pop.2.dropped = queue.dropped := by
  unfold pop
  split <;> rfl

/-- Popping up to `many` items one at a time: what is taken, and what is left. -/
theorem popUpTo_view (queue : Queue α) (many : Nat) :
    (queue.popUpTo many).1 = queue.items.take many ∧
      (queue.popUpTo many).2.items = queue.items.drop many ∧
      (queue.popUpTo many).2.capacity = queue.capacity := by
  -- induction on the number of pops, each through `pop_view`
  induction many generalizing queue with
  | zero => exact ⟨rfl, rfl, rfl⟩
  | succ many ih =>
    obtain ⟨oldest, rest⟩ := queue.pop_view
    have kept := queue.capacity_pop
    rcases popped : queue.pop with ⟨_ | item, after⟩
    · rw [popped] at oldest rest kept
      have nothing : queue.items = [] := List.head?_eq_none_iff.mp oldest.symm
      rw [nothing] at rest
      simp only [popUpTo, popped, nothing, List.take_nil, List.drop_nil, true_and]
      exact ⟨rest, kept⟩
    · rw [popped] at oldest rest kept
      obtain ⟨taken, left, capacity⟩ := ih after
      obtain ⟨others, split_off⟩ := List.head?_eq_some_iff.mp oldest.symm
      simp only [popUpTo, popped, split_off, List.take_succ_cons, List.drop_succ_cons]
      rw [split_off, List.tail_cons] at rest
      exact ⟨by rw [taken, rest], by rw [left, rest], capacity.trans kept⟩

@[simp]
theorem popUpTo_fst (queue : Queue α) (many : Nat) :
    (queue.popUpTo many).1 = queue.items.take many :=
  (queue.popUpTo_view many).1

@[simp]
theorem items_popUpTo (queue : Queue α) (many : Nat) :
    (queue.popUpTo many).2.items = queue.items.drop many :=
  (queue.popUpTo_view many).2.1

@[simp]
theorem capacity_popUpTo (queue : Queue α) (many : Nat) :
    (queue.popUpTo many).2.capacity = queue.capacity :=
  (queue.popUpTo_view many).2.2

end Queue

end RailBus
