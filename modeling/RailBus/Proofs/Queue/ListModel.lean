import Mathlib
import RailBus.Queue
/-! # A bounded queue is a list and a drop counter

The queues between the receiver, the transmitter and their callers hold at most `capacity` items
in a ring of cells and drop the newest when full. Seen through the calls a user can make
(`Queue.Call`), a queue behaves as its list model (`Queue.Model`): the items, oldest first, and
the number of items dropped so far. In the model a push succeeds exactly while fewer than
`capacity` items are held and then appends; a refused `push` hands the item back and a refused
`pushOrDrop` counts it; a pop takes the head; a clear empties the list and keeps the count; the
length, the room and emptiness are read off the list; and the count of drops is reported modulo
2³², as the 32-bit counter of the queue wraps around.

Main statement: `Queue.calls_follow_list_model`, for every capacity and every sequence of calls
from an empty queue. It rests on one step lemma (`Queue.Refines.call`) and its run
(`Queue.Refines.calls`). The ring is related to the list through `Queue.items`, which reads the
cells in use from the front on; the invariant the queue structure carries (every cell in use holds
an item) is what makes a push append and a pop take the head of that list (`Queue.items_push`,
`Queue.pop_view`).
-/

namespace RailBus

namespace Queue

variable {α : Type}

/-- A call a user of a queue can make. -/
inductive Call (α : Type) where
  | push (item : α)
  | pushOrDrop (item : α)
  | pop
  | clear
  | length
  | isEmpty
  | room
  | dropped
  deriving DecidableEq, Repr

/-- What a call answers. -/
inductive Reply (α : Type) where
  /-- `clear` answers nothing. -/
  | done
  /-- `push` answers the item it refused, if it refused it. -/
  | pushed (refused : Option α)
  /-- `pushOrDrop` answers whether it added the item, `isEmpty` whether nothing is held. -/
  | flag (value : Bool)
  /-- `length` and `room`. -/
  | count (value : Nat)
  /-- `pop` answers the oldest item, if there is one. -/
  | item (value : Option α)
  /-- `dropped` answers the 32-bit count of drops. -/
  | drops (value : UInt32)
  deriving DecidableEq, Repr

/-- **One call on a queue**: its answer and the queue after it. -/
def call (queue : Queue α) : Call α → Reply α × Queue α
  | .push item =>
    match queue.push? item with
    | some next => (.pushed none, next)
    | none => (.pushed (some item), queue)
  | .pushOrDrop item => (.flag (queue.pushOrDrop item).2, (queue.pushOrDrop item).1)
  | .pop => (.item queue.pop.1, queue.pop.2)
  | .clear => (.done, queue.clear)
  | .length => (.count queue.length, queue)
  | .isEmpty => (.flag queue.isEmpty, queue)
  | .room => (.count queue.room, queue)
  | .dropped => (.drops queue.dropped, queue)

/-- Calls made one after another: their answers in order and the queue after the last. -/
def calls (queue : Queue α) : List (Call α) → List (Reply α) × Queue α
  | [] => ([], queue)
  | first :: rest =>
    ((queue.call first).1 :: ((queue.call first).2.calls rest).1,
      ((queue.call first).2.calls rest).2)

/-- The list model of a queue: the items, oldest first, and the number of items dropped so far,
counted without bound. -/
structure Model (α : Type) where
  items : List α
  drops : Nat
  deriving DecidableEq, Repr

namespace Model

/-- The model of an empty queue that never dropped anything. -/
def init : Model α :=
  { items := [], drops := 0 }

/-- **One call in the model** of a queue of a capacity. -/
def call (capacity : Nat) (model : Model α) : Call α → Reply α × Model α
  | .push item =>
    if model.items.length < capacity then
      (.pushed none, { model with items := model.items ++ [item] })
    else (.pushed (some item), model)
  | .pushOrDrop item =>
    if model.items.length < capacity then
      (.flag true, { model with items := model.items ++ [item] })
    else (.flag false, { model with drops := model.drops + 1 })
  | .pop => (.item model.items.head?, { model with items := model.items.tail })
  | .clear => (.done, { model with items := [] })
  | .length => (.count model.items.length, model)
  | .isEmpty => (.flag (decide (model.items.length = 0)), model)
  | .room => (.count (capacity - model.items.length), model)
  | .dropped => (.drops (UInt32.ofNat model.drops), model)

/-- Calls made one after another in the model. -/
def calls (capacity : Nat) (model : Model α) : List (Call α) → List (Reply α) × Model α
  | [] => ([], model)
  | first :: rest =>
    ((model.call capacity first).1 :: ((model.call capacity first).2.calls capacity rest).1,
      ((model.call capacity first).2.calls capacity rest).2)

end Model

/-! ## The count of drops -/

/-- A 32-bit count one higher is the count of one more drop, modulo 2³². -/
theorem dropped_succ {queue : Queue α} {drops : Nat}
    (counted : queue.dropped = UInt32.ofNat drops) :
    queue.dropped + 1 = UInt32.ofNat (drops + 1) := by
  rw [counted, UInt32.ofNat_add]
  rfl

/-! ## The queue refines its model -/

/-- **A queue of a capacity held as a model**: the same items, and the 32-bit count of drops is
the model's count modulo 2³². -/
structure Refines (capacity : Nat) (queue : Queue α) (model : Model α) : Prop where
  capacity_eq : queue.capacity = capacity
  items_eq : queue.items = model.items
  dropped_eq : queue.dropped = UInt32.ofNat model.drops

theorem refines_empty (capacity : Nat) : Refines capacity (empty capacity : Queue α) Model.init :=
  ⟨rfl, rfl, rfl⟩

variable {capacity : Nat} {queue : Queue α} {model : Model α}

/-- The model of a queue holds no more than the capacity either. -/
theorem Refines.length_le (refines : Refines capacity queue model) :
    model.items.length ≤ capacity := by
  rw [← refines.items_eq, ← refines.capacity_eq]
  exact queue.fits

/-- A push: appended on both sides while there is room, refused with the item handed back
otherwise. -/
theorem Refines.push (refines : Refines capacity queue model) (item : α) :
    (queue.call (.push item)).1 = (model.call capacity (.push item)).1 ∧
      Refines capacity (queue.call (.push item)).2 (model.call capacity (.push item)).2 := by
  obtain ⟨rfl, items_eq, dropped_eq⟩ := refines
  cases pushed : queue.push? item with
  | none =>
    have full : ¬ model.items.length < queue.capacity := by
      rw [← items_eq]
      exact Nat.not_lt.mpr (push?_eq_none_iff.mp pushed)
    simp only [Queue.call, Model.call, pushed, full, if_false, true_and]
    exact ⟨rfl, items_eq, dropped_eq⟩
  | some next =>
    obtain ⟨roomy, items, capacity, dropped⟩ := of_push?_eq_some pushed
    rw [items_eq] at roomy items
    simp only [Queue.call, Model.call, pushed, roomy, if_true, true_and]
    exact ⟨capacity, items, dropped.trans dropped_eq⟩

/-- A push or drop: appended on both sides while there is room, counted as a drop otherwise. -/
theorem Refines.pushOrDrop (refines : Refines capacity queue model) (item : α) :
    (queue.call (.pushOrDrop item)).1 = (model.call capacity (.pushOrDrop item)).1 ∧
      Refines capacity (queue.call (.pushOrDrop item)).2
        (model.call capacity (.pushOrDrop item)).2 := by
  obtain ⟨rfl, items_eq, dropped_eq⟩ := refines
  have answer : (queue.pushOrDrop item).2 = decide (model.items.length < queue.capacity) := by
    rw [pushOrDrop_snd, items_eq]
  -- both sides branch on whether the item fits
  by_cases roomy : model.items.length < queue.capacity
  · simp only [Queue.call, Model.call, answer, roomy, decide_true, if_true, true_and]
    refine ⟨capacity_pushOrDrop queue item, ?_, ?_⟩
    · rw [items_pushOrDrop, items_eq, if_pos roomy]
    · rw [dropped_pushOrDrop, items_eq, if_pos roomy, dropped_eq]
  · simp only [Queue.call, Model.call, answer, roomy, decide_false, if_false, true_and]
    refine ⟨capacity_pushOrDrop queue item, ?_, ?_⟩
    · rw [items_pushOrDrop, items_eq, if_neg roomy]
    · rw [dropped_pushOrDrop, items_eq, if_neg roomy]
      exact dropped_succ dropped_eq

/-- A pop: the head on both sides, and the tail stays. -/
theorem Refines.pop (refines : Refines capacity queue model) :
    (queue.call .pop).1 = (model.call capacity .pop).1 ∧
      Refines capacity (queue.call .pop).2 (model.call capacity .pop).2 := by
  obtain ⟨rfl, items_eq, dropped_eq⟩ := refines
  obtain ⟨head, tail⟩ := pop_view queue
  simp only [Queue.call, Model.call, head, items_eq, true_and]
  exact ⟨capacity_pop queue, by rw [tail, items_eq], (dropped_pop queue).trans dropped_eq⟩

/-- **One call keeps the queue and its model together, with the same answer.** -/
theorem Refines.call (refines : Refines capacity queue model) (request : Call α) :
    (queue.call request).1 = (model.call capacity request).1 ∧
      Refines capacity (queue.call request).2 (model.call capacity request).2 := by
  cases request with
  | push item => exact refines.push item
  | pushOrDrop item => exact refines.pushOrDrop item
  | pop => exact refines.pop
  | clear => exact ⟨rfl, refines.capacity_eq, rfl, refines.dropped_eq⟩
  -- the other calls only read the queue
  | length =>
    refine ⟨?_, refines⟩
    simp only [Queue.call, Model.call, length_eq, refines.items_eq]
  | isEmpty =>
    refine ⟨?_, refines⟩
    simp only [Queue.call, Model.call, isEmpty_eq, refines.items_eq]
    cases model.items <;> rfl
  | room =>
    refine ⟨?_, refines⟩
    simp only [Queue.call, Model.call, room_eq, refines.items_eq, refines.capacity_eq]
  | dropped =>
    refine ⟨?_, refines⟩
    simp only [Queue.call, Model.call, refines.dropped_eq]

/-- **Calls one after another keep the queue and its model together**, with the same answers. -/
theorem Refines.calls (refines : Refines capacity queue model) (requests : List (Call α)) :
    (queue.calls requests).1 = (model.calls capacity requests).1 ∧
      Refines capacity (queue.calls requests).2 (model.calls capacity requests).2 := by
  -- induction on the calls, carrying the refinement from each queue to the next
  induction requests generalizing queue model with
  | nil => exact ⟨rfl, refines⟩
  | cons first rest ih =>
    obtain ⟨answer, next⟩ := refines.call first
    obtain ⟨answers, last⟩ := ih next
    simp only [Queue.calls, Model.calls, answer, answers, true_and]
    exact last

/-- **A bounded queue behaves as its list model.** For every capacity and every sequence of
calls on an empty queue, the queue answers each call as the list model with a drop counter
does, and after the calls it holds the model's items, at most `capacity` of them, with the
model's count of drops modulo 2³². -/
theorem calls_follow_list_model (capacity : Nat) (requests : List (Call α)) :
    ((empty capacity).calls requests).1 = (Model.init.calls capacity requests).1 ∧
      ((empty capacity).calls requests).2.items = (Model.init.calls capacity requests).2.items ∧
      ((empty capacity).calls requests).2.dropped =
        UInt32.ofNat (Model.init.calls capacity requests).2.drops ∧
      (Model.init.calls capacity requests).2.items.length ≤ capacity := by
  obtain ⟨answers, refines⟩ := (refines_empty capacity).calls requests
  exact ⟨answers, refines.items_eq, refines.dropped_eq, refines.length_le⟩

-- a queue of two keeps its two oldest items, a refused push hands the item back uncounted, and
-- the item pushed after the first pop goes to the first cell again
example :
    ((empty 2 : Queue Nat).calls
      [.pushOrDrop 1, .pushOrDrop 2, .pushOrDrop 3, .push 4, .dropped, .pop, .push 5, .room, .pop,
        .pop, .isEmpty]).1 =
      [.flag true, .flag true, .flag false, .pushed (some 4), .drops 1, .item (some 1),
        .pushed none, .count 0, .item (some 2), .item (some 5), .flag true] := by
  decide

end Queue

end RailBus
