import Mathlib
import RailBus.Proofs.Station.SlotChoice
import RailBus.Proofs.Discovery.Cursor
/-! # The rotation of the bus schedule

Over every run of a station the schedule keeps two invariants (`Station.Paced`): it stands at a
live slot, at discovery or at the status broadcast, and while discovery searches below its top
level it stays at discovery.

With nothing received, the schedule comes round to its status broadcast. `Station.turnsToStatus`
counts the turns left: the live slots still to poll, then the probes discovery sends before it is
back at its top level (`Discovery.countersAhead`), and every turn before the broadcast lowers it by
one. It never exceeds 447, since a climb through the three lower levels takes at most 3 × 127
probes. Between two broadcasts the station pings each slot live after the first, in ascending
order, and then probes.
-/

namespace RailBus

namespace Discovery

/-- The counters still ahead at the levels from 1 up to `level`, after each level's current one. -/
def countersAhead (parts : Vector UInt8 4) (level : Fin 4) : Nat :=
  match level with
  | ⟨0, _⟩ => 0
  | ⟨above + 1, bound⟩ =>
    span ⟨above + 1, bound⟩ - 1 - (parts.get ⟨above + 1, bound⟩).toNat +
      countersAhead parts ⟨above, Nat.lt_of_succ_lt bound⟩
termination_by level.val

theorem countersAhead_top (parts : Vector UInt8 4) (isLt : 0 < 4) :
    countersAhead parts ⟨0, isLt⟩ = 0 := by
  rw [countersAhead.eq_def]

theorem countersAhead_succ (parts : Vector UInt8 4) {above : Nat} (bound : above + 1 < 4) :
    countersAhead parts ⟨above + 1, bound⟩ =
      span ⟨above + 1, bound⟩ - 1 - (parts.get ⟨above + 1, bound⟩).toNat +
        countersAhead parts ⟨above, Nat.lt_of_succ_lt bound⟩ := by
  rw [countersAhead.eq_def]

/-- The counters ahead up to a level read only the parts from 1 up to it. -/
theorem countersAhead_congr {parts others : Vector UInt8 4} (level : Fin 4)
    (same : ∀ index : Fin 4, index ≤ level → parts.get index = others.get index) :
    countersAhead parts level = countersAhead others level := by
  fun_induction countersAhead parts level with
  | case1 isLt =>
    rw [countersAhead.eq_def]
  | case2 above bound ih =>
    have lower : ∀ index : Fin 4, index ≤ ⟨above, Nat.lt_of_succ_lt bound⟩ →
        index ≤ ⟨above + 1, bound⟩ := fun index below => by
      rw [Fin.le_def] at below ⊢
      dsimp only at below ⊢
      omega
    rw [countersAhead_succ, ih fun index below => same index (lower index below),
      same ⟨above + 1, bound⟩ (le_refl _)]

/-- Each level below the top has at most 127 counters ahead. -/
theorem countersAhead_le (parts : Vector UInt8 4) (level : Fin 4) :
    countersAhead parts level ≤ 127 * level.val := by
  fun_induction countersAhead parts level with
  | case1 isLt => exact Nat.zero_le _
  | case2 above bound ih =>
    rw [span_succ bound]
    dsimp only at ih ⊢
    omega

/-- Setting the part below a level leaves the parts up to it as they were. -/
theorem get_set_below {parts : Vector UInt8 4} {above : Nat} (bound : above + 1 < 4)
    (value : UInt8) {index : Fin 4} (lower : index ≤ ⟨above, Nat.lt_of_succ_lt bound⟩) :
    (parts.set (above + 1) value bound).get index = parts.get index := by
  have : index.val ≤ above := Fin.le_def.mp lower
  rw [vector_get_eq_getElem, vector_get_eq_getElem, Fin.getElem_fin, Fin.getElem_fin,
    Vector.getElem_set_ne _ _ (by omega)]

/-- **A probe uses up one counter ahead**: either none was ahead and the search is back at the
top level, or it stays below it with one fewer ahead. -/
theorem countersAhead_advance {parts : Vector UInt8 4} (fits : PartsFit parts) (level : Fin 4) :
    ((advance parts level).1.val = 0 ∧ countersAhead parts level = 0) ∨
      ((advance parts level).1.val ≠ 0 ∧
        countersAhead (advance parts level).2 (advance parts level).1 + 1 =
          countersAhead parts level) := by
  fun_induction advance parts level with
  | case1 parts level bumped room =>
    -- the counter moves on within its level
    obtain ⟨_ | above, bound⟩ := level
    · exact .inl ⟨rfl, countersAhead_top _ _⟩
    refine .inr ⟨Nat.succ_ne_zero above, ?_⟩
    have grown : bumped.toNat = (parts.get ⟨above + 1, bound⟩).toNat + 1 :=
      toNat_add_one_of_fits (fits _)
    have moved : ((parts.set (above + 1) bumped).get ⟨above + 1, bound⟩).toNat =
        (parts.get ⟨above + 1, bound⟩).toNat + 1 := by
      rw [← grown, vector_get_eq_getElem, Fin.getElem_fin, Vector.getElem_set_self]
    have below : countersAhead (parts.set (above + 1) bumped) ⟨above, Nat.lt_of_succ_lt bound⟩ =
        countersAhead parts ⟨above, Nat.lt_of_succ_lt bound⟩ :=
      countersAhead_congr _ fun index lower => get_set_below bound _ lower
    have wide := span_succ bound
    rw [countersAhead_succ, countersAhead_succ, moved, below, wide]
    rw [grown, wide] at room
    omega
  | case2 parts isLt bumped overflow cleared =>
    exact .inl ⟨rfl, countersAhead_top _ _⟩
  | case3 parts above bound bumped overflow cleared ih =>
    -- the last counter of the level: the search climbs to the level above
    have grown : bumped.toNat = (parts.get ⟨above + 1, bound⟩).toNat + 1 :=
      toNat_add_one_of_fits (fits _)
    have fit := fits ⟨above + 1, bound⟩
    have wide := span_succ bound
    rw [wide] at fit
    rw [grown, wide] at overflow
    have untouched : countersAhead cleared ⟨above, Nat.lt_of_succ_lt bound⟩ =
        countersAhead parts ⟨above, Nat.lt_of_succ_lt bound⟩ :=
      countersAhead_congr _ fun index lower => get_set_below bound _ lower
    have spent : countersAhead parts ⟨above + 1, bound⟩ =
        countersAhead cleared ⟨above, Nat.lt_of_succ_lt bound⟩ := by
      rw [countersAhead_succ, untouched, wide]
      omega
    rw [spent]
    exact ih (partsFit_set fits (zero_lt_span _))

end Discovery

namespace UnitTable

/-- Liveness only grows from `before` to `after`. -/
def Grows (before after : UnitTable) : Prop :=
  ∀ index : Fin 64, (before.slots.get index).isAlive = true → (after.slots.get index).isAlive = true

theorem SameUnits.grows {before after : UnitTable} (same : SameUnits before after) :
    Grows before after := fun index live => by
  rw [same.isAlive_eq index]
  exact live

/-- Filling one slot's budget keeps every live slot live. -/
theorem grows_modify (table : UnitTable) (unit : UInt8) {change : Slot → Slot}
    (fills : (change (table.lookup unit)).isAlive = true) : Grows table (table.modify unit change) :=
  fun index live => by
    rw [get_modify]
    split
    · exact fills
    · exact live

theorem grows_touch (table : UnitTable) (unit : UInt8) : Grows table (table.touch unit) :=
  grows_modify table unit rfl

theorem grows_assign (table : UnitTable) (unit : UInt8) (serial : UInt32) :
    Grows table (table.assign unit serial) :=
  grows_modify table unit rfl

/-- A poll's decay changes only the polled slot. -/
theorem get_decay_ne (table : UnitTable) {unit : UInt8} {index : Fin 64}
    (other : slotIndex unit ≠ index) : (table.decay unit).1.slots.get index = table.slots.get index := by
  unfold decay
  dsimp only
  split
  · rfl
  · split
    · rw [get_modify, if_neg other]
    · rw [get_modify, if_neg other]

theorem mem_alive {table : UnitTable} {index : Fin 64} :
    index ∈ table.alive ↔ (table.slots.get index).isAlive = true := by
  simp [alive, vector_get_eq_getElem]

theorem sorted_alive (table : UnitTable) : table.alive.Pairwise (· < ·) :=
  (List.pairwise_lt_finRange 64).filter _

/-- The live slots after `slot`, ascending: those polled after it and before discovery. -/
def liveAfter (table : UnitTable) (slot : Fin 64) : List (Fin 64) :=
  table.alive.filter (·.val > slot.val)

/-- An ascending list of slots is its first one and those after it. -/
theorem eq_cons_of_sorted {slots : List (Fin 64)} (sorted : slots.Pairwise (· < ·))
    {first : Fin 64} (head : slots.head? = some first) :
    slots = first :: slots.filter (·.val > first.val) := by
  obtain ⟨rest, rfl⟩ := List.head?_eq_some_iff.mp head
  rw [List.filter_cons_of_neg (by simp), List.filter_eq_self.mpr]
  intro later member
  simpa using List.rel_of_pairwise_cons sorted member

theorem alive_eq_cons {table : UnitTable} {first : Fin 64} (head : table.alive.head? = some first) :
    table.alive = first :: table.liveAfter first :=
  eq_cons_of_sorted table.sorted_alive head

/-- The live slots after `slot` are the next one and those after it. -/
theorem liveAfter_eq_cons {table : UnitTable} {slot next : Fin 64}
    (head : (table.liveAfter slot).head? = some next) :
    table.liveAfter slot = next :: table.liveAfter next := by
  have later : next ∈ table.liveAfter slot := List.mem_of_mem_head? head
  have beyond : slot.val < next.val := by simpa using (List.mem_filter.mp later).2
  have nested : table.liveAfter next = (table.liveAfter slot).filter (·.val > next.val) := by
    unfold liveAfter
    rw [List.filter_filter]
    apply List.filter_congr
    intro index _
    by_cases after : next.val < index.val
    · have : slot.val < index.val := by omega
      simp [after, this]
    · simp [after]
  rw [nested]
  exact eq_cons_of_sorted ((sorted_alive table).filter _) head

/-- Polling a slot leaves the live slots after it as they were. -/
theorem liveAfter_decay (table : UnitTable) (slot : Fin 64) :
    (table.decay slot.val.toUInt8).1.liveAfter slot = table.liveAfter slot := by
  unfold liveAfter alive
  rw [List.filter_filter, List.filter_filter]
  apply List.filter_congr
  intro index _
  by_cases after : slot.val < index.val
  · have other : slotIndex slot.val.toUInt8 ≠ index := by
      rw [Station.slotIndex_toUInt8]
      exact fun same => by rw [same] at after; omega
    rw [← vector_get_eq_getElem, ← vector_get_eq_getElem, get_decay_ne table other]
  · simp [after]

end UnitTable

namespace Position

variable {table : UnitTable}

theorem next_poll_of_head {slot next : Fin 64} (head : (table.liveAfter slot).head? = some next) :
    Position.next table (.poll slot) = .poll next := by
  rw [UnitTable.liveAfter, List.head?_filter] at head
  simp only [Position.next, head]

theorem next_poll_of_nil {slot : Fin 64} (none : table.liveAfter slot = []) :
    Position.next table (.poll slot) = .discovery := by
  have head : (table.liveAfter slot).head? = Option.none := by rw [none]; rfl
  rw [UnitTable.liveAfter, List.head?_filter] at head
  simp only [Position.next, head]

theorem next_status_of_head {first : Fin 64} (head : table.alive.head? = some first) :
    Position.next table .status = .poll first := by
  simp only [Position.next, head]

theorem next_status_of_nil (none : table.alive = []) : Position.next table .status = .discovery := by
  simp only [Position.next, none, List.head?_nil]

/-- The schedule moves only to live slots. -/
theorem live_of_next {position : Position} {slot : Fin 64}
    (moved : position.next table = .poll slot) : (table.slots.get slot).isAlive = true := by
  apply UnitTable.mem_alive.mp
  cases position with
  | poll unit =>
    simp only [next] at moved
    cases found : table.alive.find? (·.val > unit.val) with
    | none =>
      rw [found] at moved
      cases moved
    | some next =>
      rw [found] at moved
      cases moved
      exact List.mem_of_find?_eq_some found
  | discovery => cases moved
  | status =>
    simp only [next] at moved
    cases first : table.alive.head? with
    | none =>
      rw [first] at moved
      cases moved
    | some first' =>
      rw [first] at moved
      cases moved
      exact List.mem_of_mem_head? first

end Position

namespace Discovery

/-- The probes discovery sends before it is back at its top level and the schedule moves on. -/
def probeTurns (discovery : Discovery) : Nat :=
  countersAhead discovery.parts discovery.level + 1

theorem probeTurns_le (discovery : Discovery) : discovery.probeTurns ≤ 382 := by
  have := countersAhead_le discovery.parts discovery.level
  have := discovery.level.isLt
  unfold probeTurns
  omega

end Discovery

namespace Station

variable {σ : Type}

/-- **The schedule's invariants**: it polls only live slots, and while discovery searches below
its top level it stays at discovery. -/
structure Paced (station : Station σ) : Prop where
  onLive : ∀ slot, station.position = .poll slot → (station.table.slots.get slot).isAlive = true
  searching : station.discovery.level.val ≠ 0 → station.position = .discovery

namespace Paced

variable {station : Station σ}

/-- At discovery both invariants hold, whatever the rest of the station. -/
theorem of_discovery (placed : station.position = .discovery) : station.Paced := by
  constructor
  · intro slot polled
    rw [placed] at polled
    cases polled
  · intro _
    exact placed

/-- A change that keeps the schedule and the search, and only makes slots live. -/
theorem grows {after : Station σ} (paced : station.Paced)
    (live : UnitTable.Grows station.table after.table) (position : after.position = station.position)
    (discovery : after.discovery = station.discovery) : after.Paced := by
  constructor
  · intro slot polled
    rw [position] at polled
    exact live slot (paced.onLive slot polled)
  · intro deep
    rw [discovery] at deep
    rw [position]
    exact paced.searching deep

theorem assign (paced : station.Paced) (serial : UInt32) : (station.assign serial).Paced := by
  rcases station.assign_cases serial with ⟨-, same⟩ | ⟨slot, -, given⟩
  · rw [same]
    exact paced
  · rw [given]
    exact paced.grows (UnitTable.grows_assign _ _ _) rfl rfl

theorem onEcho (paced : station.Paced) (data : Vector UInt8 6) : (station.onEcho data).Paced := by
  rcases station.onEcho_cases data with
    same | ⟨probe, -, ⟨ignored, moved⟩ | ⟨-, moved⟩ | ⟨serial, found, moved⟩⟩
  · rw [same]
    exact paced
  · rw [moved, echo_ignored ignored]
    exact paced
  · rw [moved]
    exact of_discovery rfl
  · rw [moved, echo_found found]
    exact paced.assign serial

variable [Layout σ]

theorem dispatch (paced : station.Paced) (block : Block) : (station.dispatch block).Paced := by
  rcases station.dispatch_cases block with
    ⟨unit, -, echo | restart | quiet⟩ | ⟨-, echo | same⟩
  · have touched : (station.touchUnit unit).Paced := paced.grows (UnitTable.grows_touch _ unit) rfl rfl
    rw [echo]
    exact touched.onEcho _
  · rw [restart]
    exact of_discovery rfl
  · have touched : (station.touchUnit unit).Paced := paced.grows (UnitTable.grows_touch _ unit) rfl rfl
    exact touched.grows quiet.units.grows quiet.position quiet.discovery
  · rw [echo]
    exact paced.onEcho _
  · rw [same]
    exact paced

theorem drain (paced : station.Paced) : station.drain.Paced := by
  unfold Station.drain
  generalize station.bus.inbox = blocks
  generalize hidden : { station with bus := { station.bus with inbox := [] } } = start
  have begins : start.Paced := by rw [← hidden]; exact ⟨paced.onLive, paced.searching⟩
  clear hidden
  induction blocks generalizing start with
  | nil => exact begins
  | cons block blocks ih => exact ih _ (begins.dispatch block)

end Paced

section Turn

variable (station : Station σ)

theorem bus_advance : station.advance.bus = station.bus := by
  unfold advance
  split <;> rfl

theorem position_advance :
    station.advance.position =
      if station.preempted then station.position else station.position.next station.table := by
  unfold advance
  split <;> rfl

@[simp]
theorem discovery_sendProbe : station.sendProbe.discovery = station.discovery.probe.2 := rfl

theorem sent_sendProbe :
    station.sendProbe.bus.sent =
      station.bus.sent ++ [Block.broadcast Code.probe station.discovery.current.toData] := rfl

/-- The keepalive poll sent to a slot. -/
def pingTo (slot : Fin 64) : Block :=
  Block.toUnit slot.val.toUInt8 Code.ping (dataOf [])

theorem sent_poll (slot : Fin 64) :
    (station.poll slot).bus.sent =
      station.bus.sent ++ if (station.table.slots.get slot).isAlive then [pingTo slot] else [] := by
  unfold poll
  dsimp only
  rw [lookup_toUInt8]
  split
  · rename_i dead
    simp only [Bool.not_eq_true'] at dead
    rw [dead, if_neg Bool.false_ne_true, List.append_nil]
  · rename_i live
    have live : (station.table.slots.get slot).isAlive = true := by simpa using live
    rw [live, if_pos rfl]
    split <;> rfl

/-- A poll spends the slot's budget, as the table's decay does; a slot not live is left alone. -/
theorem table_poll (slot : Fin 64) :
    (station.poll slot).table = (station.table.decay slot.val.toUInt8).1 := by
  unfold poll
  dsimp only
  split
  · rename_i dead
    unfold UnitTable.decay
    rw [if_pos]
    simpa [Slot.isAlive] using dead
  · split <;> rfl

end Turn

section Schedule

variable [Layout σ] {station : Station σ}

theorem act_of_poll {slot : Fin 64} (placed : station.position = .poll slot) :
    station.act = station.poll slot := by
  unfold act
  rw [placed]

theorem act_of_discovery (placed : station.position = .discovery) :
    station.act = station.sendProbe := by
  unfold act
  rw [placed]

theorem act_of_status (placed : station.position = .status) :
    station.act = station.broadcastStatus := by
  unfold act
  rw [placed]

theorem discovery_act_of_ne (away : station.position ≠ .discovery) :
    station.act.discovery = station.discovery := by
  cases placed : station.position with
  | poll slot => rw [act_of_poll placed, discovery_poll]
  | discovery => exact absurd placed away
  | status => rw [act_of_status placed, discovery_broadcastStatus]

/-- **A poll turn**: the slot is polled, and the schedule moves to the next live slot after it, or
to discovery. -/
theorem turn_of_poll {slot : Fin 64} (placed : station.position = .poll slot) :
    station.act.advance =
      { station.poll slot with position := Position.next (station.poll slot).table (.poll slot) } := by
  rw [act_of_poll placed]
  unfold advance
  rw [if_neg (by simp [preempted, placed])]
  rw [position_poll, placed]

/-- **A discovery turn**: the probe is sent, and the schedule stays at discovery while the search
is below its top level, and moves to the status broadcast once it is back at it. -/
theorem turn_of_discovery (placed : station.position = .discovery) :
    station.act.advance =
      if (Discovery.advance station.discovery.parts station.discovery.level).1.val = 0 then
        { station.sendProbe with position := .status }
      else station.sendProbe := by
  have kept : station.sendProbe.preempted =
      ((Discovery.advance station.discovery.parts station.discovery.level).1.val != 0) := by
    simp only [preempted, position_sendProbe, placed, beq_self_eq_true, Bool.true_and]
    rfl
  rw [act_of_discovery placed]
  unfold advance
  rw [kept]
  by_cases top : (Discovery.advance station.discovery.parts station.discovery.level).1.val = 0
  · rw [if_pos top, if_neg (by simp [top])]
    rw [position_sendProbe, placed]
    rfl
  · rw [if_neg top, if_pos (by simp [top])]

/-- **A status turn**: the status is broadcast, and the schedule moves to the first live slot, or
to discovery. -/
theorem turn_of_status (placed : station.position = .status) :
    station.act.advance =
      { station.broadcastStatus with position := Position.next station.table .status } := by
  rw [act_of_status placed]
  unfold advance
  rw [if_neg (by simp [preempted, placed])]
  rw [position_broadcastStatus, placed]
  rfl

theorem sent_turn_of_poll {slot : Fin 64} (placed : station.position = .poll slot) :
    station.act.advance.bus.sent =
      station.bus.sent ++ if (station.table.slots.get slot).isAlive then [pingTo slot] else [] := by
  rw [bus_advance, act_of_poll placed, sent_poll]

/-- **Where a poll turn leaves the schedule**: at discovery when no live slot follows the polled
one, and otherwise at the next live slot, with the live slots after that one still ahead. -/
theorem poll_turn_cases {slot : Fin 64} (placed : station.position = .poll slot) :
    (station.table.liveAfter slot = [] ∧ station.act.advance.position = .discovery) ∨
    ∃ next, station.table.liveAfter slot = next :: station.act.advance.table.liveAfter next ∧
      station.act.advance.position = .poll next ∧
      (station.act.advance.table.slots.get next).isAlive = true := by
  -- the poll changes only the polled slot, so the slots after it are those ahead before
  have kept := station.table.liveAfter_decay slot
  have table : station.act.advance.table = (station.table.decay slot.val.toUInt8).1 := by
    rw [table_advance, act_of_poll placed, table_poll]
  have position : station.act.advance.position =
      Position.next (station.table.decay slot.val.toUInt8).1 (.poll slot) := by
    rw [turn_of_poll placed, table_poll]
  rw [table, position]
  cases head : (station.table.liveAfter slot).head? with
  | none =>
    have none := List.head?_eq_none_iff.mp head
    exact .inl ⟨none, Position.next_poll_of_nil (kept.trans none)⟩
  | some next =>
    have decayed : ((station.table.decay slot.val.toUInt8).1.liveAfter slot).head? = some next := by
      rw [kept]
      exact head
    have moved := Position.next_poll_of_head decayed
    refine .inr ⟨next, ?_, moved, Position.live_of_next moved⟩
    rw [← kept]
    exact UnitTable.liveAfter_eq_cons decayed

theorem table_turn_of_status (placed : station.position = .status) :
    station.act.advance.table = station.table := by
  rw [table_advance, act_of_status placed, table_broadcastStatus]

/-- **Where a status turn leaves the schedule**: at the first live slot, with the others after
it, or at discovery when no slot is live. -/
theorem status_turn_cases (placed : station.position = .status) :
    (station.table.alive = [] ∧ station.act.advance.position = .discovery) ∨
    ∃ first, station.table.alive = first :: station.table.liveAfter first ∧
      station.act.advance.position = .poll first ∧ (station.table.slots.get first).isAlive = true := by
  have position : station.act.advance.position = Position.next station.table .status := by
    rw [turn_of_status placed]
  rw [position]
  cases head : station.table.alive.head? with
  | none =>
    have none := List.head?_eq_none_iff.mp head
    exact .inl ⟨none, Position.next_status_of_nil none⟩
  | some first =>
    have moved := Position.next_status_of_head head
    exact .inr ⟨first, UnitTable.alive_eq_cons head, moved, Position.live_of_next moved⟩

theorem Paced.step (paced : station.Paced) : station.step.Paced := by
  have drained := paced.drain
  rw [step_eq]
  constructor
  · intro slot polled
    rw [position_advance] at polled
    split at polled
    · rename_i kept
      simp only [preempted, position_act, Bool.and_eq_true, beq_iff_eq] at kept
      rw [position_act, kept.1] at polled
      cases polled
    · rw [table_advance]
      exact Position.live_of_next polled
  · intro deep
    rw [discovery_advance] at deep
    rw [position_advance]
    split
    · rename_i kept
      simp only [preempted, position_act, Bool.and_eq_true, beq_iff_eq] at kept
      rw [position_act]
      exact kept.1
    · rename_i free
      -- off discovery the turn leaves the search alone, and below the top level it was at discovery
      have away : station.drain.position ≠ .discovery := by
        intro placed
        apply free
        simp only [preempted, position_act, placed, Bool.and_eq_true, beq_iff_eq, true_and]
        simpa using deep
      rw [discovery_act_of_ne away] at deep
      exact absurd (drained.searching deep) away

/-- **The schedule's invariants hold in every reachable station.** -/
theorem paced_of_reachable (reach : station.Reachable) : station.Paced := by
  induction reach with
  | new layout config => exact Paced.of_discovery rfl
  | receive blocks _ _ paced => exact ⟨paced.onLive, paced.searching⟩
  | step _ paced => exact paced.step
  | update change _ paced => exact ⟨paced.onLive, paced.searching⟩
  | updateFirmware image _ paced =>
    unfold updateFirmware
    split
    · exact paced
    · exact ⟨paced.onLive, paced.searching⟩
  | updateFirmwareHex text _ paced =>
    unfold updateFirmwareHex updateFirmware
    split
    · exact paced
    · split
      · exact paced
      · exact ⟨paced.onLive, paced.searching⟩

end Schedule

/-! ## Turns to the status broadcast -/

section Turns

/-- The turns from a schedule position before the one that broadcasts the status: the live slots
still to poll, then the probes until discovery is back at its top level. -/
def turnsFrom (table : UnitTable) (discovery : Discovery) : Position → Nat
  | .poll slot => (table.liveAfter slot).length + 1 + discovery.probeTurns
  | .discovery => discovery.probeTurns
  | .status => 0

/-- The turns a station has before the one that broadcasts the status. -/
def turnsToStatus (station : Station σ) : Nat :=
  turnsFrom station.table station.discovery station.position

theorem turnsToStatus_le (station : Station σ) : station.turnsToStatus ≤ 447 := by
  have probes := station.discovery.probeTurns_le
  unfold turnsToStatus
  cases station.position with
  | poll slot =>
    have slots : (station.table.liveAfter slot).length ≤ 64 :=
      calc (station.table.liveAfter slot).length
          ≤ station.table.alive.length := List.length_filter_le _ _
        _ ≤ (List.finRange 64).length := List.length_filter_le _ _
        _ = 64 := List.length_finRange
    simp only [turnsFrom]
    omega
  | discovery =>
    simp only [turnsFrom]
    omega
  | status => simp only [turnsFrom, Nat.zero_le]

variable [Layout σ] {station : Station σ}

/-- **Every turn before the status broadcast brings it one turn nearer.** -/
theorem turnsToStatus_turn (fits : PartsFit station.discovery.parts)
    (moving : station.position ≠ .status) :
    station.act.advance.turnsToStatus + 1 = station.turnsToStatus := by
  unfold turnsToStatus
  cases placed : station.position with
  | status => exact absurd placed moving
  | poll slot =>
    have kept : station.act.advance.discovery = station.discovery := by
      rw [discovery_advance, act_of_poll placed, discovery_poll]
    rw [kept]
    rcases poll_turn_cases placed with ⟨none, moved⟩ | ⟨next, ahead, moved, -⟩
    · rw [moved]
      simp only [turnsFrom]
      rw [none, List.length_nil]
      omega
    · rw [moved]
      simp only [turnsFrom]
      rw [ahead, List.length_cons]
      omega
  | discovery =>
    rw [turn_of_discovery placed]
    rcases Discovery.countersAhead_advance fits station.discovery.level with
      ⟨top, none⟩ | ⟨deep, fewer⟩
    · rw [if_pos top]
      simp only [turnsFrom, Discovery.probeTurns, none]
    · rw [if_neg deep, position_sendProbe, placed]
      simp only [turnsFrom, Discovery.probeTurns, discovery_sendProbe, Discovery.level_probe,
        Discovery.parts_probe]
      omega

end Turns

/-! ## Runs with nothing received -/

section Runs

variable [Layout σ] {station : Station σ}

/-- A station between two turns of a run with nothing received: reachable, with nothing waiting. -/
structure Idle (station : Station σ) : Prop where
  reachable : station.Reachable
  inbox : station.bus.inbox = []

theorem drain_of_inbox_nil (empty : station.bus.inbox = []) : station.drain = station := by
  unfold drain
  rw [empty, List.foldl_nil, ← empty]

/-- A turn from a reachable station handles everything that was waiting. -/
theorem idle_step (reach : station.Reachable) : station.step.Idle := by
  obtain ⟨⟨blocks, bus, -⟩, -⟩ := extends_step (sound_of_reachable reach)
  exact ⟨.step reach, by rw [bus]⟩

theorem Idle.step_eq (idle : station.Idle) : station.step = station.act.advance := by
  rw [Station.step_eq, drain_of_inbox_nil idle.inbox]

theorem Idle.fits (idle : station.Idle) : PartsFit station.discovery.parts :=
  (sound_of_reachable idle.reachable).probes

theorem fits_drain (reach : station.Reachable) : PartsFit station.drain.discovery.parts :=
  have sound := sound_of_reachable reach
  (extends_drain sound.inbox).probes sound.probes

/-- **The schedule reaches its status broadcast**: after as many turns as `turnsToStatus` counts
from the station's first handling what it received. -/
theorem status_reached (reach : station.Reachable) :
    (step^[station.drain.turnsToStatus] station).drain.position = .status := by
  generalize turns : station.drain.turnsToStatus = count
  induction count generalizing station with
  | zero =>
    rw [Function.iterate_zero_apply]
    unfold turnsToStatus at turns
    cases placed : station.drain.position with
    | poll slot => simp [placed, turnsFrom] at turns
    | discovery => simp [placed, turnsFrom, Discovery.probeTurns] at turns
    | status => rfl
  | succ count ih =>
    have moving : station.drain.position ≠ .status := by
      intro placed
      simp [turnsToStatus, placed, turnsFrom] at turns
    have nearer := turnsToStatus_turn (fits_drain reach) moving
    have next : station.step.drain.turnsToStatus = count := by
      rw [drain_of_inbox_nil (idle_step reach).inbox, step_eq]
      omega
    rw [Function.iterate_succ_apply]
    exact ih (.step reach) next

theorem sent_turn_of_status (placed : station.position = .status) :
    ∃ data, station.act.advance.bus.sent = station.bus.sent ++ [Block.broadcast Code.status data] := by
  rw [bus_advance, act_of_status placed]
  exact ⟨_, rfl⟩

/-- Of the three actions, only the status turn ends with a status broadcast. -/
theorem position_of_status_sent {data : Vector UInt8 6}
    (broadcast : station.act.advance.bus.sent = station.bus.sent ++ [Block.broadcast Code.status data]) :
    station.position = .status := by
  rw [bus_advance] at broadcast
  cases placed : station.position with
  | poll slot =>
    rw [act_of_poll placed, sent_poll] at broadcast
    have sent := List.append_cancel_left broadcast
    split at sent
    · simp [pingTo, Block.toUnit, Block.broadcast, Block.make, Code.ping, Code.status] at sent
    · cases sent
  | discovery =>
    rw [act_of_discovery placed, sent_sendProbe] at broadcast
    have sent := List.append_cancel_left broadcast
    simp [Block.broadcast, Block.make, Code.probe, Code.status] at sent
  | status => rfl


/-- From `station`, with nothing received, the schedule sends one or more probes and nothing else,
and its next turn broadcasts the status. -/
def ProbesThenStatus (station : Station σ) : Prop :=
  ∃ rest, ∃ probes : List (Vector UInt8 6), probes ≠ [] ∧
    (step^[rest] station).bus.sent = station.bus.sent ++ probes.map (Block.broadcast Code.probe) ∧
    ∃ data, (step^[rest] station).step.bus.sent =
      (step^[rest] station).bus.sent ++ [Block.broadcast Code.status data]

theorem ProbesThenStatus.last {data : Vector UInt8 6}
    (probed : station.step.bus.sent = station.bus.sent ++ [Block.broadcast Code.probe data])
    (status : ∃ data, station.step.step.bus.sent =
      station.step.bus.sent ++ [Block.broadcast Code.status data]) :
    station.ProbesThenStatus :=
  ⟨1, [data], List.cons_ne_nil _ _, probed, status⟩

theorem ProbesThenStatus.cons {data : Vector UInt8 6}
    (probed : station.step.bus.sent = station.bus.sent ++ [Block.broadcast Code.probe data])
    (later : station.step.ProbesThenStatus) : station.ProbesThenStatus := by
  obtain ⟨rest, probes, -, sent, status⟩ := later
  refine ⟨rest + 1, data :: probes, List.cons_ne_nil _ _, ?_⟩
  rw [Function.iterate_succ_apply]
  refine ⟨?_, status⟩
  rw [sent, probed, List.map_cons, List.append_assoc, List.singleton_append]

/-- **From discovery the schedule probes until its status broadcast**, one probe for each counter
ahead and one more. -/
theorem probesThenStatus_of_discovery (ahead : Nat) : ∀ {station : Station σ}, station.Idle →
    station.position = .discovery →
    Discovery.countersAhead station.discovery.parts station.discovery.level = ahead →
    station.ProbesThenStatus := by
  induction ahead with
  | zero =>
    intro station idle placed none
    have probed : station.step.bus.sent =
        station.bus.sent ++ [Block.broadcast Code.probe station.discovery.current.toData] := by
      rw [idle.step_eq, bus_advance, act_of_discovery placed, sent_sendProbe]
    -- with no counter ahead the probe brings the search back to its top level
    have top : (Discovery.advance station.discovery.parts station.discovery.level).1.val = 0 := by
      rcases Discovery.countersAhead_advance idle.fits station.discovery.level with
        ⟨top, -⟩ | ⟨-, fewer⟩
      · exact top
      · omega
    have reached : station.step.position = .status := by
      rw [idle.step_eq, turn_of_discovery placed, if_pos top]
    refine .last probed ?_
    rw [(idle_step idle.reachable).step_eq]
    exact sent_turn_of_status reached
  | succ ahead ih =>
    intro station idle placed more
    have probed : station.step.bus.sent =
        station.bus.sent ++ [Block.broadcast Code.probe station.discovery.current.toData] := by
      rw [idle.step_eq, bus_advance, act_of_discovery placed, sent_sendProbe]
    obtain ⟨deep, fewer⟩ : (Discovery.advance station.discovery.parts station.discovery.level).1.val ≠ 0 ∧
        Discovery.countersAhead (Discovery.advance station.discovery.parts station.discovery.level).2
          (Discovery.advance station.discovery.parts station.discovery.level).1 + 1 =
          Discovery.countersAhead station.discovery.parts station.discovery.level := by
      rcases Discovery.countersAhead_advance idle.fits station.discovery.level with
        ⟨-, none⟩ | below
      · omega
      · exact below
    have stays : station.step.position = .discovery := by
      rw [idle.step_eq, turn_of_discovery placed, if_neg deep, position_sendProbe, placed]
    have left : Discovery.countersAhead station.step.discovery.parts station.step.discovery.level =
        ahead := by
      rw [idle.step_eq, turn_of_discovery placed, if_neg deep, discovery_sendProbe,
        Discovery.level_probe, Discovery.parts_probe]
      omega
    exact .cons probed (ih (idle_step idle.reachable) stays left)

/-- **From a live slot the schedule pings it and each live slot after it**, in ascending order,
and then is at discovery. -/
theorem pings_of_poll (pending : List (Fin 64)) : ∀ {station : Station σ} {slot : Fin 64},
    station.Idle → station.position = .poll slot → (station.table.slots.get slot).isAlive = true →
    station.table.liveAfter slot = pending →
    ∃ rest, (step^[rest] station).bus.sent = station.bus.sent ++ (slot :: pending).map pingTo ∧
      (step^[rest] station).Idle ∧ (step^[rest] station).position = .discovery := by
  induction pending with
  | nil =>
    intro station slot idle placed live none
    have pinged := sent_turn_of_poll placed
    rw [if_pos live] at pinged
    refine ⟨1, ?_, idle_step idle.reachable, ?_⟩
    · rw [Function.iterate_one, idle.step_eq, pinged]
      rfl
    · rcases poll_turn_cases placed with ⟨-, moved⟩ | ⟨next, ahead, -, -⟩
      · rw [Function.iterate_one, idle.step_eq]
        exact moved
      · rw [none] at ahead
        cases ahead
  | cons next pending ih =>
    intro station slot idle placed live ahead
    -- the turn pings the slot, and the next live slot after it is polled next
    have pinged := sent_turn_of_poll placed
    rw [if_pos live, ← idle.step_eq] at pinged
    rcases poll_turn_cases placed with ⟨none, -⟩ | ⟨following, after, moved, nextLive⟩
    · rw [none] at ahead
      cases ahead
    rw [ahead] at after
    obtain ⟨rfl, rest⟩ := List.cons.inj after
    rw [← idle.step_eq] at rest moved nextLive
    obtain ⟨count, sent, idle', reached⟩ := ih (idle_step idle.reachable) moved nextLive rest.symm
    refine ⟨count + 1, ?_, ?_, ?_⟩
    · rw [Function.iterate_succ_apply, sent, pinged, List.map_cons, List.append_assoc,
        List.singleton_append]
      rfl
    · rw [Function.iterate_succ_apply]
      exact idle'
    · rw [Function.iterate_succ_apply]
      exact reached

/-- **After a status broadcast** the schedule pings each slot live at that moment, in ascending
order, then probes until its next status broadcast. -/
theorem rotation_of_status {data : Vector UInt8 6} (reach : station.Reachable)
    (broadcast : station.step.bus.sent = station.drain.bus.sent ++ [Block.broadcast Code.status data]) :
    ∃ rest, (step^[rest] station.step).bus.sent =
        station.step.bus.sent ++ station.step.table.alive.map pingTo ∧
      (step^[rest] station.step).ProbesThenStatus := by
  have placed : station.drain.position = .status := by
    rw [step_eq] at broadcast
    exact position_of_status_sent broadcast
  have idle := idle_step reach
  have same : station.step.table = station.drain.table := by
    rw [step_eq, table_turn_of_status placed]
  rcases status_turn_cases placed with ⟨none, moved⟩ | ⟨first, alive, moved, live⟩
  · rw [← step_eq] at moved
    refine ⟨0, by rw [same, none]; simp, ?_⟩
    exact probesThenStatus_of_discovery _ idle moved rfl
  · rw [← step_eq] at moved
    rw [← same] at live
    obtain ⟨rest, sent, idle', atDiscovery⟩ := pings_of_poll _ idle moved live rfl
    refine ⟨rest, ?_, probesThenStatus_of_discovery _ idle' atDiscovery rfl⟩
    rw [sent, same, alive]

end Runs

/-- **The rotation of the bus schedule.** For every layout and every station reachable from a
fresh one: the schedule stands at a live slot, at discovery or at the status broadcast, at
discovery whenever the search is below its top level, and the status round is below 8. With
nothing more received, one of its next 450 turns ends by broadcasting the status. After a turn
that ends so, the station pings each slot live at that moment once, in ascending slot order, then
sends one or more probes, and then broadcasts the status again. -/
theorem schedule_rotation {σ : Type} [Layout σ] :
    (∀ station : Station σ, station.Reachable → station.Paced ∧ station.round.val < 8) ∧
    (∀ station : Station σ, station.Reachable → ∃ turns < 450, ∃ data,
      (step^[turns] station).step.bus.sent =
        (step^[turns] station).drain.bus.sent ++ [Block.broadcast Code.status data]) ∧
    (∀ station : Station σ, station.Reachable → ∀ data,
      station.step.bus.sent = station.drain.bus.sent ++ [Block.broadcast Code.status data] →
      ∃ rest, (step^[rest] station.step).bus.sent =
          station.step.bus.sent ++ station.step.table.alive.map pingTo ∧
        (step^[rest] station.step).ProbesThenStatus) := by
  refine ⟨fun station reach => ⟨paced_of_reachable reach, station.round.isLt⟩, ?_, ?_⟩
  · intro station reach
    have bound := turnsToStatus_le station.drain
    have reached := status_reached reach
    refine ⟨station.drain.turnsToStatus, by omega, ?_⟩
    rw [step_eq]
    exact sent_turn_of_status reached
  · intro station reach data broadcast
    exact rotation_of_status reach broadcast

/-- A fresh station with an in-memory layout probes, then broadcasts the status: the mode stopped
and the refresh byte of round 0 with turnout state 3. No slot is live then, so it pings nobody
before probing and broadcasting the status again. -/
theorem schedule_rotation_fresh :
    let fresh := Station.new ({} : Store) {}
    (fresh.Paced ∧ fresh.round.val < 8) ∧
      (∃ turns < 450, ∃ data, (step^[turns] fresh).step.bus.sent =
        (step^[turns] fresh).drain.bus.sent ++ [Block.broadcast Code.status data]) ∧
      fresh.step.step.bus.sent = fresh.step.drain.bus.sent ++
        [Block.broadcast Code.status (dataOf [0, 24])] ∧
      ∃ rest, (step^[rest] fresh.step.step).bus.sent = fresh.step.step.bus.sent ∧
        (step^[rest] fresh.step.step).ProbesThenStatus := by
  intro fresh
  obtain ⟨invariants, paced, rotation⟩ := schedule_rotation (σ := Store)
  have reach : fresh.Reachable := .new _ _
  -- the schedule is run by the kernel: `UnitTable.alive` does not reduce by unfolding alone
  have status : fresh.step.step.bus.sent = fresh.step.drain.bus.sent ++
      [Block.broadcast Code.status (dataOf [0, 24])] := by decide +kernel
  have nobody : fresh.step.step.table.alive = [] := by decide +kernel
  obtain ⟨rest, sent, probes⟩ := rotation fresh.step reach.step _ status
  rw [nobody, List.map_nil, List.append_nil] at sent
  exact ⟨invariants fresh reach, paced fresh reach, status, rest, sent, probes⟩

end Station

end RailBus
