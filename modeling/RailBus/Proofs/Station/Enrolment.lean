import Mathlib
import RailBus.Proofs.Discovery.Toward
import RailBus.Proofs.Station.QuietTurns

/-!
# Discovery enrols a unit

One unit without an address listens on the bus and echoes, before the station's next turn, every
probe that agrees with its serial, until the station gives an address. From a station whose search
stands at its start, with a slot to give, the station walks the search down the serial's parts
between its polls and status broadcasts, and within 1000 turns gives the unit the slot chosen for
its serial: the one address it sends and the one connection it reports.
-/

namespace RailBus

namespace Station

variable {σ : Type}

/-- The echo a unit waiting for an address sends for a block it hears: the same probe sent back,
when the block is a probe that agrees with the unit's serial up to the probe's level. -/
def echoOf? (serial : UInt32) (block : Block) : Option Block :=
  if block.command = Code.probe then
    match Probe.ofData? block.data with
    | some probe =>
      if Within probe.parts (probe.level.val + 1) serial then
        some (Block.broadcast Code.probe block.data)
      else none
    | none => none
  else none

theorem echoOf?_of_ne {serial : UInt32} {block : Block} (other : block.command ≠ Code.probe) :
    echoOf? serial block = none := by
  unfold echoOf?
  rw [if_neg other]

/-- A unit echoes a probe that agrees with its serial. -/
theorem echoOf?_probe (serial : UInt32) {probe : Probe} (shape : Shape probe.level probe.parts) :
    echoOf? serial (Block.broadcast Code.probe probe.toData) =
      if Within probe.parts (probe.level.val + 1) serial then
        some (Block.broadcast Code.probe probe.toData)
      else none := by
  have command : (Block.broadcast Code.probe probe.toData).command = Code.probe := rfl
  have data : (Block.broadcast Code.probe probe.toData).data = probe.toData := rfl
  unfold echoOf?
  rw [if_pos command, data, Probe.ofData?_toData shape]

theorem receive_nil (station : Station σ) : station.receive [] = station := by
  simp [receive, Bus.receive]

variable [Layout σ]

/-- A probe broadcast is taken as an echo. -/
theorem dispatch_probe (station : Station σ) (data : Vector UInt8 6) :
    station.dispatch (Block.broadcast Code.probe data) = station.onEcho data := by
  have silent : (Block.broadcast Code.probe data).unit? = none := by
    show unitIndex? broadcastAddress = none
    decide
  have heard : (Block.broadcast Code.probe data).isBroadcast = true ∧
      (Block.broadcast Code.probe data).command = Code.probe := ⟨rfl, rfl⟩
  unfold dispatch
  rw [silent]
  dsimp only
  rw [if_pos heard]
  rfl

end Station

namespace UnitTable

/-- **The slot discovery gives a serial**: the lowest live slot holding it, or, when no live slot
holds it, the lowest slot that is not live. -/
def Chosen (table : UnitTable) (serial : UInt32) (slot : Fin 64) : Prop :=
  ((table.slots.get slot).isAlive = true ∧ (table.slots.get slot).serial = serial ∧
      ∀ earlier < slot, ¬ ((table.slots.get earlier).isAlive = true ∧
        (table.slots.get earlier).serial = serial)) ∨
    ((∀ other : Fin 64, ¬ ((table.slots.get other).isAlive = true ∧
        (table.slots.get other).serial = serial)) ∧
      (table.slots.get slot).isAlive = false ∧ ∀ earlier < slot, (table.slots.get earlier).isAlive = true)

/-- The slot given to a serial holds it, live with a full budget. -/
theorem get_assign_self (table : UnitTable) (slot : Fin 64) (serial : UInt32) :
    (table.assign slot.val.toUInt8 serial).slots.get slot =
      { serial, alive := aliveBudget, assigned := true } := by
  rw [assign, get_modify, Station.slotIndex_toUInt8, if_pos rfl]

theorem chosen_of_eq_some {table : UnitTable} {serial : UInt32} {slot : Fin 64}
    (chosen : (table.findSerial? serial <|> table.vacant?) = some slot) : table.Chosen serial slot := by
  cases held : table.findSerial? serial with
  | some found =>
    rw [held] at chosen
    obtain rfl : found = slot := Option.some.inj chosen
    obtain ⟨⟨live, named⟩, first⟩ := findSerial?_eq_some_iff.mp held
    exact .inl ⟨live, named, first⟩
  | none =>
    rw [held] at chosen
    obtain ⟨dead, first⟩ := vacant?_eq_some_iff.mp chosen
    exact .inr ⟨findSerial?_eq_none_iff.mp held, dead, first⟩

end UnitTable

/-- A station with one unit waiting for an address, and whether the station has sent it one. -/
structure Enrolment (σ : Type) where
  station : Station σ
  addressed : Bool

namespace Enrolment

variable {σ : Type} [Layout σ] {serial : UInt32}

variable (serial) in
/-- **One turn with the unit listening.** The station takes its turn; until an address has been
sent, the unit then echoes the probes of the turn that agree with its serial. -/
def turn (enrolment : Enrolment σ) : Enrolment σ :=
  let next := enrolment.station.step
  let blocks := next.bus.sent.drop enrolment.station.bus.sent.length
  if enrolment.addressed || blocks.any (·.command == Code.setUnitAddress) then ⟨next, true⟩
  else ⟨next.receive (blocks.filterMap (Station.echoOf? serial)), false⟩

variable (serial) in
/-- The station after `count` turns with a unit that starts without an address. -/
def run (station : Station σ) (count : Nat) : Station σ :=
  ((turn serial)^[count] ⟨station, false⟩).station

variable (serial) in
/-- **What enrolling the unit with `serial` achieves from `station`**: within 1000 turns the
station sends the unit the address of the slot chosen for it then, with the serial's parts and the
slot as data; that address and the connection it reports are the only ones, before and ever after;
and the slot is live with the serial. -/
def Enrols (station : Station σ) : Prop :=
  ∃ turns < 1000, ∃ slot : Fin 64, (run serial station turns).table.Chosen serial slot ∧
    (∀ count ≤ turns, Station.addressesSince station (run serial station count) = [] ∧
      Station.connectionsSince station (run serial station count) = []) ∧
    (∀ count > turns, Station.addressesSince station (run serial station count) =
        [Block.toUnit slot.val.toUInt8 Code.setUnitAddress
          (Station.dataOf ((partsOf serial).toList ++ [slot.val.toUInt8]))] ∧
      Station.connectionsSince station (run serial station count) = [.connected slot.val.toUInt8 serial]) ∧
    ((run serial station (turns + 1)).table.slots.get slot).serial = serial ∧
    ((run serial station (turns + 1)).table.slots.get slot).isAlive = true

theorem turn_of_silent {station : Station σ} {blocks : List Block}
    (sent : station.step.bus.sent = station.bus.sent ++ blocks)
    (none : ∀ block ∈ blocks, block.command ≠ Code.setUnitAddress) :
    turn serial ⟨station, false⟩ =
      ⟨station.step.receive (blocks.filterMap (Station.echoOf? serial)), false⟩ := by
  have taken : station.step.bus.sent.drop station.bus.sent.length = blocks := by
    rw [sent, List.drop_left]
  have quiet : (blocks.any fun block => block.command == Code.setUnitAddress) = false := by
    simpa using none
  unfold turn
  dsimp only
  rw [taken, quiet]
  rfl

theorem turn_of_addressed {enrolment : Enrolment σ} (given : enrolment.addressed = true) :
    turn serial enrolment = ⟨enrolment.station.step, true⟩ := by
  unfold turn
  dsimp only
  rw [given, Bool.true_or, if_pos rfl]

theorem turn_of_addressing {enrolment : Enrolment σ} {blocks : List Block}
    (sent : enrolment.station.step.bus.sent = enrolment.station.bus.sent ++ blocks)
    (gives : ∃ block ∈ blocks, block.command = Code.setUnitAddress) :
    turn serial enrolment = ⟨enrolment.station.step, true⟩ := by
  have taken : enrolment.station.step.bus.sent.drop enrolment.station.bus.sent.length = blocks := by
    rw [sent, List.drop_left]
  have given : (blocks.any fun block => block.command == Code.setUnitAddress) = true := by
    obtain ⟨block, member, command⟩ := gives
    exact List.any_eq_true.mpr ⟨block, member, by rw [command, beq_self_eq_true]⟩
  unfold turn
  dsimp only
  rw [taken, given, Bool.or_true, if_pos rfl]

/-- A turn from a station whose received blocks leave it as `drained`, with nothing sent, is the
turn from `drained`. -/
theorem turn_of_drain {station drained : Station σ} (handled : station.drain = drained)
    (empty : drained.bus.inbox = []) (sent : drained.bus.sent = station.bus.sent) (addressed : Bool) :
    turn serial ⟨station, addressed⟩ = turn serial ⟨drained, addressed⟩ := by
  have steps : station.step = drained.step := by
    rw [Station.step_eq, handled, Station.step_eq, Station.drain_of_inbox_nil empty]
  unfold turn
  dsimp only
  rw [steps, sent]

theorem iterate_turn_add (first second : Nat) (enrolment : Enrolment σ) :
    (turn serial)^[first + second] enrolment = (turn serial)^[second] ((turn serial)^[first] enrolment) := by
  rw [Nat.add_comm, Function.iterate_add_apply]

variable (serial) in
/-- The first `count` turns give no address and report no unit connecting. -/
def Silent (enrolment : Enrolment σ) (count : Nat) : Prop :=
  ∀ index < count, Station.Unaddressed ((turn serial)^[index] enrolment).station
    ((turn serial)^[index + 1] enrolment).station

namespace Silent

variable {enrolment : Enrolment σ}

theorem zero : Silent serial enrolment 0 :=
  fun _ below => absurd below (Nat.not_lt_zero _)

theorem cons {count : Nat} (first : Station.Unaddressed enrolment.station (turn serial enrolment).station)
    (later : Silent serial (turn serial enrolment) count) : Silent serial enrolment (count + 1) := by
  intro index below
  cases index with
  | zero => exact first
  | succ index =>
    rw [Function.iterate_succ_apply, Function.iterate_succ_apply]
    exact later index (by omega)

theorem append {first second : Nat} (earlier : Silent serial enrolment first)
    (later : Silent serial ((turn serial)^[first] enrolment) second) :
    Silent serial enrolment (first + second) := by
  intro index below
  by_cases early : index < first
  · exact earlier index early
  · obtain ⟨offset, rfl⟩ : ∃ offset, index = first + offset := ⟨index - first, by omega⟩
    have step := later offset (by omega)
    rwa [← Function.iterate_add_apply, ← Function.iterate_add_apply, Nat.add_comm offset,
      Nat.add_right_comm offset, Nat.add_comm offset] at step

theorem head {count : Nat} (silent : Silent serial enrolment (count + 1)) :
    Station.Unaddressed enrolment.station (turn serial enrolment).station :=
  silent 0 (by omega)

theorem tail {count : Nat} (silent : Silent serial enrolment (count + 1)) :
    Silent serial (turn serial enrolment) count := by
  intro index below
  have step := silent (index + 1) (by omega)
  rwa [Function.iterate_succ_apply, Function.iterate_succ_apply] at step

/-- Along silent turns, the station has sent no address and reported no connection. -/
theorem unaddressed {count : Nat} (silent : Silent serial enrolment count) :
    ∀ index ≤ count, Station.Unaddressed enrolment.station ((turn serial)^[index] enrolment).station := by
  intro index
  induction index with
  | zero => exact fun _ => .refl _
  | succ index ih =>
    intro below
    exact (ih (by omega)).trans (silent index (by omega))

theorem chain {first second : Nat} {middle last : Enrolment σ}
    (ran : (turn serial)^[first] enrolment = middle) (silent : Silent serial enrolment first)
    (ranOn : (turn serial)^[second] middle = last) (silentOn : Silent serial middle second) :
    (turn serial)^[first + second] enrolment = last ∧ Silent serial enrolment (first + second) := by
  refine ⟨?_, silent.append (by rw [ran]; exact silentOn)⟩
  rw [iterate_turn_add, ran, ranOn]

end Silent

/-! ## The search on its way to one unit -/

variable (serial) in
/-- The search at its top level on its way to `serial`, its counter not past the serial's top
part: nothing waits to be handled, and some slot is not live. -/
structure Roaming (counter : UInt8) (station : Station σ) : Prop where
  inbox : station.bus.inbox = []
  level : station.discovery.level = 0
  parts : station.discovery.parts = Discovery.partsToward serial 0 counter
  behind : counter.toNat ≤ ((partsOf serial).get 0).toNat
  room : ∃ slot : Fin 64, (station.table.slots.get slot).isAlive = false

variable (serial) in
/-- The search below its top level on its way to `serial`, holding the schedule, its counter not
past the serial's part at the level. -/
structure Searching (level : Fin 4) (counter : UInt8) (station : Station σ) : Prop where
  inbox : station.bus.inbox = []
  level_eq : station.discovery.level = level
  deep : level.val ≠ 0
  parts : station.discovery.parts = Discovery.partsToward serial level counter
  position : station.position = .discovery
  behind : counter.toNat ≤ ((partsOf serial).get level).toNat
  room : ∃ slot : Fin 64, (station.table.slots.get slot).isAlive = false

variable (serial) in
/-- The probe toward `serial` at `level` holding the serial's own part there was the last one
sent, and its echo waits to be handled. -/
structure Heard (level : Fin 4) (station : Station σ) : Prop where
  last : ∃ before : Discovery, before.level = level ∧
    before.parts = Discovery.partsToward serial level ((partsOf serial).get level) ∧
    station.discovery = before.probe.2
  inbox : station.bus.inbox =
    [Block.broadcast Code.probe
      ({ level, parts := Discovery.partsToward serial level ((partsOf serial).get level) } : Probe).toData]
  placed : station.position = .discovery ∨ station.position = .status
  room : ∃ slot : Fin 64, (station.table.slots.get slot).isAlive = false

/-- **A probe turn toward the serial**: the unit echoes the probe exactly when its counter is the
serial's part, and the turn gives no address. -/
theorem probe_turn {level : Fin 4} {counter : UInt8} {station : Station σ}
    (empty : station.bus.inbox = []) (placed : station.position = .discovery)
    (levelled : station.discovery.level = level)
    (parts : station.discovery.parts = Discovery.partsToward serial level counter)
    (small : counter.toNat < span level) :
    turn serial ⟨station, false⟩ =
      ⟨station.act.advance.receive (if counter = (partsOf serial).get level then
        [Block.broadcast Code.probe station.discovery.current.toData] else []), false⟩ ∧
    Station.Unaddressed station (turn serial ⟨station, false⟩).station := by
  have stepped : station.step = station.act.advance := by
    rw [Station.step_eq, Station.drain_of_inbox_nil empty]
  have sent : station.step.bus.sent =
      station.bus.sent ++ [Block.broadcast Code.probe station.discovery.current.toData] := by
    rw [stepped, Station.bus_advance, Station.act_of_discovery placed, Station.sent_sendProbe]
  have shape : Shape station.discovery.current.level station.discovery.current.parts := by
    rw [Discovery.current_level, Discovery.current_parts, levelled, parts]
    exact Discovery.shape_partsToward small
  have agrees : Within station.discovery.current.parts (station.discovery.current.level.val + 1)
      serial ↔ counter = (partsOf serial).get level := by
    rw [Discovery.current_level, Discovery.current_parts, levelled, parts]
    exact Discovery.within_partsToward
  have turned : turn serial ⟨station, false⟩ =
      ⟨station.act.advance.receive (if counter = (partsOf serial).get level then
        [Block.broadcast Code.probe station.discovery.current.toData] else []), false⟩ := by
    rw [turn_of_silent sent (by simp only [List.mem_singleton, forall_eq, Block.command_broadcast]; decide), stepped]
    by_cases hit : counter = (partsOf serial).get level
    · have echoed : Station.echoOf? serial (Block.broadcast Code.probe station.discovery.current.toData) =
          some (Block.broadcast Code.probe station.discovery.current.toData) := by
        rw [Station.echoOf?_probe serial shape, if_pos (agrees.mpr hit)]
      rw [if_pos hit, List.filterMap_cons_some echoed, List.filterMap_nil]
    · have silent : Station.echoOf? serial (Block.broadcast Code.probe station.discovery.current.toData) =
          none := by
        rw [Station.echoOf?_probe serial shape, if_neg (mt agrees.mp hit)]
      rw [if_neg hit, List.filterMap_cons_none silent, List.filterMap_nil]
  refine ⟨turned, ?_⟩
  rw [turned]
  refine (Station.unaddressed_turn station).trans (.of_eq ?_ ?_)
  · rfl
  · rfl

/-- **Off discovery the schedule walks to it** without a probe, so nothing is echoed. -/
theorem roam_walk {counter : UInt8} (turns : Nat) : ∀ {station : Station σ},
    Roaming serial counter station → station.turnsToProbe = turns →
    ∃ reached : Station σ, (turn serial)^[turns] ⟨station, false⟩ = ⟨reached, false⟩ ∧
      Silent serial ⟨station, false⟩ turns ∧ Roaming serial counter reached ∧
      reached.position = .discovery := by
  induction turns with
  | zero =>
    intro station roaming none
    exact ⟨station, rfl, Silent.zero, roaming, Station.position_of_turnsToProbe none⟩
  | succ turns ih =>
    intro station roaming more
    have away : station.position ≠ .discovery := by
      intro placed
      have none : station.turnsToProbe = 0 := by
        unfold Station.turnsToProbe
        rw [placed]
      omega
    have stepped : station.step = station.act.advance := by
      rw [Station.step_eq, Station.drain_of_inbox_nil roaming.inbox]
    obtain ⟨blocks, sent, kinds⟩ := Station.sent_turn_of_ne away
    rw [← stepped] at sent
    -- a ping or a status broadcast is neither an address nor a probe
    have neither : ∀ block ∈ blocks,
        block.command ≠ Code.setUnitAddress ∧ block.command ≠ Code.probe := by
      intro block member
      rcases kinds block member with ping | status
      · rw [ping]
        decide
      · rw [status]
        decide
    have turned : turn serial ⟨station, false⟩ = ⟨station.step, false⟩ := by
      rw [turn_of_silent sent fun block member => (neither block member).1,
        List.filterMap_eq_nil_iff.mpr fun block member =>
          Station.echoOf?_of_ne (neither block member).2, Station.receive_nil]
    have kept : station.step.discovery = station.discovery := by
      rw [stepped, Station.discovery_advance, Station.discovery_act_of_ne away]
    have moved : Roaming serial counter station.step := by
      obtain ⟨slot, dead⟩ := roaming.room
      refine ⟨?_, ?_, ?_, roaming.behind, slot, ?_⟩
      · rw [stepped, Station.inbox_turn, roaming.inbox]
      · rw [kept, roaming.level]
      · rw [kept, roaming.parts]
      · rw [stepped]
        exact Station.dead_turn _ dead
    have nearer : station.step.turnsToProbe = turns := by
      have fewer := Station.turnsToProbe_turn away
      rw [← stepped] at fewer
      omega
    have first : Station.Unaddressed station (turn serial ⟨station, false⟩).station := by
      rw [turned, stepped]
      exact Station.unaddressed_turn station
    obtain ⟨reached, walked, silent, roamed, placed⟩ := ih moved nearer
    refine ⟨reached, ?_, ?_, roamed, placed⟩
    · rw [Function.iterate_succ_apply, turned, walked]
    · rw [← turned] at silent
      exact Silent.cons first silent

theorem discovery_turn_of_discovery {station : Station σ} (placed : station.position = .discovery) :
    station.act.advance.discovery = station.discovery.probe.2 := by
  rw [Station.discovery_advance, Station.act_of_discovery placed, Station.discovery_sendProbe]

/-- **The top-level probe of a rotation**: it misses the serial and the counter moves on, or it
hits, and its echo waits. -/
theorem roam_probe {counter : UInt8} {station : Station σ} (roaming : Roaming serial counter station)
    (placed : station.position = .discovery) :
    ∃ probed : Station σ, turn serial ⟨station, false⟩ = ⟨probed, false⟩ ∧
      Station.Unaddressed station probed ∧
      ((counter.toNat < ((partsOf serial).get 0).toNat ∧ Roaming serial (counter + 1) probed) ∨
        (counter = (partsOf serial).get 0 ∧ Heard serial 0 probed)) := by
  have fits := partsFit_partsOf serial 0
  have small : counter.toNat < span 0 := by
    have := roaming.behind
    omega
  obtain ⟨turned, quiet⟩ := probe_turn roaming.inbox placed roaming.level roaming.parts small
  rw [turned] at quiet
  -- at the top level the search stays there, and the schedule goes on to the status broadcast
  have top : (Discovery.advance station.discovery.parts station.discovery.level).1.val = 0 := by
    rw [roaming.level, Discovery.level_advance_zero]
    rfl
  have acted : station.act.advance = { station.sendProbe with position := .status } := by
    rw [Station.turn_of_discovery placed, if_pos top]
  have moved := discovery_turn_of_discovery placed
  obtain ⟨slot, dead⟩ := roaming.room
  refine ⟨_, turned, quiet, ?_⟩
  by_cases hit : counter = (partsOf serial).get 0
  · refine .inr ⟨hit, ⟨station.discovery, roaming.level, by rw [roaming.parts, hit], moved⟩, ?_, ?_,
      slot, Station.dead_turn _ dead⟩
    · show station.act.advance.bus.inbox ++ _ = _
      rw [if_pos hit, Station.inbox_turn, roaming.inbox, List.nil_append]
      simp only [Discovery.current, roaming.level, roaming.parts, hit]
    · rw [acted]
      exact .inr rfl
  · have below : counter.toNat < ((partsOf serial).get 0).toNat := by
      have := roaming.behind
      have := mt UInt8.toNat_inj.mp hit
      omega
    have bumped := Discovery.toNat_add_one_of_fits small
    rw [if_neg hit, Station.receive_nil]
    refine .inl ⟨below, ?_, ?_, ?_, by omega, slot, Station.dead_turn _ dead⟩
    · rw [Station.inbox_turn, roaming.inbox]
    · rw [moved, Discovery.level_probe, roaming.level, Discovery.level_advance_zero]
    · rw [moved, Discovery.parts_probe, roaming.parts, roaming.level,
        Discovery.advance_partsToward (by have := fits; omega)]

/-- **At its top level the search comes to the serial's top part**, at one probe a rotation of at
most 66 turns. -/
theorem roam (gap : Nat) : ∀ {counter : UInt8} {station : Station σ},
    Roaming serial counter station → ((partsOf serial).get 0).toNat - counter.toNat = gap →
    ∃ count ≤ station.turnsToProbe + 1 + 66 * gap, ∃ reached : Station σ,
      (turn serial)^[count] ⟨station, false⟩ = ⟨reached, false⟩ ∧
      Silent serial ⟨station, false⟩ count ∧ Heard serial 0 reached := by
  induction gap with
  | zero =>
    intro counter station roaming none
    obtain ⟨walked, ran, silent, roamed, placed⟩ := roam_walk _ roaming rfl
    obtain ⟨probed, turned, quiet, ⟨below, -⟩ | ⟨-, heard⟩⟩ := roam_probe roamed placed
    · have := roamed.behind
      omega
    refine ⟨station.turnsToProbe + 1, by omega, probed, ?_, ?_, heard⟩
    · rw [Function.iterate_succ_apply', ran, turned]
    · refine silent.append ?_
      rw [ran]
      exact Silent.cons (by rw [turned]; exact quiet) Silent.zero
  | succ gap ih =>
    intro counter station roaming more
    obtain ⟨walked, ran, silent, roamed, placed⟩ := roam_walk _ roaming rfl
    obtain ⟨probed, turned, quiet, ⟨below, moved⟩ | ⟨hit, -⟩⟩ := roam_probe roamed placed
    · -- a miss: the counter moves on and the schedule goes round once more
      have small : counter.toNat < span 0 := by
        have := partsFit_partsOf serial 0
        omega
      have bumped := Discovery.toNat_add_one_of_fits small
      obtain ⟨count, bound, reached, finished, silent', heard⟩ := ih moved (by omega)
      have rotation := probed.turnsToProbe_le
      refine ⟨station.turnsToProbe + 1 + count, by omega, reached, ?_, ?_, heard⟩
      · rw [iterate_turn_add, Function.iterate_succ_apply', ran, turned, finished]
      · refine Silent.append (silent.append ?_) ?_
        · rw [ran]
          exact Silent.cons (by rw [turned]; exact quiet) Silent.zero
        · rw [Function.iterate_succ_apply', ran, turned]
          exact silent'
    · rw [hit] at more
      omega

/-- **A probe below the top level**: it misses the serial and the counter moves on, or it hits,
and its echo waits. -/
theorem search_probe {level : Fin 4} {counter : UInt8} {station : Station σ}
    (searching : Searching serial level counter station) :
    ∃ probed : Station σ, turn serial ⟨station, false⟩ = ⟨probed, false⟩ ∧
      Station.Unaddressed station probed ∧
      ((counter.toNat < ((partsOf serial).get level).toNat ∧
          Searching serial level (counter + 1) probed) ∨
        (counter = (partsOf serial).get level ∧ Heard serial level probed)) := by
  have fits := partsFit_partsOf serial level
  have small : counter.toNat < span level := by
    have := searching.behind
    omega
  obtain ⟨turned, quiet⟩ := probe_turn searching.inbox searching.position searching.level_eq
    searching.parts small
  rw [turned] at quiet
  have moved := discovery_turn_of_discovery searching.position
  obtain ⟨slot, dead⟩ := searching.room
  refine ⟨_, turned, quiet, ?_⟩
  by_cases hit : counter = (partsOf serial).get level
  · refine .inr ⟨hit, ⟨station.discovery, searching.level_eq, by rw [searching.parts, hit], moved⟩,
      ?_, ?_, slot, Station.dead_turn _ dead⟩
    · show station.act.advance.bus.inbox ++ _ = _
      rw [if_pos hit, Station.inbox_turn, searching.inbox, List.nil_append]
      simp only [Discovery.current, searching.level_eq, searching.parts, hit]
    · show station.act.advance.position = _ ∨ station.act.advance.position = _
      rw [Station.turn_of_discovery searching.position]
      split
      · exact .inr rfl
      · exact .inl searching.position
  · -- a miss: the counter has room in its level, which keeps the schedule
    have below : counter.toNat < ((partsOf serial).get level).toNat := by
      have := searching.behind
      have := mt UInt8.toNat_inj.mp hit
      omega
    have wide := Discovery.span_of_deep searching.deep
    have bumped := Discovery.toNat_add_one_of_fits small
    have room : counter.toNat + 1 < span level := by omega
    have stays : (Discovery.advance station.discovery.parts station.discovery.level).1.val ≠ 0 := by
      rw [searching.parts, searching.level_eq, Discovery.advance_partsToward room]
      exact searching.deep
    have acted : station.act.advance = station.sendProbe := by
      rw [Station.turn_of_discovery searching.position, if_neg stays]
    rw [if_neg hit, Station.receive_nil]
    refine .inl ⟨below, ?_, ?_, searching.deep, ?_, ?_, by omega, slot, Station.dead_turn _ dead⟩
    · rw [Station.inbox_turn, searching.inbox]
    · rw [moved, Discovery.level_probe, searching.parts, searching.level_eq,
        Discovery.advance_partsToward room]
    · rw [moved, Discovery.parts_probe, searching.parts, searching.level_eq,
        Discovery.advance_partsToward room]
    · rw [acted, Station.position_sendProbe, searching.position]

/-- **Below the top level the search comes to the serial's part**, at one probe a turn. -/
theorem search (gap : Nat) : ∀ {level : Fin 4} {counter : UInt8} {station : Station σ},
    Searching serial level counter station →
    ((partsOf serial).get level).toNat - counter.toNat = gap →
    ∃ reached : Station σ, (turn serial)^[gap + 1] ⟨station, false⟩ = ⟨reached, false⟩ ∧
      Silent serial ⟨station, false⟩ (gap + 1) ∧ Heard serial level reached := by
  induction gap with
  | zero =>
    intro level counter station searching none
    obtain ⟨probed, turned, quiet, ⟨below, -⟩ | ⟨-, heard⟩⟩ := search_probe searching
    · omega
    exact ⟨probed, turned, Silent.cons (by rw [turned]; exact quiet) Silent.zero, heard⟩
  | succ gap ih =>
    intro level counter station searching more
    obtain ⟨probed, turned, quiet, ⟨below, moved⟩ | ⟨hit, -⟩⟩ := search_probe searching
    · have small : counter.toNat < span level := by
        have := partsFit_partsOf serial level
        omega
      have bumped := Discovery.toNat_add_one_of_fits small
      obtain ⟨reached, finished, silent, heard⟩ := ih moved (by omega)
      refine ⟨reached, ?_, ?_, heard⟩
      · rw [Function.iterate_succ_apply, turned, finished]
      · exact Silent.cons (by rw [turned]; exact quiet) (by rw [turned]; exact silent)
    · rw [hit] at more
      omega

/-- The station takes back the probe it heard, a probe of its search as it stood before that
probe; the probe has the shape of its level. -/
theorem drain_of_heard {level : Fin 4} {station : Station σ} (heard : Heard serial level station) :
    ∃ before : Discovery, before.level = level ∧
      before.parts = Discovery.partsToward serial level ((partsOf serial).get level) ∧
      station.discovery = before.probe.2 ∧ Shape before.current.level before.current.parts ∧
      station.drain = Station.onEcho { station with bus := { station.bus with inbox := [] } }
        before.current.toData := by
  obtain ⟨before, levelled, parts, now⟩ := heard.last
  have probe : ({ level, parts := Discovery.partsToward serial level ((partsOf serial).get level) } :
      Probe) = before.current := by
    rw [← parts, ← levelled]
    rfl
  refine ⟨before, levelled, parts, now, ?_, ?_⟩
  · rw [Discovery.current_level, Discovery.current_parts, parts, levelled]
    exact Discovery.shape_partsToward (partsFit_partsOf serial level)
  · unfold Station.drain
    rw [heard.inbox, probe, List.foldl_cons, List.foldl_nil, Station.dispatch_probe]

/-- **The echo of a hit above the last level takes the search one level down**, to counter 0 and
holding the schedule, with nothing sent. -/
theorem heard_drain {level : Fin 4} (below : level.val < 3) {station : Station σ}
    (heard : Heard serial level station) :
    Searching serial ⟨level.val + 1, Nat.succ_lt_succ below⟩ 0 station.drain ∧
      station.drain.bus.sent = station.bus.sent ∧ station.drain.events = station.events := by
  obtain ⟨before, rfl, parts, now, shape, heardBack⟩ := drain_of_heard heard
  have drained : station.drain =
      { station with
        bus := { station.bus with inbox := [] }
        discovery := ⟨⟨before.level.val + 1, Nat.succ_lt_succ below⟩,
          Discovery.partsToward serial ⟨before.level.val + 1, Nat.succ_lt_succ below⟩ 0, []⟩
        position := .discovery } := by
    rw [heardBack]
    unfold Station.onEcho
    rw [Probe.ofData?_toData shape]
    dsimp only
    rw [now, Discovery.echo_probe, dif_pos below]
    dsimp only
    rw [parts, Discovery.descend_partsToward below]
  rw [drained]
  exact ⟨⟨rfl, rfl, Nat.succ_ne_zero _, rfl, rfl, Nat.zero_le _, heard.room⟩, rfl, rfl⟩

/-- **A hit above the last level leads to the hit of the level below**, one probe for each
counter up to the serial's part there. -/
theorem descend {level : Fin 4} (below : level.val < 3) {station : Station σ}
    (heard : Heard serial level station) :
    ∃ count ≤ 128, ∃ reached : Station σ, (turn serial)^[count] ⟨station, false⟩ = ⟨reached, false⟩ ∧
      Silent serial ⟨station, false⟩ count ∧ Heard serial ⟨level.val + 1, Nat.succ_lt_succ below⟩ reached := by
  obtain ⟨searching, sent, events⟩ := heard_drain below heard
  have same : turn serial ⟨station, false⟩ = turn serial ⟨station.drain, false⟩ :=
    turn_of_drain rfl searching.inbox sent false
  have fits := partsFit_partsOf serial ⟨level.val + 1, by omega⟩
  rw [Discovery.span_of_deep (Nat.succ_ne_zero _)] at fits
  obtain ⟨reached, ran, silent, found⟩ :=
    search ((partsOf serial).get ⟨level.val + 1, by omega⟩).toNat searching (by simp)
  refine ⟨_, fits, reached, ?_, ?_, found⟩
  · rw [Function.iterate_succ_apply, same, ← Function.iterate_succ_apply, ran]
  · refine Silent.cons ?_ ?_
    · rw [same]
      exact (Station.Unaddressed.of_eq sent events).trans silent.head
    · rw [same]
      exact silent.tail

omit [Layout σ] in
/-- A slot that is not live leaves the slot choice a slot to give. -/
theorem exists_vacant {table : UnitTable} (room : ∃ slot : Fin 64, (table.slots.get slot).isAlive = false) :
    ∃ slot, table.vacant? = some slot := by
  obtain ⟨slot, dead⟩ := room
  cases free : table.vacant? with
  | some vacant => exact ⟨vacant, rfl⟩
  | none =>
    have live := List.find?_eq_none.mp free slot (List.mem_finRange slot)
    simp only [vector_get_eq_getElem, Fin.getElem_fin] at dead
    simp [dead] at live

theorem table_turn_of_quiet {station : Station σ}
    (placed : station.position = .discovery ∨ station.position = .status) :
    station.act.advance.table = station.table := by
  rw [Station.table_advance]
  rcases placed with placed | placed
  · rw [Station.act_of_discovery placed, Station.table_sendProbe]
  · rw [Station.act_of_status placed, Station.table_broadcastStatus]

/-- **The echo of the last-level hit names the serial**, and the station assigns it. -/
theorem drain_of_last (narrow : serial.toNat < 2 ^ 24) {station : Station σ}
    (heard : Heard serial 3 station) :
    station.drain = { station with bus := { station.bus with inbox := [] } }.assign serial := by
  obtain ⟨before, levelled, parts, now, shape, heardBack⟩ := drain_of_heard heard
  have last : ¬ before.level.val < 3 := by
    rw [levelled]
    decide
  have named : serialOf before.parts = serial := by
    rw [parts, Discovery.partsToward_last, serialOf_partsOf narrow]
  rw [heardBack]
  unfold Station.onEcho
  rw [Probe.ofData?_toData shape]
  dsimp only
  -- the search is left where it was: the discovery the assignment sees is the station's own
  rw [now, Discovery.echo_probe, dif_neg last]
  dsimp only
  rw [named, ← now]

/-- **The last-level hit enrols the unit**: the station gives the serial the slot of its choice,
sends that slot its address and reports the connection, and the unit stops answering. -/
theorem found (narrow : serial.toNat < 2 ^ 24) {station : Station σ} (heard : Heard serial 3 station) :
    ∃ slot : Fin 64, (station.table.findSerial? serial <|> station.table.vacant?) = some slot ∧
      turn serial ⟨station, false⟩ = ⟨station.step, true⟩ ∧
      (∃ rest : List Block, station.step.bus.sent = station.bus.sent ++
          Block.toUnit slot.val.toUInt8 Code.setUnitAddress
            (Station.dataOf ((partsOf serial).toList ++ [slot.val.toUInt8])) :: rest ∧
        ∀ block ∈ rest, block.command ≠ Code.setUnitAddress) ∧
      (∃ raised : List Event,
          station.step.events = station.events ++ .connected slot.val.toUInt8 serial :: raised ∧
        ∀ event ∈ raised, event.isConnected = false) ∧
      (station.step.table.slots.get slot).serial = serial ∧
      (station.step.table.slots.get slot).isAlive = true ∧ station.step.bus.inbox = [] := by
  have drained := drain_of_last narrow heard
  rcases Station.assign_cases { station with bus := { station.bus with inbox := [] } } serial with
    ⟨none, -⟩ | ⟨slot, chosen, given⟩
  · obtain ⟨vacant, free⟩ := exists_vacant heard.room
    simp [free] at none
  rw [given] at drained
  set assigned := ({ { station with bus := { station.bus with inbox := [] } } with
    table := station.table.assign slot.val.toUInt8 serial }.emit (.connected slot.val.toUInt8 serial)).send
      (Block.toUnit slot.val.toUInt8 Code.setUnitAddress
        (Station.dataOf ((partsOf serial).toList ++ [slot.val.toUInt8]))) with assignedEq
  have stepped : station.step = assigned.act.advance := by
    rw [Station.step_eq, drained]
  obtain ⟨⟨blocks, sent, quiet⟩, ⟨raised, events, calm⟩⟩ := Station.unaddressed_turn assigned
  have sentAll : station.step.bus.sent = station.bus.sent ++
      Block.toUnit slot.val.toUInt8 Code.setUnitAddress
        (Station.dataOf ((partsOf serial).toList ++ [slot.val.toUInt8])) :: blocks := by
    rw [stepped, sent, assignedEq]
    simp [Station.send, Station.emit, Bus.send]
  have table : station.step.table = station.table.assign slot.val.toUInt8 serial := by
    have placed : assigned.position = .discovery ∨ assigned.position = .status := heard.placed
    rw [stepped, table_turn_of_quiet placed]
    rfl
  refine ⟨slot, chosen, turn_of_addressing sentAll ⟨_, List.mem_cons_self, rfl⟩, ⟨blocks, sentAll, quiet⟩,
    ⟨raised, ?_, calm⟩, ?_, ?_, ?_⟩
  · rw [stepped, events, assignedEq]
    simp [Station.send, Station.emit]
  · rw [table, UnitTable.get_assign_self]
  · rw [table, UnitTable.get_assign_self]
    rfl
  · rw [stepped, Station.inbox_turn]
    rfl

variable (serial) in
/-- Once the address is sent the unit is quiet, and turns send no other address. -/
theorem after_addressed (count : Nat) : ∀ {station : Station σ}, station.bus.inbox = [] →
    ∃ reached : Station σ, (turn serial)^[count] ⟨station, true⟩ = ⟨reached, true⟩ ∧
      Silent serial ⟨station, true⟩ count := by
  induction count with
  | zero => exact fun _ => ⟨_, rfl, Silent.zero⟩
  | succ count ih =>
    intro station empty
    have turned : turn serial ⟨station, true⟩ = ⟨station.step, true⟩ := turn_of_addressed rfl
    have stepped : station.step = station.act.advance := by
      rw [Station.step_eq, Station.drain_of_inbox_nil empty]
    obtain ⟨reached, ran, silent⟩ :=
      ih (show station.step.bus.inbox = [] by rw [stepped, Station.inbox_turn, empty])
    refine ⟨reached, ?_, Silent.cons ?_ ?_⟩
    · rw [Function.iterate_succ_apply, turned, ran]
    · rw [turned, stepped]
      exact Station.unaddressed_turn station
    · rw [turned]
      exact silent

/-- **Discovery enrols a unit.** From a station with nothing received whose search stands at its
start, with a slot not live, a unit with a 24-bit serial that echoes every probe its serial agrees
with until it is given an address is enrolled: the search walks down its four levels, the echo of
the last one names the serial, and the unit is given the slot chosen for it. -/
theorem discovery_enrols_unit {serial : UInt32} (narrow : serial.toNat < 2 ^ 24) {station : Station σ}
    (empty : station.bus.inbox = []) (top : station.discovery.level = 0)
    (cleared : station.discovery.parts = #v[0, 0, 0, 0])
    (room : ∃ slot : Fin 64, (station.table.slots.get slot).isAlive = false) :
    Enrols serial station := by
  have roaming : Roaming serial 0 station :=
    ⟨empty, top, by rw [cleared, Discovery.partsToward_top_zero], Nat.zero_le _, room⟩
  have fits : ((partsOf serial).get 0).toNat < 8 := partsFit_partsOf serial 0
  -- the level-0 probes between polls and status broadcasts, then one search of each lower level
  obtain ⟨first, within, hit, ranTop, silentTop, heardTop⟩ :=
    roam ((partsOf serial).get 0).toNat roaming (by simp)
  obtain ⟨second, withinOne, one, ranOne, silentOne, heardOne⟩ := descend (by decide) heardTop
  obtain ⟨third, withinTwo, two, ranTwo, silentTwo, heardTwo⟩ := descend (by decide) heardOne
  obtain ⟨fourth, withinThree, three, ranThree, silentThree, heardThree⟩ := descend (by decide) heardTwo
  obtain ⟨ranOne, silentOne⟩ := Silent.chain ranTop silentTop ranOne silentOne
  obtain ⟨ranTwo, silentTwo⟩ := Silent.chain ranOne silentOne ranTwo silentTwo
  obtain ⟨ran, silent⟩ := Silent.chain ranTwo silentTwo ranThree silentThree
  have bounded : first + second + third + fourth < 1000 := by
    have := Station.turnsToProbe_le station
    omega
  obtain ⟨slot, chosen, turned, ⟨rest, given, calm⟩, ⟨raised, events, quiet⟩, named, live, drained⟩ :=
    found narrow heardThree
  have landed : ∀ extra, (turn serial)^[first + second + third + fourth + 1 + extra] ⟨station, false⟩ =
      (turn serial)^[extra] ⟨three.step, true⟩ := by
    intro extra
    rw [iterate_turn_add, iterate_turn_add, ran, Function.iterate_one, turned]
  refine ⟨_, bounded, slot, ?_, ?_, ?_, ?_, ?_⟩
  · rw [run, ran]
    exact UnitTable.chosen_of_eq_some chosen
  · intro count early
    have unaddressed := silent.unaddressed count early
    exact ⟨unaddressed.addressesSince_eq_nil, unaddressed.connectionsSince_eq_nil⟩
  · intro count late
    obtain ⟨extra, rfl⟩ : ∃ extra, count = first + second + third + fourth + 1 + extra :=
      ⟨count - (first + second + third + fourth + 1), by omega⟩
    obtain ⟨reached, ranOn, silentOn⟩ := after_addressed serial extra drained
    have before := silent.unaddressed _ le_rfl
    rw [ran] at before
    have after := silentOn.unaddressed extra le_rfl
    rw [ranOn] at after
    rw [run, landed, ranOn]
    exact ⟨Station.addressesSince_around before given rfl calm after,
      Station.connectionsSince_around before events rfl quiet after⟩
  · rw [run, ← Nat.add_zero (_ + 1), landed]
    exact named
  · rw [run, ← Nat.add_zero (_ + 1), landed]
    exact live

/-- A fresh station enrols the unit with serial 0x2b1a05. -/
theorem discovery_enrols_unit_fresh :
    (0x2b1a05 : UInt32).toNat < 2 ^ 24 ∧ (Station.new ({} : Store) {}).bus.inbox = [] ∧
      (Station.new ({} : Store) {}).discovery.level = 0 ∧
      (Station.new ({} : Store) {}).discovery.parts = #v[0, 0, 0, 0] ∧
      (∃ slot : Fin 64, ((Station.new ({} : Store) {}).table.slots.get slot).isAlive = false) ∧
      Enrols 0x2b1a05 (Station.new ({} : Store) {}) :=
  have narrow : (0x2b1a05 : UInt32).toNat < 2 ^ 24 := by decide
  have empty : (Station.new ({} : Store) {}).bus.inbox = [] := rfl
  have top : (Station.new ({} : Store) {}).discovery.level = 0 := rfl
  have cleared : (Station.new ({} : Store) {}).discovery.parts = #v[0, 0, 0, 0] := rfl
  have room : ∃ slot : Fin 64, ((Station.new ({} : Store) {}).table.slots.get slot).isAlive = false :=
    ⟨0, by decide⟩
  ⟨narrow, empty, top, cleared, room, discovery_enrols_unit narrow empty top cleared room⟩

end Enrolment

end RailBus
