import RailBus.Proofs.Discovery.Cursor
/-! # Discovery finds every unit

A hunt runs the search against a finite set of unaddressed units, known by their 24-bit serials:
each step sends the next probe, and when a hidden unit's serial agrees with the probe up to its
level the unit echoes it at once. A unit the echo names gets its address and answers no more.

The search is a depth-first walk of the trie of serial parts. The proof follows its levels from
the bottom up. Visiting one counter of a level (`VisitSpec`) costs one probe, and when some unit
lies below the counter, a full scan of the level below; scanning the rest of a level
(`ScanSpec`) is a visit to each remaining counter, and then the cursor climbs (`Discovery.climb`).
Each scan of a level below the top costs at most 128 probes for each node of the trie it enters,
so the top-level scan, from the start, names every unit once within `8 + 384 · n` probes
(`Hunt.finds_every_serial`). Along the way nothing else is named (`Hunt.Accounts`).
-/

namespace RailBus

namespace Discovery

/-- The search run against units that echo the probes they agree with. -/
structure Hunt where
  discovery : Discovery
  /-- The serials of the units without an address. -/
  hidden : Finset UInt32
  /-- The serials the echoes named, in order. -/
  found : List UInt32

namespace Hunt

/-- The hunt from the start of the search. -/
def start (serials : Finset UInt32) : Hunt :=
  { discovery := .initial, hidden := serials, found := [] }

/-- **One probe**, echoed at once when a hidden unit agrees with it up to its level. A unit the
echo names is addressed and stops answering. -/
def step (hunt : Hunt) : Hunt :=
  let (probe, discovery) := hunt.discovery.probe
  if ∃ serial ∈ hunt.hidden, Within probe.parts (probe.level.val + 1) serial then
    match discovery.echo probe with
    | (.found serial, discovery) =>
      { discovery, hidden := hunt.hidden.erase serial, found := hunt.found ++ [serial] }
    | (_, discovery) => { hunt with discovery }
  else { hunt with discovery }

/-- A number of probes. -/
def run (hunt : Hunt) : Nat → Hunt
  | 0 => hunt
  | count + 1 => hunt.step.run count

theorem run_add (hunt : Hunt) (first second : Nat) :
    hunt.run (first + second) = (hunt.run first).run second := by
  induction first generalizing hunt with
  | zero => rw [Nat.zero_add]; rfl
  | succ first ih =>
    rw [Nat.add_right_comm]
    exact ih hunt.step

theorem run_one (hunt : Hunt) : hunt.run 1 = hunt.step := rfl

/-- The hidden units that agree with the current probe. -/
def here (hunt : Hunt) : Finset UInt32 :=
  hunt.hidden.filter (Within hunt.discovery.parts (hunt.discovery.level.val + 1))

theorem mem_here {hunt : Hunt} {serial : UInt32} :
    serial ∈ hunt.here ↔ serial ∈ hunt.hidden ∧
      Within hunt.discovery.parts (hunt.discovery.level.val + 1) serial :=
  Finset.mem_filter

/-! ## One step -/

section Step

variable (hunt : Hunt)

theorem step_quiet (quiet : hunt.here = ∅) :
    hunt.step.discovery.level = (advance hunt.discovery.parts hunt.discovery.level).1 ∧
      hunt.step.discovery.parts = (advance hunt.discovery.parts hunt.discovery.level).2 ∧
      hunt.step.hidden = hunt.hidden ∧ hunt.step.found = hunt.found := by
  have silent : ¬ ∃ serial ∈ hunt.hidden,
      Within hunt.discovery.parts (hunt.discovery.level.val + 1) serial := by
    rintro ⟨serial, hidden, within⟩
    have member : serial ∈ hunt.here := Finset.mem_filter.mpr ⟨hidden, within⟩
    rw [quiet] at member
    exact Finset.notMem_empty serial member
  refine ⟨?_, ?_, ?_, ?_⟩
  all_goals unfold step
  all_goals simp only [probe_fst, current_level, current_parts, silent, ↓reduceIte, level_probe,
    parts_probe]

theorem step_descend (heard : hunt.here.Nonempty) (below : hunt.discovery.level.val < 3) :
    hunt.step.discovery.level = ⟨hunt.discovery.level.val + 1, Nat.succ_lt_succ below⟩ ∧
      hunt.step.discovery.parts = (Vector.ofFn fun index : Fin 4 =>
        if index.val ≤ hunt.discovery.level.val then hunt.discovery.parts[index] else 0) ∧
      hunt.step.hidden = hunt.hidden ∧ hunt.step.found = hunt.found := by
  obtain ⟨serial, member⟩ := heard
  obtain ⟨hidden, within⟩ := Finset.mem_filter.mp member
  have agrees : ∃ serial ∈ hunt.hidden,
      Within hunt.discovery.parts (hunt.discovery.level.val + 1) serial :=
    ⟨serial, hidden, within⟩
  refine ⟨?_, ?_, ?_, ?_⟩
  all_goals unfold step
  all_goals simp only [probe_fst, current_level, current_parts, agrees, ↓reduceIte, echo_probe,
    below, ↓reduceDIte]

theorem step_names (heard : hunt.here.Nonempty) (last : hunt.discovery.level.val = 3) :
    hunt.step.discovery.level = (advance hunt.discovery.parts hunt.discovery.level).1 ∧
      hunt.step.discovery.parts = (advance hunt.discovery.parts hunt.discovery.level).2 ∧
      hunt.step.hidden = hunt.hidden.erase (serialOf hunt.discovery.parts) ∧
      hunt.step.found = hunt.found ++ [serialOf hunt.discovery.parts] := by
  obtain ⟨serial, member⟩ := heard
  obtain ⟨hidden, within⟩ := Finset.mem_filter.mp member
  have agrees : ∃ serial ∈ hunt.hidden,
      Within hunt.discovery.parts (hunt.discovery.level.val + 1) serial :=
    ⟨serial, hidden, within⟩
  have atLast : ¬ hunt.discovery.level.val < 3 := by omega
  refine ⟨?_, ?_, ?_, ?_⟩
  all_goals unfold step
  all_goals simp only [probe_fst, current_level, current_parts, agrees, ↓reduceIte, echo_probe,
    atLast, ↓reduceDIte, level_probe, parts_probe]

/-- A probe either leaves the units alone or, at the last level, names the one under its parts. -/
theorem step_cases :
    (hunt.step.hidden = hunt.hidden ∧ hunt.step.found = hunt.found) ∨
      (hunt.here.Nonempty ∧ hunt.discovery.level.val = 3 ∧
        hunt.step.hidden = hunt.hidden.erase (serialOf hunt.discovery.parts) ∧
        hunt.step.found = hunt.found ++ [serialOf hunt.discovery.parts]) := by
  by_cases quiet : hunt.here = ∅
  · obtain ⟨-, -, hidden, found⟩ := step_quiet hunt quiet
    exact .inl ⟨hidden, found⟩
  have heard := Finset.nonempty_iff_ne_empty.mpr quiet
  by_cases below : hunt.discovery.level.val < 3
  · obtain ⟨-, -, hidden, found⟩ := step_descend hunt heard below
    exact .inl ⟨hidden, found⟩
  · have last : hunt.discovery.level.val = 3 := by
      have := hunt.discovery.level.isLt
      omega
    obtain ⟨-, -, hidden, found⟩ := step_names hunt heard last
    exact .inr ⟨heard, last, hidden, found⟩

theorem found_prefix_step : hunt.found <+: hunt.step.found := by
  rcases step_cases hunt with ⟨-, found⟩ | ⟨-, -, -, found⟩
  · rw [found]
  · rw [found]
    exact List.prefix_append _ _

theorem found_prefix_run (count : Nat) : hunt.found <+: (hunt.run count).found := by
  induction count generalizing hunt with
  | zero => exact List.prefix_refl _
  | succ count ih => exact (found_prefix_step hunt).trans (ih hunt.step)

/-- At the last level, the units that agree with the probe are the one its parts name. -/
theorem here_of_last (last : hunt.discovery.level.val = 3)
    (narrow : ∀ serial ∈ hunt.hidden, serial.toNat < 2 ^ 24) {serial : UInt32}
    (member : serial ∈ hunt.here) : serial = serialOf hunt.discovery.parts := by
  obtain ⟨hidden, within⟩ := Finset.mem_filter.mp member
  rw [last] at within
  rw [eq_partsOf_of_within within, serialOf_partsOf (narrow serial hidden)]

end Step

/-! ## Sweeping part of the trie -/

/-- From `before` to `after` the echoes named exactly the serials `named`, each once, and the
cursor ended at `cursor`. -/
structure Sweeps (before after : Hunt) (named : Finset UInt32) (cursor : Fin 4 × Vector UInt8 4) :
    Prop where
  level : after.discovery.level = cursor.1
  parts : after.discovery.parts = cursor.2
  hidden : after.hidden = before.hidden \ named
  found : ∃ order : List UInt32, order.Nodup ∧ order.toFinset = named ∧
    after.found = before.found ++ order

theorem Sweeps.trans {first second third : Hunt} {named more : Finset UInt32}
    {cursor next : Fin 4 × Vector UInt8 4} (earlier : Sweeps first second named cursor)
    (later : Sweeps second third more next) (apart : Disjoint named more) :
    Sweeps first third (named ∪ more) next := by
  obtain ⟨-, -, hiddenEarlier, order, nodup, names, found⟩ := earlier
  obtain ⟨level, parts, hiddenLater, order', nodup', names', found'⟩ := later
  refine ⟨level, parts,
    by rw [hiddenLater, hiddenEarlier, sdiff_sdiff_left, Finset.sup_eq_union], order ++ order', ?_,
    by rw [List.toFinset_append, names, names'], by rw [found', found, List.append_assoc]⟩
  refine List.nodup_append.mpr ⟨nodup, nodup', fun x inFirst y inSecond same => ?_⟩
  have named : x ∈ named := by rw [← names]; exact List.mem_toFinset.mpr inFirst
  have more : y ∈ more := by rw [← names']; exact List.mem_toFinset.mpr inSecond
  exact Finset.disjoint_left.mp apart named (same ▸ more)

/-- Units that stay hidden keep their serials narrow. -/
theorem Sweeps.narrow {before after : Hunt} {named : Finset UInt32}
    {cursor : Fin 4 × Vector UInt8 4} (sweep : Sweeps before after named cursor)
    (narrow : ∀ serial ∈ before.hidden, serial.toNat < 2 ^ 24) :
    ∀ serial ∈ after.hidden, serial.toNat < 2 ^ 24 := by
  intro serial member
  rw [sweep.hidden] at member
  exact narrow serial (Finset.mem_sdiff.mp member).1

/-- A probe nobody echoes only moves the cursor on. -/
theorem sweeps_quiet {hunt : Hunt} {level : Fin 4} (atLevel : hunt.discovery.level = level)
    (quiet : hunt.here = ∅) :
    Sweeps hunt (hunt.run 1) ∅ (advance hunt.discovery.parts level) := by
  obtain ⟨level, parts, hidden, found⟩ := step_quiet hunt quiet
  rw [run_one, ← atLevel]
  exact ⟨level, parts, by rw [hidden, Finset.sdiff_empty], [], List.nodup_nil, rfl,
    by rw [found, List.append_nil]⟩

/-- The cost of visiting one counter of a level: the probe, and a scan of each level below. -/
def visitCost (level : Fin 4) (named : Nat) : Nat :=
  1 + 128 * (3 - level.val) * named

/-- **Visiting a counter**: the units below it are named, within the cost, and the cursor moves
on as one probe moves it. -/
def VisitSpec (level : Fin 4) : Prop :=
  ∀ hunt : Hunt, hunt.discovery.level = level → Shape level hunt.discovery.parts →
    (∀ serial ∈ hunt.hidden, serial.toNat < 2 ^ 24) →
    ∃ count ≤ visitCost level hunt.here.card,
      Sweeps hunt (hunt.run count) hunt.here (advance hunt.discovery.parts level)

/-- A visit with no unit below the counter is its one probe. -/
theorem visit_quiet {hunt : Hunt} {level : Fin 4} (atLevel : hunt.discovery.level = level)
    (quiet : hunt.here = ∅) :
    ∃ count ≤ visitCost level hunt.here.card,
      Sweeps hunt (hunt.run count) hunt.here (advance hunt.discovery.parts level) :=
  ⟨1, by simp [visitCost], by rw [quiet]; exact sweeps_quiet atLevel quiet⟩

/-- The hidden units in the rest of the current level: those under the upper parts whose part at
the level is not below the counter. -/
def rest (hunt : Hunt) : Finset UInt32 :=
  hunt.hidden.filter fun serial => Within hunt.discovery.parts hunt.discovery.level.val serial ∧
    (hunt.discovery.parts.get hunt.discovery.level).toNat ≤
      ((partsOf serial).get hunt.discovery.level).toNat

theorem mem_rest {hunt : Hunt} {serial : UInt32} :
    serial ∈ hunt.rest ↔ serial ∈ hunt.hidden ∧
      Within hunt.discovery.parts hunt.discovery.level.val serial ∧
      (hunt.discovery.parts.get hunt.discovery.level).toNat ≤
        ((partsOf serial).get hunt.discovery.level).toNat :=
  Finset.mem_filter

/-- Agreeing up to a level is agreeing above it and at its counter. -/
theorem within_succ_toNat {parts : Vector UInt8 4} {level : Fin 4} {serial : UInt32} :
    Within parts (level.val + 1) serial ↔
      Within parts level.val serial ∧
        (parts.get level).toNat = ((partsOf serial).get level).toNat := by
  rw [within_succ, UInt8.toNat_inj]

/-- The last counter of a level leaves no unit for the rest of the level but those below it. -/
theorem rest_eq_here {hunt : Hunt}
    (last : (hunt.discovery.parts.get hunt.discovery.level).toNat + 1 = span hunt.discovery.level) :
    hunt.rest = hunt.here := by
  ext serial
  have fits := partsFit_partsOf serial hunt.discovery.level
  rw [mem_rest, mem_here, within_succ_toNat]
  constructor
  · rintro ⟨hidden, within, atLeast⟩
    exact ⟨hidden, within, by omega⟩
  · rintro ⟨hidden, within, same⟩
    exact ⟨hidden, within, by omega⟩

/-- **Scanning the rest of a level**: its units are named, within a probe per remaining counter
and the scans below, and the cursor climbs out of the level. -/
def ScanSpec (level : Fin 4) : Prop :=
  ∀ hunt : Hunt, hunt.discovery.level = level → Shape level hunt.discovery.parts →
    (∀ serial ∈ hunt.hidden, serial.toNat < 2 ^ 24) →
    ∃ count ≤ span level - (hunt.discovery.parts.get level).toNat +
        128 * (3 - level.val) * hunt.rest.card,
      Sweeps hunt (hunt.run count) hunt.rest (climb hunt.discovery.parts level)

/-! ## Level by level -/

/-- The units that agree with a probe at the last level are only the one it names. -/
theorem here_eq_singleton {hunt : Hunt} (last : hunt.discovery.level.val = 3)
    (narrow : ∀ serial ∈ hunt.hidden, serial.toNat < 2 ^ 24) (heard : hunt.here.Nonempty) :
    hunt.here = {serialOf hunt.discovery.parts} := by
  obtain ⟨serial, member⟩ := heard
  have named := here_of_last hunt last narrow member
  ext other
  rw [Finset.mem_singleton]
  constructor
  · exact here_of_last hunt last narrow
  · rintro rfl
    rwa [← named]

/-- At the last level a visit is one probe, and its echo names the unit below the counter. -/
theorem visit_last : VisitSpec 3 := by
  intro hunt atLevel _ narrow
  by_cases quiet : hunt.here = ∅
  · exact visit_quiet atLevel quiet
  have heard := Finset.nonempty_iff_ne_empty.mpr quiet
  have last : hunt.discovery.level.val = 3 := by rw [atLevel]; rfl
  obtain ⟨level, parts, hidden, found⟩ := step_names hunt heard last
  refine ⟨1, by simp [visitCost], ?_⟩
  rw [here_eq_singleton last narrow heard, run_one, ← atLevel]
  exact ⟨level, parts, by rw [hidden, Finset.erase_eq], [serialOf hunt.discovery.parts],
    List.nodup_singleton _, by simp, found⟩

/-- Descending from a counter with units below it: the level below starts at its first counter,
so the rest of that level is every unit below the counter. -/
theorem rest_step_eq_here {hunt : Hunt} {level : Nat} (below : level + 1 < 4)
    (atLevel : hunt.discovery.level = ⟨level, Nat.lt_of_succ_lt below⟩)
    (shape : Shape ⟨level, Nat.lt_of_succ_lt below⟩ hunt.discovery.parts)
    (heard : hunt.here.Nonempty) :
    hunt.step.discovery.level = ⟨level + 1, below⟩ ∧
      hunt.step.discovery.parts = hunt.discovery.parts ∧ hunt.step.rest = hunt.here ∧
      Sweeps hunt (hunt.run 1) ∅ (⟨level + 1, below⟩, hunt.discovery.parts) := by
  have lower : hunt.discovery.level.val < 3 := by rw [atLevel]; exact Nat.lt_of_succ_lt_succ below
  obtain ⟨stepLevel, stepParts, hidden, found⟩ := step_descend hunt heard lower
  have sameLevel : hunt.step.discovery.level = ⟨level + 1, below⟩ := by
    rw [stepLevel]; simp only [atLevel]
  have sameParts : hunt.step.discovery.parts = hunt.discovery.parts := by
    rw [stepParts, atLevel]; exact shape.ofFn_eq
  have cleared : hunt.discovery.parts.get ⟨level + 1, below⟩ = 0 :=
    shape.2 ⟨level + 1, below⟩ (Nat.lt_succ_self level)
  refine ⟨sameLevel, sameParts, ?_, sameLevel, sameParts, by rw [run_one, hidden,
    Finset.sdiff_empty], [], List.nodup_nil, rfl, by rw [run_one, found, List.append_nil]⟩
  ext serial
  simp only [mem_rest, mem_here, sameLevel, sameParts, hidden, cleared, atLevel,
    UInt8.toNat_zero, Nat.zero_le, and_true]

/-- A visit above the last level is the probe that descends, then a scan of the level below. -/
theorem visit_of_scan {level : Nat} (below : level + 1 < 4)
    (scan : ScanSpec ⟨level + 1, below⟩) :
    VisitSpec ⟨level, Nat.lt_of_succ_lt below⟩ := by
  intro hunt atLevel shape narrow
  by_cases quiet : hunt.here = ∅
  · exact visit_quiet atLevel quiet
  have heard := Finset.nonempty_iff_ne_empty.mpr quiet
  obtain ⟨stepLevel, stepParts, stepRest, first⟩ := rest_step_eq_here below atLevel shape heard
  have stepShape : Shape ⟨level + 1, below⟩ hunt.step.discovery.parts := by
    rw [stepParts]; exact shape.succ below
  obtain ⟨count, bound, sweep⟩ := scan hunt.step stepLevel stepShape (first.narrow narrow)
  have cleared : hunt.discovery.parts.get ⟨level + 1, below⟩ = 0 :=
    shape.2 ⟨level + 1, below⟩ (Nat.lt_succ_self level)
  rw [stepRest, stepParts, climb_succ below cleared] at sweep
  -- the scan below costs the span of its counter and 128 probes per unit on the levels under it
  have scanCost : count ≤ 128 + 128 * (2 - level) * hunt.here.card := by
    have start : (hunt.step.discovery.parts.get ⟨level + 1, below⟩).toNat = 0 := by
      rw [stepParts, cleared, UInt8.toNat_zero]
    rw [start, stepRest, span_succ below] at bound
    simp only [Nat.sub_zero] at bound
    rwa [show 3 - (level + 1) = 2 - level by omega] at bound
  refine ⟨1 + count, ?_, ?_⟩
  · have someUnit := Finset.card_pos.mpr heard
    have split : 128 * (3 - level) * hunt.here.card =
        128 * (2 - level) * hunt.here.card + 128 * hunt.here.card := by
      rw [show 3 - level = (2 - level) + 1 by omega, Nat.mul_add, Nat.add_mul, Nat.mul_one]
    simp only [visitCost]
    omega
  · rw [run_add, ← Finset.empty_union hunt.here]
    exact first.trans sweep (Finset.disjoint_empty_left _)

/-- Moving a counter on within its level splits the rest of the level: the units below the
counter, and the rest from the next counter on. -/
theorem rest_eq_union {hunt next : Hunt} (fits : PartsFit hunt.discovery.parts)
    (level : next.discovery.level = hunt.discovery.level)
    (parts : next.discovery.parts = hunt.discovery.parts.set hunt.discovery.level
      (hunt.discovery.parts.get hunt.discovery.level + 1) hunt.discovery.level.isLt)
    (hidden : next.hidden = hunt.hidden \ hunt.here) :
    hunt.rest = hunt.here ∪ next.rest ∧ Disjoint hunt.here next.rest := by
  have bumped : (next.discovery.parts.get hunt.discovery.level).toNat =
      (hunt.discovery.parts.get hunt.discovery.level).toNat + 1 := by
    rw [parts]
    exact Discovery.toNat_get_bump fits
  have agrees : ∀ serial, Within next.discovery.parts hunt.discovery.level.val serial ↔
      Within hunt.discovery.parts hunt.discovery.level.val serial := by
    intro serial
    rw [parts]
    exact within_set le_rfl _ serial
  refine ⟨?_, Finset.disjoint_left.mpr fun serial inHere inRest => ?_⟩
  · ext serial
    simp only [Finset.mem_union, mem_rest, mem_here, hidden, Finset.mem_sdiff, within_succ_toNat,
      level, agrees, bumped]
    constructor
    · rintro ⟨member, within, atLeast⟩
      by_cases same : (hunt.discovery.parts.get hunt.discovery.level).toNat =
          ((partsOf serial).get hunt.discovery.level).toNat
      · exact .inl ⟨member, within, same⟩
      · exact .inr ⟨⟨member, fun agreeing => same agreeing.2.2⟩, within, by omega⟩
    · rintro (⟨member, within, same⟩ | ⟨⟨member, -⟩, within, above⟩)
      · exact ⟨member, within, Nat.le_of_eq same⟩
      · exact ⟨member, within, by omega⟩
  · exact (Finset.mem_sdiff.mp (hidden ▸ (mem_rest.mp inRest).1)).2 inHere

/-- Scanning a level is visiting its counters in turn, each visit from where the last one left. -/
theorem scan_of_visit {level : Fin 4} (visit : VisitSpec level) : ScanSpec level := by
  -- induction on the counters left in the level, for every hunt at it
  suffices each : ∀ left : Nat, ∀ hunt : Hunt,
      span level - (hunt.discovery.parts.get level).toNat = left →
      hunt.discovery.level = level → Shape level hunt.discovery.parts →
      (∀ serial ∈ hunt.hidden, serial.toNat < 2 ^ 24) →
      ∃ count ≤ span level - (hunt.discovery.parts.get level).toNat +
          128 * (3 - level.val) * hunt.rest.card,
        Sweeps hunt (hunt.run count) hunt.rest (climb hunt.discovery.parts level) from
    fun hunt => each _ hunt rfl
  intro left
  induction left with
  | zero =>
    intro hunt left _ shape _
    have fits := shape.1 level
    omega
  | succ left ih =>
    intro hunt left atLevel shape narrow
    obtain ⟨count, bound, sweep⟩ := visit hunt atLevel shape narrow
    subst atLevel
    have fits := shape.1 hunt.discovery.level
    by_cases room : (hunt.discovery.parts.get hunt.discovery.level).toNat + 1 <
        span hunt.discovery.level
    · rw [advance_of_lt shape.1 room] at sweep
      have bumped : ((hunt.run count).discovery.parts.get hunt.discovery.level).toNat =
          (hunt.discovery.parts.get hunt.discovery.level).toNat + 1 := by
        rw [sweep.parts]
        exact Discovery.toNat_get_bump shape.1
      have nextShape : Shape hunt.discovery.level (hunt.run count).discovery.parts := by
        rw [sweep.parts]; exact shape.bump room
      obtain ⟨more, moreBound, moreSweep⟩ :=
        ih (hunt.run count) (by omega) sweep.level nextShape (sweep.narrow narrow)
      obtain ⟨split, apart⟩ := rest_eq_union shape.1 sweep.level sweep.parts sweep.hidden
      rw [sweep.parts, Discovery.climb_set] at moreSweep
      refine ⟨count + more, ?_, by rw [run_add, split]; exact sweep.trans moreSweep apart⟩
      -- the visit and the scan of the counters after it share the rest of the level
      rw [split, Finset.card_union_of_disjoint apart, Nat.mul_add]
      simp only [visitCost] at bound
      omega
    · have last : (hunt.discovery.parts.get hunt.discovery.level).toNat + 1 =
          span hunt.discovery.level := by omega
      rw [Discovery.advance_of_last last] at sweep
      refine ⟨count, ?_, by rw [rest_eq_here last]; exact sweep⟩
      rw [rest_eq_here last]
      simp only [visitCost] at bound
      omega

/-- Every level, from the bottom up: a scan of the top level names all the units under it. -/
theorem scan_top : ScanSpec 0 :=
  have scan3 : ScanSpec 3 := scan_of_visit visit_last
  have scan2 : ScanSpec 2 := scan_of_visit (@visit_of_scan 2 (by decide) scan3)
  have scan1 : ScanSpec 1 := scan_of_visit (@visit_of_scan 1 (by decide) scan2)
  scan_of_visit (@visit_of_scan 0 (by decide) scan1)

/-- From the start, one scan of the top level names every unit, within `8 + 384 · n` probes. -/
theorem sweeps_start (serials : Finset UInt32)
    (narrow : ∀ serial ∈ serials, serial.toNat < 2 ^ 24) :
    ∃ count ≤ 8 + 384 * serials.card,
      Sweeps (start serials) ((start serials).run count) serials (climb initial.parts 0) := by
  have cleared : ∀ index : Fin 4, (0 : Fin 4).val < index.val → initial.parts.get index = 0 :=
    by decide
  have shape : Shape 0 (start serials).discovery.parts := ⟨partsFit_initial, cleared⟩
  have whole : (start serials).rest = serials := by
    ext serial
    simp only [mem_rest, start, and_iff_left_iff_imp]
    intro _
    exact ⟨within_zero _ _, Nat.zero_le _⟩
  obtain ⟨count, bound, sweep⟩ := scan_top (start serials) rfl shape narrow
  rw [whole] at bound sweep
  exact ⟨count, by simpa [start, initial, span, partWidth] using bound, sweep⟩

/-! ## The whole hunt -/

/-- What the echoes have named so far, against the units the hunt started with: each unit once,
nothing else, and the units not named are the hidden ones. -/
structure Accounts (serials : Finset UInt32) (hunt : Hunt) : Prop where
  nodup : hunt.found.Nodup
  partition : hunt.found.toFinset ∪ hunt.hidden = serials
  apart : Disjoint hunt.found.toFinset hunt.hidden
  narrow : ∀ serial ∈ hunt.hidden, serial.toNat < 2 ^ 24

theorem accounts_start {serials : Finset UInt32}
    (narrow : ∀ serial ∈ serials, serial.toNat < 2 ^ 24) :
    Accounts serials (start serials) :=
  ⟨List.nodup_nil, Finset.empty_union serials, Finset.disjoint_empty_left serials, narrow⟩

/-- The accounts hold after each probe: an echo names a hidden unit, which then stops answering. -/
theorem Accounts.step {serials : Finset UInt32} {hunt : Hunt} (accounts : Accounts serials hunt) :
    Accounts serials hunt.step := by
  rcases step_cases hunt with ⟨hidden, found⟩ | ⟨⟨serial, heard⟩, last, hidden, found⟩
  · exact ⟨by rw [found]; exact accounts.nodup, by rw [found, hidden]; exact accounts.partition,
      by rw [found, hidden]; exact accounts.apart, by rw [hidden]; exact accounts.narrow⟩
  -- the echo names the unit that was heard, which is hidden and so not named before
  have named := here_of_last hunt last accounts.narrow heard
  have member : serialOf hunt.discovery.parts ∈ hunt.hidden := named ▸ (mem_here.mp heard).1
  have fresh : serialOf hunt.discovery.parts ∉ hunt.found := fun early =>
    Finset.disjoint_left.mp accounts.apart (List.mem_toFinset.mpr early) member
  have single : [serialOf hunt.discovery.parts].toFinset = {serialOf hunt.discovery.parts} := by
    simp
  refine ⟨?_, ?_, ?_, ?_⟩
  · rw [found]
    refine List.nodup_append.mpr ⟨accounts.nodup, List.nodup_singleton _, ?_⟩
    intro other early appended inLast same
    rw [same, List.mem_singleton.mp inLast] at early
    exact fresh early
  · rw [found, hidden, List.toFinset_append, single, Finset.union_assoc, ← Finset.insert_eq,
      Finset.insert_erase member]
    exact accounts.partition
  · rw [found, hidden, List.toFinset_append, single]
    exact Finset.disjoint_union_left.mpr ⟨accounts.apart.mono_right (Finset.erase_subset _ _),
      Finset.disjoint_singleton_left.mpr (Finset.notMem_erase _ _)⟩
  · rw [hidden]
    exact fun serial erased => accounts.narrow serial (Finset.mem_of_mem_erase erased)

theorem Accounts.run {serials : Finset UInt32} {hunt : Hunt} (accounts : Accounts serials hunt)
    (count : Nat) : Accounts serials (hunt.run count) := by
  induction count generalizing hunt with
  | zero => exact accounts
  | succ count ih => exact ih accounts.step

/-- **Discovery finds every unit.** Run against any set of units with 24-bit serials, the echoes
name each unit at most once and no serial outside the set; within `8 + 384 · n` probes they have
named every unit. -/
theorem finds_every_serial (serials : Finset UInt32)
    (narrow : ∀ serial ∈ serials, serial.toNat < 2 ^ 24) (count : Nat) :
    ((start serials).run count).found.Nodup ∧
      (∀ serial ∈ ((start serials).run count).found, serial ∈ serials) ∧
      (8 + 384 * serials.card ≤ count →
        ∀ serial ∈ serials, serial ∈ ((start serials).run count).found) := by
  have accounts := (accounts_start narrow).run count
  refine ⟨accounts.nodup, fun serial named => ?_, fun enough serial member => ?_⟩
  · rw [← accounts.partition]
    exact Finset.mem_union_left _ (List.mem_toFinset.mpr named)
  · obtain ⟨first, bound, sweep⟩ := sweeps_start serials narrow
    obtain ⟨order, -, names, found⟩ := sweep.found
    have later := found_prefix_run ((start serials).run first) (count - first)
    rw [← run_add, Nat.add_sub_cancel' (by omega), found] at later
    rw [← names] at member
    exact later.subset (List.mem_append_right _ (List.mem_toFinset.mp member))

theorem finds_every_serial_one :
    0xabcdef ∈ ((start {0xabcdef}).run 392).found :=
  (finds_every_serial {0xabcdef}
    (fun serial member => by rw [Finset.mem_singleton.mp member]; decide) 392).2.2
    (by rw [Finset.card_singleton]) 0xabcdef (Finset.mem_singleton_self _)

end Hunt

end Discovery

end RailBus
