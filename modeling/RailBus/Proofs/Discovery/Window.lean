import Mathlib
import RailBus.Proofs.Discovery.Toward
/-! # The window of recent probes

The search is driven by three calls (`Discovery.Call`): a probe emits the probe of the current
position and moves on, a reset starts over, and an echo hands in a probe read back from a block.
Whatever calls are made from the start, the search stays a cursor: every part within the span of
its level and zeros below the level (`Discovery.shape_advance`, `Discovery.shape_descended`), so a
counter is never moved on past 128 and every probe emitted reads back from its own data. Its recent
probes are the last 16 of those emitted since it last started over, by a reset or by an echo that
took it down (`Discovery.Keeps`, with `Discovery.lastProbes_concat` for the window sliding on). An
echo is related to the search exactly when it repeats one of them or stands at the current level
under the current upper parts (`Discovery.echo_ignored_iff`). The main statement is
`Discovery.search_keeps_window`.

Reading a probe from data keeps the level byte and the parts down to that level, and the probe's
own data has zeros past them (`Probe.toData_ofData?`).
-/

namespace RailBus

namespace Probe

theorem toData_ofData? {data : Vector UInt8 6} {probe : Probe} (read : ofData? data = some probe)
    (index : Fin 6) :
    probe.toData.get index = if index.val ≤ probe.level.val + 1 then data.get index else 0 := by
  unfold ofData? at read
  dsimp only at read
  split at read
  · rename_i levelFits
    split at read
    · cases read
      rcases index with ⟨index, inside⟩
      simp only [toData, vector_get_eq_getElem, Fin.getElem_fin, Vector.getElem_ofFn]
      by_cases top : index = 0
      · subst top
        simp
      · by_cases below : index - 1 ≤ data[0].toNat
        · have same : index - 1 + 1 = index := by omega
          simp [top, below, same, Fin.le_def, show index ≤ data[0].toNat + 1 by omega]
        · simp [top, below, show ¬ index ≤ data[0].toNat + 1 by omega]
    · cases read
  · cases read

end Probe

/-! ## The cursor through a move -/

theorem Shape.set {level : Fin 4} {parts : Vector UInt8 4} (shape : Shape level parts)
    {value : UInt8} (small : value.toNat < span level) :
    Shape level (parts.set level value level.isLt) := by
  refine ⟨partsFit_set shape.1 small, fun index above => ?_⟩
  rw [vector_get_eq_getElem, Fin.getElem_fin, Vector.getElem_set_ne _ _ (by omega)]
  exact shape.2 index above

/-- A cursor whose counter is back at 0 is a cursor one level up. -/
theorem Shape.up {above : Nat} {bound : above + 1 < 4} {parts : Vector UInt8 4}
    (shape : Shape ⟨above + 1, bound⟩ parts) (zero : parts.get ⟨above + 1, bound⟩ = 0) :
    Shape ⟨above, Nat.lt_of_succ_lt bound⟩ parts := by
  refine ⟨shape.1, fun index deeper => ?_⟩
  by_cases next : index.val = above + 1
  · rw [show index = ⟨above + 1, bound⟩ from Fin.ext next]
    exact zero
  · exact shape.2 index (by simp only at deeper ⊢; omega)

namespace Discovery

/-- **Moving the counter on keeps the cursor**, wherever it climbs to. -/
theorem shape_advance {level : Fin 4} {parts : Vector UInt8 4} (shape : Shape level parts) :
    Shape (advance parts level).1 (advance parts level).2 := by
  fun_induction advance parts level with
  | case1 parts level bumped bumpedFits =>
    exact shape.set bumpedFits
  | case2 parts isLt bumped overflow cleared =>
    exact shape.set (zero_lt_span _)
  | case3 parts above bound bumped overflow cleared ih =>
    apply ih
    apply (shape.set (zero_lt_span _)).up
    rw [vector_get_eq_getElem, Fin.getElem_fin, Vector.getElem_set_self]

/-! ## Calls on the search -/

/-- A call on the search. -/
inductive Call where
  /-- Emit the probe of the current position and move on. -/
  | probe
  /-- Start the search over. -/
  | reset
  /-- Take the echo of a probe. -/
  | echo (echo : Probe)
  deriving DecidableEq, Repr

/-- What a call answers. -/
inductive Answer where
  | probed (probe : Probe)
  | reset
  | echoed (result : Match)
  deriving DecidableEq, Repr

/-- **Make one call.** -/
def call (discovery : Discovery) : Call → Answer × Discovery
  | .probe => (.probed discovery.probe.1, discovery.probe.2)
  | .reset => (.reset, initial)
  | .echo echo => (.echoed (discovery.echo echo).1, (discovery.echo echo).2)

/-- Make calls in order; the answers come oldest first. -/
def calls (discovery : Discovery) : List Call → List Answer × Discovery
  | [] => ([], discovery)
  | first :: rest =>
    let after := (discovery.call first).2.calls rest
    ((discovery.call first).1 :: after.1, after.2)

/-- The probes emitted since the search last started over, once an answer follows those emitted
before it: a reset, and an echo that takes the search down, start the count again. -/
def Answer.emitted (before : List Probe) : Answer → List Probe
  | .probed probe => before ++ [probe]
  | .reset => []
  | .echoed .descend => []
  | .echoed .ignored => before
  | .echoed (.found _) => before

/-- The probes emitted since the search last started over. -/
def emittedSince (answers : List Answer) : List Probe :=
  answers.foldl Answer.emitted []

/-- The last probes of a list that fit the window, oldest first. -/
def lastProbes (probes : List Probe) : List Probe :=
  probes.drop (probes.length - probeWindow)

/-- An echo repeats a recent probe, or stands at the current level under the current upper
parts. -/
def Related (discovery : Discovery) (echo : Probe) : Prop :=
  echo ∈ discovery.recent ∨
    echo.level = discovery.level ∧
      echo.parts.toList.take echo.level = discovery.parts.toList.take echo.level

/-- The parts of a search taken down by an echo: the echo's parts down to its level, then zeros. -/
def descended (echo : Probe) : Vector UInt8 4 :=
  Vector.ofFn fun index => if index.val ≤ echo.level.val then echo.parts.get index else 0

theorem echo_of_not_related {discovery : Discovery} {echo : Probe}
    (unrelated : ¬ Related discovery echo) : discovery.echo echo = (.ignored, discovery) := by
  have : (discovery.recent.contains echo || (echo.level == discovery.level &&
      echo.parts.toList.take echo.level == discovery.parts.toList.take echo.level)) = false := by
    simpa [Related] using unrelated
  simp only [Discovery.echo, this, Bool.not_false, ↓reduceIte]

theorem echo_of_related {discovery : Discovery} {echo : Probe} (related : Related discovery echo) :
    discovery.echo echo =
      if below : echo.level.val < 3 then
        (.descend, { level := ⟨echo.level.val + 1, Nat.succ_lt_succ below⟩, parts := descended echo, recent := [] })
      else (.found echo.serial, discovery) := by
  have : (discovery.recent.contains echo || (echo.level == discovery.level &&
      echo.parts.toList.take echo.level == discovery.parts.toList.take echo.level)) = true := by
    simpa [Related] using related
  simp only [Discovery.echo, this, Bool.not_true, Bool.false_eq_true, ↓reduceIte]
  rfl

/-- Emitting a probe pushes it after the window, which drops its oldest probe when full. -/
theorem lastProbes_concat (probes : List Probe) (probe : Probe) :
    lastProbes (probes ++ [probe]) =
      (if (lastProbes probes).length ≥ probeWindow then (lastProbes probes).tail
        else lastProbes probes) ++ [probe] := by
  unfold lastProbes probeWindow
  by_cases full : probes.length ≥ 16
  · have drop : probes.length + 1 - 16 = probes.length - 16 + 1 := by omega
    simp only [List.length_drop, show probes.length - (probes.length - 16) ≥ 16 by omega,
      ↓reduceIte, List.tail_drop, List.length_append, List.length_singleton, drop]
    rw [List.drop_append_of_le_length (by omega)]
  · have short : probes.length - 16 = 0 := by omega
    have stillShort : (probes ++ [probe]).length - 16 = 0 := by
      rw [List.length_append, List.length_singleton]
      omega
    rw [short, stillShort, List.drop_zero, List.drop_zero, if_neg full]

/-- What the search keeps after any calls, given the probes emitted since it last started over:
a cursor, and those probes' last ones as its recent probes. -/
structure Keeps (discovery : Discovery) (emitted : List Probe) : Prop where
  shape : Shape discovery.level discovery.parts
  recent : discovery.recent = lastProbes emitted

theorem keeps_initial : Keeps initial [] := by
  refine ⟨⟨partsFit_initial, fun index _ => ?_⟩, rfl⟩
  revert index
  decide

/-- The parts an echo takes the search down to are a cursor one level below the echo's. -/
theorem shape_descended {echo : Probe} (fits : PartsFit echo.parts) (below : echo.level.val < 3) :
    Shape ⟨echo.level.val + 1, Nat.succ_lt_succ below⟩ (descended echo) := by
  refine ⟨fun index => ?_, fun index deeper => ?_⟩
  · rw [descended, vector_get_eq_getElem, Fin.getElem_fin, Vector.getElem_ofFn]
    split
    · exact fits index
    · exact zero_lt_span index
  · simp only at deeper
    rw [descended, vector_get_eq_getElem, Fin.getElem_fin, Vector.getElem_ofFn, Fin.eta,
      if_neg (by omega)]

/-- **One call keeps the window**, given an echo whose parts fit. -/
theorem Keeps.call {discovery : Discovery} {emitted : List Probe} (keeps : Keeps discovery emitted)
    {request : Call} (fits : ∀ echo, request = .echo echo → PartsFit echo.parts) :
    Keeps (discovery.call request).2 ((discovery.call request).1.emitted emitted) := by
  cases request with
  | probe =>
    refine ⟨shape_advance keeps.shape, ?_⟩
    simp only [Discovery.call, Answer.emitted, probe, lastProbes_concat, keeps.recent]
  | reset => exact keeps_initial
  | echo echo =>
    by_cases related : Related discovery echo
    · by_cases below : echo.level.val < 3
      · simp only [Discovery.call, echo_of_related related, dif_pos below, Answer.emitted]
        exact ⟨shape_descended (fits echo rfl) below, rfl⟩
      · simpa only [Discovery.call, echo_of_related related, dif_neg below, Answer.emitted] using keeps
    · simpa only [Discovery.call, echo_of_not_related related, Answer.emitted] using keeps

/-- **Any calls keep the window**, as long as every echo has parts that fit. -/
theorem Keeps.calls {discovery : Discovery} {emitted : List Probe} (keeps : Keeps discovery emitted)
    {script : List Call} (fits : ∀ echo, Call.echo echo ∈ script → PartsFit echo.parts) :
    Keeps (discovery.calls script).2 ((discovery.calls script).1.foldl Answer.emitted emitted) := by
  induction script generalizing discovery emitted with
  | nil => exact keeps
  | cons first rest ih =>
    have firstFits : ∀ echo, first = .echo echo → PartsFit echo.parts := fun echo same =>
      fits echo (same ▸ List.mem_cons_self)
    exact ih (keeps.call firstFits) fun echo member => fits echo (List.mem_cons_of_mem _ member)

/-- **Every probe emitted from a cursor is a cursor**, so it reads back from its data. -/
theorem Keeps.shape_of_probed {discovery : Discovery} {emitted : List Probe}
    (keeps : Keeps discovery emitted) {script : List Call}
    (fits : ∀ echo, Call.echo echo ∈ script → PartsFit echo.parts) {probe : Probe}
    (member : Answer.probed probe ∈ (discovery.calls script).1) : Shape probe.level probe.parts := by
  induction script generalizing discovery emitted with
  | nil => cases member
  | cons first rest ih =>
    have firstFits : ∀ echo, first = .echo echo → PartsFit echo.parts := fun echo same =>
      fits echo (same ▸ List.mem_cons_self)
    rcases List.mem_cons.mp member with head | later
    · cases first with
      | probe =>
        simp only [Discovery.call, probe_fst, Answer.probed.injEq] at head
        rw [head]
        exact keeps.shape
      | reset => cases head
      | echo echo => cases head
    · exact ih (keeps.call firstFits) (fun echo member => fits echo (List.mem_cons_of_mem _ member))
        later

theorem echo_ignored_iff (discovery : Discovery) (echo : Probe) :
    (discovery.echo echo).1 = .ignored ↔ ¬ Related discovery echo := by
  by_cases related : Related discovery echo
  · rw [echo_of_related related]
    split <;> simp [related]
  · simp [echo_of_not_related related, related]

/-- **The discovery search keeps its cursor and its window.** After any calls from the start,
each echo read from block data: each part of the search lies within the span of its level, so no
counter is moved on past 128, and the parts below its level are zero. Its recent probes are the
last 16 of those emitted since it last started over, oldest first, and an echo is related to the
search exactly when it is one of them or stands at the current level under the current upper
parts. Every probe emitted reads back from its data; and a probe read from data has as data the
level byte and the parts down to its level of that data, and zeros past them. -/
theorem search_keeps_window {script : List Call} {answers : List Answer} {discovery : Discovery}
    (run : initial.calls script = (answers, discovery))
    (decoded : ∀ echo, Call.echo echo ∈ script → ∃ data, Probe.ofData? data = some echo) :
    Shape discovery.level discovery.parts ∧
      (∀ index : Fin 4, (discovery.parts.get index).toNat + 1 ≤ 128) ∧
      discovery.recent = lastProbes (emittedSince answers) ∧
      (∀ echo, (discovery.echo echo).1 ≠ .ignored ↔
        echo ∈ lastProbes (emittedSince answers) ∨
          echo.level = discovery.level ∧
            echo.parts.toList.take echo.level = discovery.parts.toList.take echo.level) ∧
      (∀ probe, Answer.probed probe ∈ answers → Probe.ofData? probe.toData = some probe) ∧
      (∀ data probe, Probe.ofData? data = some probe → ∀ index : Fin 6,
        probe.toData.get index = if index.val ≤ probe.level.val + 1 then data.get index else 0) := by
  have fits : ∀ echo, Call.echo echo ∈ script → PartsFit echo.parts := fun echo member =>
    (decoded echo member).elim fun _ read => Probe.partsFit_ofData? read
  have keeps : Keeps discovery (emittedSince answers) := by
    have keeps := keeps_initial.calls fits
    rwa [run] at keeps
  refine ⟨keeps.shape, fun index => ?_, keeps.recent, fun echo => ?_, fun probe member => ?_,
    fun _ _ read => Probe.toData_ofData? read⟩
  · have := keeps.shape.1 index
    have := span_le index
    omega
  · rw [ne_eq, echo_ignored_iff, not_not, Related, keeps.recent]
  · have emitted : Answer.probed probe ∈ (initial.calls script).1 := by
      rw [run]
      exact member
    have probed := keeps_initial.shape_of_probed fits emitted
    exact Probe.ofData?_toData probed

/-- The echo of the first probe, heard after the next one went out, takes the search down. -/
theorem search_keeps_window_descended :
    (initial.calls [.probe, .probe, .echo ⟨0, #v[0, 0, 0, 0]⟩]).2.recent =
      lastProbes (emittedSince (initial.calls [.probe, .probe, .echo ⟨0, #v[0, 0, 0, 0]⟩]).1) :=
  (search_keeps_window rfl fun echo member =>
    ⟨#v[0, 0, 0, 0, 0, 0], by
      rw [List.mem_cons, List.mem_cons, List.mem_singleton] at member
      rcases member with none | none | echoed
      · cases none
      · cases none
      · cases echoed
        decide⟩).2.2.1

end Discovery

end RailBus
