/-! # Discovery of unaddressed units

Units without a bus address are found by a radix search over their 24-bit serial numbers, split
into four parts of 3, 7, 7 and 7 bits (`partsOf`, `serialOf`). At each level the master broadcasts
a probe holding the known upper parts and a running counter for the part of that level; a unit
whose serial starts that way echoes the probe back.

`Discovery.probe` emits the probe of the current position and moves the counter on; a counter that
runs past its width goes back to 0 and the search climbs one level, except at the top level, whose
counter wraps so that the search never ends. `Discovery.echo` takes an echo: an echo of a recent
probe (the last 16 emitted), or one at the current level under the current upper parts, is
related to the search. A related echo at the last level names a complete serial (`found`); one
above it takes the search one level down under the echoed parts (`descend`). Any other echo is
`ignored`.
-/

namespace RailBus

/-- The width in bits of the serial part searched at each level. -/
def partWidth : Fin 4 → Nat
  | 0 => 3
  | _ => 7

/-- The number of counter values at a level. -/
def span (level : Fin 4) : Nat :=
  Nat.pow 2 (partWidth level)

/-- The number of recent probes an echo may still answer. -/
def probeWindow : Nat := 16

/-- The content of a discovery probe, and of the echo answering it. -/
structure Probe where
  level : Fin 4
  /-- Serial parts; those below `level` are zero. -/
  parts : Vector UInt8 4
  deriving DecidableEq, Repr

/-- The serial number of four parts, each cut to its width. -/
def serialOf (parts : Vector UInt8 4) : UInt32 :=
  ((parts[0] &&& 0x7).toUInt32 <<< 21) ||| ((parts[1] &&& 0x7f).toUInt32 <<< 14)
    ||| ((parts[2] &&& 0x7f).toUInt32 <<< 7) ||| (parts[3] &&& 0x7f).toUInt32

/-- The four parts of a serial number. -/
def partsOf (serial : UInt32) : Vector UInt8 4 :=
  #v[((serial >>> 21) &&& 0x7).toUInt8, ((serial >>> 14) &&& 0x7f).toUInt8,
    ((serial >>> 7) &&& 0x7f).toUInt8, (serial &&& 0x7f).toUInt8]

namespace Probe

/-- The data bytes of a probe block: the level, then the parts up to the level. -/
def toData (probe : Probe) : Vector UInt8 6 :=
  Vector.ofFn fun index =>
    if index.val = 0 then probe.level.val.toUInt8
    else if h : index.val - 1 ≤ probe.level.val then probe.parts[index.val - 1]
    else 0

/-- **Read a probe from data bytes**, refusing a level above 3 and a part out of its range. -/
def ofData? (data : Vector UInt8 6) : Option Probe :=
  if h : data[0].toNat < 4 then
    let level : Fin 4 := ⟨data[0].toNat, h⟩
    let part (index : Fin 4) : UInt8 := if index ≤ level then data[index.val + 1] else 0
    if (List.finRange 4).all fun index => index > level || (part index).toNat < span index then
      some { level, parts := Vector.ofFn part }
    else none
  else none

/-- The serial number a probe names, meaningful at the last level. -/
def serial (probe : Probe) : UInt32 :=
  serialOf probe.parts

end Probe

/-- What an echo did to the search. -/
inductive Match where
  | ignored
  | descend
  | found (serial : UInt32)
  deriving DecidableEq, Repr

/-- The position of the search. -/
structure Discovery where
  level : Fin 4
  /-- The parts above `level`, and the running counter at `level`. -/
  parts : Vector UInt8 4
  /-- The probes sent most recently, oldest first. -/
  recent : List Probe
  deriving DecidableEq, Repr

namespace Discovery

/-- The search at its start. -/
def initial : Discovery :=
  { level := 0, parts := #v[0, 0, 0, 0], recent := [] }

/-- The probe of the current position. -/
def current (discovery : Discovery) : Probe :=
  { level := discovery.level, parts := discovery.parts }

/-- Move the counter of a level on, climbing while counters run past their width; the top
counter wraps. -/
def advance (parts : Vector UInt8 4) (level : Fin 4) : Fin 4 × Vector UInt8 4 :=
  let bumped := parts[level] + 1
  if bumped.toNat < span level then (level, parts.set level bumped)
  else
    let cleared := parts.set level 0
    match level with
    | ⟨0, _⟩ => (0, cleared)
    | ⟨above + 1, bound⟩ => advance cleared ⟨above, by omega⟩
termination_by level.val

/-- **Emit the probe of the current position** and move on. -/
def probe (discovery : Discovery) : Probe × Discovery :=
  let probe := discovery.current
  let kept := if discovery.recent.length ≥ probeWindow then discovery.recent.tail
    else discovery.recent
  let (level, parts) := advance discovery.parts discovery.level
  (probe, { level, parts, recent := kept ++ [probe] })

/-- **Take an echo.** -/
def echo (discovery : Discovery) (echo : Probe) : Match × Discovery :=
  let upper := echo.level.val
  let related := discovery.recent.contains echo
    || (echo.level == discovery.level
      && echo.parts.toList.take upper == discovery.parts.toList.take upper)
  if !related then (.ignored, discovery)
  else if h : upper < 3 then
    let parts := Vector.ofFn fun (index : Fin 4) => if index.val ≤ upper then echo.parts[index] else 0
    (.descend, { level := ⟨upper + 1, by omega⟩, parts, recent := [] })
  else (.found echo.serial, discovery)

end Discovery

end RailBus
