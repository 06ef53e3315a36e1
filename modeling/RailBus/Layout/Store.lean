import RailBus.Layout.Basic
/-! # A layout kept in memory

`Store` is a complete layout held in memory: locos by address, a list of loco database entries,
and the configuration values. It records every mutating operation it receives, in order, as a
`LayoutCall`, whether or not the operation succeeds.

Its rules: a loco is controllable unless it is 0 or marked unavailable, and taking control of an
unknown loco adds it with a default state; speed and function changes add an unknown loco the same
way; coupling refuses a loco with itself or an unavailable one; a configuration value is refused
above its maximum, a CV number outside 1 to 1024, and the unknown format; main-track writes and
mfx assignment succeed for any loco but 0. Without an explicit table the turnout refresh of round
`r` is `r + 3`.

`MinimalStore` is the same memory offering only the operations every layout must have, so the
master sees the defaults of `Layout` for the rest.
-/

namespace RailBus

/-- A mutating operation received by a `Store`. -/
inductive LayoutCall where
  | setMode (mode : OperatingMode)
  | setSpeed (loco : UInt16) (speed : UInt8) (reverse emergency : Bool)
  | setFunctions (loco : UInt16) (group bits : UInt8)
  | couple (first second : UInt16)
  | uncouple (loco : UInt16)
  | setTurnout (turnout : UInt16) (thrown on : Bool)
  | removeEntry (index : UInt16)
  | storeEntry (entry : LocoEntry)
  | release (loco : UInt16)
  | setFlags (flags : UInt16)
  | setModules (kind : ModuleKind) (count : UInt8)
  | setVoltage (decivolts : UInt16)
  | setCurrent (milliamps : UInt16)
  | writeCv (cv : UInt16) (value : UInt8)
  | writeCvBit (cv : UInt16) (bit : UInt8) (value : Bool)
  | pomWrite (loco cv : UInt16) (value : UInt8)
  | pomWriteBit (loco cv : UInt16) (bit : UInt8) (value : Bool)
  | mfxAssign (loco : UInt16)
  | setFormat (format : Format)
  deriving DecidableEq, Repr

/-- Set the value of a key in a list sorted by `rank` of its keys, from `default` when absent. -/
def putSorted {κ α : Type} [DecidableEq κ] (rank : κ → Nat) (key : κ) (change : α → α)
    (default : α) : List (κ × α) → List (κ × α)
  | [] => [(key, change default)]
  | (first, value) :: rest =>
    if key = first then (first, change value) :: rest
    else if rank key < rank first then (key, change default) :: (first, value) :: rest
    else (first, value) :: putSorted rank key change default rest

/-- A complete layout held in memory. -/
structure Store where
  mode : OperatingMode := .stop
  /-- Locos by address, ascending. -/
  locos : List (UInt16 × LocoState) := []
  unavailable : List UInt16 := []
  entries : List LocoEntry := []
  /-- Database entries counted but not listed. -/
  extraCount : Nat := 0
  /-- Turnout refresh bits by round. -/
  refresh : Option (List UInt8) := none
  flags : UInt16 := 0
  /-- Module counts by kind, ascending. -/
  modules : List (ModuleKind × UInt8) := []
  modulesMax : Nat := 100
  voltage : UInt16 := 0
  voltageMax : Nat := 250
  current : UInt16 := 0
  currentMax : Nat := 5000
  /-- CV values by number, ascending. -/
  cvs : List (UInt16 × UInt8) := []
  ptAddress : Option UInt16 := none
  format : Format := .dcc28
  /-- The mutating operations received, oldest first. -/
  calls : List LayoutCall := []
  deriving Repr

namespace Store

/-- Record an operation. -/
def log (store : Store) (call : LayoutCall) : Store :=
  { store with calls := store.calls ++ [call] }

def loco? (store : Store) (loco : UInt16) : Option LocoState :=
  store.locos.lookup loco

/-- Change a loco, added with a default state when unknown. -/
def changeLoco (store : Store) (loco : UInt16) (change : LocoState → LocoState) : Store :=
  { store with locos := putSorted UInt16.toNat loco change {} store.locos }

def isUnavailable (store : Store) (loco : UInt16) : Bool :=
  store.unavailable.contains loco

def takeControl (store : Store) (loco : UInt16) : Option LocoState × Store :=
  if loco = 0 ∨ store.isUnavailable loco then (none, store)
  else match store.loco? loco with
    | some state => (some state, store)
    | none => (some {}, store.changeLoco loco id)

def setSpeed (store : Store) (loco : UInt16) (speed : UInt8) (reverse emergency : Bool) : Store :=
  (store.log (.setSpeed loco speed reverse emergency)).changeLoco loco
    fun state => { state with speed, reverse, emergency }

/-- The functions word with group `group` replaced by seven bits. -/
def withGroup (functions : UInt32) (group bits : UInt8) : UInt32 :=
  let shift := (7 * group.toNat).toUInt32
  (functions &&& ~~~((0x7f : UInt32) <<< shift)) ||| (bits.toUInt32 <<< shift)

def setFunctions (store : Store) (loco : UInt16) (group bits : UInt8) : Store :=
  (store.log (.setFunctions loco group bits)).changeLoco loco
    fun state => { state with functions := withGroup state.functions group bits }

def couple (store : Store) (first second : UInt16) : Bool × Store :=
  let store := store.log (.couple first second)
  if first = second ∨ store.isUnavailable first ∨ store.isUnavailable second then (false, store)
  else
    (true, (store.changeLoco first fun state => { state with consist := some second }).changeLoco
      second fun state => { state with consist := some first })

def uncouple (store : Store) (loco : UInt16) : Bool × Store :=
  let store := store.log (.uncouple loco)
  match (store.loco? loco).bind LocoState.consist with
  | some partner =>
    let store := store.changeLoco loco fun state => { state with consist := none }
    if (store.loco? partner).isSome then
      (true, store.changeLoco partner fun state => { state with consist := none })
    else (true, store)
  | none => (false, store)

def locoCount (store : Store) : UInt16 :=
  (store.entries.length + store.extraCount).toUInt16

/-- The entry at a 1-based index. -/
def locoEntry (store : Store) (index : UInt16) : Option LocoEntry :=
  if index = 0 then none else store.entries[index.toNat - 1]?

def removeEntry (store : Store) (index : UInt16) : Bool × Store :=
  let store := store.log (.removeEntry index)
  if index = 0 ∨ index.toNat > store.entries.length then (false, store)
  else (true, { store with entries := store.entries.eraseIdx (index.toNat - 1) })

def storeEntry (store : Store) (entry : LocoEntry) : Store :=
  { store.log (.storeEntry entry) with entries := store.entries ++ [entry] }

def turnoutRefresh (store : Store) (round : UInt8) : UInt8 :=
  match store.refresh with
  | some table => table[round.toNat]?.getD 0
  | none => round + 3

def setModules (store : Store) (kind : ModuleKind) (count : UInt8) : Bool × Store :=
  let store := store.log (.setModules kind count)
  if count.toNat > store.modulesMax then (false, store)
  else (true, { store with
    modules := putSorted (fun kind => kind.toByte.toNat) kind (fun _ => count) 0 store.modules })

def setVoltage (store : Store) (decivolts : UInt16) : Bool × Store :=
  let store := store.log (.setVoltage decivolts)
  if decivolts.toNat > store.voltageMax then (false, store)
  else (true, { store with voltage := decivolts })

def setCurrent (store : Store) (milliamps : UInt16) : Bool × Store :=
  let store := store.log (.setCurrent milliamps)
  if milliamps.toNat > store.currentMax then (false, store)
  else (true, { store with current := milliamps })

/-- Whether a CV number exists. -/
def cvInRange (cv : UInt16) : Bool :=
  1 ≤ cv.toNat && cv.toNat ≤ 1024

def writeCv (store : Store) (cv : UInt16) (value : UInt8) : Bool × Store :=
  let store := store.log (.writeCv cv value)
  if cvInRange cv then
    (true, { store with cvs := putSorted UInt16.toNat cv (fun _ => value) 0 store.cvs })
  else (false, store)

def readCvBit (store : Store) (cv : UInt16) (bit : UInt8) : Option Bool :=
  (store.cvs.lookup cv).map fun value => (value >>> bit) &&& 1 == 1

def writeCvBit (store : Store) (cv : UInt16) (bit : UInt8) (value : Bool) : Bool × Store :=
  let store := store.log (.writeCvBit cv bit value)
  let change (old : UInt8) : UInt8 :=
    if value then old ||| ((1 : UInt8) <<< bit) else old &&& ~~~((1 : UInt8) <<< bit)
  if cvInRange cv then (true, { store with cvs := putSorted UInt16.toNat cv change 0 store.cvs })
  else (false, store)

def setFormat (store : Store) (format : Format) : Bool × Store :=
  let store := store.log (.setFormat format)
  if format = .unknown then (false, store) else (true, { store with format })

end Store

/-- **The in-memory layout with every operation.** -/
instance : Layout Store where
  mode store := store.mode
  setMode store mode := { store.log (.setMode mode) with mode }
  takeControl := Store.takeControl
  release store loco := store.log (.release loco)
  loco := Store.loco?
  setSpeed := Store.setSpeed
  setFunctions := Store.setFunctions
  couple := Store.couple
  uncouple := Store.uncouple
  setTurnout store turnout thrown on := store.log (.setTurnout turnout thrown on)
  turnoutRefresh := Store.turnoutRefresh
  locoCount := Store.locoCount
  locoEntry := Store.locoEntry
  removeEntry := Store.removeEntry
  storeEntry := Store.storeEntry
  flags store := store.flags
  setFlags store flags := { store.log (.setFlags flags) with flags }
  modules store kind := (store.modules.lookup kind).getD 0
  setModules := Store.setModules
  voltage store := store.voltage
  setVoltage := Store.setVoltage
  current store := store.current
  setCurrent := Store.setCurrent
  readCv store cv := (store.cvs.lookup cv, store)
  writeCv := Store.writeCv
  readCvBit store cv bit := (store.readCvBit cv bit, store)
  writeCvBit := Store.writeCvBit
  readAddress store := (store.ptAddress, store)
  pomWrite store loco cv value := (loco != 0, store.log (.pomWrite loco cv value))
  pomWriteBit store loco cv bit value := (loco != 0, store.log (.pomWriteBit loco cv bit value))
  mfxAssign store loco := (loco != 0, store.log (.mfxAssign loco))
  format store := store.format
  setFormat := Store.setFormat

/-- An in-memory layout offering only the operations every layout must have. -/
structure MinimalStore where
  store : Store
  deriving Repr

/-- **The in-memory layout without the optional operations**, which keep their defaults. -/
instance : Layout MinimalStore where
  mode layout := layout.store.mode
  setMode layout mode := ⟨{ layout.store.log (.setMode mode) with mode }⟩
  takeControl layout loco := (layout.store.takeControl loco).map id MinimalStore.mk
  loco layout := layout.store.loco?
  setSpeed layout loco speed reverse emergency :=
    ⟨layout.store.setSpeed loco speed reverse emergency⟩
  setFunctions layout loco group bits := ⟨layout.store.setFunctions loco group bits⟩
  couple layout first second := (layout.store.couple first second).map id MinimalStore.mk
  uncouple layout loco := (layout.store.uncouple loco).map id MinimalStore.mk
  setTurnout layout turnout thrown on := ⟨layout.store.log (.setTurnout turnout thrown on)⟩
  locoCount layout := layout.store.locoCount
  locoEntry layout := layout.store.locoEntry
  removeEntry layout index := (layout.store.removeEntry index).map id MinimalStore.mk
  storeEntry layout entry := ⟨layout.store.storeEntry entry⟩

end RailBus
