/-! # Command codes

Every block carries a 7-bit command code. The same code may name a unit's request and the master's
answer to it (0x10 is both "take a loco" and "loco state"). Code 0 is never sent.

The codes the master sends are constants of `Code`. What a unit asks for is decoded into a
`UnitRequest` (`UnitRequest.ofCode?`), and the sub-request of a configuration block, its first
data byte, into a `Setting` (`Setting.ofCode?`).
-/

namespace RailBus

namespace Code

/-- Keepalive poll, and its answer. -/
def ping : UInt8 := 0x01
/-- Version request, and the master's version. -/
def version : UInt8 := 0x02
/-- Operating mode request from a unit, and the status broadcast of the master. -/
def status : UInt8 := 0x03
/-- Loco speed, direction and first functions. -/
def locoState : UInt8 := 0x10
/-- Loco functions F14 to F27. -/
def locoFunctions : UInt8 := 0x14
/-- Loco consist partner. -/
def locoConsist : UInt8 := 0x15
/-- The requested loco cannot be controlled. -/
def locoUnavailable : UInt8 := 0x16
/-- Broadcast acknowledge of a turnout command. -/
def accessoryAck : UInt8 := 0x21
/-- A loco database entry. -/
def dbEntry : UInt8 := 0x39
/-- Three characters of a loco name. -/
def dbName : UInt8 := 0x3a
/-- The loco database is empty. -/
def dbEmpty : UInt8 := 0x3b
/-- Discovery probe, echoed by matching units. -/
def probe : UInt8 := 0x40
/-- The bus address given to the unit owning a serial number. -/
def setUnitAddress : UInt8 := 0x41
/-- Configuration request and reply. -/
def config : UInt8 := 0x50

end Code

/-- A step through the loco database. -/
inductive Browse where
  | select
  | next
  | prev
  | delete
  deriving DecidableEq, Repr

/-- What a unit asks the master for. -/
inductive UnitRequest where
  | ping
  | version
  /-- Change the operating mode. -/
  | mode
  | locoTake
  | locoRelease
  | locoSpeed
  | locoFunc
  | tractionCouple
  | tractionClear
  | turnout
  | browse (step : Browse)
  /-- Part of a loco name being written: part 0 names the loco, parts 1 to 4 the characters. -/
  | nameData (part : Fin 5)
  /-- The echo of a discovery probe. -/
  | probeEcho
  /-- Restart discovery from the top level. -/
  | restart
  /-- The hardware and software revisions of a freshly addressed unit. -/
  | unitInfo
  | configure
  /-- Free text. -/
  | debug
  deriving DecidableEq, Repr

/-- The request a command code names. -/
def UnitRequest.ofCode? : UInt8 → Option UnitRequest
  | 0x01 => some .ping
  | 0x02 => some .version
  | 0x03 => some .mode
  | 0x10 => some .locoTake
  | 0x11 => some .locoRelease
  | 0x12 => some .locoSpeed
  | 0x13 => some .locoFunc
  | 0x18 => some .tractionCouple
  | 0x19 => some .tractionClear
  | 0x20 => some .turnout
  | 0x30 => some (.browse .select)
  | 0x31 => some (.browse .next)
  | 0x32 => some (.browse .prev)
  | 0x33 => some (.browse .delete)
  | 0x34 => some (.nameData 0)
  | 0x35 => some (.nameData 1)
  | 0x36 => some (.nameData 2)
  | 0x37 => some (.nameData 3)
  | 0x38 => some (.nameData 4)
  | 0x40 => some .probeEcho
  | 0x42 => some .restart
  | 0x43 => some .unitInfo
  | 0x50 => some .configure
  | 0x70 => some .debug
  | _ => none

/-- A configuration request. -/
inductive Setting where
  | flagsGet
  | flagsSet
  | flagsClear
  | modulesGet
  | modulesSet
  | voltageGet
  | voltageSet
  | currentGet
  | currentSet
  | programRead
  | programWrite
  | programReadBit
  | programWriteBit
  | programReadAddress
  | mainWrite
  | mainWriteBit
  | mfxAssign
  | formatGet
  | formatSet
  deriving DecidableEq, Repr

/-- The configuration request a sub-code names. -/
def Setting.ofCode? : UInt8 → Option Setting
  | 0x01 => some .flagsGet
  | 0x02 => some .flagsSet
  | 0x03 => some .flagsClear
  | 0x04 => some .modulesGet
  | 0x05 => some .modulesSet
  | 0x06 => some .voltageGet
  | 0x07 => some .voltageSet
  | 0x08 => some .currentGet
  | 0x09 => some .currentSet
  | 0x0a => some .programRead
  | 0x0b => some .programWrite
  | 0x0c => some .programReadBit
  | 0x0d => some .programWriteBit
  | 0x0e => some .programReadAddress
  | 0x0f => some .mainWrite
  | 0x10 => some .mainWriteBit
  | 0x11 => some .mfxAssign
  | 0x12 => some .formatGet
  | 0x13 => some .formatSet
  | _ => none

/-- The status byte of a configuration reply: 0 for success, 1 for failure. -/
def statusByte (done : Bool) : UInt8 :=
  if done then 0 else 1

end RailBus
