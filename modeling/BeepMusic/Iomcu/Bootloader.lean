import BeepMusic.Iomcu.AppRecord
import BeepMusic.Lib.System

/-!
The bootloader of the I/O controller: the I2C slave (`i2c.c`), the registers
(`commands.c`) and the main loop (`main.c`). The master reads and writes registers;
reading and writing flash takes several of them, and the flash itself is accessed by
the main loop when the bus is idle. There are no interrupts.
-/

namespace BeepMusic.Iomcu

open Lib

inductive RunState
  | btldrStart
  | btldrRun
  | appStart
  deriving DecidableEq

/-- `I2C_BTLDR_STATE_*`. -/
inductive BtldrState
  | ok
  | overflow
  | underflow
  | invalidReg
  | invalidI2cSize
  | badKey
  | invalidBlockSize
  | invalidAddr
  | busy
  | flashInterrupted
  | checksumFailed
  | dataNotReady
  | flashNotReady
  | appNotReady
  deriving DecidableEq

def BtldrState.code : BtldrState → UInt8
  | .ok => 0x00
  | .overflow => 0x01
  | .underflow => 0x02
  | .invalidReg => 0x03
  | .invalidI2cSize => 0x04
  | .badKey => 0x05
  | .invalidBlockSize => 0x06
  | .invalidAddr => 0x07
  | .busy => 0x09
  | .flashInterrupted => 0x0a
  | .checksumFailed => 0x0b
  | .dataNotReady => 0x0c
  | .flashNotReady => 0x0d
  | .appNotReady => 0x0e

inductive I2cState
  | idle
  | regWait
  | dataIn
  | outStartWait
  | dataOut
  deriving DecidableEq

/-- `FLASH_STATE_*`, with the memory that it is about. -/
inductive FlashState
  | idle
  | readAddrReady (m : MemType)
  | readRun (m : MemType)
  | readDataReady (m : MemType)
  | writeAddrReady (m : MemType)
  | writeDataReady (m : MemType)
  | writeRun (m : MemType)
  | appInfoWriteRun
  deriving DecidableEq

/-- The registers that the master reads. -/
inductive ReadReg
  | btldrInfo
  | status
  | devInfo
  | flashInfo
  | appInfo
  | read (m : MemType)
  deriving DecidableEq

/-- The registers that the master writes. -/
inductive WriteReg
  | start
  | wait
  | appInfoSet
  | readAddr (m : MemType)
  | writeAddr (m : MemType)
  | write (m : MemType)
  deriving DecidableEq

def readReg (cmd : UInt8) : Option ReadReg :=
  if cmd = 0x00 then some .btldrInfo
  else if cmd = 0x01 then some .status
  else if cmd = 0x02 then some .devInfo
  else if cmd = 0x03 then some .flashInfo
  else if cmd = 0x04 then some .appInfo
  else if cmd = 0x05 then some (.read .eeprom)
  else if cmd = 0x06 then some (.read .data)
  else none

def writeReg (cmd : UInt8) : Option WriteReg :=
  if cmd = 0x80 then some .start
  else if cmd = 0x82 then some .wait
  else if cmd = 0x84 then some .appInfoSet
  else if cmd = 0x85 then some (.readAddr .eeprom)
  else if cmd = 0x86 then some (.readAddr .data)
  else if cmd = 0x87 then some (.writeAddr .eeprom)
  else if cmd = 0x88 then some (.write .eeprom)
  else if cmd = 0x89 then some (.writeAddr .data)
  else if cmd = 0x8a then some (.write .data)
  else none

def regStart : UInt8 := 0x80

def regResv2 : UInt8 := 0x7f

def regResv : UInt8 := 0xff

def regRwMask : UInt8 := 0x80

def i2cBufSize : ℕ := 192

/-- The key, the most significant byte first. -/
def startKey : Bytes := [0xc0, 0xaa, 0xaa, 0xa4]

/-- Where the main function is. `starting` has the time that is left. -/
inductive Phase
  | starting (timeoutCounter : ℕ)
  | running
  | jumped
  deriving DecidableEq

/-- The memory, the static variables and the program counter. -/
structure Bootloader where
  mem : Memory
  runState : RunState
  btldrState : BtldrState
  appStatus : UInt8
  flashState : FlashState
  flashAddr : ℕ
  i2cState : I2cState
  i2cBuf : Bytes
  i2cOffset : ℕ
  i2cOutRemaining : ℕ
  i2cReg : UInt8
  phase : Phase

/-- What `i2c_proc_event` finds in the status registers. -/
structure I2cEvent where
  /-- `RXNE`, with the byte. -/
  received : Option UInt8
  /-- `AF` and `STOPF`. -/
  ackFailure : Bool
  stop : Bool
  /-- `ADDR`, with `TRA`. -/
  addr : Option Bool
  /-- `TXE` and `BTF`. -/
  txEmpty : Bool
  finished : Bool
  /-- Whether a message of no bytes passes the check, which then reads beyond the buffer. -/
  stray : Bool

/-! ### `commands.c` -/

/-- A number of `n` bytes. -/
def bytesOf : (n value : ℕ) → Bytes
  | 0, _ => []
  | n + 1, value => UInt8.ofNat (value / 256 ^ n) :: bytesOf n value

variable (s : Bootloader)

namespace Bootloader

def uniqueIdBase : ℕ := 0x4926

def optionBytes : List ℕ := [0x4800, 0x4802, 0x4807, 0x4808, 0x4809, 0x480a, 0x480b, 0x480c]

/-- `BtldrInfo`: endianness, protocol version and version. -/
def btldrInfo : Bytes := bytesOf 4 0x87654321 ++ bytesOf 2 2 ++ bytesOf 2 5

/-- `BtldrDeviceInfo`: board, revision, chip, serial number and option bytes. -/
def devInfo (mem : Memory) : Bytes :=
  bytesOf 2 2 ++ bytesOf 2 4 ++ bytesOf 2 3 ++ mem.read uniqueIdBase 12 ++ optionBytes.map mem

/-- `BtldrFlashInfo`: bases and sizes, then block sizes and times. -/
def flashInfo : Bytes :=
  bytesOf 4 (MemType.base .eeprom) ++ bytesOf 4 (MemType.size .eeprom) ++
    bytesOf 4 (MemType.base .data) ++ bytesOf 4 (MemType.size .data) ++
    bytesOf 2 flashBlockSize ++ bytesOf 2 flashBlockSize ++
    bytesOf 2 10 ++ bytesOf 2 (0x8000 ||| 8) ++ bytesOf 2 10 ++ bytesOf 2 (0x8000 ||| 8)

/-- `BtldrAppInfo`, with `BTLDR_APP_INFO_SET_TIME`. -/
def appInfoBytes (info : AppInfo) : Bytes :=
  info.size ++ info.crc16 ++ info.appVer ++ bytesOf 2 (0x8000 ||| 2500) ++ [info.status]

/-- Data for the master. -/
def answer (bytes : Bytes) : Bootloader :=
  { s with i2cBuf := fill s.i2cBuf bytes, i2cOutRemaining := bytes.length }

/-- The default: enough data for the master to read on, and an error. -/
def answerError (error : BtldrState) : Bootloader :=
  { s.answer (List.replicate i2cBufSize 0xff) with btldrState := error }

/-- Reading the status starts a flash access whose address is ready. -/
def statusRead (last : FlashState) : FlashState × BtldrState :=
  match last with
  | .idle => (.idle, .ok)
  | .readAddrReady m => (.readRun m, .ok)
  | .writeAddrReady m => (.writeDataReady m, .ok)
  | _ => (.idle, .flashInterrupted)

def cmdDataOut (cmd : UInt8) : Bootloader :=
  let lastBtldrState := s.btldrState
  let lastFlashState := s.flashState
  let s := { s with btldrState := .ok, i2cOffset := 0, flashState := .idle }
  match readReg cmd with
  | some .btldrInfo => s.answer btldrInfo
  | some .status =>
    let s :=
      if lastBtldrState = .ok then
        { s with
          flashState := (statusRead lastFlashState).1
          btldrState := (statusRead lastFlashState).2 }
      else s
    s.answer [lastBtldrState.code]
  | some .devInfo => s.answer (devInfo s.mem)
  | some .flashInfo => s.answer flashInfo
  | some .appInfo => s.answer (appInfoBytes (readAppInfo s.mem s.appStatus))
  | some (.read m) =>
    -- the main loop has left a block in the buffer
    if s.i2cOutRemaining = flashBlockSize ∧ lastFlashState = .readDataReady m then s
    else s.answerError .dataNotReady
  | none => s.answerError .invalidReg

def checkFlashAddr (m : MemType) (addr : ℕ) : BtldrState :=
  if addr % flashBlockSize ≠ 0 then .invalidAddr
  else if addr < m.base ∨ m.base + m.size ≤ addr then .invalidAddr
  else .ok

/-- The address registers. Their size is not checked. -/
def setAddr (m : MemType) (ready : FlashState) : Bootloader :=
  let addr := bigEndian (field s.i2cBuf 0 4)
  let s := { s with btldrState := checkFlashAddr m addr }
  if s.btldrState = .ok then { s with flashAddr := addr, flashState := ready } else s

/-- The registers that take the key: what it is used for if it is right. -/
def withKey (act : Bootloader → Bootloader) : Bootloader :=
  if s.i2cOffset = startKey.length then
    if field s.i2cBuf 0 4 = startKey then act s else { s with btldrState := .badKey }
  else { s with btldrState := .invalidI2cSize }

def startReg : Bootloader :=
  match s.runState with
  | .btldrStart => { s with runState := .btldrRun }
  | .btldrRun =>
    if s.appStatus &&& readyMask = readyReady then { s with runState := .appStart }
    else { s with btldrState := .appNotReady }
  | .appStart => { s with btldrState := .busy }

def waitReg : Bootloader :=
  match s.runState with
  | .btldrStart | .btldrRun => { s with runState := .btldrRun }
  | .appStart => { s with btldrState := .busy }

def cmdDataIn (cmd : UInt8) : Bootloader :=
  let lastFlashState := s.flashState
  let s := { s with btldrState := .ok, flashState := .idle }
  match writeReg cmd with
  | some .start => s.withKey startReg
  | some .wait => s.withKey waitReg
  | some .appInfoSet =>
    if s.i2cOffset = 9 then { s with flashState := .appInfoWriteRun }
    else { s with btldrState := .invalidI2cSize }
  | some (.readAddr m) => s.setAddr m (.readAddrReady m)
  | some (.writeAddr m) => s.setAddr m (.writeAddrReady m)
  | some (.write m) =>
    if s.i2cOffset = flashBlockSize then
      if lastFlashState = .writeDataReady m then { s with flashState := .writeRun m }
      else { s with btldrState := .flashNotReady }
    else { s with btldrState := .invalidBlockSize }
  | none => { s with btldrState := .invalidReg }

/-! ### `i2c.c` -/

/-- `I2C_STATE_RESET`. -/
def i2cStateReset : Bootloader :=
  if s.i2cState = .idle then s
  else { s with i2cState := .idle, i2cOffset := 0, i2cOutRemaining := 0, i2cReg := regResv }

def i2cMessageChecksum (buf : Bytes) (regaddr : UInt8) : UInt8 := crc8 (iomcuCrc8Init + regaddr) buf

/-- The read command, and the checksum behind its data. -/
def sendAnswer : Bootloader :=
  let s := s.cmdDataOut s.i2cReg
  let checksum := i2cMessageChecksum (field s.i2cBuf s.i2cOffset s.i2cOutRemaining) s.i2cReg
  { s with
    i2cBuf := s.i2cBuf.set (s.i2cOffset + s.i2cOutRemaining) checksum
    i2cOutRemaining := s.i2cOutRemaining + 2
    i2cState := .dataOut }

def i2cMessageStart (tra : Bool) : Bootloader :=
  match s.i2cState with
  | .idle => if tra then s else { s with i2cState := .regWait }
  | .outStartWait => if tra then s.sendAnswer else s.i2cStateReset
  | .regWait | .dataIn | .dataOut => s.i2cStateReset

/-- `i2c_message_verify` for what has been received. -/
def verified (stray : Bool) : Bool :=
  if s.i2cOffset = 0 then stray
  else
    i2cMessageChecksum (s.i2cBuf.take (s.i2cOffset - 1)) s.i2cReg =
      s.i2cBuf.getD (s.i2cOffset - 1) 0

def i2cMessageStop (stray : Bool) : Bootloader :=
  match s.i2cState with
  | .dataIn =>
    if s.verified stray then
      -- without a checksum byte the offset wraps
      ({ s with i2cOffset := (s.i2cOffset + 255) % 256 }.cmdDataIn s.i2cReg).i2cStateReset
    else { s with btldrState := .checksumFailed, flashState := .idle }.i2cStateReset
  | .idle | .regWait | .outStartWait | .dataOut => s.i2cStateReset

/-- The register a byte selects. Only the start register is there before the bootloader
runs, and after it has been told to start the application. -/
def selectReg (byte : UInt8) : UInt8 :=
  if s.runState = .btldrRun ∨ byte = regStart then byte
  else regResv2 ||| (byte &&& regRwMask)

def i2cByteIn (byte : UInt8) : Bootloader :=
  match s.i2cState with
  | .regWait =>
    if byte = regResv then s.i2cStateReset
    else
      let i2cReg := s.selectReg byte
      { s with
        i2cReg := i2cReg
        i2cState := if i2cReg &&& regRwMask = 0 then .outStartWait else .dataIn }
  | .dataIn =>
    if s.i2cOffset < i2cBufSize then
      { s with i2cBuf := s.i2cBuf.set s.i2cOffset byte, i2cOffset := s.i2cOffset + 1 }
    else { s with btldrState := .overflow }
  | .idle | .outStartWait | .dataOut => s.i2cStateReset

/-- The byte goes to the master. -/
def i2cByteOut : Bootloader :=
  match s.i2cState with
  | .dataOut =>
    if s.i2cOutRemaining ≠ 0 ∧ s.i2cOffset < i2cBufSize then
      { s with i2cOffset := s.i2cOffset + 1, i2cOutRemaining := s.i2cOutRemaining - 1 }
    else { s with btldrState := if s.i2cOutRemaining ≠ 0 then .overflow else .underflow }
  | .idle | .regWait | .dataIn | .outStartWait => s.i2cStateReset

/-- `i2c_proc_event`, once there is an event. -/
def i2cProcEvent (e : I2cEvent) : Bootloader :=
  let s := match e.received with
    | some byte => s.i2cByteIn byte
    | none => s
  let s := if e.ackFailure then s.i2cMessageStop e.stray else s
  let s := if e.stop then s.i2cMessageStop e.stray else s
  let s := match e.addr with
    | some tra => s.i2cMessageStart tra
    | none => s
  let s := if e.txEmpty && e.finished then s.i2cByteOut else s
  if e.txEmpty then s.i2cByteOut else s

/-! ### `main.c` -/

def writeAppInfo (p : AppInfoSet) : Bootloader :=
  let buf := fill s.i2cBuf (recordBlock p)
  let mem := flashProgramblock s.mem btldrEepromDataBlock .eeprom buf
  let (appStatus, buf) := updateAppStatus mem buf
  { s with mem := mem, appStatus := appStatus, i2cBuf := buf }

def writeAppInfoRun : Bootloader :=
  let info : AppInfoSet :=
    { size := field s.i2cBuf 0 4
      crc16 := field s.i2cBuf 4 2
      appVer := field s.i2cBuf 6 2
      autoboot := s.i2cBuf.getD 8 0 }
  { s.writeAppInfo info with flashState := .idle }

def flashRdwrRun : Bootloader :=
  match s.flashState with
  | .readRun m =>
    { s with
      i2cOutRemaining := flashBlockSize
      i2cBuf := fill s.i2cBuf (s.mem.read s.flashAddr flashBlockSize)
      flashState := .readDataReady m }
  | .writeRun m =>
    let block := (s.flashAddr - m.start) / flashBlockSize
    { s with
      mem := flashProgramblock s.mem block m s.i2cBuf
      -- a write to the application makes it invalid
      appStatus := if m = .data then (s.appStatus &&& ~~~readyMask) ||| readyNa else s.appStatus
      flashState := .idle }
  | _ => { s with flashState := .idle, btldrState := .flashNotReady }

/-- What the main loop does after an event. -/
def flashRun : Bootloader :=
  if s.i2cState = .idle then
    match s.flashState with
    | .readRun _ | .writeRun _ => s.flashRdwrRun
    | .appInfoWriteRun => s.writeAppInfoRun
    | _ => s
  else s

def i2cTimeoutCount : ℕ := 16

/-- Power on, up to the first loop. -/
def boot (mem : Memory) : Bootloader :=
  let (appStatus, buf) := updateAppStatus mem (List.replicate (i2cBufSize + 2) 0)
  let autoboot := appStatus = readyReady ||| autobootMask
  { mem := mem
    runState := if autoboot then .btldrStart else .btldrRun
    btldrState := .ok
    appStatus := appStatus
    flashState := .idle
    flashAddr := 0
    i2cState := .idle
    i2cBuf := buf
    i2cOffset := 0
    i2cOutRemaining := 0
    i2cReg := regResv
    phase := if autoboot then .starting i2cTimeoutCount else .running }

/-- An event while the bootloader waits for the start key. -/
def startEvent (e : I2cEvent) : Bootloader :=
  let s := s.i2cProcEvent e
  match s.runState with
  | .btldrStart => s
  | .btldrRun => { s with phase := .running }
  | .appStart => { s with phase := .jumped }

/-- An interval without an event; after the last one the application is started. -/
def startTimeout (timeoutCounter : ℕ) : Bootloader :=
  if timeoutCounter ≤ 1 then { s with runState := .appStart, phase := .jumped }
  else { s with phase := .starting (timeoutCounter - 1) }

/-- A turn of the loop of the bootloader. -/
def runEvent (e : I2cEvent) : Bootloader :=
  let s := (s.i2cProcEvent e).flashRun
  if s.runState = .btldrRun ∨ s.i2cState ≠ .idle then s else { s with phase := .jumped }

end Bootloader

/-- An event on the bus, time that passes without one, or a reset. What is in memory
after a reset is anything: a write may have been cut off, and the application may have
been running. -/
inductive BootloaderEvent
  | i2c (e : I2cEvent)
  | timeout
  | reset (mem : Memory)

def Bootloader.step : BootloaderEvent → Option Bootloader
  | .i2c e =>
    match s.phase with
    | .starting _ => some (s.startEvent e)
    | .running => some (s.runEvent e)
    | .jumped => none
  | .timeout =>
    match s.phase with
    | .starting timeoutCounter => some (s.startTimeout timeoutCounter)
    | .running => some s
    | .jumped => none
  | .reset mem => some (.boot mem)

/-- The controller, from power on with some memory. -/
def bootloader (mem : Memory) : System Bootloader BootloaderEvent where
  init := .boot mem
  step := Bootloader.step

end BeepMusic.Iomcu
