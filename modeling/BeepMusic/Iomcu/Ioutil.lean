import BeepMusic.Iomcu.Bus
import BeepMusic.Lib.Program

/-!
`ioutil`, which writes firmware through the bootloader. It runs on a host that is big
endian like the controller. The delays are left out: the controller has finished with the
flash before it sees the next access.
-/

namespace BeepMusic.Iomcu

open Lib

/-- `I2C_BTLDR_REG_*` of the registers that are read. -/
def ReadReg.code : ReadReg → UInt8
  | .btldrInfo => 0x00
  | .status => 0x01
  | .devInfo => 0x02
  | .flashInfo => 0x03
  | .appInfo => 0x04
  | .read .eeprom => 0x05
  | .read .data => 0x06

/-- `I2C_BTLDR_REG_*` of the registers that are written. -/
def WriteReg.code : WriteReg → UInt8
  | .start => 0x80
  | .wait => 0x82
  | .appInfoSet => 0x84
  | .readAddr .eeprom => 0x85
  | .readAddr .data => 0x86
  | .writeAddr .eeprom => 0x87
  | .write .eeprom => 0x88
  | .writeAddr .data => 0x89
  | .write .data => 0x8a

/-- A bus that loses nothing. An access succeeds or fails as a whole: `ret` is what the
access returns, and the events are how the controller sees one that succeeds. When a read
ends, one more byte may have been fetched for the master. -/
structure LosslessBus where
  ret : ℕ → ℕ
  writeEvents : ℕ → UInt8 → Bytes → List I2cEvent
  readEvents : ℕ → UInt8 → ℕ → List I2cEvent
  ops_writeEvents : ∀ n reg data, ∃ stray,
    (writeEvents n reg data).flatMap I2cEvent.ops = writeOps reg data stray
  ops_readEvents : ∀ n reg len, ∃ amount stray, len ≤ amount ∧ amount ≤ len + 1 ∧
    (readEvents n reg len).flatMap I2cEvent.ops = readOps reg amount stray
  ne_writeEvents : ∀ n reg data, ∀ e ∈ writeEvents n reg data, e.ops ≠ []
  ne_readEvents : ∀ n reg len, ∀ e ∈ readEvents n reg len, e.ops ≠ []

/-- An event with a single operation. -/
def BusOp.event (o : BusOp) : I2cEvent :=
  match o with
  | .byteIn byte => ⟨some byte, false, false, none, false, false, false⟩
  | .stop stray => ⟨none, false, true, none, false, false, stray⟩
  | .start tra => ⟨none, false, false, some tra, false, false, false⟩
  | .byteOut => ⟨none, false, false, none, true, false, false⟩

theorem BusOp.ops_event (o : BusOp) : o.event.ops = [o] := by
  cases o <;> rfl

theorem BusOp.flatMap_event (ops : List BusOp) :
    (ops.map BusOp.event).flatMap I2cEvent.ops = ops := by
  rw [List.flatMap_map]
  simp only [ops_event]
  exact List.flatMap_singleton' ops

theorem BusOp.ne_event (ops : List BusOp) : ∀ e ∈ ops.map BusOp.event, e.ops ≠ [] := by
  intro e he
  obtain ⟨o, -, rfl⟩ := List.mem_map.mp he
  rw [ops_event]
  exact List.cons_ne_nil o []

/-- The bus that never fails and reports one operation at a time. -/
def LosslessBus.plain : LosslessBus where
  ret _ := 0
  writeEvents _ reg data := (writeOps reg data false).map BusOp.event
  readEvents _ reg len := (readOps reg len false).map BusOp.event
  ops_writeEvents _ reg data := ⟨false, BusOp.flatMap_event (writeOps reg data false)⟩
  ops_readEvents _ reg len :=
    ⟨len, false, Nat.le_refl len, Nat.le_succ len, BusOp.flatMap_event (readOps reg len false)⟩
  ne_writeEvents _ reg data := BusOp.ne_event (writeOps reg data false)
  ne_readEvents _ reg len := BusOp.ne_event (readOps reg len false)

/-- The controller, and the number of accesses so far. -/
structure Ioutil where
  device : Bootloader
  accesses : ℕ

/-- The host: the file and its size, what `fread` and `malloc` return, and the options. -/
structure Host where
  stream : Option Bytes
  fread : ℕ
  malloc : Bool
  ignoreChksum : Bool
  writeFwAppVer : UInt16

namespace Ioutil

/-- An access that succeeds or fails. -/
def access {α : Type} (bus : LosslessBus) (act : ℕ → Bootloader → α × Bootloader) :
    Program Ioutil ℕ α := fun io =>
  if bus.ret io.accesses = 0 then
    let (a, device) := act io.accesses io.device
    (.ok a, ⟨device, io.accesses + 1⟩)
  else (.error (bus.ret io.accesses), { io with accesses := io.accesses + 1 })

def i2cRegRead (bus : LosslessBus) (regaddr : UInt8) (len : ℕ) : Program Ioutil ℕ Bytes :=
  access bus fun n device =>
    let (bytes, device) := device.transfer (bus.readEvents n regaddr len)
    (bytes.take len, device)

def i2cRegWrite (bus : LosslessBus) (regaddr : UInt8) (buf : Bytes) : Program Ioutil ℕ Unit :=
  access bus fun n device => ((), (device.transfer (bus.writeEvents n regaddr buf)).2)

variable (host : Host) (bus : LosslessBus)

def ioutilRegRead (reg : ReadReg) (len : ℕ) : Program Ioutil ℕ Bytes := do
  let tbuf ← i2cRegRead bus reg.code (len + 1)
  .require (Bootloader.i2cMessageChecksum (tbuf.take len) reg.code = tbuf.getD len 0 ||
    host.ignoreChksum) 2
  pure (tbuf.take len)

def ioutilRegWrite (reg : WriteReg) (buf : Bytes) : Program Ioutil ℕ Unit :=
  i2cRegWrite bus reg.code (buf ++ [Bootloader.i2cMessageChecksum buf reg.code])

/-- `rd_btldr_status`, and the check of what it has read. -/
def checkStatus : Program Ioutil ℕ Unit := do
  let status ← ioutilRegRead host bus .status 1
  .require (status.getD 0 0 = BtldrState.ok.code) 1

/-- `BtldrFlashInfo`, without the part about the EEPROM and the times. -/
structure FlashInfo where
  dataBase : ℕ
  dataSize : ℕ
  dataBlocksize : ℕ

def rdBtldrFlashInfo : Program Ioutil ℕ FlashInfo := do
  let p ← ioutilRegRead host bus .flashInfo 28
  pure
    { dataBase := bigEndian (field p 8 4)
      dataSize := bigEndian (field p 12 4)
      dataBlocksize := bigEndian (field p 18 2) }

def rdBtldrAppInfo : Program Ioutil ℕ AppInfo := do
  let p ← ioutilRegRead host bus .appInfo 11
  pure
    { size := field p 0 4
      crc16 := field p 4 2
      appVer := field p 6 2
      status := p.getD 10 0 }

def wrBtldrAppInfoSet (p : AppInfoSet) : Program Ioutil ℕ Unit :=
  ioutilRegWrite bus .appInfoSet (p.size ++ p.crc16 ++ p.appVer ++ [p.autoboot])

def ioutilWriteFlash (writeAddr : ℕ) (buf : Bytes) (m : MemType) : Program Ioutil ℕ Unit := do
  ioutilRegWrite bus (.writeAddr m) (bytesOf 4 writeAddr)
  checkStatus host bus
  ioutilRegWrite bus (.write m) buf
  checkStatus host bus

def ioutilReadFlash (readAddr len : ℕ) (m : MemType) : Program Ioutil ℕ Bytes := do
  ioutilRegWrite bus (.readAddr m) (bytesOf 4 readAddr)
  checkStatus host bus
  ioutilRegRead host bus (.read m) len

/-- `ROUND_UP_ADDR`. -/
def roundUpAddr (addr bs : ℕ) : ℕ := (addr + bs - 1) / bs * bs

/-- The loop of `ioutil_rdwr_flash_block` over the blocks: an error ends it. The result is
how many bytes it has dealt with, and those that were read. -/
def rdwrLoop (blocksize : ℕ) (m : MemType) (rd : Bool) :
    (blocks base : ℕ) → Bytes → Program Ioutil ℕ (ℕ × Bytes)
  | 0, _, _ => pure (0, [])
  | blocks + 1, base, buf => fun io =>
    let block :=
      if rd then ioutilReadFlash host bus base blocksize m
      else do
        ioutilWriteFlash host bus base (buf.take blocksize) m
        pure []
    match block io with
    | (.error _, io) => (.ok (0, []), io)
    | (.ok bytes, io) =>
      (do
        let (left, more) ←
          rdwrLoop blocksize m rd blocks (base + blocksize) (buf.drop blocksize)
        pure (blocksize + left, bytes ++ more) : Program Ioutil ℕ (ℕ × Bytes)) io

def ioutilRdwrFlashBlock (base size blocksize : ℕ) (m : MemType) (buf : Bytes) (rd : Bool) :
    Program Ioutil ℕ (ℕ × Bytes) :=
  if base ≠ roundUpAddr base blocksize then pure (0, [])
  else if size ≠ roundUpAddr size blocksize then pure (0, [])
  else rdwrLoop host bus blocksize m rd (size / blocksize) base buf

/-- The firmware in whole blocks. -/
def padded (image : Bytes) (blocksize : ℕ) : Bytes :=
  image ++ List.replicate (roundUpAddr image.length blocksize - image.length) 0

/-- `ioutil_write_fw` from where the file is open. -/
def writeImage (flashInfo : FlashInfo) (appInfo : AppInfo) (image : Bytes) :
    Program Ioutil ℕ Unit := do
  let bsize := roundUpAddr image.length flashInfo.dataBlocksize
  .require (bsize ≤ flashInfo.dataSize) 1
  .require host.malloc 1
  .require (host.fread = image.length) 1
  let buf := padded image flashInfo.dataBlocksize
  let (wsize, _) ← ioutilRdwrFlashBlock host bus flashInfo.dataBase bsize
    flashInfo.dataBlocksize .data buf false
  .require (wsize = bsize) 1
  let (rsize, verify) ← ioutilRdwrFlashBlock host bus flashInfo.dataBase bsize
    flashInfo.dataBlocksize .data buf true
  .require (rsize = bsize) 1
  .require (buf = verify) 1
  let appInfoSet : AppInfoSet :=
    { size := bytesOf 4 bsize
      crc16 := bytesOf 2 (crc16 iomcuCrc16Init buf).toNat
      appVer := bytesOf 2 host.writeFwAppVer.toNat
      autoboot := appInfo.status &&& autobootMask }
  wrBtldrAppInfoSet bus appInfoSet
  let appInfo ← rdBtldrAppInfo host bus
  .require (appInfo.size = appInfoSet.size && appInfo.crc16 = appInfoSet.crc16 &&
    appInfo.appVer = appInfoSet.appVer &&
    appInfo.status &&& autobootMask = appInfoSet.autoboot &&& autobootMask) 1

/-- `ioutil_write_fw`; it returns 0 if the program does not fail. -/
def ioutilWriteFw : Program Ioutil ℕ Unit := do
  let flashInfo ← rdBtldrFlashInfo host bus
  let appInfo ← rdBtldrAppInfo host bus
  match host.stream with
  | none => .fail 1
  | some image => writeImage host bus flashInfo appInfo image

end Ioutil

end BeepMusic.Iomcu
