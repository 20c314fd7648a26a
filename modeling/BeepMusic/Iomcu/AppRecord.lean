import Mathlib.Algebra.Group.Nat.Defs
import Mathlib.Logic.Function.Iterate
import BeepMusic.Lib.File

/-!
What the bootloader of the I/O controller knows of the application (`main.c`): a
record in the EEPROM with the size and the checksum of the application, which is
behind the bootloader in the flash. The controller is an STM8L15x of medium density,
which is big endian.
-/

namespace BeepMusic.Iomcu

open Lib

/-! ### `iomcu_checksum.c` -/

def crc8Shift (crc : UInt8) : UInt8 :=
  if crc &&& 0x80 ≠ 0 then (crc <<< 1) ^^^ 0xd5 else crc <<< 1

def crc8 (crc : UInt8) (buf : Bytes) : UInt8 :=
  buf.foldl (fun crc b => crc8Shift^[8] (crc ^^^ b)) crc

def crc16Shift (crc : UInt16) : UInt16 :=
  if crc &&& 0x8000 ≠ 0 then (crc <<< 1) ^^^ 0x8005 else crc <<< 1

def crc16 (crc : UInt16) (buf : Bytes) : UInt16 :=
  buf.foldl (fun crc b => crc16Shift^[8] (crc ^^^ (b.toUInt16 <<< (8 : UInt16)))) crc

def iomcuCrc8Init : UInt8 := 0xff

def iomcuCrc16Init : UInt16 := 0x0000

theorem crc16_append (crc : UInt16) (buf buf' : Bytes) :
    crc16 crc (buf ++ buf') = crc16 (crc16 crc buf) buf' := List.foldl_append

/-! ### Memory -/

abbrev Memory := ℕ → UInt8

def flashBlockSize : ℕ := 128

/-- `eeprom` is what the manufacturer calls data memory, and `data` is program memory. -/
inductive MemType
  | eeprom
  | data
  deriving DecidableEq

namespace MemType

/-- `FLASH_DATA_EEPROM_START_PHYSICAL_ADDRESS`, `FLASH_PROGRAM_START_PHYSICAL_ADDRESS`. -/
def start : MemType → ℕ
  | .eeprom => 0x1000
  | .data => 0x8000

def blocksNumber : MemType → ℕ
  | .eeprom => 0x8
  | .data => 0x100

/-- The blocks that the bootloader has for itself. -/
def resvBlocks : MemType → ℕ
  | .eeprom => 1
  | .data => 64

/-- `BTLDR_STM8L15X_EEPROM_BASE`, `BTLDR_STM8L15X_DATA_BASE`. -/
def base (m : MemType) : ℕ := m.start + m.resvBlocks * flashBlockSize

/-- `BTLDR_STM8L15X_EEPROM_SIZE`, `BTLDR_STM8L15X_DATA_SIZE`. -/
def size (m : MemType) : ℕ := (m.blocksNumber - m.resvBlocks) * flashBlockSize

end MemType

variable (mem : Memory)

/-- The bytes from an address on. -/
def Memory.read (addr n : ℕ) : Bytes :=
  (List.range n).map fun i => mem (addr + i)

def flashProgramblock (block : ℕ) (memtype : MemType) (buf : Bytes) : Memory :=
  let startaddress := memtype.start + block * flashBlockSize
  fun a =>
    if startaddress ≤ a ∧ a < startaddress + flashBlockSize then buf.getD (a - startaddress) 0
    else mem a

/-! ### The record -/

/-- The bytes of a field. -/
def field (buf : Bytes) (offset n : ℕ) : Bytes := (buf.drop offset).take n

/-- `BTLDR_EEPROM_DATA_MAGIC`. -/
def btldrEepromDataMagic : Bytes := [0x42, 0x45, 0x45, 0x50]

def btldrEepromDataBlock : ℕ := 0

def btldrEepromDataOffset : ℕ := MemType.start .eeprom

/-- `BtldrEEPROMData` has magic, size, crc16, version, autoboot and crc8. -/
def btldrEepromDataSize : ℕ := 14

/-- `BTLDR_STM8L15X_INT_OPCODE`, with which a vector begins. -/
def intOpcode : UInt8 := 0x82

def readyMask : UInt8 := 0x7f

def autobootMask : UInt8 := 0x80

/-- `I2C_BTLDR_APP_STATUS_READY_*`. -/
def readyNa : UInt8 := 0x00

def readyReady : UInt8 := 0x01

def readyCrcFailed : UInt8 := 0x02

def readyNoReset : UInt8 := 0x03

def readyResv : UInt8 := 0x7f

/-- `BtldrAppInfo`, without the time that setting it takes. -/
structure AppInfo where
  size : Bytes
  crc16 : Bytes
  appVer : Bytes
  status : UInt8
  deriving DecidableEq

/-- `BtldrAppInfoSet`. -/
structure AppInfoSet where
  size : Bytes
  crc16 : Bytes
  appVer : Bytes
  autoboot : UInt8

def appRecord : Bytes := mem.read btldrEepromDataOffset btldrEepromDataSize

/-- The checks of `read_app_info`. -/
def recordValid (data : Bytes) : Bool :=
  crc8 iomcuCrc8Init (data.take 13) = data.getD 13 0 ∧ field data 0 4 = btldrEepromDataMagic

def readAppInfo (appStatus : UInt8) : AppInfo :=
  let data := appRecord mem
  if recordValid data then
    { size := field data 4 4
      crc16 := field data 8 2
      appVer := field data 10 2
      status := appStatus ||| data.getD 12 0 }
  else ⟨[0, 0, 0, 0], [0, 0], [0, 0], 0⟩

/-- The record that `write_app_info` writes, with the rest of the block. -/
def recordBlock (p : AppInfoSet) : Bytes :=
  let data := btldrEepromDataMagic ++ p.size ++ p.crc16 ++ p.appVer ++ [p.autoboot &&& autobootMask]
  data ++ [crc8 iomcuCrc8Init data] ++ List.replicate (flashBlockSize - btldrEepromDataSize) 0

/-- Put bytes at the beginning of a buffer. -/
def fill (buf bytes : Bytes) : Bytes := bytes ++ buf.drop bytes.length

/-- The loop of `update_app_status`: each block is copied to the buffer and added to
the checksum. -/
def crcBlocks (mem : Memory) : (blocks addr : ℕ) → UInt16 → Bytes → UInt16 × Bytes
  | 0, _, crc, buf => (crc, buf)
  | blocks + 1, addr, crc, buf =>
    let block := mem.read addr flashBlockSize
    crcBlocks mem blocks (addr + flashBlockSize) (crc16 crc block) (fill buf block)

/-- `update_app_status`: the status, and what is left in the buffer. -/
def updateAppStatus (buf : Bytes) : UInt8 × Bytes :=
  let appInfo := readAppInfo mem readyResv
  if appInfo.status &&& readyMask ≠ readyResv then (readyNa, buf)
  else if MemType.size .data < bigEndian appInfo.size then (readyNa, buf)
  else
    let autoboot := appInfo.status &&& autobootMask
    if mem (MemType.base .data) ≠ intOpcode then (autoboot ||| readyNoReset, buf)
    else
      let appBlocks := bigEndian appInfo.size / flashBlockSize
      let (crc, buf) := crcBlocks mem appBlocks (MemType.base .data) iomcuCrc16Init buf
      if crc.toNat ≠ bigEndian appInfo.crc16 then (autoboot ||| readyCrcFailed, buf)
      else (autoboot ||| readyReady, buf)

end BeepMusic.Iomcu
