import BeepMusic.Iomcu.Bootloader

/-!
The bootloader starts the application only if it has checked it. What comes over the
bus never changes the memory or the status: it only prepares what the main loop does
when the bus is idle, and outside of the loop of the bootloader it prepares nothing.
The main loop in turn keeps the status in step with the memory: the record is checked
again when it is written, the status is dropped when the application is written, and
other writes cannot reach either of them.
-/

namespace BeepMusic.Iomcu

open Lib List

/-- The checks of the bootloader: the record has its magic and its checksum, the
application begins with a vector, and the checksum of its blocks is that of the record. -/
structure AppValid (mem : Memory) : Prop where
  magic : field (appRecord mem) 0 4 = btldrEepromDataMagic
  crc8 : crc8 iomcuCrc8Init ((appRecord mem).take 13) = (appRecord mem).getD 13 0
  opcode : mem (MemType.base .data) = intOpcode
  crc16 : (crc16 iomcuCrc16Init (mem.read (MemType.base .data)
    (bigEndian (field (appRecord mem) 4 4) / flashBlockSize * flashBlockSize))).toNat =
      bigEndian (field (appRecord mem) 8 2)

/-- `(app_status & I2C_BTLDR_APP_STATUS_READY_MASK) == I2C_BTLDR_APP_STATUS_READY_READY`. -/
def IsReady (appStatus : UInt8) : Prop := appStatus &&& readyMask = readyReady

/-! ### The status -/

theorem Memory.read_add (mem : Memory) (addr m n : ℕ) :
    mem.read addr (m + n) = mem.read addr m ++ mem.read (addr + m) n := by
  simp only [Memory.read, range_add, map_append, List.map_map]
  congr 1
  apply map_congr_left
  intro i _
  rw [Function.comp_apply, Nat.add_assoc]

variable {mem : Memory}

theorem Memory.read_congr {mem' : Memory} {addr n : ℕ}
    (h : ∀ a, addr ≤ a → a < addr + n → mem' a = mem a) : mem'.read addr n = mem.read addr n := by
  apply map_congr_left
  intro i hi
  have hlt := mem_range.mp hi
  exact h _ (by omega) (by omega)

/-- The loop over the blocks computes the checksum of all of them. -/
theorem crcBlocks_fst (mem : Memory) (blocks addr : ℕ) (crc : UInt16) (buf : Bytes) :
    (crcBlocks mem blocks addr crc buf).1 =
      crc16 crc (mem.read addr (blocks * flashBlockSize)) := by
  induction blocks generalizing addr crc buf with
  | zero => rw [Nat.zero_mul]; rfl
  | succ blocks ih =>
    have hsize : (blocks + 1) * flashBlockSize = flashBlockSize + blocks * flashBlockSize := by
      rw [Nat.succ_mul, Nat.add_comm]
    rw [crcBlocks, ih, hsize, Memory.read_add, crc16_append]

/-- The autoboot flag is no part of what says ready. -/
theorem ready_or_autoboot (status code : UInt8) :
    ((status &&& autobootMask) ||| code) &&& readyMask = code &&& readyMask := by
  have hdistrib : ((status &&& autobootMask) ||| code) &&& readyMask =
      (status &&& autobootMask &&& readyMask) ||| (code &&& readyMask) := by
    apply UInt8.toBitVec_inj.mp
    ext i
    simp [Bool.and_or_distrib_right]
  have hzero : status &&& autobootMask &&& readyMask = 0 := by
    rw [UInt8.and_assoc]
    exact UInt8.and_zero
  rw [hdistrib, hzero, UInt8.zero_or]

theorem and_regRwMask : ∀ b : UInt8, b &&& regRwMask = 0 ∨ b &&& regRwMask = regRwMask :=
  forall_byte (by decide +kernel)

/-- A status that says ready comes from checks that passed. -/
theorem appValid_of_updateAppStatus {buf : Bytes} (h : IsReady (updateAppStatus mem buf).1) :
    AppValid mem := by
  rw [IsReady] at h
  simp only [updateAppStatus] at h
  have hna : ¬ readyNa &&& readyMask = readyReady := by decide
  split at h
  · exact absurd h hna
  · rename_i hstatus
    split at h
    · exact absurd h hna
    · split at h
      · rw [ready_or_autoboot] at h
        exact absurd h (by decide)
      · rename_i hopcode
        split at h
        · rw [ready_or_autoboot] at h
          exact absurd h (by decide)
        · rename_i hcrc
          cases hvalid : recordValid (appRecord mem) with
          | false =>
            simp only [readAppInfo, hvalid, Bool.false_eq_true, if_false] at hstatus
            exact absurd (show (0 : UInt8) &&& readyMask ≠ readyResv by decide) hstatus
          | true =>
            obtain ⟨hcrc8, hmagic⟩ := of_decide_eq_true hvalid
            simp only [readAppInfo, hvalid, if_true, not_not, crcBlocks_fst] at hcrc
            exact ⟨hmagic, hcrc8, not_not.mp hopcode, hcrc⟩

/-- The checks look at the block of the record and at the application. -/
theorem AppValid.congr {mem' : Memory} (h : AppValid mem)
    (hrecord : ∀ a, a < MemType.base .eeprom → mem' a = mem a)
    (hdata : ∀ a, MemType.base .data ≤ a → mem' a = mem a) : AppValid mem' := by
  have happ : appRecord mem' = appRecord mem := by
    apply Memory.read_congr
    intro a _ hlt
    exact hrecord a (Nat.lt_of_lt_of_le hlt (by decide))
  constructor
  · rw [happ]
    exact h.magic
  · rw [happ]
    exact h.crc8
  · rw [hdata _ (Nat.le_refl _)]
    exact h.opcode
  · rw [happ, Memory.read_congr fun a hle _ => hdata a hle]
    exact h.crc16

/-! ### Blocks -/

/-- The block is inside the range that the master can write. -/
def MemType.Contains (m : MemType) (block : ℕ) : Prop :=
  m.base ≤ m.start + block * flashBlockSize ∧
    m.start + block * flashBlockSize + flashBlockSize ≤ m.base + m.size

theorem contains_of_addr {m : MemType} {addr : ℕ} (hbase : m.base ≤ addr)
    (hsize : addr < m.base + m.size) : m.Contains ((addr - m.start) / flashBlockSize) := by
  cases m with
  | eeprom | data =>
    simp only [MemType.Contains, MemType.base, MemType.size, MemType.start, MemType.resvBlocks,
      MemType.blocksNumber, flashBlockSize] at *
    omega

theorem flashProgramblock_of_not_mem {m : MemType} {block a : ℕ} {buf : Bytes}
    (ha : a < m.start + block * flashBlockSize ∨
      m.start + block * flashBlockSize + flashBlockSize ≤ a) :
    flashProgramblock mem block m buf a = mem a := by
  apply if_neg
  omega

/-! ### The bus -/

/-- What an event is made of. -/
inductive BusOp
  | byteIn (byte : UInt8)
  | stop (stray : Bool)
  | start (tra : Bool)
  | byteOut
  deriving DecidableEq

/-- The operations of an event, in the order of `i2c_proc_event`. -/
def I2cEvent.ops (e : I2cEvent) : List BusOp :=
  (e.received.map BusOp.byteIn).toList ++
    (if e.ackFailure then [.stop e.stray] else []) ++
    (if e.stop then [.stop e.stray] else []) ++
    (e.addr.map BusOp.start).toList ++
    (if e.txEmpty && e.finished then [.byteOut] else []) ++
    (if e.txEmpty then [.byteOut] else [])

namespace Bootloader

def op (s : Bootloader) : BusOp → Bootloader
  | .byteIn byte => s.i2cByteIn byte
  | .stop stray => s.i2cMessageStop stray
  | .start tra => s.i2cMessageStart tra
  | .byteOut => s.i2cByteOut

def runOps (s : Bootloader) (ops : List BusOp) : Bootloader := ops.foldl op s

theorem i2cProcEvent_eq (s : Bootloader) (e : I2cEvent) : s.i2cProcEvent e = s.runOps e.ops := by
  obtain ⟨received, ackFailure, stop, addr, txEmpty, finished, stray⟩ := e
  cases received <;> cases ackFailure <;> cases stop <;> cases addr <;> cases txEmpty <;>
    cases finished <;> rfl

/-- What each operation keeps, an event keeps. -/
theorem i2cProcEvent_kept {P : Bootloader → Prop} {s : Bootloader} (h : P s) (e : I2cEvent)
    (hop : ∀ s o, P s → P (s.op o)) : P (s.i2cProcEvent e) := by
  rw [i2cProcEvent_eq, runOps]
  generalize e.ops = ops
  induction ops generalizing s with
  | nil => exact h
  | cons o ops ih => exact ih (hop s o h)

end Bootloader

/-- The memory that a flash state is about. -/
def FlashState.memType : FlashState → Option MemType
  | .idle | .appInfoWriteRun => none
  | .readAddrReady m | .readRun m | .readDataReady m => some m
  | .writeAddrReady m | .writeDataReady m | .writeRun m => some m

/-- The registers that can be selected while the bootloader does not run. -/
def Locked (reg : UInt8) : Prop := reg = regStart ∨ reg = regResv2 ∨ reg = regResv

namespace Bootloader

variable {s s' s'' : Bootloader}

/-- An address that is ready is one of its memory, and nothing is prepared unless the
bootloader runs. -/
structure Prepared (s : Bootloader) : Prop where
  addr : ∀ m, s.flashState.memType = some m →
    m.base ≤ s.flashAddr ∧ s.flashAddr < m.base + m.size
  idle : s.runState ≠ .btldrRun → s.flashState = .idle
  locked : s.runState ≠ .btldrRun → Locked s.i2cReg

/-- What the bus can do: it leaves the memory and the status alone, and starts the
application only if the status says ready. -/
structure Serves (s s' : Bootloader) : Prop where
  mem : s'.mem = s.mem
  appStatus : s'.appStatus = s.appStatus
  phase : s'.phase = s.phase
  started : s'.runState = .btldrStart → s.runState = .btldrStart
  ready : s'.runState = .appStart → s.runState = .appStart ∨ IsReady s.appStatus
  prepared : s.Prepared → s'.Prepared

namespace Serves

theorem refl (s : Bootloader) : Serves s s := ⟨rfl, rfl, rfl, id, .inl, id⟩

theorem trans (h : Serves s s') (h' : Serves s' s'') : Serves s s'' where
  mem := h'.mem.trans h.mem
  appStatus := h'.appStatus.trans h.appStatus
  phase := h'.phase.trans h.phase
  started hrun := h.started (h'.started hrun)
  ready hrun := by
    rcases h'.ready hrun with hrun | hready
    · exact h.ready hrun
    · exact .inr (h.appStatus ▸ hready)
  prepared hs := h'.prepared (h.prepared hs)

end Serves

/-- What `Serves` is about, but for the prepared flash access. -/
structure Core where
  mem : Memory
  appStatus : UInt8
  phase : Phase
  runState : RunState

def core (s : Bootloader) : Core := ⟨s.mem, s.appStatus, s.phase, s.runState⟩

theorem Serves.of_core (h : s'.core = s.core) (hprepared : s.Prepared → s'.Prepared) :
    Serves s s' where
  mem := congrArg Core.mem h
  appStatus := congrArg Core.appStatus h
  phase := congrArg Core.phase h
  started hrun := (congrArg Core.runState h).symm.trans hrun
  ready hrun := .inl ((congrArg Core.runState h).symm.trans hrun)
  prepared := hprepared

theorem Prepared.of_nothing (hidle : s.flashState = .idle)
    (hlocked : s.runState ≠ .btldrRun → Locked s.i2cReg) : s.Prepared where
  addr m hm := by simp [hidle, FlashState.memType] at hm
  idle _ := hidle
  locked := hlocked

/-- While the bootloader runs, only the address matters. -/
theorem Prepared.of_running (hrun : s.runState = .btldrRun)
    (haddr : ∀ m, s.flashState.memType = some m →
      m.base ≤ s.flashAddr ∧ s.flashAddr < m.base + m.size) : s.Prepared :=
  ⟨haddr, fun hne => absurd hrun hne, fun hne => absurd hrun hne⟩

/-- A step that also drops the flash access, or prepares nothing new. -/
theorem Prepared.of_idle (h : s.Prepared) (hcore : s'.core = s.core) (hreg : s'.i2cReg = s.i2cReg)
    (hidle : s'.flashState = .idle) : s'.Prepared := by
  refine .of_nothing hidle fun hrun => ?_
  have hrun' : s'.runState = s.runState := congrArg Core.runState hcore
  exact hreg ▸ h.locked (hrun' ▸ hrun)

theorem Prepared.of_same (h : s.Prepared) (hcore : s'.core = s.core)
    (hreg : s'.i2cReg = s.i2cReg) (hstate : s'.flashState = s.flashState)
    (haddr : s'.flashAddr = s.flashAddr) : s'.Prepared where
  addr m hm := haddr ▸ h.addr m (hstate ▸ hm)
  idle hrun := by
    have hrun' : s'.runState = s.runState := congrArg Core.runState hcore
    exact hstate.trans (h.idle (hrun' ▸ hrun))
  locked hrun := by
    have hrun' : s'.runState = s.runState := congrArg Core.runState hcore
    exact hreg ▸ h.locked (hrun' ▸ hrun)

theorem serves_i2cStateReset (s : Bootloader) : Serves s s.i2cStateReset := by
  rw [i2cStateReset]
  split
  · exact .refl s
  · exact .of_core rfl fun h => ⟨h.addr, h.idle, fun _ => .inr (.inr rfl)⟩

theorem statusRead_memType (last : FlashState) (m : MemType)
    (h : (statusRead last).1.memType = some m) : last.memType = some m := by
  cases last <;> simp_all [statusRead, FlashState.memType]

theorem serves_cmdDataOut (s : Bootloader) (cmd : UInt8) : Serves s (s.cmdDataOut cmd) := by
  rw [cmdDataOut]
  cases readReg cmd with
  | none => exact .of_core rfl fun h => h.of_idle rfl rfl rfl
  | some reg =>
    cases reg with
    | btldrInfo | devInfo | flashInfo | appInfo =>
      exact .of_core rfl fun h => h.of_idle rfl rfl rfl
    | read m =>
      dsimp only
      split <;> exact .of_core rfl fun h => h.of_idle rfl rfl rfl
    | status =>
      dsimp only
      split
      · refine .of_core rfl fun h => ⟨?_, ?_, h.locked⟩
        · intro m hm
          exact h.addr m (statusRead_memType _ m hm)
        · intro hrun
          rw [h.idle hrun]
          rfl
      · exact .of_core rfl fun h => h.of_idle rfl rfl rfl

theorem writeReg_of_locked {reg : UInt8} (h : Locked reg) :
    writeReg reg = some .start ∨ writeReg reg = none := by
  rcases h with rfl | rfl | rfl
  · exact .inl rfl
  · exact .inr rfl
  · exact .inr rfl

theorem eq_regStart_of_writeReg {reg : UInt8} (h : writeReg reg = some .start) :
    reg = regStart := by
  rw [writeReg] at h
  by_contra hreg
  rw [if_neg (show ¬ reg = 0x80 from hreg)] at h
  split_ifs at h <;> exact nomatch Option.some.inj h

/-- The flash access that a register other than the start register prepares. -/
theorem Prepared.of_writeReg {reg : WriteReg} (h : s.Prepared)
    (hwrite : writeReg s.i2cReg = some reg) (hreg : reg ≠ .start) (hcore : s'.core = s.core)
    (haddr : ∀ m, s'.flashState.memType = some m →
      m.base ≤ s'.flashAddr ∧ s'.flashAddr < m.base + m.size) : s'.Prepared := by
  have hrun : s.runState = .btldrRun := by
    by_contra hrun
    rcases writeReg_of_locked (h.locked hrun) with hstart | hnone
    · exact hreg (Option.some.inj (hwrite.symm.trans hstart))
    · simp [hnone] at hwrite
  exact .of_running ((congrArg Core.runState hcore).trans hrun) haddr

variable {m : MemType}

theorem checkFlashAddr_ok {addr : ℕ} (h : checkFlashAddr m addr = .ok) :
    m.base ≤ addr ∧ addr < m.base + m.size := by
  rw [checkFlashAddr] at h
  split_ifs at h with halign hrange
  omega

/-- The start register, in a state in which nothing is prepared. -/
theorem serves_startReg (hidle : s.flashState = .idle) (hreg : s.i2cReg = regStart) :
    Serves s s.startReg := by
  rw [startReg]
  split
  · exact ⟨rfl, rfl, rfl, nofun, nofun, fun _ => .of_nothing hidle fun _ => .inl hreg⟩
  · split
    · rename_i hready
      exact ⟨rfl, rfl, rfl, nofun, fun _ => .inr hready,
        fun _ => .of_nothing hidle fun _ => .inl hreg⟩
    · exact .of_core rfl fun h => h.of_idle rfl rfl hidle
  · exact .of_core rfl fun h => h.of_idle rfl rfl hidle

theorem serves_waitReg (hidle : s.flashState = .idle) : Serves s s.waitReg := by
  rw [waitReg]
  split
  · exact ⟨rfl, rfl, rfl, nofun, nofun, fun _ => .of_nothing hidle fun hne => absurd rfl hne⟩
  · exact ⟨rfl, rfl, rfl, nofun, nofun, fun _ => .of_nothing hidle fun hne => absurd rfl hne⟩
  · exact .of_core rfl fun h => h.of_idle rfl rfl hidle

theorem serves_withKey {act : Bootloader → Bootloader} (hact : Serves s (act s)) :
    Serves s (s.withKey act) := by
  rw [withKey]
  split
  · split
    · exact hact
    · exact .of_core rfl fun h => h.of_same rfl rfl rfl rfl
  · exact .of_core rfl fun h => h.of_same rfl rfl rfl rfl

theorem serves_setAddr {reg : WriteReg} {ready : FlashState}
    (hwrite : writeReg s.i2cReg = some reg) (hreg : reg ≠ .start)
    (hready : ready.memType = some m) :
    Serves s ({ s with btldrState := .ok, flashState := .idle }.setAddr m ready) := by
  simp only [setAddr]
  split
  · rename_i hok
    refine .of_core rfl fun h => h.of_writeReg hwrite hreg rfl ?_
    intro m' hm
    obtain rfl : m = m' := Option.some.inj (hready.symm.trans hm)
    exact checkFlashAddr_ok hok
  · exact .of_core rfl fun h => h.of_idle rfl rfl rfl

theorem serves_cmdDataIn (s : Bootloader) : Serves s (s.cmdDataIn s.i2cReg) := by
  -- every command begins by dropping the flash access
  have hdrop : Serves s { s with btldrState := .ok, flashState := .idle } :=
    .of_core rfl fun h => h.of_idle rfl rfl rfl
  have hidle : ∀ error, Serves s { s with btldrState := error, flashState := .idle } :=
    fun error => .of_core rfl fun h => h.of_idle rfl rfl rfl
  rw [cmdDataIn]
  cases hwrite : writeReg s.i2cReg with
  | none => exact hidle _
  | some reg =>
    cases reg with
    | start =>
      have hreg := eq_regStart_of_writeReg hwrite
      exact hdrop.trans (serves_withKey (serves_startReg rfl hreg))
    | wait => exact hdrop.trans (serves_withKey (serves_waitReg rfl))
    | appInfoSet =>
      dsimp only
      split
      · refine .of_core rfl fun h => h.of_writeReg hwrite (by simp) rfl ?_
        intro m hm
        simp [FlashState.memType] at hm
      · exact hidle _
    | readAddr m | writeAddr m => exact serves_setAddr hwrite (by simp) rfl
    | write m =>
      dsimp only
      split
      · split
        · rename_i hlast
          refine .of_core rfl fun h => h.of_writeReg hwrite (by simp) rfl ?_
          intro m' hm
          exact h.addr m' (hlast ▸ hm)
        · exact hidle _
      · exact hidle _

theorem serves_i2cMessageStart (s : Bootloader) (tra : Bool) :
    Serves s (s.i2cMessageStart tra) := by
  rw [i2cMessageStart]
  split
  · split
    · exact .refl s
    · exact .of_core rfl fun h => h.of_same rfl rfl rfl rfl
  · split
    · refine (serves_cmdDataOut s s.i2cReg).trans ?_
      exact .of_core rfl fun h => h.of_same rfl rfl rfl rfl
    · exact serves_i2cStateReset s
  all_goals exact serves_i2cStateReset s

theorem serves_i2cMessageStop (s : Bootloader) (stray : Bool) :
    Serves s (s.i2cMessageStop stray) := by
  rw [i2cMessageStop]
  split
  · split
    · have hoffset : Serves s { s with i2cOffset := (s.i2cOffset + 255) % 256 } :=
        .of_core rfl fun h => h.of_same rfl rfl rfl rfl
      exact (hoffset.trans (serves_cmdDataIn _)).trans (serves_i2cStateReset _)
    · have hfail : Serves s { s with btldrState := .checksumFailed, flashState := .idle } :=
        .of_core rfl fun h => h.of_idle rfl rfl rfl
      exact hfail.trans (serves_i2cStateReset _)
  all_goals exact serves_i2cStateReset s

theorem locked_selectReg (hrun : s.runState ≠ .btldrRun) (byte : UInt8) :
    Locked (s.selectReg byte) := by
  rw [selectReg]
  split_ifs with h
  · exact .inl (h.resolve_left hrun)
  · rcases and_regRwMask byte with hbit | hbit
    · exact .inr (.inl (by rw [hbit]; rfl))
    · exact .inr (.inr (by rw [hbit]; rfl))

theorem serves_i2cByteIn (s : Bootloader) (byte : UInt8) : Serves s (s.i2cByteIn byte) := by
  rw [i2cByteIn]
  split
  · split
    · exact serves_i2cStateReset s
    · exact .of_core rfl fun h => ⟨h.addr, h.idle, fun hrun => locked_selectReg hrun byte⟩
  · split <;> exact .of_core rfl fun h => h.of_same rfl rfl rfl rfl
  all_goals exact serves_i2cStateReset s

theorem serves_i2cByteOut (s : Bootloader) : Serves s s.i2cByteOut := by
  rw [i2cByteOut]
  split
  · split <;> exact .of_core rfl fun h => h.of_same rfl rfl rfl rfl
  all_goals exact serves_i2cStateReset s

theorem serves_op (s : Bootloader) (o : BusOp) : Serves s (s.op o) := by
  cases o with
  | byteIn byte => exact serves_i2cByteIn s byte
  | stop stray => exact serves_i2cMessageStop s stray
  | start tra => exact serves_i2cMessageStart s tra
  | byteOut => exact serves_i2cByteOut s

theorem serves_i2cProcEvent (s : Bootloader) (e : I2cEvent) : Serves s (s.i2cProcEvent e) :=
  i2cProcEvent_kept (.refl s) e fun t o h => h.trans (serves_op t o)

/-! ### The main loop -/

/-- The status is in step with the memory, and the start of the application has been
checked. -/
structure Sound (s : Bootloader) : Prop where
  valid : IsReady s.appStatus → AppValid s.mem
  prepared : s.Prepared
  appStart : s.runState = .appStart → IsReady s.appStatus

theorem Sound.serves (h : s.Sound) (hserves : Serves s s') : s'.Sound where
  valid hready := hserves.mem ▸ h.valid (hserves.appStatus ▸ hready)
  prepared := hserves.prepared h.prepared
  appStart hrun := by
    rw [hserves.appStatus]
    rcases hserves.ready hrun with hrun | hready
    · exact h.appStart hrun
    · exact hready

/-- While the bootloader runs, the application is not being started. -/
theorem Sound.of_running (hrun : s.runState = .btldrRun)
    (hvalid : IsReady s.appStatus → AppValid s.mem)
    (haddr : ∀ m, s.flashState.memType = some m →
      m.base ≤ s.flashAddr ∧ s.flashAddr < m.base + m.size) : s.Sound where
  valid := hvalid
  prepared := .of_running hrun haddr
  appStart happ := by simp [hrun] at happ

theorem Sound.withPhase (h : s.Sound) (phase : Phase) : Sound { s with phase := phase } where
  valid := h.valid
  prepared := ⟨h.prepared.addr, h.prepared.idle, h.prepared.locked⟩
  appStart := h.appStart

/-- Writing a block that is not reserved leaves the record alone, and, in the EEPROM,
also the application. -/
theorem flashProgramblock_of_ne {mem : Memory} {addr a : ℕ} {buf : Bytes} (hbase : m.base ≤ addr)
    (hsize : addr < m.base + m.size) (ha : a < m.base ∨ m.base + m.size ≤ a) :
    flashProgramblock mem ((addr - m.start) / flashBlockSize) m buf a = mem a := by
  obtain ⟨hlow, hhigh⟩ := contains_of_addr hbase hsize
  apply flashProgramblock_of_not_mem
  rcases ha with ha | ha
  · exact .inl (Nat.lt_of_lt_of_le ha hlow)
  · exact .inr (Nat.le_trans hhigh ha)

theorem Sound.flashRdwrRun (h : s.Sound) (hrun : s.runState = .btldrRun) :
    s.flashRdwrRun.Sound := by
  rw [Bootloader.flashRdwrRun]
  split
  · rename_i m hstate
    refine .of_running hrun h.valid ?_
    intro m' hm
    exact h.prepared.addr m' (hstate ▸ hm)
  · rename_i m hstate
    obtain ⟨hbase, hsize⟩ := h.prepared.addr m (by rw [hstate]; rfl)
    refine .of_running hrun (fun hready => ?_) nofun
    cases m with
    | data =>
      have hna : IsReady (s.appStatus &&& ~~~readyMask ||| readyNa) := hready
      rw [IsReady, show ~~~readyMask = autobootMask from by decide, ready_or_autoboot] at hna
      exact absurd hna (by decide)
    | eeprom =>
      refine (h.valid hready).congr ?_ ?_
      · intro a ha
        exact flashProgramblock_of_ne hbase hsize (.inl ha)
      · intro a ha
        exact flashProgramblock_of_ne hbase hsize (.inr (Nat.le_trans (by decide) ha))
  · exact .of_running hrun h.valid nofun

/-- The record is checked after it has been written. -/
theorem Sound.writeAppInfoRun (hrun : s.runState = .btldrRun) : s.writeAppInfoRun.Sound :=
  .of_running hrun appValid_of_updateAppStatus nofun

theorem Sound.flashRun (h : s.Sound) : s.flashRun.Sound := by
  by_cases hrun : s.runState = .btldrRun
  · rw [Bootloader.flashRun]
    split
    · split
      · exact h.flashRdwrRun hrun
      · exact h.flashRdwrRun hrun
      · exact .writeAppInfoRun hrun
      · exact h
    · exact h
  · have hidle := h.prepared.idle hrun
    have hsame : s.flashRun = s := by
      rw [Bootloader.flashRun, hidle]
      split <;> rfl
    rw [hsame]
    exact h

theorem frame_flashRdwrRun (s : Bootloader) :
    s.flashRdwrRun.phase = s.phase ∧ s.flashRdwrRun.runState = s.runState ∧
      s.flashRdwrRun.i2cState = s.i2cState ∧ s.flashRdwrRun.i2cOffset = s.i2cOffset := by
  rw [Bootloader.flashRdwrRun]
  split <;> exact ⟨rfl, rfl, rfl, rfl⟩

/-- The flash access decides nothing about what runs next, and leaves the bus alone. -/
theorem frame_flashRun (s : Bootloader) :
    s.flashRun.phase = s.phase ∧ s.flashRun.runState = s.runState ∧
      s.flashRun.i2cState = s.i2cState ∧ s.flashRun.i2cOffset = s.i2cOffset := by
  rw [Bootloader.flashRun]
  split
  · split
    · exact frame_flashRdwrRun s
    · exact frame_flashRdwrRun s
    · exact ⟨rfl, rfl, rfl, rfl⟩
    · exact ⟨rfl, rfl, rfl, rfl⟩
  · exact ⟨rfl, rfl, rfl, rfl⟩

/-- The invariant: how far the main function is fits the state it is in. -/
structure Guarded (s : Bootloader) : Prop where
  sound : s.Sound
  starting : ∀ n, s.phase = .starting n → s.runState = .btldrStart ∧ IsReady s.appStatus
  running : s.phase = .running → s.runState ≠ .btldrStart
  jumped : s.phase = .jumped → IsReady s.appStatus

theorem guarded_boot (mem : Memory) : (boot mem).Guarded := by
  have hautoboot : IsReady (readyReady ||| autobootMask) := by
    show (readyReady ||| autobootMask) &&& readyMask = readyReady
    decide
  have hprepared : (boot mem).Prepared := .of_nothing rfl fun _ => .inr (.inr rfl)
  by_cases h : (updateAppStatus mem (replicate (i2cBufSize + 2) 0)).1 =
      readyReady ||| autobootMask
  · have hrun : (boot mem).runState = .btldrStart := if_pos h
    have hphase : (boot mem).phase = .starting i2cTimeoutCount := if_pos h
    have hready : IsReady (boot mem).appStatus := by
      show IsReady (updateAppStatus mem (replicate (i2cBufSize + 2) 0)).1
      rw [h]
      exact hautoboot
    refine ⟨⟨appValid_of_updateAppStatus, hprepared, fun _ => hready⟩,
      fun _ _ => ⟨hrun, hready⟩, ?_, fun _ => hready⟩
    simp [hphase]
  · have hrun : (boot mem).runState = .btldrRun := if_neg h
    have hphase : (boot mem).phase = .running := if_neg h
    refine ⟨⟨appValid_of_updateAppStatus, hprepared, ?_⟩, ?_, ?_, ?_⟩
    · simp [hrun]
    · simp [hphase]
    · simp [hrun]
    · simp [hphase]

theorem Guarded.startEvent {n : ℕ} (h : s.Guarded) (hphase : s.phase = .starting n)
    (e : I2cEvent) : (s.startEvent e).Guarded := by
  have hserves := serves_i2cProcEvent s e
  have hsound := h.sound.serves hserves
  have hready : IsReady (s.i2cProcEvent e).appStatus :=
    hserves.appStatus.symm ▸ (h.starting n hphase).2
  have hstarting := hserves.phase.trans hphase
  rw [Bootloader.startEvent]
  split
  · rename_i hrun
    refine ⟨hsound, fun _ _ => ⟨hrun, hready⟩, ?_, fun _ => hready⟩
    simp [hstarting]
  · rename_i hrun
    refine ⟨hsound.withPhase _, nofun, fun _ => ?_, fun _ => hready⟩
    simp [hrun]
  · exact ⟨hsound.withPhase _, nofun, nofun, fun _ => hready⟩

theorem Guarded.startTimeout {n : ℕ} (h : s.Guarded) (hphase : s.phase = .starting n) :
    (s.startTimeout n).Guarded := by
  obtain ⟨hrun, hready⟩ := h.starting n hphase
  have hne : s.runState ≠ .btldrRun := by simp [hrun]
  rw [Bootloader.startTimeout]
  split
  · refine ⟨⟨h.sound.valid, ⟨h.sound.prepared.addr, fun _ => h.sound.prepared.idle hne,
      fun _ => h.sound.prepared.locked hne⟩, fun _ => hready⟩, nofun, nofun, fun _ => hready⟩
  · exact ⟨h.sound.withPhase _, fun _ _ => ⟨hrun, hready⟩, nofun, nofun⟩

theorem Guarded.runEvent (h : s.Guarded) (hphase : s.phase = .running) (e : I2cEvent) :
    (s.runEvent e).Guarded := by
  have hserves := serves_i2cProcEvent s e
  have hsound := (h.sound.serves hserves).flashRun
  have hrunning : (s.i2cProcEvent e).flashRun.phase = .running :=
    (frame_flashRun _).1.trans (hserves.phase.trans hphase)
  have hstarted : (s.i2cProcEvent e).flashRun.runState ≠ .btldrStart := by
    rw [(frame_flashRun _).2.1]
    exact fun hstart => h.running hphase (hserves.started hstart)
  rw [Bootloader.runEvent]
  split
  · refine ⟨hsound, ?_, fun _ => hstarted, ?_⟩
    · simp [hrunning]
    · simp [hrunning]
  · rename_i hleave
    -- the loop is left only for the application
    have happ : (s.i2cProcEvent e).flashRun.runState = .appStart := by
      cases hrun : (s.i2cProcEvent e).flashRun.runState with
      | btldrStart => exact absurd hrun hstarted
      | btldrRun => exact absurd (.inl hrun) hleave
      | appStart => rfl
    exact ⟨hsound.withPhase _, nofun, nofun, fun _ => hsound.appStart happ⟩

theorem Guarded.step {e : BootloaderEvent} (h : s.Guarded) (hstep : s.step e = some s') :
    s'.Guarded := by
  cases e with
  | i2c e =>
    simp only [Bootloader.step] at hstep
    split at hstep
    · rename_i n hphase
      cases hstep
      exact h.startEvent hphase e
    · rename_i hphase
      cases hstep
      exact h.runEvent hphase e
    · simp at hstep
  | timeout =>
    simp only [Bootloader.step] at hstep
    split at hstep
    · rename_i n hphase
      cases hstep
      exact h.startTimeout hphase
    · cases hstep
      exact h
    · simp at hstep
  | reset mem =>
    cases hstep
    exact guarded_boot mem

end Bootloader

/-- Whatever the memory is at first and whatever happens on the bus, the bootloader
jumps to the application only with a status that says ready, and a status that says
ready means that the application in memory passes the checks. -/
theorem jumps_only_if_ready (mem : Memory) (s : Bootloader) (h : (bootloader mem).Reachable s) :
    (s.phase = .jumped → IsReady s.appStatus) ∧ (IsReady s.appStatus → AppValid s.mem) := by
  have hguarded : s.Guarded := h.invariant (Bootloader.guarded_boot mem)
    fun _ _ _ hs hstep => hs.step hstep
  exact ⟨hguarded.jumped, hguarded.sound.valid⟩

/-- An application of one block that is set to be started; its checksum is zero from the third
byte on. -/
def oneBlockApp : Memory := fun a =>
  if MemType.base .data ≤ a then [intOpcode, 0x03, 0x0c].getD (a - MemType.base .data) 0
  else (recordBlock ⟨[0, 0, 0, 128], [0, 0], [0, 0], 0x80⟩).getD (a - 0x1000) 0

theorem crc16_replicate_zero (n : ℕ) : crc16 0 (replicate n 0) = 0 := by
  induction n with
  | zero => rfl
  | succ n ih => exact ih

theorem crcBlocks_oneBlockApp (buf : Bytes) :
    (crcBlocks oneBlockApp 1 (MemType.base .data) iomcuCrc16Init buf).1 = 0 := by
  have hblock : oneBlockApp.read (MemType.base .data) flashBlockSize =
      [intOpcode, 0x03, 0x0c] ++ replicate 125 0 := by decide +kernel
  have hfirst : crc16 iomcuCrc16Init [intOpcode, 0x03, 0x0c] = 0 := by decide +kernel
  rw [crcBlocks, crcBlocks, hblock, crc16_append, hfirst, crc16_replicate_zero]

theorem updateAppStatus_oneBlockApp (buf : Bytes) :
    (updateAppStatus oneBlockApp buf).1 = readyReady ||| autobootMask := by
  have hinfo : readAppInfo oneBlockApp readyResv = ⟨[0, 0, 0, 128], [0, 0], [0, 0], 0xff⟩ := by
    decide +kernel
  have hblocks : bigEndian [0, 0, 0, 128] / flashBlockSize = 1 := rfl
  rw [updateAppStatus, hinfo]
  dsimp only
  rw [if_neg (by decide), if_neg (by decide), if_neg (by decide), hblocks,
    if_neg (by rw [crcBlocks_oneBlockApp]; decide)]
  rfl

/-- Without a key the application is started. -/
theorem jumped_of_timeouts {mem : Memory}
    (h : ∀ buf, (updateAppStatus mem buf).1 = readyReady ||| autobootMask) :
    ∃ s, (bootloader mem).Reachable s ∧ s.phase = .jumped := by
  have hboot : (Bootloader.boot mem).phase = .starting Bootloader.i2cTimeoutCount := by
    simp [Bootloader.boot, h]
  obtain ⟨s, hrun, hjumped⟩ : ∃ s, (bootloader mem).runFrom (.boot mem)
      (replicate Bootloader.i2cTimeoutCount .timeout) = some s ∧ s.phase = .jumped := by
    generalize Bootloader.boot mem = s at hboot
    cases s
    cases hboot
    exact ⟨_, rfl, rfl⟩
  exact ⟨s, System.Reachable.runFrom _ .init hrun, hjumped⟩

theorem jumps_only_if_ready_one_block :
    ∃ s, (bootloader oneBlockApp).Reachable s ∧ s.phase = .jumped ∧ IsReady s.appStatus ∧
      AppValid s.mem := by
  obtain ⟨s, hreach, hjumped⟩ := jumped_of_timeouts updateAppStatus_oneBlockApp
  obtain ⟨hready, hvalid⟩ := jumps_only_if_ready oneBlockApp s hreach
  exact ⟨s, hreach, hjumped, hready hjumped, hvalid (hready hjumped)⟩

end BeepMusic.Iomcu
