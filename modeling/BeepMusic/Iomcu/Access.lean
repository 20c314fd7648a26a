import BeepMusic.Iomcu.Ioutil
import BeepMusic.Lib.Word

/-!
What the accesses of `ioutil` do to a bootloader that waits. Each leaves it waiting, and
the last lemmas of this file say what it does to the memory and to the flash access that
is being prepared.
-/

namespace BeepMusic.Iomcu

open Lib List

theorem readReg_code (reg : ReadReg) : readReg reg.code = some reg := by
  cases reg with
  | read m => cases m <;> rfl
  | btldrInfo | status | devInfo | flashInfo | appInfo => rfl

theorem writeReg_code (reg : WriteReg) : writeReg reg.code = some reg := by
  cases reg with
  | readAddr m | writeAddr m | write m => cases m <;> rfl
  | start | wait | appInfoSet => rfl

theorem read_code (reg : ReadReg) : reg.code &&& regRwMask = 0 := by
  cases reg with
  | read m => cases m <;> decide
  | btldrInfo | status | devInfo | flashInfo | appInfo => decide

theorem write_code (reg : WriteReg) : reg.code ≠ regResv ∧ reg.code &&& regRwMask ≠ 0 := by
  cases reg with
  | readAddr m | writeAddr m | write m => cases m <;> decide
  | start | wait | appInfoSet => decide

theorem bytesOf_eq (n value : ℕ) : bytesOf n value = toBytes n value := by
  induction n with
  | zero => rfl
  | succ n ih => rw [bytesOf, ih, toBytes_succ]

theorem length_bytesOf (n value : ℕ) : (bytesOf n value).length = n := by
  rw [bytesOf_eq, length_toBytes]

theorem bigEndian_bytesOf {n value : ℕ} (h : value < 256 ^ n) :
    bigEndian (bytesOf n value) = value := by
  rw [bytesOf_eq, bigEndian_toBytes h]

variable {buf : Bytes}

theorem length_fill {bytes : Bytes} (h : bytes.length ≤ buf.length) :
    (fill buf bytes).length = buf.length := by
  rw [fill, length_append, length_drop]
  omega

theorem take_fill (buf bytes : Bytes) : (fill buf bytes).take bytes.length = bytes := take_left

variable (mem : Memory)

theorem length_read (addr n : ℕ) : (mem.read addr n).length = n := by
  rw [Memory.read, length_map, length_range]

theorem length_crcBlocks (blocks addr : ℕ) (crc : UInt16) (h : flashBlockSize ≤ buf.length) :
    (crcBlocks mem blocks addr crc buf).2.length = buf.length := by
  induction blocks generalizing addr crc buf with
  | zero => rfl
  | succ blocks ih =>
    have hfill : (fill buf (mem.read addr flashBlockSize)).length = buf.length :=
      length_fill (by rwa [length_read])
    rw [crcBlocks, ih _ _ (hfill.symm ▸ h), hfill]

theorem length_updateAppStatus (h : flashBlockSize ≤ buf.length) :
    (updateAppStatus mem buf).2.length = buf.length := by
  simp only [updateAppStatus]
  split_ifs
  · rfl
  · rfl
  · rfl
  · exact length_crcBlocks mem _ _ _ h
  · exact length_crcBlocks mem _ _ _ h

theorem length_field {offset n : ℕ} (h : offset + n ≤ buf.length) :
    (field buf offset n).length = n := by
  rw [field, length_take, length_drop]
  omega

/-- The fields of a record have their sizes. -/
structure AppInfoSet.Sized (p : AppInfoSet) : Prop where
  size : p.size.length = 4
  crc16 : p.crc16.length = 2
  appVer : p.appVer.length = 2

theorem AppInfoSet.Sized.length_recordBlock {p : AppInfoSet} (h : p.Sized) :
    (recordBlock p).length = flashBlockSize := by
  simp [recordBlock, h.size, h.crc16, h.appVer, btldrEepromDataMagic, flashBlockSize,
    btldrEepromDataSize]

/-- Bytes in memory from an address on. -/
def Memory.put (addr : ℕ) (bytes : Bytes) : Memory := fun a =>
  if addr ≤ a ∧ a < addr + bytes.length then bytes.getD (a - addr) 0 else mem a

/-- Programming a block puts the beginning of the buffer there. -/
theorem flashProgramblock_append (block : ℕ) (m : MemType) {bytes : Bytes}
    (h : bytes.length = flashBlockSize) (rest : Bytes) :
    flashProgramblock mem block m (bytes ++ rest) =
      mem.put (m.start + block * flashBlockSize) bytes := by
  funext a
  simp only [flashProgramblock, Memory.put, h]
  split
  · rw [getD_append _ _ _ _ (by omega)]
  · rfl

namespace Bootloader

variable {s : Bootloader}

/-- `BtldrAppInfoSet`, as it is in the buffer. -/
def appInfoSet (s : Bootloader) : AppInfoSet :=
  { size := field s.i2cBuf 0 4
    crc16 := field s.i2cBuf 4 2
    appVer := field s.i2cBuf 6 2
    autoboot := s.i2cBuf.getD 8 0 }

section

variable (h : s.i2cBuf.length = i2cBufSize + 2)
include h

theorem sized_appInfoSet : s.appInfoSet.Sized := by
  rw [i2cBufSize] at h
  exact ⟨length_field (by omega), length_field (by omega), length_field (by omega)⟩

theorem length_writeAppInfoRun : s.writeAppInfoRun.i2cBuf.length = i2cBufSize + 2 := by
  have hrecord := (sized_appInfoSet h).length_recordBlock
  have hfill : (fill s.i2cBuf (recordBlock s.appInfoSet)).length = i2cBufSize + 2 := by
    rw [length_fill (by rw [hrecord, h]; decide), h]
  show (updateAppStatus _ (fill s.i2cBuf (recordBlock s.appInfoSet))).2.length = _
  rw [length_updateAppStatus _ (by rw [hfill]; decide), hfill]

theorem length_flashRdwrRun : s.flashRdwrRun.i2cBuf.length = i2cBufSize + 2 := by
  rw [flashRdwrRun]
  split
  · rw [length_fill (by rw [length_read, h]; decide), h]
  · exact h
  · exact h

theorem length_flashRun : s.flashRun.i2cBuf.length = i2cBufSize + 2 := by
  rw [flashRun]
  split
  · split
    · exact length_flashRdwrRun h
    · exact length_flashRdwrRun h
    · exact length_writeAppInfoRun h
    · exact h
  · exact h

end

theorem Waiting.flashRun (h : s.Waiting) : s.flashRun.Waiting := by
  obtain ⟨hphase, hrun, hstate, hoffset⟩ := frame_flashRun s
  exact ⟨hphase.trans h.phase, hrun.trans h.runState, hstate.trans h.i2cState,
    hoffset.trans h.i2cOffset, length_flashRun h.i2cBuf⟩

theorem Waiting.of_released (h : s.Waiting) {s' : Bootloader} (hcore : s'.core.phase = s.phase ∧
    s'.core.runState = s.runState) (hbuf : s'.i2cBuf.length = i2cBufSize + 2) :
    s'.released.Waiting :=
  ⟨hcore.1.trans h.phase, hcore.2.trans h.runState, rfl, rfl, hbuf⟩

theorem i2cStateReset_eq (h : s.i2cState ≠ .idle) : s.i2cStateReset = s.released := if_neg h

/-- A write that has been received as a whole. -/
def accessWrite (s : Bootloader) (reg : WriteReg) (data : Bytes) : Bootloader :=
  ((s.loaded reg.code data data.length).cmdDataIn reg.code).released.flashRun

/-- A read that has been sent as a whole. -/
def accessRead (s : Bootloader) (reg : ReadReg) : Bootloader :=
  (s.selected reg.code).sendAnswer.released.flashRun

/-- A command that keeps the bootloader running. -/
structure Stays (s s' : Bootloader) : Prop where
  phase : s'.phase = s.phase
  runState : s'.runState = s.runState
  i2cState : s'.i2cState = s.i2cState
  i2cBuf : s'.i2cBuf = s.i2cBuf

variable {data bytes : Bytes} {reg : WriteReg} {m : MemType} {mem : Memory} {addr : ℕ}
  {ready : FlashState}

theorem length_loaded (h : s.Waiting) (reg : UInt8) (n : ℕ) (hlen : data.length < i2cBufSize) :
    (s.loaded reg data n).i2cBuf.length = i2cBufSize + 2 := by
  show (fill s.i2cBuf _).length = _
  rw [length_fill, h.i2cBuf]
  rw [length_append, length_singleton, h.i2cBuf]
  omega

theorem Waiting.accessWrite (h : s.Waiting) (hlen : data.length < i2cBufSize)
    (hstays : Stays (s.loaded reg.code data data.length)
      ((s.loaded reg.code data data.length).cmdDataIn reg.code)) :
    (s.accessWrite reg data).Waiting := by
  have hbuf := length_loaded h reg.code data.length hlen
  refine Waiting.flashRun (h.of_released ⟨hstays.phase, hstays.runState⟩ ?_)
  rw [hstays.i2cBuf, hbuf]

/-- However a write is reported, it has its effect at the end. -/
theorem transfer_write (bus : LosslessBus) (h : s.Waiting) (hlen : data.length < i2cBufSize)
    (hstays : Stays (s.loaded reg.code data data.length)
      ((s.loaded reg.code data data.length).cmdDataIn reg.code)) (n : ℕ) :
    (s.transfer (bus.writeEvents n reg.code
      (data ++ [i2cMessageChecksum data reg.code]))).2 = s.accessWrite reg data := by
  obtain ⟨hresv, hwrite⟩ := write_code reg
  obtain ⟨stray, hops⟩ := bus.ops_writeEvents n reg.code
    (data ++ [i2cMessageChecksum data reg.code])
  have hne : bus.writeEvents n reg.code (data ++ [i2cMessageChecksum data reg.code]) ≠ [] := by
    intro hnil
    simp [hnil, writeOps] at hops
  have hbusy : ((s.loaded reg.code data data.length).cmdDataIn reg.code).i2cState ≠ .idle := by
    rw [hstays.i2cState]
    simp [loaded]
  have hresult := runOps_write h hresv hwrite hlen stray
  rw [i2cStateReset_eq hbusy] at hresult
  rw [transfer_eq hne (bus.ne_writeEvents n _ _) (by rw [hops]; exact busy_write h hresv hwrite _ _)
    (by rw [hops, hresult]; exact hstays.runState.trans h.runState), hops, hresult]
  rfl

/-- However a read is reported, the master gets the answer. -/
theorem transfer_read (bus : LosslessBus) (h : s.Waiting) {reg : ReadReg}
    (hanswers : s.Answers reg.code bytes) (n : ℕ) :
    (s.transfer (bus.readEvents n reg.code (bytes.length + 1))).1.take (bytes.length + 1) =
        bytes ++ [i2cMessageChecksum bytes reg.code] ∧
      (s.transfer (bus.readEvents n reg.code (bytes.length + 1))).2 = s.accessRead reg := by
  obtain ⟨amount, stray, hlow, hhigh, hops⟩ :=
    bus.ops_readEvents n reg.code (bytes.length + 1)
  have hne : bus.readEvents n reg.code (bytes.length + 1) ≠ [] := by
    intro hnil
    simp [hnil, readOps] at hops
  obtain ⟨hsent, hresult, hbusy⟩ := runOps_read h (read_code reg) hanswers hlow hhigh stray
  have hrun : (s.selected reg.code).sendAnswer.released.runState = .btldrRun :=
    (congrArg Core.runState (frame_cmdDataOut (s.selected reg.code) reg.code).1).trans h.runState
  rw [transfer_eq hne (bus.ne_readEvents n _ _) (by rw [hops]; exact hbusy)
    (by rw [hops, hresult]; exact hrun), hops, hresult]
  exact ⟨hsent, rfl⟩

theorem Waiting.sendAnswer (h : s.Waiting) {reg : ReadReg} (hanswers : s.Answers reg.code bytes) :
    (s.selected reg.code).sendAnswer.released.Waiting := by
  have hcore := (frame_cmdDataOut (s.selected reg.code) reg.code).1
  exact h.of_released ⟨congrArg Core.phase hcore, congrArg Core.runState hcore⟩
    (length_set.trans hanswers.length)

theorem Waiting.accessRead (h : s.Waiting) {reg : ReadReg} (hanswers : s.Answers reg.code bytes) :
    (s.accessRead reg).Waiting :=
  (h.sendAnswer hanswers).flashRun

/-! ### The commands -/

/-- The memory, and how far a flash access has been prepared. -/
structure Stage (mem : Memory) (flashState : FlashState) (flashAddr : ℕ) (s : Bootloader) :
    Prop where
  mem : s.mem = mem
  btldrState : s.btldrState = .ok
  flashState : s.flashState = flashState
  flashAddr : s.flashAddr = flashAddr

/-- Nothing happens to the flash when the bus is idle. -/
def FlashState.Quiet (f : FlashState) : Prop :=
  match f with
  | .readRun _ | .writeRun _ | .appInfoWriteRun => False
  | _ => True

theorem flashRun_quiet (h : FlashState.Quiet s.flashState) : s.flashRun = s := by
  rw [flashRun]
  split
  · cases hstate : s.flashState with
    | readRun m | writeRun m | appInfoWriteRun =>
      rw [hstate] at h
      exact h.elim
    | idle | readAddrReady | readDataReady | writeAddrReady | writeDataReady => rfl
  · rfl

/-- A read command that fills the buffer. -/
theorem Answers.of_answer (h : s.Waiting) {reg : UInt8} {s' : Bootloader}
    (heq : (s.selected reg).cmdDataOut reg = s'.answer bytes) (hbuf : s'.i2cBuf = s.i2cBuf)
    (hoffset : s'.i2cOffset = 0) (hfits : bytes.length + 2 ≤ i2cBufSize) : s.Answers reg bytes := by
  constructor
  · rw [heq]
    exact hoffset
  · rw [heq]
    rfl
  · rw [heq]
    exact take_fill s'.i2cBuf bytes
  · rw [heq]
    have hlength := h.i2cBuf
    rw [← hbuf] at hlength
    exact (length_fill (by omega)).trans hlength
  · exact hfits

/-- What a read command begins with. -/
def cleared (s : Bootloader) (reg : UInt8) : Bootloader :=
  { s.selected reg with btldrState := .ok, i2cOffset := 0, flashState := .idle }

theorem cmdDataOut_flashInfo (s : Bootloader) :
    (s.selected ReadReg.flashInfo.code).cmdDataOut ReadReg.flashInfo.code =
      (s.cleared ReadReg.flashInfo.code).answer flashInfo := by
  rfl

theorem cmdDataOut_appInfo (s : Bootloader) :
    (s.selected ReadReg.appInfo.code).cmdDataOut ReadReg.appInfo.code =
      (s.cleared ReadReg.appInfo.code).answer
        (appInfoBytes (readAppInfo s.mem s.appStatus)) := by
  rfl

theorem cmdDataOut_status (hok : s.btldrState = .ok) :
    (s.selected ReadReg.status.code).cmdDataOut ReadReg.status.code =
      answer { s.cleared ReadReg.status.code with
        flashState := (statusRead s.flashState).1
        btldrState := (statusRead s.flashState).2 } [BtldrState.ok.code] := by
  have hselected : (s.selected ReadReg.status.code).btldrState = .ok := hok
  rw [cmdDataOut, readReg_code]
  simp only [hselected, if_true]
  rfl

theorem cmdDataOut_read (hstate : s.flashState = .readDataReady m)
    (hremaining : s.i2cOutRemaining = flashBlockSize) :
    (s.selected (ReadReg.read m).code).cmdDataOut (ReadReg.read m).code =
      s.cleared (ReadReg.read m).code := by
  rw [cmdDataOut, readReg_code]
  exact if_pos ⟨hremaining, hstate⟩

theorem length_appInfoBytes (mem : Memory) (appStatus : UInt8) :
    (appInfoBytes (readAppInfo mem appStatus)).length = 11 := by
  have hrecord : (appRecord mem).length = 14 := length_read mem _ _
  simp only [appInfoBytes, readAppInfo]
  split
  · simp only [length_append, length_bytesOf, length_singleton]
    rw [length_field (by omega), length_field (by omega), length_field (by omega)]
  · rfl

theorem answers_flashInfo (h : s.Waiting) : s.Answers ReadReg.flashInfo.code flashInfo :=
  .of_answer h (cmdDataOut_flashInfo s) rfl rfl (by decide)

theorem answers_appInfo (h : s.Waiting) : s.Answers ReadReg.appInfo.code
    (appInfoBytes (readAppInfo s.mem s.appStatus)) := by
  refine .of_answer h (cmdDataOut_appInfo s) rfl rfl ?_
  rw [length_appInfoBytes]
  decide

theorem answers_status (h : s.Waiting) (hok : s.btldrState = .ok) :
    s.Answers ReadReg.status.code [BtldrState.ok.code] :=
  .of_answer h (cmdDataOut_status hok) rfl rfl (by decide)

theorem answers_read (h : s.Waiting) {block : Bytes} (hstate : s.flashState = .readDataReady m)
    (hremaining : s.i2cOutRemaining = flashBlockSize) (hblock : block.length = flashBlockSize)
    (hbuf : s.i2cBuf.take flashBlockSize = block) : s.Answers (ReadReg.read m).code block := by
  have heq := cmdDataOut_read hstate hremaining
  constructor
  · rw [heq]
    rfl
  · rw [heq, hblock]
    exact hremaining
  · rw [heq, hblock]
    exact hbuf
  · rw [heq]
    exact h.i2cBuf
  · rw [hblock]
    decide

theorem stage_sendAnswer {f : FlashState} (hs : s.Stage mem f addr) (hok : (statusRead f).2 = .ok) :
    Stage mem (statusRead f).1 addr (s.selected ReadReg.status.code).sendAnswer.released := by
  have heq := cmdDataOut_status hs.btldrState
  have hframe := frame_cmdDataOut (s.selected ReadReg.status.code) ReadReg.status.code
  constructor
  · exact (congrArg Core.mem hframe.1).trans hs.mem
  · show ((s.selected ReadReg.status.code).cmdDataOut ReadReg.status.code).btldrState = _
    rw [heq, ← hok, ← hs.flashState]
    rfl
  · show ((s.selected ReadReg.status.code).cmdDataOut ReadReg.status.code).flashState = _
    rw [heq, ← hs.flashState]
    rfl
  · exact hframe.2.2.trans hs.flashAddr

theorem stage_status {f : FlashState} (hs : s.Stage mem f addr) (hok : (statusRead f).2 = .ok)
    (hquiet : FlashState.Quiet (statusRead f).1) :
    Stage mem (statusRead f).1 addr (s.accessRead .status) := by
  have hstage := stage_sendAnswer hs hok
  rw [accessRead, flashRun_quiet (hstage.flashState.symm ▸ hquiet)]
  exact hstage

theorem stage_status_read (hs : s.Stage mem (.readAddrReady m) addr) :
    Stage mem (.readDataReady m) addr (s.accessRead .status) ∧
      (s.accessRead .status).i2cOutRemaining = flashBlockSize ∧
      (s.accessRead .status).i2cBuf.take flashBlockSize = mem.read addr flashBlockSize := by
  have hstage := stage_sendAnswer hs rfl
  have hstate : (s.selected ReadReg.status.code).sendAnswer.released.flashState = .readRun m :=
    hstage.flashState
  have hrun : s.accessRead .status =
      { (s.selected ReadReg.status.code).sendAnswer.released with
        i2cOutRemaining := flashBlockSize
        i2cBuf := fill (s.selected ReadReg.status.code).sendAnswer.released.i2cBuf
          (mem.read addr flashBlockSize)
        flashState := .readDataReady m } := by
    have hidle : (s.selected ReadReg.status.code).sendAnswer.released.i2cState = .idle := rfl
    simp [accessRead, flashRun, hidle, hstate, flashRdwrRun, hstage.mem, hstage.flashAddr]
  rw [hrun]
  refine ⟨{ hstage with flashState := rfl }, rfl, ?_⟩
  have htake := take_fill (s.selected ReadReg.status.code).sendAnswer.released.i2cBuf
    (mem.read addr flashBlockSize)
  rwa [length_read] at htake

/-- A read that has nothing to do with the flash access. -/
theorem frame_accessRead (s : Bootloader) {reg : ReadReg}
    (hidle : ((s.selected reg.code).cmdDataOut reg.code).flashState = .idle) :
    (s.accessRead reg).mem = s.mem ∧ (s.accessRead reg).appStatus = s.appStatus := by
  have hquiet : FlashState.Quiet (s.selected reg.code).sendAnswer.released.flashState := by
    show FlashState.Quiet ((s.selected reg.code).cmdDataOut reg.code).flashState
    rw [hidle]
    trivial
  have hcore := (frame_cmdDataOut (s.selected reg.code) reg.code).1
  rw [accessRead, flashRun_quiet hquiet]
  exact ⟨congrArg Core.mem hcore, congrArg Core.appStatus hcore⟩

theorem field_loaded (s : Bootloader) (reg : UInt8) {offset n : ℕ} (h : offset + n ≤ data.length)
    (i2cOffset : ℕ) :
    field (s.loaded reg data i2cOffset).i2cBuf offset n = field data offset n := by
  show field (fill s.i2cBuf (data ++ _)) offset n = _
  rw [field, fill, append_assoc, drop_append_of_le_length (by omega),
    take_append_of_le_length (by rw [length_drop]; omega), field]

theorem setAddr_eq (haddr : bigEndian (field s.i2cBuf 0 4) = addr)
    (hok : checkFlashAddr m addr = .ok) :
    { s with btldrState := .ok, flashState := .idle }.setAddr m ready =
      { s with btldrState := .ok, flashAddr := addr, flashState := ready } := by
  simp [setAddr, haddr, hok]

/-- The registers for addresses, with the states that they lead to. -/
def AddrReg (reg : WriteReg) (m : MemType) (ready : FlashState) : Prop :=
  reg = .writeAddr m ∧ ready = .writeAddrReady m ∨ reg = .readAddr m ∧ ready = .readAddrReady m

theorem cmdDataIn_addr (hreg : AddrReg reg m ready) (hok : checkFlashAddr m addr = .ok)
    (haddr : addr < 256 ^ 4) :
    (s.loaded reg.code (bytesOf 4 addr) (bytesOf 4 addr).length).cmdDataIn reg.code =
      { s.loaded reg.code (bytesOf 4 addr) (bytesOf 4 addr).length with
        btldrState := .ok
        flashAddr := addr
        flashState := ready } := by
  have hfield : bigEndian (field (s.loaded reg.code (bytesOf 4 addr)
      (bytesOf 4 addr).length).i2cBuf 0 4) = addr := by
    have hlength := length_bytesOf 4 addr
    rw [field_loaded s reg.code (by omega), field, drop_zero,
      take_of_length_le (Nat.le_of_eq hlength), bigEndian_bytesOf haddr]
  rcases hreg with ⟨rfl, rfl⟩ | ⟨rfl, rfl⟩
  · rw [cmdDataIn, writeReg_code]
    exact setAddr_eq hfield hok
  · rw [cmdDataIn, writeReg_code]
    exact setAddr_eq hfield hok

theorem stays_addr (hreg : AddrReg reg m ready) (hok : checkFlashAddr m addr = .ok)
    (haddr : addr < 256 ^ 4) :
    Stays (s.loaded reg.code (bytesOf 4 addr) (bytesOf 4 addr).length)
      ((s.loaded reg.code (bytesOf 4 addr) (bytesOf 4 addr).length).cmdDataIn reg.code) := by
  rw [cmdDataIn_addr hreg hok haddr]
  exact ⟨rfl, rfl, rfl, rfl⟩

theorem stage_addr (hreg : AddrReg reg m ready) (hok : checkFlashAddr m addr = .ok)
    (haddr : addr < 256 ^ 4) : Stage s.mem ready addr (s.accessWrite reg (bytesOf 4 addr)) := by
  have hquiet : FlashState.Quiet ready := by
    rcases hreg with ⟨-, rfl⟩ | ⟨-, rfl⟩ <;> trivial
  rw [accessWrite, cmdDataIn_addr hreg hok haddr, flashRun_quiet]
  · exact ⟨rfl, rfl, rfl, rfl⟩
  · exact hquiet

theorem cmdDataIn_write (hlen : data.length = flashBlockSize)
    (hstate : s.flashState = .writeDataReady m) :
    (s.loaded (WriteReg.write m).code data data.length).cmdDataIn (WriteReg.write m).code =
      { s.loaded (WriteReg.write m).code data data.length with
        btldrState := .ok
        flashState := .writeRun m } := by
  rw [cmdDataIn, writeReg_code]
  have hoffset : (s.loaded (WriteReg.write m).code data data.length).i2cOffset = flashBlockSize :=
    hlen
  have hlast : (s.loaded (WriteReg.write m).code data data.length).flashState =
      .writeDataReady m := hstate
  simp [hoffset, hlast]

theorem stays_write (hlen : data.length = flashBlockSize)
    (hstate : s.flashState = .writeDataReady m) :
    Stays (s.loaded (WriteReg.write m).code data data.length)
      ((s.loaded (WriteReg.write m).code data data.length).cmdDataIn
        (WriteReg.write m).code) := by
  rw [cmdDataIn_write hlen hstate]
  exact ⟨rfl, rfl, rfl, rfl⟩

/-- A block is in memory when the bus is idle again. -/
theorem stage_write {block : ℕ}
    (hs : s.Stage mem (.writeDataReady m) (m.start + block * flashBlockSize))
    (hlen : data.length = flashBlockSize) :
    Stage (mem.put (m.start + block * flashBlockSize) data) .idle
      (m.start + block * flashBlockSize) (s.accessWrite (.write m) data) := by
  have hblock : (s.flashAddr - m.start) / flashBlockSize = block := by
    rw [hs.flashAddr, Nat.add_sub_cancel_left]
    exact Nat.mul_div_cancel block (by decide)
  have hbuf : fill s.i2cBuf (data ++ [i2cMessageChecksum data (WriteReg.write m).code]) =
      data ++ ([i2cMessageChecksum data (WriteReg.write m).code] ++ s.i2cBuf.drop
        (data ++ [i2cMessageChecksum data (WriteReg.write m).code]).length) := by
    rw [fill, append_assoc]
  rw [accessWrite, cmdDataIn_write hlen hs.flashState]
  refine ⟨?_, rfl, rfl, hs.flashAddr⟩
  show flashProgramblock s.mem ((s.flashAddr - m.start) / flashBlockSize) m
    (fill s.i2cBuf (data ++ [i2cMessageChecksum data (WriteReg.write m).code])) = _
  rw [hblock, hbuf, flashProgramblock_append _ _ _ hlen, hs.mem]

theorem cmdDataIn_appInfoSet (hlen : data.length = 9) :
    (s.loaded WriteReg.appInfoSet.code data data.length).cmdDataIn WriteReg.appInfoSet.code =
      { s.loaded WriteReg.appInfoSet.code data data.length with
        btldrState := .ok
        flashState := .appInfoWriteRun } := by
  rw [cmdDataIn, writeReg_code]
  have hoffset : (s.loaded WriteReg.appInfoSet.code data data.length).i2cOffset = 9 := hlen
  simp [hoffset]

theorem stays_appInfoSet (hlen : data.length = 9) :
    Stays (s.loaded WriteReg.appInfoSet.code data data.length)
      ((s.loaded WriteReg.appInfoSet.code data data.length).cmdDataIn
        WriteReg.appInfoSet.code) := by
  rw [cmdDataIn_appInfoSet hlen]
  exact ⟨rfl, rfl, rfl, rfl⟩

theorem field_append {a b : Bytes} (c : Bytes) {offset n : ℕ} (ha : a.length = offset)
    (hb : b.length = n) : field (a ++ (b ++ c)) offset n = b := by
  rw [field, drop_left' ha, take_left' hb]

/-- A record that is set is read from the buffer as it was sent. -/
theorem appInfoSet_loaded (s : Bootloader) (reg : UInt8) {p : AppInfoSet} (hp : p.Sized)
    (n : ℕ) :
    (s.loaded reg (p.size ++ p.crc16 ++ p.appVer ++ [p.autoboot]) n).appInfoSet = p := by
  obtain ⟨size, crc16, appVer, autoboot⟩ := p
  obtain ⟨hsize, hcrc16, hver⟩ := hp
  obtain ⟨rest, hbuf⟩ : ∃ rest, (s.loaded reg (size ++ crc16 ++ appVer ++ [autoboot]) n).i2cBuf =
      size ++ (crc16 ++ (appVer ++ ([autoboot] ++ rest))) := by
    simp only [loaded, fill, append_assoc]
    exact ⟨_, rfl⟩
  have hfour : (size ++ crc16).length = 6 := by
    rw [length_append, hsize, hcrc16]
  have hsix : (size ++ crc16 ++ appVer).length = 8 := by
    rw [length_append, hfour, hver]
  simp only [appInfoSet, hbuf]
  congr 1
  · exact field_append (a := []) _ rfl hsize
  · exact field_append _ hsize hcrc16
  · rw [← append_assoc]
    exact field_append _ hfour hver
  · rw [← append_assoc, ← append_assoc, ← hsix,
      getD_append_right _ _ _ _ (Nat.le_refl _), Nat.sub_self]
    rfl

theorem flashRun_appInfo (hidle : s.i2cState = .idle) (hstate : s.flashState = .appInfoWriteRun) :
    s.flashRun.mem = flashProgramblock s.mem btldrEepromDataBlock .eeprom
        (fill s.i2cBuf (recordBlock s.appInfoSet)) ∧
      s.flashRun.appStatus = (updateAppStatus (flashProgramblock s.mem btldrEepromDataBlock .eeprom
        (fill s.i2cBuf (recordBlock s.appInfoSet)))
          (fill s.i2cBuf (recordBlock s.appInfoSet))).1 := by
  rw [flashRun, if_pos hidle, hstate]
  exact ⟨rfl, rfl⟩

/-- The record is in memory, and the application has been checked. -/
theorem accessWrite_appInfoSet (s : Bootloader) {p : AppInfoSet} (hp : p.Sized) :
    (s.accessWrite .appInfoSet (p.size ++ p.crc16 ++ p.appVer ++ [p.autoboot])).mem =
        s.mem.put (MemType.start .eeprom) (recordBlock p) ∧
      ∃ buf, (s.accessWrite .appInfoSet
        (p.size ++ p.crc16 ++ p.appVer ++ [p.autoboot])).appStatus =
          (updateAppStatus (s.mem.put (MemType.start .eeprom) (recordBlock p)) buf).1 := by
  have hlen : (p.size ++ p.crc16 ++ p.appVer ++ [p.autoboot]).length = 9 := by
    simp [hp.size, hp.crc16, hp.appVer]
  have hinfo := appInfoSet_loaded s WriteReg.appInfoSet.code hp
  generalize p.size ++ p.crc16 ++ p.appVer ++ [p.autoboot] = data at hlen hinfo ⊢
  have hmem : ∀ buf, flashProgramblock s.mem btldrEepromDataBlock .eeprom
      (fill buf (recordBlock p)) = s.mem.put (MemType.start .eeprom) (recordBlock p) := by
    intro buf
    rw [fill, flashProgramblock_append _ _ _ hp.length_recordBlock, btldrEepromDataBlock,
      Nat.zero_mul, Nat.add_zero]
  rw [accessWrite, cmdDataIn_appInfoSet hlen]
  obtain ⟨hrunMem, hrunStatus⟩ := flashRun_appInfo (s := released
    { s.loaded WriteReg.appInfoSet.code data data.length with
      btldrState := .ok
      flashState := .appInfoWriteRun }) rfl rfl
  rw [hrunMem, hrunStatus]
  have hset : (released { s.loaded WriteReg.appInfoSet.code data data.length with
      btldrState := .ok
      flashState := .appInfoWriteRun }).appInfoSet = p := hinfo data.length
  rw [hset]
  exact ⟨hmem _, _, congrArg (fun mem => (updateAppStatus mem _).1) (hmem _)⟩

end Bootloader

end BeepMusic.Iomcu
