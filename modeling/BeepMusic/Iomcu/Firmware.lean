import BeepMusic.Iomcu.Standby

/-!
Writing firmware. The specifications of the steps of `ioutil` say what each does to the
memory of the controller, or that there was a fault; put together they say that
`ioutil_write_fw` leaves the padded image and its record in memory.
-/

namespace BeepMusic.Iomcu

open Lib List

/-! ### Memory -/

variable (mem : Memory)

theorem Memory.put_append (addr : ℕ) (bytes bytes' : Bytes) :
    (mem.put addr bytes).put (addr + bytes.length) bytes' = mem.put addr (bytes ++ bytes') := by
  funext a
  simp only [Memory.put, length_append]
  by_cases hfirst : addr ≤ a ∧ a < addr + bytes.length
  · rw [if_neg (by omega), if_pos hfirst, if_pos (by omega),
      getD_append _ _ _ _ (by omega)]
  by_cases hsecond : addr + bytes.length ≤ a ∧ a < addr + bytes.length + bytes'.length
  · rw [if_pos hsecond, if_pos (by omega), getD_append_right _ _ _ _ (by omega)]
    congr 1
    omega
  · rw [if_neg hsecond, if_neg hfirst, if_neg (by omega)]

theorem Memory.put_nil (addr : ℕ) : mem.put addr [] = mem := by
  funext a
  simp only [Memory.put, length_nil]
  rw [if_neg (by omega)]

theorem Memory.read_put (addr : ℕ) (bytes : Bytes) :
    (mem.put addr bytes).read addr bytes.length = bytes := by
  apply ext_getElem
  · rw [length_read]
  · intro i hi hi'
    simp only [Memory.read, getElem_map, getElem_range, Memory.put]
    rw [if_pos (by omega), Nat.add_sub_cancel_left, getD_eq_getElem _ _ hi']

theorem Memory.put_of_ne {mem : Memory} {addr a : ℕ} {bytes : Bytes}
    (h : a < addr ∨ addr + bytes.length ≤ a) : mem.put addr bytes a = mem a := by
  rw [Memory.put, if_neg (by omega)]

/-! ### The record -/

/-- The part of a record that its checksum is about. -/
def recordData (p : AppInfoSet) : Bytes :=
  btldrEepromDataMagic ++ p.size ++ p.crc16 ++ p.appVer ++ [p.autoboot &&& autobootMask]

variable {p : AppInfoSet}

theorem AppInfoSet.Sized.length_recordData (h : p.Sized) : (recordData p).length = 13 := by
  simp [recordData, h.size, h.crc16, h.appVer, btldrEepromDataMagic]

theorem appRecord_put (h : p.Sized) : appRecord (mem.put (MemType.start .eeprom) (recordBlock p)) =
      recordData p ++ [crc8 iomcuCrc8Init (recordData p)] := by
  have hread := Memory.read_put mem (MemType.start .eeprom) (recordBlock p)
  have hsplit : flashBlockSize = btldrEepromDataSize + (flashBlockSize - btldrEepromDataSize) := by
    decide
  rw [h.length_recordBlock, hsplit, Memory.read_add] at hread
  refine append_inj_left hread ?_
  rw [appRecord, length_read, length_append, length_singleton, h.length_recordData]
  rfl

/-- The bootloader finds the record that was written. -/
theorem recordValid_put (h : p.Sized) :
    recordValid (appRecord (mem.put (MemType.start .eeprom) (recordBlock p))) = true := by
  have hlen := h.length_recordData
  rw [appRecord_put mem h, recordValid, take_left' hlen,
    getD_append_right _ _ _ _ (Nat.le_of_eq hlen), hlen]
  refine decide_eq_true ⟨rfl, ?_⟩
  exact Bootloader.field_append (a := []) (b := btldrEepromDataMagic) _ rfl rfl

theorem readAppInfo_put (h : p.Sized) (appStatus : UInt8) :
    readAppInfo (mem.put (MemType.start .eeprom) (recordBlock p)) appStatus =
      ⟨p.size, p.crc16, p.appVer, appStatus ||| (p.autoboot &&& autobootMask)⟩ := by
  have hmagic : btldrEepromDataMagic.length = 4 := rfl
  have height : (btldrEepromDataMagic ++ p.size).length = 8 := by
    rw [length_append, h.size, hmagic]
  have hten : (btldrEepromDataMagic ++ p.size ++ p.crc16).length = 10 := by
    rw [length_append, height, h.crc16]
  have htwelve : (btldrEepromDataMagic ++ p.size ++ p.crc16 ++ p.appVer).length = 12 := by
    rw [length_append, hten, h.appVer]
  rw [readAppInfo, if_pos (recordValid_put mem h), appRecord_put mem h, recordData]
  generalize crc8 iomcuCrc8Init _ = checksum
  congr 1
  · simp only [append_assoc]
    exact Bootloader.field_append _ hmagic h.size
  · rw [append_assoc, append_assoc, append_assoc]
    exact Bootloader.field_append _ height h.crc16
  · rw [append_assoc, append_assoc]
    exact Bootloader.field_append _ hten h.appVer
  · rw [append_assoc, getD_append_right _ _ _ _ (Nat.le_of_eq htwelve), htwelve]
    rfl

/-- The host has the memory for the image, and has read it from the file. -/
structure Host.Works (host : Host) (image : Bytes) : Prop where
  malloc : host.malloc = true
  fread : host.fread = image.length

namespace Ioutil

/-! ### The accesses

`E` is what a failure means. An access fails only if the bus says so. -/

/-- A condition on a controller that waits for the next access. -/
def On (P : Bootloader → Prop) (io : Ioutil) : Prop := io.device.Waiting ∧ P io.device

variable {host : Host} {bus : LosslessBus} {E : Prop}

variable {P : Bootloader → Prop} {m : MemType} {block addr : ℕ} {mem : Memory} {image : Bytes}

section

variable (hE : ∀ n, bus.ret n ≠ 0 → E)
include hE

theorem ensures_access {α : Type} {Q : α → Bootloader → Prop}
    {act : ℕ → Bootloader → α × Bootloader}
    (h : ∀ n s, s.Waiting → P s → (act n s).2.Waiting ∧ Q (act n s).1 (act n s).2) :
    Program.Ensures (fun _ => E) (On P) (access bus act) fun a => On (Q a) := by
  intro io hio
  rw [access]
  split
  · exact h io.accesses io.device hio.1 hio.2
  · rename_i hret
    exact hE _ hret

theorem ensures_write {Q : Bootloader → Prop} {reg : WriteReg} {data : Bytes}
    (hlen : data.length < i2cBufSize)
    (h : ∀ s, s.Waiting → P s → Bootloader.Stays (s.loaded reg.code data data.length)
      ((s.loaded reg.code data data.length).cmdDataIn reg.code) ∧ Q (s.accessWrite reg data)) :
    Program.Ensures (fun _ => E) (On P) (ioutilRegWrite bus reg data) fun _ => On Q := by
  rw [ioutilRegWrite, i2cRegWrite]
  refine ensures_access (Q := fun _ => Q) hE ?_
  intro n s hwaiting hP
  obtain ⟨hstays, hQ⟩ := h s hwaiting hP
  rw [Bootloader.transfer_write bus hwaiting hlen hstays n]
  exact ⟨hwaiting.accessWrite hlen hstays, hQ⟩

theorem ensures_read {Q : Bytes → Bootloader → Prop} {reg : ReadReg} {len : ℕ}
    (h : ∀ s, s.Waiting → P s →
      ∃ bytes, s.Answers reg.code bytes ∧ bytes.length = len ∧ Q bytes (s.accessRead reg)) :
    Program.Ensures (fun _ => E) (On P) (ioutilRegRead host bus reg len) fun b => On (Q b) := by
  have htransfer : Program.Ensures (fun _ => E) (On P) (i2cRegRead bus reg.code (len + 1))
      fun tbuf => On fun s => ∃ bytes,
        tbuf = bytes ++ [Bootloader.i2cMessageChecksum bytes reg.code] ∧ bytes.length = len ∧
          Q bytes s := by
    refine ensures_access hE ?_
    intro n s hwaiting hP
    obtain ⟨bytes, hanswers, rfl, hQ⟩ := h s hwaiting hP
    obtain ⟨hbytes, hdevice⟩ := Bootloader.transfer_read bus hwaiting hanswers n
    simp only [hbytes, hdevice]
    exact ⟨hwaiting.accessRead hanswers, bytes, rfl, rfl, hQ⟩
  refine htransfer.bind fun tbuf => .bind (Q := fun _ => On (Q (tbuf.take len))) ?_ fun _ =>
    .pure fun _ hs => hs
  refine .require ?_ ?_
  · rintro io ⟨hwaiting, bytes, rfl, hlen, hQ⟩ -
    rw [take_left' hlen]
    exact ⟨hwaiting, hQ⟩
  · rintro io ⟨-, bytes, rfl, hlen, -⟩ hcond
    have hchecksum : (bytes ++ [Bootloader.i2cMessageChecksum bytes reg.code]).getD len 0 =
        Bootloader.i2cMessageChecksum bytes reg.code := by
      rw [getD_append_right _ _ _ _ (Nat.le_of_eq hlen), hlen, Nat.sub_self]
      rfl
    rw [take_left' hlen, hchecksum, decide_eq_true rfl] at hcond
    exact nomatch hcond

theorem ensures_status {Q : Bootloader → Prop}
    (h : ∀ s, s.Waiting → P s → s.btldrState = .ok ∧ Q (s.accessRead .status)) :
    Program.Ensures (fun _ => E) (On P) (checkStatus host bus) fun _ => On Q := by
  refine .bind (Q := fun status => On fun s => status = [BtldrState.ok.code] ∧ Q s)
    (ensures_read hE ?_) ?_
  · intro s hwaiting hP
    obtain ⟨hok, hQ⟩ := h s hwaiting hP
    exact ⟨_, Bootloader.answers_status hwaiting hok, rfl, rfl, hQ⟩
  · intro status
    refine .require ?_ ?_
    · rintro io ⟨hwaiting, -, hQ⟩ -
      exact ⟨hwaiting, hQ⟩
    · rintro io ⟨-, rfl, -⟩ hcond
      exact absurd hcond (by decide)

/-! ### Blocks -/

end

/-- The address of a block that the controller accepts. -/
structure BlockAt (m : MemType) (block addr : ℕ) : Prop where
  eq : addr = m.start + block * flashBlockSize
  base : m.base ≤ addr
  size : addr < m.base + m.size

theorem BlockAt.check (h : BlockAt m block addr) :
    Bootloader.checkFlashAddr m addr = .ok ∧ addr < 256 ^ 4 := by
  have haddr := h.eq
  have hbase := h.base
  have hsize := h.size
  have hstart : m.start % flashBlockSize = 0 := by cases m <;> decide
  have hend : m.base + m.size ≤ 256 ^ 4 := by cases m <;> decide
  refine ⟨?_, Nat.lt_of_lt_of_le hsize hend⟩
  rw [Bootloader.checkFlashAddr, if_neg, if_neg (by omega)]
  rw [haddr, Nat.add_mul_mod_self_right]
  exact not_not_intro hstart

theorem ensures_writeFlash {data : Bytes} (hE : ∀ n, bus.ret n ≠ 0 → E)
    (haddr : BlockAt m block addr) (hdata : data.length = flashBlockSize) :
    Program.Ensures (fun _ => E) (On fun s => s.mem = mem) (ioutilWriteFlash host bus addr data m)
      fun _ => On fun s => s.mem = mem.put addr data := by
  obtain ⟨hcheck, hlt⟩ := haddr.check
  refine .bind (Q := fun _ => On (Bootloader.Stage mem (.writeAddrReady m) addr))
    (ensures_write hE (by rw [length_bytesOf]; decide) ?_) fun _ => ?_
  · rintro s - rfl
    exact ⟨Bootloader.stays_addr (.inl ⟨rfl, rfl⟩) hcheck hlt,
      Bootloader.stage_addr (.inl ⟨rfl, rfl⟩) hcheck hlt⟩
  refine .bind (Q := fun _ => On (Bootloader.Stage mem (.writeDataReady m) addr))
    (ensures_status hE ?_) fun _ => ?_
  · intro s _ hs
    exact ⟨hs.btldrState, Bootloader.stage_status hs rfl trivial⟩
  refine .bind (Q := fun _ => On (Bootloader.Stage (mem.put addr data) .idle addr))
    (ensures_write hE (by rw [hdata]; decide) ?_) fun _ => ensures_status hE ?_
  · intro s _ hs
    refine ⟨Bootloader.stays_write hdata hs.flashState, ?_⟩
    rw [haddr.eq] at hs ⊢
    exact Bootloader.stage_write hs hdata
  · intro s _ hs
    exact ⟨hs.btldrState, (Bootloader.stage_status hs rfl trivial).mem⟩

theorem ensures_readFlash (hE : ∀ n, bus.ret n ≠ 0 → E) (haddr : BlockAt m block addr) :
    Program.Ensures (fun _ => E) (On fun s => s.mem = mem)
      (ioutilReadFlash host bus addr flashBlockSize m)
      fun bytes => On fun s => bytes = mem.read addr flashBlockSize ∧ s.mem = mem := by
  obtain ⟨hcheck, hlt⟩ := haddr.check
  refine .bind (Q := fun _ => On (Bootloader.Stage mem (.readAddrReady m) addr))
    (ensures_write hE (by rw [length_bytesOf]; decide) ?_) fun _ => ?_
  · rintro s - rfl
    exact ⟨Bootloader.stays_addr (.inr ⟨rfl, rfl⟩) hcheck hlt,
      Bootloader.stage_addr (.inr ⟨rfl, rfl⟩) hcheck hlt⟩
  refine .bind (Q := fun _ => On fun s => Bootloader.Stage mem (.readDataReady m) addr s ∧
    s.i2cOutRemaining = flashBlockSize ∧
    s.i2cBuf.take flashBlockSize = mem.read addr flashBlockSize)
    (ensures_status hE ?_) fun _ => ensures_read hE ?_
  · intro s _ hs
    exact ⟨hs.btldrState, Bootloader.stage_status_read hs⟩
  · rintro s hwaiting ⟨hs, hremaining, hbuf⟩
    have hlength := length_read mem addr flashBlockSize
    refine ⟨_, Bootloader.answers_read hwaiting hs.flashState hremaining hlength hbuf, hlength,
      rfl, ?_⟩
    have hidle := congrArg Bootloader.flashState
      (Bootloader.cmdDataOut_read hs.flashState hremaining)
    exact (Bootloader.frame_accessRead s hidle).1.trans hs.mem

/-- What is in memory and what has been read, after a buffer of this size. -/
def flashEffect (rd : Bool) (mem : Memory) (addr : ℕ) (buf : Bytes) : Memory × Bytes :=
  if rd then (mem, mem.read addr buf.length) else (mem.put addr buf, [])

theorem flashEffect_append (rd : Bool) (mem : Memory) (addr : ℕ) (buf buf' : Bytes) :
    flashEffect rd mem addr (buf ++ buf') =
      ((flashEffect rd (flashEffect rd mem addr buf).1 (addr + buf.length) buf').1,
        (flashEffect rd mem addr buf).2 ++
          (flashEffect rd (flashEffect rd mem addr buf).1 (addr + buf.length) buf').2) := by
  cases rd with
  | true =>
    simp only [flashEffect, if_true, length_append]
    rw [Memory.read_add]
  | false =>
    simp only [flashEffect, Bool.false_eq_true, if_false, append_nil]
    rw [Memory.put_append]

theorem ensures_block (host : Host) {buf : Bytes} (hE : ∀ n, bus.ret n ≠ 0 → E) (rd : Bool)
    (haddr : BlockAt m block addr) (hbuf : buf.length = flashBlockSize) :
    Program.Ensures (fun _ => E) (On fun s => s.mem = mem)
      (if rd then ioutilReadFlash host bus addr flashBlockSize m
        else do
          ioutilWriteFlash host bus addr buf m
          pure [])
      fun bytes => On fun s => (s.mem, bytes) = flashEffect rd mem addr buf := by
  cases rd with
  | true =>
    refine (ensures_readFlash hE haddr).mono (fun _ hs => hs) ?_
    rintro bytes io ⟨hwaiting, rfl, hmem⟩
    refine ⟨hwaiting, ?_⟩
    show (io.device.mem, mem.read addr flashBlockSize) = _
    rw [hmem, flashEffect, if_pos rfl, hbuf]
  | false =>
    refine (ensures_writeFlash hE haddr hbuf).bind fun _ => .pure ?_
    rintro io ⟨hwaiting, hmem⟩
    refine ⟨hwaiting, ?_⟩
    show (io.device.mem, ([] : Bytes)) = _
    rw [hmem, flashEffect, if_neg Bool.false_ne_true]

/-- All of the buffer has been dealt with, or there was a failure. -/
def Dealt (E : Prop) (rd : Bool) (mem : Memory) (addr : ℕ) (buf : Bytes) (r : ℕ × Bytes)
    (io : Ioutil) : Prop :=
  r.1 = buf.length ∧ On (fun s => (s.mem, r.2) = flashEffect rd mem addr buf) io ∨
    r.1 ≠ buf.length ∧ E

theorem ensures_dealt {rd : Bool} {addr size : ℕ} {buf out : Bytes} :
    Program.Ensures (fun _ => E) (Dealt E rd mem addr buf (size, out))
      (.require (size = buf.length) 1)
      fun _ => On fun s => (s.mem, out) = flashEffect rd mem addr buf := by
  refine .require ?_ ?_
  · rintro io (⟨-, hon⟩ | ⟨hne, -⟩) hcond
    · exact hon
    · exact absurd (of_decide_eq_true hcond) hne
  · rintro io (⟨heq, -⟩ | ⟨-, hfail⟩) hcond
    · exact absurd heq (of_decide_eq_false hcond)
    · exact hfail

theorem ensures_rdwrLoop (hE : ∀ n, bus.ret n ≠ 0 → E) (rd : Bool) (blocks block addr : ℕ)
    {buf : Bytes} (hlen : buf.length = blocks * flashBlockSize)
    (haddr : addr = m.start + block * flashBlockSize) (hbase : m.base ≤ addr)
    (hsize : addr + buf.length ≤ m.base + m.size) :
    Program.Ensures (fun _ => E) (On fun s => s.mem = mem)
      (rdwrLoop host bus flashBlockSize m rd blocks addr buf) (Dealt E rd mem addr buf) := by
  -- One block and then the others; a block that fails ends the loop with a smaller count.
  induction blocks generalizing block addr mem buf with
  | zero =>
    obtain rfl := length_eq_zero_iff.mp (hlen.trans (Nat.zero_mul _))
    rintro io ⟨hwaiting, hmem⟩
    refine .inl ⟨rfl, hwaiting, ?_⟩
    cases rd with
    | true => exact congrArg (·, []) hmem
    | false =>
      show (io.device.mem, ([] : Bytes)) = (mem.put addr [], [])
      rw [Memory.put_nil, hmem]
  | succ blocks ih =>
    rw [Nat.succ_mul] at hlen
    have hpos : 0 < flashBlockSize := by decide
    have hfirst : (buf.take flashBlockSize).length = flashBlockSize := by
      rw [length_take]
      omega
    have hrest : (buf.drop flashBlockSize).length = blocks * flashBlockSize := by
      rw [length_drop]
      omega
    have hsplit := flashEffect_append rd mem addr (buf.take flashBlockSize)
      (buf.drop flashBlockSize)
    rw [take_append_drop, hfirst] at hsplit
    intro io hio
    have hblock := ensures_block host hE rd ⟨haddr, hbase, by omega⟩ hfirst io hio
    simp only [rdwrLoop]
    split
    · rename_i e io' hrun
      rw [hrun] at hblock
      exact .inr ⟨by rw [hlen]; omega, hblock⟩
    · rename_i bytes io' hrun
      rw [hrun] at hblock
      obtain ⟨hwaiting, heffect⟩ := hblock
      obtain ⟨hmem, rfl⟩ := Prod.ext_iff.mp heffect
      refine Program.Ensures.bind (ih (block + 1) (addr + flashBlockSize) hrest
        (by rw [haddr, Nat.succ_mul, Nat.add_assoc]) (by omega) (by omega)) ?_ io'
        ⟨hwaiting, hmem⟩
      rintro ⟨left, more⟩
      rintro io'' (⟨hleft, hwaiting, hmore⟩ | ⟨hleft, hfail⟩)
      · obtain ⟨hmem', rfl⟩ := Prod.ext_iff.mp hmore
        refine .inl ⟨?_, hwaiting, ?_⟩
        · omega
        · rw [hsplit]
          exact Prod.ext hmem' rfl
      · refine .inr ⟨?_, hfail⟩
        omega

/-! ### Whole blocks -/

theorem length_padded (image : Bytes) :
    (padded image flashBlockSize).length = roundUpAddr image.length flashBlockSize := by
  rw [padded, length_append, length_replicate]
  simp only [roundUpAddr, flashBlockSize]
  omega

theorem roundUpAddr_mul (blocks : ℕ) :
    roundUpAddr (blocks * flashBlockSize) flashBlockSize = blocks * flashBlockSize := by
  simp only [roundUpAddr, flashBlockSize]
  omega

theorem length_padded_eq_mul (image : Bytes) : (padded image flashBlockSize).length =
    (padded image flashBlockSize).length / flashBlockSize * flashBlockSize := by
  rw [length_padded, roundUpAddr, Nat.mul_div_cancel _ (by decide : 0 < flashBlockSize)]

theorem ensures_rdwrFlashBlock (hE : ∀ n, bus.ret n ≠ 0 → E) (rd : Bool)
    (hfits : (padded image flashBlockSize).length ≤ MemType.size .data) :
    Program.Ensures (fun _ => E) (On fun s => s.mem = mem)
      (ioutilRdwrFlashBlock host bus (MemType.base .data) (padded image flashBlockSize).length
        flashBlockSize .data (padded image flashBlockSize) rd)
      (Dealt E rd mem (MemType.base .data) (padded image flashBlockSize)) := by
  have hmul := length_padded_eq_mul image
  have hround : (padded image flashBlockSize).length =
      roundUpAddr (padded image flashBlockSize).length flashBlockSize := by
    rw [hmul, roundUpAddr_mul]
  rw [ioutilRdwrFlashBlock, if_neg (by decide), if_neg (not_not_intro hround)]
  exact ensures_rdwrLoop hE rd _ ((MemType.base .data - MemType.start .data) / flashBlockSize) _
    hmul (by decide) (Nat.le_refl _) (by omega)

/-! ### The information registers -/

theorem ensures_flashInfo {P : Memory → UInt8 → Prop} (hE : ∀ n, bus.ret n ≠ 0 → E) :
    Program.Ensures (fun _ => E) (On fun s => P s.mem s.appStatus) (rdBtldrFlashInfo host bus)
      fun info => On fun s =>
        info = ⟨MemType.base .data, MemType.size .data, flashBlockSize⟩ ∧ P s.mem s.appStatus := by
  refine .bind (Q := fun p => On fun s => p = Bootloader.flashInfo ∧ P s.mem s.appStatus)
    (ensures_read hE ?_) fun p => .pure ?_
  · intro s hwaiting hP
    refine ⟨_, Bootloader.answers_flashInfo hwaiting, rfl, rfl, ?_⟩
    exact hP
  · rintro io ⟨hwaiting, rfl, hP⟩
    exact ⟨hwaiting, FlashInfo.mk.injEq .. ▸ (by decide), hP⟩

theorem appInfo_parse (mem : Memory) (appStatus : UInt8) :
    let p := Bootloader.appInfoBytes (readAppInfo mem appStatus)
    (⟨field p 0 4, field p 4 2, field p 6 2, p.getD 10 0⟩ : AppInfo) =
      readAppInfo mem appStatus := by
  obtain ⟨hsize, hcrc16, hver⟩ : (readAppInfo mem appStatus).size.length = 4 ∧
      (readAppInfo mem appStatus).crc16.length = 2 ∧
      (readAppInfo mem appStatus).appVer.length = 2 := by
    have hrecord : (appRecord mem).length = 14 := length_read mem _ _
    simp only [readAppInfo]
    split
    · exact ⟨length_field (by omega), length_field (by omega), length_field (by omega)⟩
    · exact ⟨rfl, rfl, rfl⟩
  generalize readAppInfo mem appStatus = info at hsize hcrc16 hver
  obtain ⟨size, crc16, appVer, status⟩ := info
  have hsix : (size ++ crc16).length = 6 := by
    rw [length_append, hsize, hcrc16]
  have hten : (size ++ crc16 ++ appVer ++ bytesOf 2 (0x8000 ||| 2500)).length = 10 := by
    rw [length_append, length_append, hsix, hver, length_bytesOf]
  simp only [Bootloader.appInfoBytes, AppInfo.mk.injEq]
  refine ⟨?_, ?_, ?_, ?_⟩
  · simp only [append_assoc]
    exact Bootloader.field_append (a := []) _ rfl hsize
  · simp only [append_assoc]
    exact Bootloader.field_append _ hsize hcrc16
  · rw [append_assoc, append_assoc]
    exact Bootloader.field_append _ hsix hver
  · rw [getD_append_right _ _ _ _ (Nat.le_of_eq hten), hten]
    rfl

theorem ensures_appInfo {P : Memory → UInt8 → Prop} (hE : ∀ n, bus.ret n ≠ 0 → E) :
    Program.Ensures (fun _ => E) (On fun s => P s.mem s.appStatus) (rdBtldrAppInfo host bus)
      fun info => On fun s => info = readAppInfo s.mem s.appStatus ∧ P s.mem s.appStatus := by
  refine .bind (Q := fun p => On fun s =>
    p = Bootloader.appInfoBytes (readAppInfo s.mem s.appStatus) ∧ P s.mem s.appStatus)
    (ensures_read hE ?_) fun p => .pure ?_
  · intro s hwaiting hP
    refine ⟨_, Bootloader.answers_appInfo hwaiting,
      Bootloader.length_appInfoBytes _ _, ?_⟩
    exact ⟨rfl, hP⟩
  · rintro io ⟨hwaiting, rfl, hP⟩
    exact ⟨hwaiting, appInfo_parse _ _, hP⟩

theorem ensures_appInfoSet {p : AppInfoSet} (hE : ∀ n, bus.ret n ≠ 0 → E) (hp : p.Sized) :
    Program.Ensures (fun _ => E) (On fun s => s.mem = mem) (wrBtldrAppInfoSet bus p)
      fun _ => On fun s => s.mem = mem.put (MemType.start .eeprom) (recordBlock p) ∧
        Flagged s.mem s.appStatus := by
  have hlen : (p.size ++ p.crc16 ++ p.appVer ++ [p.autoboot]).length = 9 := by
    simp [hp.size, hp.crc16, hp.appVer]
  refine ensures_write hE (by rw [hlen]; decide) ?_
  rintro s - rfl
  obtain ⟨hmem, buf, hstatus⟩ := Bootloader.accessWrite_appInfoSet s hp
  refine ⟨Bootloader.stays_appInfoSet hlen, hmem, ?_⟩
  rw [hmem, hstatus]
  exact flagged_updateAppStatus _ _

/-! ### The firmware -/

/-- The record of the firmware in a buffer. -/
def firmwareRecord (host : Host) (buf : Bytes) (autoboot : UInt8) : AppInfoSet :=
  { size := bytesOf 4 buf.length
    crc16 := bytesOf 2 (crc16 iomcuCrc16Init buf).toNat
    appVer := bytesOf 2 host.writeFwAppVer.toNat
    autoboot := autoboot &&& autobootMask }

theorem sized_firmwareRecord (host : Host) (buf : Bytes) (autoboot : UInt8) :
    (firmwareRecord host buf autoboot).Sized :=
  ⟨length_bytesOf _ _, length_bytesOf _ _, length_bytesOf _ _⟩

/-- The check of the record at the end cannot fail. -/
theorem appInfo_of_record {appStatus : UInt8} {p : AppInfoSet} (hp : p.Sized)
    (h : Flagged (mem.put (MemType.start .eeprom) (recordBlock p)) appStatus) :
    let info := readAppInfo (mem.put (MemType.start .eeprom) (recordBlock p)) appStatus
    info.size = p.size ∧ info.crc16 = p.crc16 ∧ info.appVer = p.appVer ∧
      info.status &&& autobootMask = p.autoboot &&& autobootMask := by
  have hflag : (readAppInfo (mem.put (MemType.start .eeprom) (recordBlock p)) 0).status &&&
      autobootMask = _ := status_readAppInfo (.inl rfl)
  have hinfo := readAppInfo_put mem hp
  have hstatus := status_readAppInfo h
  rw [hinfo, UInt8.zero_or, UInt8.and_assoc, UInt8.and_self] at hflag
  rw [← hflag] at hstatus
  exact ⟨congrArg AppInfo.size (hinfo _), congrArg AppInfo.crc16 (hinfo _),
    congrArg AppInfo.appVer (hinfo _), hstatus⟩

/-- The memory with the firmware and its record. -/
def flashed (host : Host) (mem : Memory) (data : Bytes) (status : UInt8) : Memory :=
  (mem.put (MemType.base .data) data).put (MemType.start .eeprom)
    (recordBlock (firmwareRecord host data status))

theorem ensures_writeImage {info : AppInfo} (hE : ∀ n, bus.ret n ≠ 0 → E)
    (hworks : ¬host.Works image → E)
    (hfits : (padded image flashBlockSize).length ≤ MemType.size .data) :
    Program.Ensures (fun _ => E) (On fun s => s.mem = mem)
      (writeImage host bus ⟨MemType.base .data, MemType.size .data, flashBlockSize⟩ info image)
      fun _ => On fun s =>
        s.mem = flashed host mem (padded image flashBlockSize) info.status := by
  have hread := Memory.read_put mem (MemType.base .data) (padded image flashBlockSize)
  simp only [writeImage, ← length_padded]
  set data := padded image flashBlockSize
  -- The file and the memory for it.
  refine .require_bind (fun _ _ hcond => ?_) ?_
  · exact absurd hfits (of_decide_eq_false hcond)
  refine .require_bind (fun _ _ hcond => hworks ?_) ?_
  · intro h
    rw [h.malloc] at hcond
    exact nomatch hcond
  refine .require_bind (fun _ _ hcond => hworks ?_) ?_
  · intro h
    exact of_decide_eq_false hcond h.fread
  -- The blocks are written, and read again.
  refine .bind (ensures_rdwrFlashBlock hE false hfits) ?_
  rintro ⟨wsize, w⟩
  refine .bind (Q := fun _ => On fun s => s.mem = mem.put (MemType.base .data) data)
    (ensures_dealt.mono (fun _ hs => hs) fun _ _ hs => ⟨hs.1, congrArg Prod.fst hs.2⟩) fun _ => ?_
  refine .bind (ensures_rdwrFlashBlock hE true hfits) ?_
  rintro ⟨rsize, verify⟩
  refine .bind ensures_dealt fun _ => ?_
  refine .bind (Q := fun _ => On fun s => s.mem = mem.put (MemType.base .data) data)
    (.require ?_ ?_) fun _ => ?_
  · rintro io ⟨hwaiting, heffect⟩ -
    exact ⟨hwaiting, congrArg Prod.fst heffect⟩
  · rintro io ⟨-, heffect⟩ hcond
    exact absurd ((congrArg Prod.snd heffect).trans hread).symm (of_decide_eq_false hcond)
  -- The record is written, and read again.
  have hp := sized_firmwareRecord host data info.status
  refine .bind (ensures_appInfoSet hE hp) fun _ => ?_
  refine .bind (ensures_appInfo (P := fun mem' appStatus =>
    mem' = flashed host mem data info.status ∧ Flagged mem' appStatus) hE) fun info' => .require ?_ ?_
  · rintro io ⟨hwaiting, -, hmem, -⟩ -
    exact ⟨hwaiting, hmem⟩
  · rintro io ⟨hwaiting, rfl, hmem, hflagged⟩ hcond
    rw [hmem] at hflagged hcond
    obtain ⟨hsize, hcrc16, hver, hflag⟩ := appInfo_of_record hp hflagged
    refine absurd ?_ (Bool.eq_false_iff.mp hcond)
    simp only [Bool.and_eq_true, decide_eq_true_eq]
    exact ⟨⟨⟨hsize, hcrc16⟩, hver⟩, hflag⟩

/-- What is in memory after firmware has been written: the padded image, its record with the
flag that was there before, and everything else as it was. -/
structure Written (host : Host) (mem : Memory) (image : Bytes) (mem' : Memory) : Prop where
  data : mem'.read (MemType.base .data) (padded image flashBlockSize).length =
    padded image flashBlockSize
  frame : ∀ a, (a < MemType.base .data ∨
      MemType.base .data + (padded image flashBlockSize).length ≤ a) →
    (a < MemType.start .eeprom ∨ MemType.start .eeprom + flashBlockSize ≤ a) → mem' a = mem a
  recordValid : recordValid (appRecord mem') = true
  appInfo : readAppInfo mem' 0 =
    ⟨bytesOf 4 (padded image flashBlockSize).length,
      bytesOf 2 (crc16 iomcuCrc16Init (padded image flashBlockSize)).toNat,
      bytesOf 2 host.writeFwAppVer.toNat, autobootFlag mem⟩
  crc16 : ∀ buf, (crcBlocks mem' ((padded image flashBlockSize).length / flashBlockSize)
    (MemType.base .data) iomcuCrc16Init buf).1 = crc16 iomcuCrc16Init (padded image flashBlockSize)

theorem written_put {status : UInt8} (hflag : status &&& autobootMask = autobootFlag mem) :
    Written host mem image (flashed host mem (padded image flashBlockSize) status) := by
  set data := padded image flashBlockSize
  have hp := sized_firmwareRecord host data status
  have hblock := hp.length_recordBlock
  have hdata : (flashed host mem data status).read (MemType.base .data) data.length = data := by
    refine (Memory.read_congr ?_).trans (Memory.read_put mem _ _)
    intro a hle _
    refine Memory.put_of_ne (.inr ?_)
    rw [hblock]
    exact Nat.le_trans (by decide) hle
  refine ⟨hdata, ?_, recordValid_put _ hp, ?_, ?_⟩
  · intro a houtside hrecord
    rw [flashed, Memory.put_of_ne (by rw [hblock]; exact hrecord), Memory.put_of_ne houtside]
  · have hautoboot : (firmwareRecord host data status).autoboot &&& autobootMask =
        autobootFlag mem := by
      show (status &&& autobootMask) &&& autobootMask = _
      rw [UInt8.and_assoc, UInt8.and_self, hflag]
    rw [flashed, readAppInfo_put _ hp, UInt8.zero_or, hautoboot]
    rfl
  · intro buf
    rw [crcBlocks_fst, ← length_padded_eq_mul, hdata]

theorem ensures_writeFw (hE : ∀ n, bus.ret n ≠ 0 → E) (hworks : ¬host.Works image → E)
    (hstream : host.stream = some image)
    (hfits : (padded image flashBlockSize).length ≤ MemType.size .data) :
    Program.Ensures (fun _ => E) (On fun s => s.mem = mem ∧ Flagged s.mem s.appStatus)
      (ioutilWriteFw host bus) fun _ => On fun s => Written host mem image s.mem := by
  refine .bind (ensures_flashInfo (P := fun mem' appStatus => mem' = mem ∧
    Flagged mem' appStatus) hE) fun flashInfo => ?_
  refine .bind (Q := fun info => On fun s => flashInfo =
      ⟨MemType.base .data, MemType.size .data, flashBlockSize⟩ ∧
    info.status &&& autobootMask = autobootFlag mem ∧ s.mem = mem)
    ((ensures_appInfo (P := fun mem' appStatus => flashInfo =
      ⟨MemType.base .data, MemType.size .data, flashBlockSize⟩ ∧ mem' = mem ∧
        Flagged mem' appStatus) hE).mono (fun _ hs => hs) ?_) fun info => ?_
  · rintro info io ⟨hwaiting, rfl, hflash, hmem, hflagged⟩
    refine ⟨hwaiting, hflash, ?_, hmem⟩
    rw [status_readAppInfo hflagged, hmem]
  · rintro io ⟨hwaiting, rfl, hflag, hmem⟩
    rw [hstream]
    refine (ensures_writeImage hE hworks hfits).mono (fun _ hs => hs) ?_ io ⟨hwaiting, hmem⟩
    rintro - io' ⟨hwaiting', hmem'⟩
    refine ⟨hwaiting', ?_⟩
    show Written host mem image io'.device.mem
    rw [hmem']
    exact written_put hflag

/-- Firmware that fits is in memory when `ioutil_write_fw` returns 0, whatever has happened
to the bootloader before; and it does return 0 if the bus and the host work. -/
theorem writeFw_written (host : Host) (bus : LosslessBus) {mem : Memory} (io : Ioutil)
    {image : Bytes}
    (hreachable : (bootloader mem).Reachable io.device) (hphase : io.device.phase = .running)
    (hrun : io.device.runState = .btldrRun) (hidle : io.device.i2cState = .idle)
    (hstream : host.stream = some image)
    (hfits : (padded image flashBlockSize).length ≤ MemType.size .data) :
    ((ioutilWriteFw host bus io).1 = .ok () →
        Written host io.device.mem image (ioutilWriteFw host bus io).2.device.mem) ∧
      (host.Works image → (∀ n, bus.ret n = 0) → (ioutilWriteFw host bus io).1 = .ok ()) := by
  have hstandby := Bootloader.standby_of_reachable hreachable
  have hspec := ensures_writeFw (E := (¬host.Works image) ∨ ∃ n, bus.ret n ≠ 0)
    (fun n hret => .inr ⟨n, hret⟩) .inl hstream hfits io
    ⟨hstandby.waiting hphase hrun hidle, rfl, hstandby.flagged⟩
  refine ⟨fun hok => (hspec.ok hok).2, fun hworks hret => ?_⟩
  obtain ⟨⟨⟩, hok⟩ := hspec.exists_ok (by
    rintro (hhost | ⟨n, hbus⟩)
    · exact hhost hworks
    · exact hbus (hret n))
  exact hok

theorem writeFw_written_three_bytes :
    let host : Host := ⟨some [0x82, 0x01, 0x02], 3, true, false, 7⟩
    (ioutilWriteFw host .plain ⟨.boot fun _ => 0, 0⟩).1 = .ok () ∧
      Written host (Bootloader.boot fun _ => 0).mem [0x82, 0x01, 0x02]
        (ioutilWriteFw host .plain ⟨.boot fun _ => 0, 0⟩).2.device.mem := by
  have hinit : (bootloader fun _ => 0).Reachable (.boot fun _ => 0) := .init
  obtain ⟨hwritten, hok⟩ := writeFw_written ⟨some [0x82, 0x01, 0x02], 3, true, false, 7⟩ .plain
    ⟨.boot fun _ => 0, 0⟩ hinit (by decide +kernel) (by decide +kernel)
    (by decide +kernel) rfl (by decide +kernel)
  have hreturns := hok ⟨rfl, rfl⟩ fun _ => rfl
  exact ⟨hreturns, hwritten hreturns⟩

end Ioutil

end BeepMusic.Iomcu
