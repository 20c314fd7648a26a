import BeepMusic.Iomcu.Integrity

/-!
Where the bootloader writes. `flash_programblock` is called in two places of the main loop,
with a block of an address that has been checked and with the block of the record. A reset
may come at any time, and what is in memory then is not the work of the bootloader alone,
so the code of the bootloader is followed through runs whose resets find it unchanged.
-/

namespace BeepMusic.Iomcu

open Lib

/-- The blocks that may be programmed: those of the data range and of the user EEPROM, and
the block of the record. -/
def Confined (m : MemType) (block : ℕ) : Prop :=
  m.Contains block ∨ m = .eeprom ∧ block = btldrEepromDataBlock

/-- The addresses of the bootloader's own code. -/
def IsBtldrCode (a : ℕ) : Prop := MemType.start .data ≤ a ∧ a < MemType.base .data

/-- The memory after at most one call of `flash_programblock`. -/
def programAt (mem : Memory) (buf : Bytes) : Option (MemType × ℕ) → Memory
  | some (m, block) => flashProgramblock mem block m buf
  | none => mem

/-- What is in memory after a reset has the same code. -/
def BootloaderEvent.SparesCode (code : Memory) : BootloaderEvent → Prop
  | .i2c _ | .timeout => True
  | .reset mem => ∀ a, IsBtldrCode a → mem a = code a

def BootloaderEvent.isReset : BootloaderEvent → Bool
  | .i2c _ | .timeout => false
  | .reset _ => true

/-- A block that may be programmed has nothing of the bootloader's code. -/
theorem Confined.code {mem : Memory} {m : MemType} {block a : ℕ} {buf : Bytes}
    (h : Confined m block) (ha : IsBtldrCode a) : flashProgramblock mem block m buf a = mem a := by
  apply flashProgramblock_of_not_mem
  obtain ⟨hstart, hbase⟩ := ha
  rcases h with ⟨hlow, hhigh⟩ | ⟨rfl, rfl⟩
  · cases m with
    | eeprom =>
      have hend : MemType.base .eeprom + MemType.size .eeprom ≤ MemType.start .data := by decide
      exact .inr (Nat.le_trans hhigh (Nat.le_trans hend hstart))
    | data => exact .inl (Nat.lt_of_lt_of_le hbase hlow)
  · have hend : MemType.start .eeprom + btldrEepromDataBlock * flashBlockSize + flashBlockSize ≤
        MemType.start .data := by decide
    exact .inr (Nat.le_trans hend hstart)

namespace Bootloader

variable {s s' : Bootloader}

/-- The memory and the block that the main loop passes to `flash_programblock`, if it calls
it. -/
def flashRunBlock (s : Bootloader) : Option (MemType × ℕ) :=
  if s.i2cState = .idle then
    match s.flashState with
    | .writeRun m => some (m, (s.flashAddr - m.start) / flashBlockSize)
    | .appInfoWriteRun => some (.eeprom, btldrEepromDataBlock)
    | _ => none
  else none

/-- The block that is programmed in a step. -/
def programmed (s : Bootloader) : BootloaderEvent → Option (MemType × ℕ)
  | .i2c e => if s.phase = .running then (s.i2cProcEvent e).flashRunBlock else none
  | .timeout | .reset _ => none

theorem mem_flashRun (s : Bootloader) :
    ∃ buf, s.flashRun.mem = programAt s.mem buf s.flashRunBlock := by
  rw [flashRun, flashRunBlock]
  by_cases hidle : s.i2cState = .idle
  · rw [if_pos hidle, if_pos hidle]
    cases hstate : s.flashState with
    | writeRun m => exact ⟨s.i2cBuf, by simp only [flashRdwrRun, hstate, programAt]⟩
    | appInfoWriteRun => exact ⟨_, rfl⟩
    | readRun m => exact ⟨[], by simp only [flashRdwrRun, hstate, programAt]⟩
    | _ => exact ⟨[], rfl⟩
  · rw [if_neg hidle, if_neg hidle]
    exact ⟨[], rfl⟩

theorem mem_startEvent (s : Bootloader) (e : I2cEvent) : (s.startEvent e).mem = s.mem := by
  rw [startEvent]
  split <;> exact (serves_i2cProcEvent s e).mem

theorem mem_runEvent (s : Bootloader) (e : I2cEvent) :
    (s.runEvent e).mem = (s.i2cProcEvent e).flashRun.mem := by
  rw [runEvent]
  split <;> rfl

theorem mem_startTimeout (s : Bootloader) (n : ℕ) : (s.startTimeout n).mem = s.mem := by
  rw [startTimeout]
  split <;> rfl

variable {e : BootloaderEvent}

/-- A step other than a reset writes the block that it programs, and nothing else. -/
theorem mem_step (hreset : e.isReset = false) (hstep : s.step e = some s') :
    ∃ buf, s'.mem = programAt s.mem buf (s.programmed e) := by
  cases e with
  | i2c e =>
    simp only [step] at hstep
    cases hphase : s.phase with
        try obtain rfl := Option.some.inj (by simpa only [hphase] using hstep)
    | starting n =>
      exact ⟨[], by simp [programmed, hphase, programAt, mem_startEvent]⟩
    | running =>
      obtain ⟨buf, hbuf⟩ := mem_flashRun (s.i2cProcEvent e)
      refine ⟨buf, ?_⟩
      rw [mem_runEvent, hbuf, (serves_i2cProcEvent s e).mem, programmed, if_pos hphase]
    | jumped => simp [hphase] at hstep
  | timeout =>
    simp only [step] at hstep
    cases hphase : s.phase with
        try obtain rfl := Option.some.inj (by simpa only [hphase] using hstep)
    | starting n =>
      exact ⟨[], mem_startTimeout s n⟩
    | running =>
      exact ⟨[], rfl⟩
    | jumped => simp [hphase] at hstep
  | reset mem => simp [BootloaderEvent.isReset] at hreset

/-- The address has been checked, so the block is inside its range. -/
theorem Prepared.confined {m : MemType} {block : ℕ} (h : s.Prepared)
    (hblock : s.flashRunBlock = some (m, block)) : Confined m block := by
  rw [flashRunBlock] at hblock
  split at hblock
  · split at hblock
    · rename_i m' hstate
      obtain ⟨rfl, rfl⟩ := Prod.mk.inj (Option.some.inj hblock)
      obtain ⟨hbase, hsize⟩ := h.addr m' (by rw [hstate]; rfl)
      exact .inl (contains_of_addr hbase hsize)
    · obtain ⟨rfl, rfl⟩ := Prod.mk.inj (Option.some.inj hblock)
      exact .inr ⟨rfl, rfl⟩
    · simp at hblock
  · simp at hblock

theorem Guarded.confined {m : MemType} {block : ℕ} (h : s.Guarded)
    (hblock : s.programmed e = some (m, block)) : Confined m block := by
  cases e with
  | i2c e =>
    rw [programmed] at hblock
    split at hblock
    · exact ((serves_i2cProcEvent s e).prepared h.sound.prepared).confined hblock
    · simp at hblock
  | timeout | reset mem => simp [programmed] at hblock

theorem Guarded.code_step {code : Memory} (h : s.Guarded) (hspares : e.SparesCode code)
    (hcode : ∀ a, IsBtldrCode a → s.mem a = code a) (hstep : s.step e = some s') :
    ∀ a, IsBtldrCode a → s'.mem a = code a := by
  intro a ha
  cases hreset : e.isReset with
  | true =>
    cases e with
    | reset mem =>
      cases hstep
      exact hspares a ha
    | i2c e | timeout => simp [BootloaderEvent.isReset] at hreset
  | false =>
    obtain ⟨buf, hmem⟩ := mem_step hreset hstep
    rw [hmem, ← hcode a ha]
    cases hblock : s.programmed e with
    | none => rfl
    | some p => exact (h.confined hblock).code ha

end Bootloader

/-- Whatever happens on the bus, each block that is programmed is in the data range, in the
user EEPROM or is the block of the record; nothing else is written, so the code of the
bootloader stays as it is for as long as the resets find it so. -/
theorem flash_confined (mem : Memory) (s : Bootloader) (h : (bootloader mem).Reachable s) :
    (∀ e m block, s.programmed e = some (m, block) → Confined m block) ∧
    (∀ e s', e.isReset = false → s.step e = some s' →
      ∃ buf, s'.mem = programAt s.mem buf (s.programmed e)) ∧
    (∀ es s', (∀ e ∈ es, e.SparesCode s.mem) → (bootloader mem).runFrom s es = some s' →
      ∀ a, IsBtldrCode a → s'.mem a = s.mem a) := by
  have hguarded : s.Guarded := h.invariant (Bootloader.guarded_boot mem)
    fun _ _ _ hs hstep => hs.step hstep
  refine ⟨fun e m block => hguarded.confined, fun e s' => Bootloader.mem_step, ?_⟩
  intro es s' hspares hrun
  -- the code is that of `s`, and the address that is prepared is a checked one
  have hinv := System.runFrom_invariant
    (I := fun t => t.Guarded ∧ ∀ a, IsBtldrCode a → t.mem a = s.mem a) hrun
    ⟨hguarded, fun _ _ => rfl⟩
    fun t e t' he ht hstep => ⟨ht.1.step hstep, ht.1.code_step (hspares e he) ht.2 hstep⟩
  exact hinv.2

/-- The events of a write up to the stop: a register, its data and the checksum. -/
def busWrite (reg : UInt8) (data : Bytes) : List BootloaderEvent :=
  .i2c ⟨none, false, false, some false, false, false, false⟩ ::
    (reg :: data ++ [Bootloader.i2cMessageChecksum data reg]).map fun byte =>
      .i2c ⟨some byte, false, false, none, false, false, false⟩

def busStop : BootloaderEvent := .i2c ⟨none, false, true, none, false, false, false⟩

/-- A record that is set to start an application of less than a block. -/
def smallApp : Memory := fun a =>
  if a = MemType.base .data then intOpcode
  else (recordBlock ⟨[0, 0, 0, 127], [0, 0], [0, 0], 0x80⟩).getD (a - 0x1000) 0

theorem flash_confined_app_info :
    ∃ s s', (bootloader smallApp).Reachable s ∧
      s.programmed busStop = some (.eeprom, btldrEepromDataBlock) ∧
      s.step busStop = some s' ∧ Confined .eeprom btldrEepromDataBlock ∧
      (∃ buf, s'.mem = flashProgramblock s.mem btldrEepromDataBlock .eeprom buf) ∧
      ∀ a, IsBtldrCode a → s'.mem a = s.mem a := by
  -- the start key first, since this memory has an application that is started by itself
  obtain ⟨s, hreach, hblock, hsome⟩ := System.exists_reachable (bootloader smallApp)
    (busWrite 0x80 startKey ++ [busStop] ++ busWrite 0x84 (List.replicate 9 0))
    (fun s => s.programmed busStop = some (.eeprom, btldrEepromDataBlock) ∧
      (s.step busStop).isSome)
    (by decide +kernel)
  obtain ⟨s', hstep⟩ := Option.isSome_iff_exists.mp hsome
  obtain ⟨hconfined, hmem, hcode⟩ := flash_confined smallApp s hreach
  have hwritten := hmem busStop s' rfl hstep
  rw [hblock] at hwritten
  refine ⟨s, s', hreach, hblock, hstep, hconfined _ _ _ hblock, hwritten, hcode [busStop] s' ?_ ?_⟩
  · intro e he
    obtain rfl := List.mem_singleton.mp he
    trivial
  · show (s.step busStop).bind some = some s'
    rw [hstep, Option.bind_some]

end BeepMusic.Iomcu
