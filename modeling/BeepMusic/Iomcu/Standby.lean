import BeepMusic.Iomcu.Access

/-!
What a master can rely on whenever the bus is idle, whatever has happened before: the
buffer has its size, the next message begins at its start, and the status of the
application shows the flag of the record.
-/

namespace BeepMusic.Iomcu

open Lib List

/-- The flag of the record; there is none without a valid record. -/
def autobootFlag (mem : Memory) : UInt8 :=
  if recordValid (appRecord mem) then (appRecord mem).getD 12 0 &&& autobootMask else 0

/-- A status shows the flag of the record, or no flag. -/
def Flagged (mem : Memory) (appStatus : UInt8) : Prop :=
  appStatus &&& autobootMask = 0 ∨ appStatus &&& autobootMask = autobootFlag mem

theorem or_and_mask (a b mask : UInt8) : (a ||| b) &&& mask = (a &&& mask) ||| (b &&& mask) := by
  apply UInt8.toBitVec_inj.mp
  ext i
  simp [Bool.and_or_distrib_right]

theorem status_readAppInfo {mem : Memory} {appStatus : UInt8} (h : Flagged mem appStatus) :
    (readAppInfo mem appStatus).status &&& autobootMask = autobootFlag mem := by
  simp only [readAppInfo, autobootFlag, Flagged] at h ⊢
  split
  · rename_i hvalid
    rw [if_pos hvalid] at h
    rw [or_and_mask]
    rcases h with hzero | hflag
    · rw [hzero, UInt8.zero_or]
    · rw [hflag, UInt8.or_self]
  · rfl

theorem flagged_updateAppStatus (mem : Memory) (buf : Bytes) :
    Flagged mem (updateAppStatus mem buf).1 := by
  have hna : Flagged mem readyNa := .inl (by decide)
  have hresv : Flagged mem readyResv := .inl (by decide)
  have hflag : ∀ code : UInt8, code &&& autobootMask = 0 →
      Flagged mem (((readAppInfo mem readyResv).status &&& autobootMask) ||| code) := by
    intro code hcode
    refine .inr ?_
    rw [or_and_mask, hcode, UInt8.or_zero, UInt8.and_assoc, UInt8.and_self,
      status_readAppInfo hresv]
  simp only [updateAppStatus]
  split_ifs
  · exact hna
  · exact hna
  · exact hflag _ (by decide)
  · exact hflag _ (by decide)
  · exact hflag _ (by decide)

theorem autobootFlag_congr {mem mem' : Memory}
    (h : ∀ a, a < MemType.base .eeprom → mem' a = mem a) :
    autobootFlag mem' = autobootFlag mem := by
  have hrecord : appRecord mem' = appRecord mem := by
    apply Memory.read_congr
    intro a _ hlt
    exact h a (Nat.lt_of_lt_of_le hlt (by decide))
  rw [autobootFlag, hrecord, autobootFlag]

namespace Bootloader

variable {s s' : Bootloader}

/-- The buffer has its size, and a message begins at its start. -/
structure Tidy (s : Bootloader) : Prop where
  i2cBuf : s.i2cBuf.length = i2cBufSize + 2
  i2cOffset : s.i2cState ≠ .dataIn → s.i2cState ≠ .dataOut → s.i2cOffset = 0

theorem tidy_i2cStateReset (hbuf : s.i2cBuf.length = i2cBufSize + 2)
    (hidle : s.i2cState = .idle → s.i2cOffset = 0) : s.i2cStateReset.Tidy := by
  rw [i2cStateReset]
  split
  · rename_i hstate
    exact ⟨hbuf, fun _ _ => hidle hstate⟩
  · exact ⟨hbuf, fun _ _ => rfl⟩

theorem Tidy.reset (h : s.Tidy) : s.i2cStateReset.Tidy := by
  refine tidy_i2cStateReset h.i2cBuf fun hidle => h.i2cOffset ?_ ?_
  · simp [hidle]
  · simp [hidle]

theorem length_cmdDataOut (h : s.i2cBuf.length = i2cBufSize + 2) (cmd : UInt8) :
    (s.cmdDataOut cmd).i2cBuf.length = i2cBufSize + 2 := by
  have hanswer : ∀ bytes : Bytes, bytes.length ≤ i2cBufSize + 2 →
      (fill s.i2cBuf bytes).length = i2cBufSize + 2 := by
    intro bytes hle
    rw [length_fill (h ▸ hle), h]
  have herror : (fill s.i2cBuf (replicate i2cBufSize 0xff)).length = i2cBufSize + 2 :=
    hanswer _ (by rw [length_replicate]; decide)
  rw [cmdDataOut]
  cases readReg cmd with
  | none => exact herror
  | some reg =>
    cases reg with
    | btldrInfo | flashInfo => exact hanswer _ (by decide)
    | status =>
      dsimp only
      split <;> exact hanswer _ (by decide : 1 ≤ i2cBufSize + 2)
    | devInfo =>
      refine hanswer _ ?_
      simp [devInfo, length_bytesOf, length_read, optionBytes, i2cBufSize]
    | appInfo =>
      refine hanswer _ ?_
      rw [length_appInfoBytes]
      decide
    | read m =>
      dsimp only
      split
      · exact h
      · exact herror

theorem bus_cmdDataIn (s : Bootloader) (cmd : UInt8) :
    (s.cmdDataIn cmd).i2cBuf = s.i2cBuf ∧ (s.cmdDataIn cmd).i2cState = s.i2cState := by
  have hkey : ∀ (s : Bootloader) (act : Bootloader → Bootloader),
      ((act s).i2cBuf = s.i2cBuf ∧ (act s).i2cState = s.i2cState) →
      (s.withKey act).i2cBuf = s.i2cBuf ∧ (s.withKey act).i2cState = s.i2cState := by
    intro s act hact
    rw [withKey]
    split_ifs
    · exact hact
    · exact ⟨rfl, rfl⟩
    · exact ⟨rfl, rfl⟩
  rw [cmdDataIn]
  cases writeReg cmd with
  | none => exact ⟨rfl, rfl⟩
  | some reg =>
    cases reg with
    | start =>
      refine hkey _ _ ?_
      rw [startReg]
      split
      · exact ⟨rfl, rfl⟩
      · split <;> exact ⟨rfl, rfl⟩
      · exact ⟨rfl, rfl⟩
    | wait =>
      refine hkey _ _ ?_
      rw [waitReg]
      split <;> exact ⟨rfl, rfl⟩
    | appInfoSet =>
      dsimp only
      split <;> exact ⟨rfl, rfl⟩
    | readAddr m | writeAddr m =>
      simp only [setAddr]
      split <;> exact ⟨rfl, rfl⟩
    | write m =>
      dsimp only
      split_ifs <;> exact ⟨rfl, rfl⟩

theorem Tidy.op (h : s.Tidy) (o : BusOp) : (s.op o).Tidy := by
  cases o with
  | byteIn byte =>
    simp only [Bootloader.op, i2cByteIn]
    split
    · rename_i hstate
      split
      · exact h.reset
      · exact ⟨h.i2cBuf, fun _ _ => h.i2cOffset (by simp [hstate]) (by simp [hstate])⟩
    · rename_i hstate
      split
      · exact ⟨length_set.trans h.i2cBuf, fun hne _ => absurd hstate hne⟩
      · exact ⟨h.i2cBuf, fun hne _ => absurd hstate hne⟩
    all_goals exact h.reset
  | stop stray =>
    simp only [Bootloader.op, i2cMessageStop]
    split
    · rename_i hstate
      split
      · obtain ⟨hbuf, hsame⟩ := bus_cmdDataIn
          { s with i2cOffset := (s.i2cOffset + 255) % 256 } s.i2cReg
        refine tidy_i2cStateReset ((congrArg List.length hbuf).trans h.i2cBuf) fun hidle => ?_
        rw [hsame] at hidle
        cases hstate.symm.trans hidle
      · refine tidy_i2cStateReset h.i2cBuf fun hidle => ?_
        cases hstate.symm.trans hidle
    all_goals exact h.reset
  | start tra =>
    simp only [Bootloader.op, i2cMessageStart]
    split
    · rename_i hstate
      split
      · exact h
      · exact ⟨h.i2cBuf, fun _ _ => h.i2cOffset (by simp [hstate]) (by simp [hstate])⟩
    · split
      · exact ⟨length_set.trans (length_cmdDataOut h.i2cBuf _), fun _ hne => absurd rfl hne⟩
      · exact h.reset
    all_goals exact h.reset
  | byteOut =>
    simp only [Bootloader.op, i2cByteOut]
    split
    · rename_i hstate
      split <;> exact ⟨h.i2cBuf, fun _ hne => absurd hstate hne⟩
    all_goals exact h.reset

theorem Tidy.i2cProcEvent (h : s.Tidy) (e : I2cEvent) : (s.i2cProcEvent e).Tidy :=
  i2cProcEvent_kept h e fun _ o h => h.op o

theorem Tidy.flashRun (h : s.Tidy) : s.flashRun.Tidy := by
  obtain ⟨-, -, hstate, hoffset⟩ := frame_flashRun s
  refine ⟨length_flashRun h.i2cBuf, ?_⟩
  rw [hstate, hoffset]
  exact h.i2cOffset

/-- A flash access leaves the record alone, unless it writes it. -/
theorem flagged_flashRdwrRun (hprepared : s.Prepared) (h : Flagged s.mem s.appStatus) :
    Flagged s.flashRdwrRun.mem s.flashRdwrRun.appStatus := by
  rw [flashRdwrRun]
  split
  · exact h
  · rename_i m hstate
    obtain ⟨hbase, hsize⟩ := hprepared.addr m (by rw [hstate]; rfl)
    have hflag : autobootFlag (flashProgramblock s.mem
        ((s.flashAddr - m.start) / flashBlockSize) m s.i2cBuf) = autobootFlag s.mem := by
      apply autobootFlag_congr
      intro a ha
      refine flashProgramblock_of_ne hbase hsize (.inl (Nat.lt_of_lt_of_le ha ?_))
      cases m <;> decide
    have hstatus : (if m = .data then (s.appStatus &&& ~~~readyMask) ||| readyNa
        else s.appStatus) &&& autobootMask = s.appStatus &&& autobootMask := by
      split
      · have hmask : ~~~readyMask &&& autobootMask = autobootMask := by decide
        have hzero : readyNa &&& autobootMask = 0 := by decide
        rw [or_and_mask, hzero, UInt8.or_zero, UInt8.and_assoc, hmask]
      · rfl
    simp only [Flagged, hflag, hstatus]
    exact h
  · exact h

theorem flagged_flashRun (hprepared : s.Prepared) (h : Flagged s.mem s.appStatus) :
    Flagged s.flashRun.mem s.flashRun.appStatus := by
  rw [flashRun]
  split
  · split
    · exact flagged_flashRdwrRun hprepared h
    · exact flagged_flashRdwrRun hprepared h
    · exact flagged_updateAppStatus _ _
    · exact h
  · exact h

/-- What holds of the bootloader at all times. -/
structure Standby (s : Bootloader) : Prop where
  guarded : s.Guarded
  tidy : s.Tidy
  flagged : Flagged s.mem s.appStatus

theorem standby_boot (mem : Memory) : (boot mem).Standby := by
  refine ⟨guarded_boot mem, ⟨?_, fun _ _ => rfl⟩, flagged_updateAppStatus mem _⟩
  show (updateAppStatus mem (replicate (i2cBufSize + 2) 0)).2.length = _
  rw [length_updateAppStatus mem (by rw [length_replicate]; decide), length_replicate]

theorem flagged_i2cProcEvent (h : Flagged s.mem s.appStatus) (e : I2cEvent) :
    Flagged (s.i2cProcEvent e).mem (s.i2cProcEvent e).appStatus := by
  have hserves := serves_i2cProcEvent s e
  rw [hserves.mem, hserves.appStatus]
  exact h

theorem tidy_startEvent (htidy : s.Tidy) (hflagged : Flagged s.mem s.appStatus) (e : I2cEvent) :
    (s.startEvent e).Tidy ∧ Flagged (s.startEvent e).mem (s.startEvent e).appStatus := by
  obtain ⟨hbuf, hoffset⟩ := htidy.i2cProcEvent e
  have hflag := flagged_i2cProcEvent hflagged e
  rw [startEvent]
  split <;> exact ⟨⟨hbuf, hoffset⟩, hflag⟩

theorem tidy_runEvent (hprepared : s.Prepared) (htidy : s.Tidy)
    (hflagged : Flagged s.mem s.appStatus) (e : I2cEvent) :
    (s.runEvent e).Tidy ∧ Flagged (s.runEvent e).mem (s.runEvent e).appStatus := by
  obtain ⟨hbuf, hoffset⟩ := (htidy.i2cProcEvent e).flashRun
  have hflag := flagged_flashRun ((serves_i2cProcEvent s e).prepared hprepared)
    (flagged_i2cProcEvent hflagged e)
  rw [runEvent]
  split <;> exact ⟨⟨hbuf, hoffset⟩, hflag⟩

theorem Standby.step {e : BootloaderEvent} (h : s.Standby) (hstep : s.step e = some s') :
    s'.Standby := by
  have hguarded := h.guarded.step hstep
  cases e with
  | i2c e =>
    simp only [Bootloader.step] at hstep
    split at hstep
    · cases hstep
      obtain ⟨htidy, hflagged⟩ := tidy_startEvent h.tidy h.flagged e
      exact ⟨hguarded, htidy, hflagged⟩
    · cases hstep
      obtain ⟨htidy, hflagged⟩ :=
        tidy_runEvent h.guarded.sound.prepared h.tidy h.flagged e
      exact ⟨hguarded, htidy, hflagged⟩
    · cases hstep
  | timeout =>
    simp only [Bootloader.step] at hstep
    split at hstep
    · cases hstep
      refine ⟨hguarded, ?_, ?_⟩
      · rw [startTimeout]
        split <;> exact ⟨h.tidy.i2cBuf, h.tidy.i2cOffset⟩
      · rw [startTimeout]
        split <;> exact h.flagged
    · cases hstep
      exact h
    · cases hstep
  | reset mem =>
    cases hstep
    exact standby_boot mem

theorem standby_of_reachable {mem : Memory} (h : (bootloader mem).Reachable s) : s.Standby :=
  h.invariant (standby_boot mem) fun _ _ _ hs hstep => hs.step hstep

/-- When the bus is idle, a running bootloader waits for the next access. -/
theorem Standby.waiting (h : s.Standby) (hphase : s.phase = .running)
    (hrun : s.runState = .btldrRun) (hidle : s.i2cState = .idle) : s.Waiting :=
  ⟨hphase, hrun, hidle, h.tidy.i2cOffset (by simp [hidle]) (by simp [hidle]), h.tidy.i2cBuf⟩

end Bootloader

end BeepMusic.Iomcu
