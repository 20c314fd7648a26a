import Mathlib.Data.List.GetD
import BeepMusic.Iomcu.Integrity

/-!
Register accesses of a master, as the bootloader sees them. An access is a sequence of
operations on the I2C slave; the hardware may report several of them in one event. How it
does so makes no difference: the main loop touches the flash only when the bus is idle,
and within an access it is not.
-/

namespace BeepMusic.Iomcu

open Lib List

namespace Bootloader

theorem runOps_append (s : Bootloader) (ops ops' : List BusOp) :
    s.runOps (ops ++ ops') = (s.runOps ops).runOps ops' := foldl_append

/-- The byte that `i2c_byte_out` returns. -/
def outByte (s : Bootloader) : UInt8 :=
  if s.i2cState = .dataOut ∧ s.i2cOutRemaining ≠ 0 ∧ s.i2cOffset < i2cBufSize then
    s.i2cBuf.getD s.i2cOffset 0
  else 0x55

/-- The bytes that go to the master. -/
def sentBytes : Bootloader → List BusOp → Bytes
  | _, [] => []
  | s, .byteOut :: ops => s.outByte :: sentBytes s.i2cByteOut ops
  | s, o :: ops => sentBytes (s.op o) ops

/-- Events of the main loop, with the bytes that go to the master. -/
def transfer : Bootloader → List I2cEvent → Bytes × Bootloader
  | s, [] => ([], s)
  | s, e :: es =>
    (s.sentBytes e.ops ++ (transfer (s.runEvent e) es).1, (transfer (s.runEvent e) es).2)

theorem sentBytes_append (s : Bootloader) (ops ops' : List BusOp) :
    s.sentBytes (ops ++ ops') = s.sentBytes ops ++ (s.runOps ops).sentBytes ops' := by
  induction ops generalizing s with
  | nil => rfl
  | cons o ops ih =>
    cases o with
    | byteOut => exact congrArg (s.outByte :: ·) (ih s.i2cByteOut)
    | byteIn byte => exact ih (s.op (.byteIn byte))
    | stop stray => exact ih (s.op (.stop stray))
    | start tra => exact ih (s.op (.start tra))

/-- Between its operations the bus is not idle, and the bootloader runs. -/
def Busy : Bootloader → List BusOp → Prop
  | s, o :: o' :: ops =>
    (s.op o).i2cState ≠ .idle ∧ (s.op o).runState = .btldrRun ∧ Busy (s.op o) (o' :: ops)
  | _, _ => True

variable {s : Bootloader}

theorem Busy.append {ops ops' : List BusOp} (h : s.Busy (ops ++ ops')) (hops : ops ≠ [])
    (hops' : ops' ≠ []) :
    (s.runOps ops).i2cState ≠ .idle ∧ (s.runOps ops).runState = .btldrRun ∧
      (s.runOps ops).Busy ops' := by
  obtain ⟨o', rest, rfl⟩ := exists_cons_of_ne_nil hops'
  induction ops generalizing s with
  | nil => exact absurd rfl hops
  | cons o ops ih =>
    cases ops with
    | nil => exact h
    | cons o' ops => exact ih (cons_ne_nil _ _) h.2.2

theorem Busy.cons {o : BusOp} {ops : List BusOp} (hstate : (s.op o).i2cState ≠ .idle)
    (hrun : (s.op o).runState = .btldrRun) (h : (s.op o).Busy ops) : s.Busy (o :: ops) := by
  cases ops with
  | nil => trivial
  | cons o' ops => exact ⟨hstate, hrun, h⟩

theorem runEvent_eq {e : I2cEvent} (h : (s.runOps e.ops).runState = .btldrRun) :
    s.runEvent e = (s.runOps e.ops).flashRun := by
  have hrun : (s.runOps e.ops).flashRun.runState = .btldrRun := (frame_flashRun _).2.1.trans h
  simp [runEvent, i2cProcEvent_eq, if_pos (Or.inl hrun)]

theorem flashRun_busy (h : s.i2cState ≠ .idle) : s.flashRun = s := by
  rw [flashRun, if_neg h]

/-- However the operations are reported, the flash is touched at the end. -/
theorem transfer_eq {es : List I2cEvent} (hes : es ≠ []) (hops : ∀ e ∈ es, e.ops ≠ [])
    (hbusy : s.Busy (es.flatMap I2cEvent.ops))
    (hrun : (s.runOps (es.flatMap I2cEvent.ops)).runState = .btldrRun) :
    s.transfer es = (s.sentBytes (es.flatMap I2cEvent.ops),
      (s.runOps (es.flatMap I2cEvent.ops)).flashRun) := by
  induction es generalizing s with
  | nil => exact absurd rfl hes
  | cons e es ih =>
    have hfirst := hops e mem_cons_self
    cases es with
    | nil =>
      rw [flatMap_singleton] at hrun ⊢
      rw [transfer, transfer, runEvent_eq hrun, append_nil]
    | cons e' es =>
      have hrest : (e' :: es).flatMap I2cEvent.ops ≠ [] := by
        exact append_ne_nil_of_left_ne_nil (hops e' (by simp)) _
      rw [flatMap_cons] at hbusy hrun ⊢
      obtain ⟨hstate, hrunning, hbusy'⟩ := hbusy.append hfirst hrest
      rw [runOps_append] at hrun
      rw [transfer, runEvent_eq hrunning, flashRun_busy hstate,
        ih (cons_ne_nil _ _) (fun e he => hops e (mem_cons_of_mem _ he)) hbusy' hrun,
        sentBytes_append, runOps_append]

end Bootloader

/-- A write: the register, the data and a stop. -/
def writeOps (reg : UInt8) (data : Bytes) (stray : Bool) : List BusOp :=
  .start false :: .byteIn reg :: (data.map BusOp.byteIn ++ [.stop stray])

/-- A read: the register, another start, and bytes until the master does not acknowledge. -/
def readOps (reg : UInt8) (amount : ℕ) (stray : Bool) : List BusOp :=
  .start false :: .byteIn reg :: .start true :: (List.replicate amount .byteOut ++ [.stop stray])

namespace Bootloader

variable {s : Bootloader}

/-- The bootloader waits for the next access. -/
structure Waiting (s : Bootloader) : Prop where
  phase : s.phase = .running
  runState : s.runState = .btldrRun
  i2cState : s.i2cState = .idle
  i2cOffset : s.i2cOffset = 0
  i2cBuf : s.i2cBuf.length = i2cBufSize + 2

theorem take_set (buf : Bytes) (b : UInt8) {k : ℕ} (h : k < buf.length) :
    (buf.set k b).take (k + 1) = buf.take k ++ [b] := by
  have hlen : (buf.take k ++ [b]).length = k + 1 := by
    rw [length_append, length_take, length_singleton, Nat.min_eq_left (by omega)]
  rw [set_eq_take_append_cons_drop, if_pos h, ← singleton_append, ← append_assoc,
    take_left' hlen]

theorem overwrite_set (buf data : Bytes) (b : UInt8) {k : ℕ} (h : k < buf.length) :
    (buf.set k b).take (k + 1) ++ data ++ (buf.set k b).drop (k + 1 + data.length) =
      buf.take k ++ b :: data ++ buf.drop (k + (b :: data).length) := by
  rw [take_set buf b h, drop_set_of_lt (by omega), length_cons, Nat.add_right_comm k,
    Nat.add_assoc k, append_assoc (buf.take k), singleton_append]

theorem runOps_byteIn (data : Bytes) (hstate : s.i2cState = .dataIn)
    (hlen : s.i2cOffset + data.length ≤ i2cBufSize) (hbuf : s.i2cBuf.length = i2cBufSize + 2) :
    s.runOps (data.map BusOp.byteIn) =
      { s with
        i2cBuf := s.i2cBuf.take s.i2cOffset ++ data ++ s.i2cBuf.drop (s.i2cOffset + data.length)
        i2cOffset := s.i2cOffset + data.length } := by
  induction data generalizing s with
  | nil =>
    rw [length_nil, Nat.add_zero, append_nil, take_append_drop]
    rfl
  | cons b data ih =>
    rw [length_cons] at hlen
    have hlt : s.i2cOffset < i2cBufSize := by omega
    have hfirst : s.op (.byteIn b) =
        { s with i2cBuf := s.i2cBuf.set s.i2cOffset b, i2cOffset := s.i2cOffset + 1 } := by
      simp [op, i2cByteIn, hstate, if_pos hlt]
    have hrest := ih (s := { s with
        i2cBuf := s.i2cBuf.set s.i2cOffset b
        i2cOffset := s.i2cOffset + 1 })
      hstate (show s.i2cOffset + 1 + data.length ≤ i2cBufSize by omega)
      (length_set.trans hbuf)
    simp only [overwrite_set s.i2cBuf data b (by omega : s.i2cOffset < s.i2cBuf.length)] at hrest
    show (s.op (.byteIn b)).runOps (data.map BusOp.byteIn) = _
    rw [hfirst, hrest, length_cons, Nat.add_assoc s.i2cOffset 1, Nat.add_comm 1]

/-- A message is in the buffer, and its register is selected. -/
def loaded (s : Bootloader) (reg : UInt8) (data : Bytes) (i2cOffset : ℕ) : Bootloader :=
  { s with
    i2cState := .dataIn
    i2cReg := reg
    i2cBuf := fill s.i2cBuf (data ++ [i2cMessageChecksum data reg])
    i2cOffset := i2cOffset }

variable {reg : UInt8} {data : Bytes}

theorem runOps_select (h : s.Waiting) (hreg : reg ≠ regResv) :
    s.runOps [.start false, .byteIn reg] =
      { s with
        i2cReg := reg
        i2cState := if reg &&& regRwMask = 0 then .outStartWait else .dataIn } := by
  simp [runOps, op, i2cMessageStart, h.i2cState, i2cByteIn, if_neg hreg, selectReg, h.runState]

/-- A message whose checksum is right passes the check, which takes the checksum off. -/
theorem op_stop (s : Bootloader) (reg : UInt8) (hlen : data.length < i2cBufSize) (stray : Bool) :
    (s.loaded reg data (data.length + 1)).op (.stop stray) =
      ((s.loaded reg data data.length).cmdDataIn reg).i2cStateReset := by
  have htake : (fill s.i2cBuf (data ++ [i2cMessageChecksum data reg])).take data.length = data := by
    rw [fill, append_assoc, take_left]
  have hchecksum : (fill s.i2cBuf (data ++ [i2cMessageChecksum data reg])).getD data.length 0 =
      i2cMessageChecksum data reg := by
    rw [fill, append_assoc, getD_append_right _ _ _ _ (Nat.le_refl _), Nat.sub_self]
    rfl
  have hverified : (s.loaded reg data (data.length + 1)).verified stray = true := by
    simp only [verified, loaded, Nat.add_one_ne_zero, if_false, Nat.add_sub_cancel, htake,
      hchecksum, decide_true]
  have hoffset : (data.length + 1 + 255) % 256 = data.length := by
    rw [i2cBufSize] at hlen
    omega
  have hstate : (s.loaded reg data (data.length + 1)).i2cState = .dataIn := rfl
  simp only [op, i2cMessageStop, hstate, if_pos hverified]
  simp [loaded, hoffset]

theorem runOps_message (h : s.Waiting) (hreg : reg ≠ regResv) (hwrite : reg &&& regRwMask ≠ 0)
    (hlen : data.length < i2cBufSize) :
    s.runOps ([.start false, .byteIn reg] ++
        (data ++ [i2cMessageChecksum data reg]).map BusOp.byteIn) =
      s.loaded reg data (data.length + 1) := by
  have hlength : (data ++ [i2cMessageChecksum data reg]).length = data.length + 1 := by
    rw [length_append, length_singleton]
  have hbytes := runOps_byteIn (s := { s with i2cReg := reg, i2cState := .dataIn })
    (data ++ [i2cMessageChecksum data reg]) rfl
    (show s.i2cOffset + _ ≤ _ by rw [h.i2cOffset, hlength]; omega) h.i2cBuf
  rw [runOps_append, runOps_select h hreg, if_neg hwrite, hbytes]
  simp [h.i2cOffset, hlength, loaded, fill]

theorem runOps_write (h : s.Waiting) (hreg : reg ≠ regResv) (hwrite : reg &&& regRwMask ≠ 0)
    (hlen : data.length < i2cBufSize) (stray : Bool) :
    s.runOps (writeOps reg (data ++ [i2cMessageChecksum data reg]) stray) =
      ((s.loaded reg data data.length).cmdDataIn reg).i2cStateReset := by
  show s.runOps ([.start false, .byteIn reg] ++ _ ++ [.stop stray]) = _
  rw [runOps_append, runOps_message h hreg hwrite hlen]
  exact op_stop s reg hlen stray

theorem busy_byteIn (data : Bytes) (stray : Bool) (hstate : s.i2cState = .dataIn)
    (hrun : s.runState = .btldrRun) : s.Busy (data.map BusOp.byteIn ++ [.stop stray]) := by
  induction data generalizing s with
  | nil => trivial
  | cons b data ih =>
    have hop : (s.op (.byteIn b)).i2cState = .dataIn ∧
        (s.op (.byteIn b)).runState = .btldrRun := by
      simp only [op, i2cByteIn, hstate]
      split <;> exact ⟨rfl, hrun⟩
    exact .cons (by simp [hop.1]) hop.2 (ih hop.1 hop.2)

theorem busy_byteOut (amount : ℕ) (stray : Bool) (hstate : s.i2cState = .dataOut)
    (hrun : s.runState = .btldrRun) :
    s.Busy (List.replicate amount .byteOut ++ [.stop stray]) := by
  induction amount generalizing s with
  | zero => trivial
  | succ amount ih =>
    have hop : (s.op .byteOut).i2cState = .dataOut ∧ (s.op .byteOut).runState = .btldrRun := by
      simp only [op, i2cByteOut, hstate]
      split <;> exact ⟨rfl, hrun⟩
    exact .cons (by simp [hop.1]) hop.2 (ih hop.1 hop.2)

theorem busy_write (h : s.Waiting) (hreg : reg ≠ regResv) (hwrite : reg &&& regRwMask ≠ 0)
    (data : Bytes) (stray : Bool) : s.Busy (writeOps reg data stray) := by
  have hselect := runOps_select h hreg
  rw [if_neg hwrite] at hselect
  have hstart : s.op (.start false) = { s with i2cState := .regWait } := by
    simp [op, i2cMessageStart, h.i2cState]
  have hreg : (s.op (.start false)).op (.byteIn reg) =
      { s with i2cReg := reg, i2cState := .dataIn } := hselect
  refine .cons (by simp [hstart]) (by simp [hstart, h.runState]) (.cons ?_ ?_ ?_)
  · simp [hreg]
  · simp [hreg, h.runState]
  · rw [hreg]
    exact busy_byteIn data stray rfl h.runState

theorem runOps_byteOut (amount : ℕ) (hstate : s.i2cState = .dataOut)
    (hremaining : amount ≤ s.i2cOutRemaining) (hoffset : s.i2cOffset + amount ≤ i2cBufSize)
    (hbuf : s.i2cBuf.length = i2cBufSize + 2) :
    s.runOps (List.replicate amount .byteOut) =
        { s with
          i2cOffset := s.i2cOffset + amount
          i2cOutRemaining := s.i2cOutRemaining - amount } ∧
      s.sentBytes (List.replicate amount .byteOut) =
        (s.i2cBuf.drop s.i2cOffset).take amount := by
  induction amount generalizing s with
  | zero => exact ⟨rfl, rfl⟩
  | succ amount ih =>
    have hsend : s.i2cOutRemaining ≠ 0 ∧ s.i2cOffset < i2cBufSize := by omega
    have hop : s.op .byteOut =
        { s with i2cOffset := s.i2cOffset + 1, i2cOutRemaining := s.i2cOutRemaining - 1 } := by
      simp [op, i2cByteOut, hstate, if_pos hsend]
    have hbyte : s.outByte = s.i2cBuf.getD s.i2cOffset 0 := if_pos ⟨hstate, hsend⟩
    obtain ⟨hstep, hbytes⟩ := ih (s := s.op .byteOut) (by rw [hop]; exact hstate)
      (by rw [hop]; simp only; omega) (by rw [hop]; simp only; omega) (by rw [hop]; exact hbuf)
    rw [hop] at hstep hbytes
    constructor
    · show (s.op .byteOut).runOps (replicate amount .byteOut) = _
      rw [hop, hstep]
      simp only [Nat.sub_sub, Nat.add_assoc, Nat.add_comm 1]
    · show s.outByte :: (s.op .byteOut).sentBytes (replicate amount .byteOut) = _
      have hlt : s.i2cOffset < s.i2cBuf.length := by omega
      rw [hop, hbytes, hbyte, drop_eq_getElem_cons hlt, take_succ_cons,
        getD_eq_getElem _ _ hlt]

/-- A register is selected for reading. -/
def selected (s : Bootloader) (reg : UInt8) : Bootloader :=
  { s with i2cReg := reg, i2cState := .outStartWait }

/-- The bytes that a read command leaves for the master. -/
structure Answers (s : Bootloader) (reg : UInt8) (bytes : Bytes) : Prop where
  i2cOffset : ((s.selected reg).cmdDataOut reg).i2cOffset = 0
  remaining : ((s.selected reg).cmdDataOut reg).i2cOutRemaining = bytes.length
  i2cBuf : ((s.selected reg).cmdDataOut reg).i2cBuf.take bytes.length = bytes
  length : ((s.selected reg).cmdDataOut reg).i2cBuf.length = i2cBufSize + 2
  fits : bytes.length + 2 ≤ i2cBufSize

/-- What is left of an access when the bus is idle again. -/
def released (s : Bootloader) : Bootloader :=
  { s with i2cState := .idle, i2cOffset := 0, i2cOutRemaining := 0, i2cReg := regResv }

theorem ne_regResv_of_read (hread : reg &&& regRwMask = 0) : reg ≠ regResv := by
  rintro rfl
  exact absurd hread (by decide)

theorem frame_cmdDataOut (s : Bootloader) (cmd : UInt8) :
    (s.cmdDataOut cmd).core = s.core ∧ (s.cmdDataOut cmd).i2cReg = s.i2cReg ∧
      (s.cmdDataOut cmd).flashAddr = s.flashAddr := by
  rw [cmdDataOut]
  cases readReg cmd with
  | none => exact ⟨rfl, rfl, rfl⟩
  | some reg =>
    cases reg with
    | btldrInfo | devInfo | flashInfo | appInfo => exact ⟨rfl, rfl, rfl⟩
    | status | read =>
      dsimp only
      split <;> exact ⟨rfl, rfl, rfl⟩

theorem take_sendAnswer {bytes : Bytes} (h : s.Answers reg bytes) :
    (s.selected reg).sendAnswer.i2cBuf.take (bytes.length + 1) =
      bytes ++ [i2cMessageChecksum bytes reg] := by
  have hbytes : field ((s.selected reg).cmdDataOut reg).i2cBuf 0 bytes.length = bytes := h.i2cBuf
  have hreg : ((s.selected reg).cmdDataOut reg).i2cReg = reg := (frame_cmdDataOut _ reg).2.1
  have hbuf : (s.selected reg).sendAnswer.i2cBuf = ((s.selected reg).cmdDataOut reg).i2cBuf.set
      bytes.length (i2cMessageChecksum bytes reg) := by
    have hselected : (s.selected reg).i2cReg = reg := rfl
    simp [sendAnswer, hselected, h.i2cOffset, h.remaining, hbytes, hreg]
  rw [hbuf, take_set _ _ (by rw [h.length]; have := h.fits; omega), h.i2cBuf]

theorem runOps_read (h : s.Waiting) (hread : reg &&& regRwMask = 0) {bytes : Bytes}
    (hanswers : s.Answers reg bytes) {amount : ℕ} (hlow : bytes.length + 1 ≤ amount)
    (hhigh : amount ≤ bytes.length + 2) (stray : Bool) :
    (s.sentBytes (readOps reg amount stray)).take (bytes.length + 1) =
        bytes ++ [i2cMessageChecksum bytes reg] ∧
      s.runOps (readOps reg amount stray) = (s.selected reg).sendAnswer.released ∧
      s.Busy (readOps reg amount stray) := by
  have hselect := runOps_select h (ne_regResv_of_read hread)
  rw [if_pos hread] at hselect
  have hstart : s.op (.start false) = { s with i2cState := .regWait } := by
    simp [op, i2cMessageStart, h.i2cState]
  have hreg : (s.op (.start false)).op (.byteIn reg) = s.selected reg := hselect
  have hanswer : (s.selected reg).op (.start true) = (s.selected reg).sendAnswer := rfl
  have hrun : (s.selected reg).sendAnswer.runState = .btldrRun :=
    (congrArg Core.runState (frame_cmdDataOut (s.selected reg) reg).1).trans h.runState
  have hbuf : (s.selected reg).sendAnswer.i2cBuf.length = i2cBufSize + 2 :=
    length_set.trans hanswers.length
  have hremaining : (s.selected reg).sendAnswer.i2cOutRemaining = bytes.length + 2 :=
    congrArg (· + 2) hanswers.remaining
  have hoffset : (s.selected reg).sendAnswer.i2cOffset = 0 := hanswers.i2cOffset
  have hfits := hanswers.fits
  obtain ⟨hout, hsent⟩ := runOps_byteOut (s := (s.selected reg).sendAnswer) amount rfl
    (by omega) (by omega) hbuf
  have hops : readOps reg amount stray =
      [.start false, .byteIn reg, .start true] ++ (replicate amount .byteOut ++
        [.stop stray]) := rfl
  have hbegin : s.runOps [.start false, .byteIn reg, .start true] =
      (s.selected reg).sendAnswer := by
    show ((s.op (.start false)).op (.byteIn reg)).op (.start true) = _
    rw [hreg, hanswer]
  refine ⟨?_, ?_, ?_⟩
  · have hnone : s.sentBytes [.start false, .byteIn reg, .start true] = [] := rfl
    have hstop : ∀ s : Bootloader, s.sentBytes [.stop stray] = [] := fun _ => rfl
    rw [hops, sentBytes_append, hnone, hbegin, nil_append, sentBytes_append, hsent, hstop,
      append_nil, hoffset, drop_zero, take_take, Nat.min_eq_left hlow,
      take_sendAnswer hanswers]
  · rw [hops, runOps_append, hbegin, runOps_append, hout]
    rfl
  · refine .cons (by simp [hstart]) (by simp [hstart, h.runState]) (.cons ?_ ?_ (.cons ?_ ?_ ?_))
    · simp [hreg, selected]
    · simp [hreg, selected, h.runState]
    · simp [hreg, hanswer, sendAnswer]
    · rw [hreg, hanswer]
      exact hrun
    · rw [hreg, hanswer]
      exact busy_byteOut amount stray rfl hrun

end Bootloader

end BeepMusic.Iomcu
