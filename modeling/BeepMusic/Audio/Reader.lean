import BeepMusic.Audio.Discards
import BeepMusic.Audio.Sync
import BeepMusic.Lib.Calls

/-!
The decode thread takes from the stream buffer, with what each of its calls returns,
while other threads put data and commands in and lock the buffer for a sync.
-/

namespace BeepMusic.Audio

open Lib Option

/-- The calls of the decode thread. -/
inductive ReaderCall
  | dataDeq (min max : ℕ)
  | cmdDeq (size : ℕ)
  | discard (size : ℕ) (data : Bool)
  deriving DecidableEq

/-- What they return, with what is copied to the caller. -/
inductive ReaderAnswer
  | data (size : ℕ) (buf : Bytes) (streaming : Bool)
  | cmd (deqed : ℕ) (buf : Bytes)
  | discarded (size : ℕ)
  deriving DecidableEq

/-- What `streambuf_discard` returns. -/
def Syncer.discarded (a : Syncer) (size : ℕ) : ℕ :=
  if a.allowDiscard then (a.buf.fifo.discard size).1
  else
    let discarded : ℤ := a.buf.fifo.bytesUsed true - a.buf.fifo.bytesUsed false -
      a.discardDataOnThaw - a.discardCmdOnThaw
    let discarded := (discarded % Fifo2.sizeT).toNat
    if discarded < size then discarded else size

/-- The bytes that `streambuf_data_deq` copies. -/
def Streambuf.dataRead (s : Streambuf) (min max : ℕ) : Bytes :=
  if s.dataSize min max = 0 then [] else (s.fifo.deq (s.dataSize min max) false).2.1

/-- What `streambuf_cmd_deq` returns and copies. -/
def Streambuf.cmdRead (s : Streambuf) (size : ℕ) : ℕ × Bytes :=
  if s.cmdCnt ≠ 0 ∧ s.slotCnt s.dslot = 0 then
    ((s.fifo.deq size false).1, (s.fifo.deq size false).2.1)
  else (0, [])

/-- The variables of `streambuf.c`; the last fields are for statements. -/
structure Reader where
  sync : Syncer
  /-- The data that the decode thread has dequeued and not discarded. -/
  held : ℕ
  /-- Counters of another player have been received, and not yet restored. -/
  receiving : Bool

variable (r : Reader)

namespace Reader

def init (size : ℕ) : Reader := ⟨.init (.init size), 0, false⟩

def setBuf (buf : Streambuf) : Reader := { r with sync := { r.sync with buf := buf } }

/-- `none`: the call never returns. -/
def perform : ReaderCall → Option (ReaderAnswer × Reader)
  | .dataDeq min max =>
    let size := r.sync.buf.dataSize min max
    some (.data size (r.sync.buf.dataRead min max) r.sync.buf.streaming,
      { r.setBuf (r.sync.buf.dataDeq min max) with held := r.held + size })
  | .cmdDeq size =>
    let (deqed, buf) := r.sync.buf.cmdRead size
    some (.cmd deqed buf, r.setBuf (r.sync.buf.cmdDeq size))
  | .discard size data =>
    let discarded := r.sync.discarded size
    (r.sync.discard size data).map fun sync =>
      (.discarded discarded,
        { r with sync := sync, held := if data then r.held - discarded else r.held })

def lockState (lock : Bool) : Option Reader :=
  (r.sync.lockState lock).map fun sync => { r with sync := sync }

end Reader

def reads : Calls Reader ReaderCall ReaderAnswer where
  perform := Reader.perform

/-- All calls that change the variables. -/
inductive BufferCall
  | read (call : ReaderCall)
  | dataEnq (buf : Bytes)
  | cmdEnq (buf : Bytes)
  | lockState (lock : Bool)
  | flush
  | syncWriteState (buf : Bytes)
  | syncWriteData (buf : Bytes)
  | restoreState
  deriving DecidableEq

namespace Reader

def step : BufferCall → Option Reader
  | .read call => (r.perform call).map Prod.snd
  | .dataEnq buf => some (r.setBuf (r.sync.buf.dataEnq buf))
  | .cmdEnq buf => (r.sync.buf.cmdEnq buf).map r.setBuf
  | .lockState lock => r.lockState lock
  | .flush => some ⟨r.sync.flush, 0, false⟩
  -- the buffer is flushed first, and a packet of another size is not taken
  | .syncWriteState buf =>
    some ⟨(r.sync.syncWriteState buf).2, 0, decide (buf.length = Syncer.sbStateSize)⟩
  | .syncWriteData buf => some { r with sync := (r.sync.syncWriteData buf).2 }
  | .restoreState => some { r with sync := r.sync.restoreState, receiving := false }

/-- Data is discarded only if it has been dequeued. While counters are received nothing is
put in, and what is restored are counters that were received and can be those of a buffer. -/
def DiscardsHeld : BufferCall → Prop
  | .read (.discard size true) => size ≤ r.held
  | .dataEnq _ => r.receiving = false
  | .cmdEnq _ => r.receiving = false
  | .restoreState => r.receiving = true ∧ r.sync.restoreState.buf.Consistent
  | _ => True

instance (r : Reader) (call : BufferCall) : Decidable (r.DiscardsHeld call) :=
  match call with
  | .read (.discard _ true) => inferInstanceAs (Decidable (_ ≤ _))
  | .read (.discard _ false) | .read (.dataDeq _ _) | .read (.cmdDeq _) => isTrue trivial
  | .dataEnq _ | .cmdEnq _ => inferInstanceAs (Decidable (_ = _))
  | .lockState _ | .flush | .syncWriteState _ | .syncWriteData _ => isTrue trivial
  | .restoreState =>
    inferInstanceAs (Decidable (r.receiving = true ∧ r.sync.restoreState.buf.Consistent))

end Reader

/-- The buffer with the calls of all threads. -/
def reader (size : ℕ) : System Reader BufferCall where
  init := .init size
  step := Reader.step

/-! ### Discarding -/

namespace Syncer

variable {a : Syncer}

theorem discard_locked (h : a.allowDiscard = false) (size : ℕ) (data : Bool) :
    a.discard size data = some
      (if data then { a with discardDataOnThaw := a.discardDataOnThaw + a.discarded size }
      else { a with discardCmdOnThaw := a.discardCmdOnThaw + a.discarded size }) := by
  simp only [discard, discarded, h, Bool.false_eq_true, if_false]
  cases data <;> rfl

theorem discarded_le (a : Syncer) (size : ℕ) : a.discarded size ≤ size := by
  simp only [discarded]
  split_ifs with hallow hlt
  · exact a.buf.fifo.discard_le size
  · exact Nat.le_of_lt hlt
  · exact Nat.le_refl size

/-- The difference is never negative. -/
theorem discarded_locked (h : a.allowDiscard = false) (hok : a.buf.fifo.Ok)
    (hsize : a.buf.fifo.size ≤ Fifo2.sizeT)
    (hle : a.discardDataOnThaw + a.discardCmdOnThaw ≤ a.buf.fifo.staleLength) (size : ℕ) :
    a.discarded size =
      min size (a.buf.fifo.staleLength - (a.discardDataOnThaw + a.discardCmdOnThaw)) := by
  have hfresh := hok.le
  have hlt := Ring.dist_lt hok.sptr hok.wptr
  have hstale : a.buf.fifo.staleLength =
    Ring.dist a.buf.fifo.size a.buf.fifo.sptr a.buf.fifo.wptr -
      Ring.dist a.buf.fifo.size a.buf.fifo.rptr a.buf.fifo.wptr := rfl
  have hdiff : ((a.buf.fifo.bytesUsed true : ℤ) - a.buf.fifo.bytesUsed false -
      a.discardDataOnThaw - a.discardCmdOnThaw) =
      (a.buf.fifo.staleLength - (a.discardDataOnThaw + a.discardCmdOnThaw) : ℕ) := by
    rw [Fifo2.bytesUsed_eq, Fifo2.bytesUsed_eq]
    simp only [if_true, Bool.false_eq_true, if_false]
    omega
  have hmod : (((a.buf.fifo.staleLength - (a.discardDataOnThaw + a.discardCmdOnThaw) : ℕ) : ℤ) %
      Fifo2.sizeT).toNat =
      a.buf.fifo.staleLength - (a.discardDataOnThaw + a.discardCmdOnThaw) := by
    rw [Int.emod_eq_of_lt (by omega) (by omega), Int.toNat_natCast]
  simp only [discarded, h, Bool.false_eq_true, if_false, hdiff, hmod]
  split_ifs <;> omega

end Syncer

namespace Reader

variable {r u : Reader}

theorem perform_discard_locked (h : r.sync.allowDiscard = false) (size : ℕ) (data : Bool) :
    r.perform (.discard size data) = some (.discarded (r.sync.discarded size),
      { r with
        sync :=
          if data then
            { r.sync with discardDataOnThaw := r.sync.discardDataOnThaw + r.sync.discarded size }
          else { r.sync with discardCmdOnThaw := r.sync.discardCmdOnThaw + r.sync.discarded size }
        held := if data then r.held - r.sync.discarded size else r.held }) := by
  simp [perform, Syncer.discard_locked h]

theorem perform_discard_unlocked (h : r.sync.allowDiscard = true) (size : ℕ) (data : Bool) :
    r.perform (.discard size data) = (r.sync.buf.discard size data).map fun buf =>
      (.discarded (r.sync.buf.fifo.discard size).1,
        { r.setBuf buf with
          held := if data then r.held - (r.sync.buf.fifo.discard size).1 else r.held }) := by
  simp only [perform, Syncer.discard, Syncer.discarded, if_pos h, Option.map_map]
  rfl

/-! ### From any reachable state -/

/-- What holds whatever the calls are. -/
structure Sound (size : ℕ) (r : Reader) : Prop where
  ok : r.sync.buf.fifo.Ok
  size : r.sync.buf.fifo.size = size
  thawed : r.sync.allowDiscard = true →
    r.sync.discardDataOnThaw = 0 ∧ r.sync.discardCmdOnThaw = 0

namespace Sound

variable {size : ℕ} {r' : Reader}

theorem of_perform (h : r.Sound size) (call : FifoCall) (hsum : call.NoOverflow)
    (hfifo : r'.sync.buf.fifo = (r.sync.buf.fifo.perform call).2)
    (hthawed : r'.sync.allowDiscard = true →
      r'.sync.discardDataOnThaw = 0 ∧ r'.sync.discardCmdOnThaw = 0) : r'.Sound size := by
  obtain ⟨-, hok, hsize, -⟩ :=
    Fifo2.fifo2_refines r.sync.buf.fifo.size _ _ call ⟨h.ok, rfl, rfl⟩ hsum
  exact ⟨hfifo ▸ hok, hfifo ▸ hsize.trans h.size, hthawed⟩

theorem of_dequeued (h : r.Sound size) (hfifo : r.sync.buf.fifo.Dequeued r'.sync.buf.fifo)
    (hthawed : r'.sync.allowDiscard = true →
      r'.sync.discardDataOnThaw = 0 ∧ r'.sync.discardCmdOnThaw = 0) : r'.Sound size :=
  ⟨hfifo.ok h.ok, (hfifo.size h.ok).trans h.size, hthawed⟩

theorem perform {call : ReaderCall} {answer : ReaderAnswer} (h : r.Sound size)
    (hr : r.perform call = some (answer, r')) : r'.Sound size := by
  cases call with
  | dataDeq min max =>
    cases hr
    exact h.of_dequeued (Streambuf.fifo_dataDeq _ min max) h.thawed
  | cmdDeq n =>
    cases hr
    exact h.of_dequeued (Streambuf.fifo_cmdDeq _ n) h.thawed
  | discard n data =>
    rcases Bool.eq_false_or_eq_true r.sync.allowDiscard with hunlocked | hlocked
    · rw [perform_discard_unlocked hunlocked] at hr
      obtain ⟨buf, hbuf, heq⟩ := map_eq_some_iff.mp hr
      cases heq
      obtain ⟨stale, sslot, cnt, rfl⟩ := Streambuf.decCntStaleLoop_frame hbuf
      exact h.of_perform (.discard n) trivial rfl h.thawed
    · rw [perform_discard_locked hlocked] at hr
      cases hr
      refine h.of_perform .bytesFree trivial (by cases data <;> rfl) fun hunlocked => ?_
      cases data <;> cases hlocked.symm.trans hunlocked

theorem step {call : BufferCall} (h : r.Sound size) (hstep : r.step call = some r') :
    r'.Sound size := by
  cases call with
  | read call =>
    obtain ⟨⟨answer, last⟩, hr, rfl⟩ := map_eq_some_iff.mp hstep
    exact h.perform hr
  | dataEnq buf | syncWriteData buf =>
    cases hstep
    exact h.of_perform (.enq buf) trivial rfl h.thawed
  | cmdEnq buf =>
    obtain ⟨b, hb, rfl⟩ := map_eq_some_iff.mp hstep
    rw [Streambuf.cmdEnq] at hb
    split_ifs at hb
    cases hb
    exact h.of_perform (.enq buf) trivial rfl h.thawed
  | lockState lock =>
    obtain ⟨sync, hsync, rfl⟩ := map_eq_some_iff.mp hstep
    cases lock with
    | true =>
      cases hsync
      exact h.of_perform .bytesFree trivial rfl fun hfalse => absurd hfalse Bool.false_ne_true
    | false =>
      obtain ⟨buf, hbuf, rfl⟩ := map_eq_some_iff.mp hsync
      obtain ⟨stale, sslot, cnt, rfl⟩ := Streambuf.decCntStaleLoop_frame hbuf
      exact h.of_perform (.discard _) trivial rfl fun _ => ⟨rfl, rfl⟩
  | flush =>
    cases hstep
    exact h.of_perform .flush trivial rfl fun _ => ⟨rfl, rfl⟩
  | syncWriteState buf =>
    cases hstep
    refine h.of_perform .flush trivial ?_ fun _ => ?_
    · rw [Syncer.syncWriteState]
      split_ifs <;> rfl
    · rw [Syncer.syncWriteState]
      split_ifs <;> exact ⟨rfl, rfl⟩
  | restoreState =>
    cases hstep
    exact h.of_perform .bytesFree trivial rfl h.thawed

end Sound

end Reader

end BeepMusic.Audio
