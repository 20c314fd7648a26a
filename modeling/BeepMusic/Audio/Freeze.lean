import BeepMusic.Audio.HeldData

/-!
A frozen stream buffer. While the state is locked for a sync the decode thread goes on
taking from the buffer; what it discards is only added up, and is discarded when the
lock is released. The decode thread cannot tell the difference, and afterwards the
buffer is as if it had never been frozen.
-/

namespace BeepMusic.Audio

open Lib Option

namespace Streambuf

variable {s t : Streambuf} {n : ℕ}

/-- `s` with `n` more bytes discarded, and with what `t` has instead of the rest that a
discard changes. -/
def ahead (s t : Streambuf) (n : ℕ) : Streambuf :=
  { s with
    fifo := (s.fifo.discard n).2
    cmdCntStale := t.cmdCntStale
    sslot := t.sslot
    slotCntStale := t.slotCntStale
    cmdTaken := t.cmdTaken
    dataTaken := t.dataTaken }

theorem dataDeq_ahead (h : s.fifo.Ok) (hn : n ≤ s.fifo.staleLength) (min max : ℕ) :
    (s.ahead t n).dataRead min max = s.dataRead min max ∧
      (s.ahead t n).dataDeq min max =
        (s.dataDeq min max).ahead ((s.ahead t n).dataDeq min max) n := by
  have hsize : (s.ahead t n).dataSize min max = s.dataSize min max := rfl
  have hdeq : (s.ahead t n).fifo.deq (s.dataSize min max) false = _ :=
    h.deq_discard hn (s.dataSize min max)
  simp only [dataRead, dataDeq_eq, hsize, hdeq]
  split_ifs
  · exact ⟨trivial, rfl⟩
  · exact ⟨trivial, rfl⟩

theorem cmdDeq_ahead (h : s.fifo.Ok) (hn : n ≤ s.fifo.staleLength) (size : ℕ) :
    (s.ahead t n).cmdRead size = s.cmdRead size ∧
      (s.ahead t n).cmdDeq size = (s.cmdDeq size).ahead ((s.ahead t n).cmdDeq size) n := by
  have hdeq : (s.ahead t n).fifo.deq size false = _ := h.deq_discard hn size
  have hready : ((s.ahead t n).cmdCnt ≠ 0 ∧ (s.ahead t n).slotCnt (s.ahead t n).dslot = 0) ↔
      (s.cmdCnt ≠ 0 ∧ s.slotCnt s.dslot = 0) := Iff.rfl
  simp only [cmdRead, cmdDeq_eq, hdeq, hready]
  split_ifs
  · exact ⟨trivial, rfl⟩
  · exact ⟨trivial, rfl⟩
  · exact ⟨trivial, rfl⟩

end Streambuf

namespace Reader

/-- The buffer, without what is for statements about the decode thread. -/
def buffer (r : Reader) : Streambuf := { r.sync.buf with cmdTaken := none, dataTaken := 0 }

/-- The calls between `streambuf_lock_state(true)` and `streambuf_lock_state(false)`. -/
def frozen (r : Reader) (calls : List ReaderCall) : Option (List ReaderAnswer × Streambuf) :=
  (r.lockState true).bind fun r => (reads.run r calls).bind fun result =>
    (result.2.lockState false).map fun r => (result.1, r.buffer)

/-- The calls, and then `streambuf_discard(0, true)`. -/
def unfrozen (r : Reader) (calls : List ReaderCall) : Option (List ReaderAnswer × Streambuf) :=
  (reads.run r calls).bind fun result =>
    (result.2.perform (.discard 0 true)).map fun last => (result.1, last.2.buffer)

variable {r u : Reader}

/-- `u` has discarded what `r` is to discard when the lock is released. -/
structure Postpones (r u : Reader) : Prop where
  locked : r.sync.allowDiscard = false
  unlocked : u.sync.allowDiscard = true
  ok : r.sync.buf.fifo.Ok
  size : r.sync.buf.fifo.size ≤ Fifo2.sizeT
  le : r.sync.discardDataOnThaw + r.sync.discardCmdOnThaw ≤ r.sync.buf.fifo.staleLength
  ahead : ∃ t, u.sync.buf = r.sync.buf.ahead t
    (r.sync.discardDataOnThaw + r.sync.discardCmdOnThaw)
  stale : (r.sync.buf.decCntStale r.sync.discardDataOnThaw).map Streambuf.counters =
    (u.sync.buf.decCntStale 0).map Streambuf.counters

/-- When the lock is released, the loop never ends. -/
structure Lost (r : Reader) : Prop where
  locked : r.sync.allowDiscard = false
  hangs : r.sync.buf.decCntStale r.sync.discardDataOnThaw = none

namespace Postpones

/-- Calls that leave the counters alone and dequeue the same. -/
theorem setBuf {b c : Streambuf} {m n : ℕ} (h : r.Postpones u)
    (hfifo : r.sync.buf.fifo.Dequeued b.fifo) (hb : b.counters = r.sync.buf.counters)
    (hc : c.counters = u.sync.buf.counters)
    (hahead : ∃ t, c = b.ahead t (r.sync.discardDataOnThaw + r.sync.discardCmdOnThaw)) :
    Postpones { r.setBuf b with held := m } { u.setBuf c with held := n } := by
  refine ⟨h.locked, h.unlocked, hfifo.ok h.ok, (hfifo.size h.ok).trans_le h.size,
    Nat.le_trans h.le (hfifo.staleLength h.ok), hahead, ?_⟩
  show (b.decCntStale r.sync.discardDataOnThaw).map Streambuf.counters =
    (c.decCntStale 0).map Streambuf.counters
  rw [Streambuf.decCntStale_congr hb, h.stale, Streambuf.decCntStale_congr hc]

theorem dataDeq (h : r.Postpones u) (min max : ℕ) :
    ∃ answer r' u', r.perform (.dataDeq min max) = some (answer, r') ∧
      u.perform (.dataDeq min max) = some (answer, u') ∧ r'.Postpones u' := by
  obtain ⟨t, ht⟩ := h.ahead
  obtain ⟨hread, hdeq⟩ := Streambuf.dataDeq_ahead (t := t) h.ok h.le min max
  rw [← ht] at hread hdeq
  have hsize : u.sync.buf.dataSize min max = r.sync.buf.dataSize min max := by rw [ht]; rfl
  have hstreaming : u.sync.buf.streaming = r.sync.buf.streaming := by rw [ht]; rfl
  refine ⟨_, _, { u.setBuf (u.sync.buf.dataDeq min max) with
    held := u.held + r.sync.buf.dataSize min max }, rfl, ?_,
    h.setBuf (Streambuf.fifo_dataDeq _ min max) (Streambuf.counters_dataDeq _ min max)
      (Streambuf.counters_dataDeq _ min max) ⟨_, hdeq⟩⟩
  simp [perform, hread, hsize, hstreaming]

theorem cmdDeq (h : r.Postpones u) (size : ℕ) :
    ∃ answer r' u', r.perform (.cmdDeq size) = some (answer, r') ∧
      u.perform (.cmdDeq size) = some (answer, u') ∧ r'.Postpones u' := by
  obtain ⟨t, ht⟩ := h.ahead
  obtain ⟨hread, hdeq⟩ := Streambuf.cmdDeq_ahead (t := t) h.ok h.le size
  rw [← ht] at hread hdeq
  refine ⟨.cmd (r.sync.buf.cmdRead size).1 (r.sync.buf.cmdRead size).2,
    r.setBuf (r.sync.buf.cmdDeq size), u.setBuf (u.sync.buf.cmdDeq size), rfl, ?_,
    h.setBuf (Streambuf.fifo_cmdDeq _ size) (Streambuf.counters_cmdDeq _ size)
      (Streambuf.counters_cmdDeq _ size) ⟨_, hdeq⟩⟩
  simp [perform, hread]

theorem discarded (h : r.Postpones u) (size : ℕ) :
    u.sync.buf.fifo.discard size = (r.sync.discarded size, (r.sync.buf.fifo.discard
      (r.sync.discardDataOnThaw + r.sync.discardCmdOnThaw + r.sync.discarded size)).2) ∧
      r.sync.discardDataOnThaw + r.sync.discardCmdOnThaw + r.sync.discarded size ≤
        r.sync.buf.fifo.staleLength := by
  obtain ⟨t, ht⟩ := h.ahead
  have hle := h.le
  have hfifo : u.sync.buf.fifo = (r.sync.buf.fifo.discard
      (r.sync.discardDataOnThaw + r.sync.discardCmdOnThaw)).2 := by rw [ht]; rfl
  have hcount := Syncer.discarded_locked h.locked h.ok h.size h.le size
  have hbound : r.sync.discardDataOnThaw + r.sync.discardCmdOnThaw + r.sync.discarded size ≤
      r.sync.buf.fifo.staleLength := by omega
  refine ⟨?_, hbound⟩
  rw [Fifo2.discard_min, hfifo, h.ok.staleLength_discard, ← hcount]
  exact h.ok.discard_discard hbound

/-- `r` puts off one more discard, of which `count` bytes are data, and `u` makes it. -/
theorem putOff (sync : Syncer) (b : Streambuf) (count m n : ℕ) (answer : ReaderAnswer)
    (h : r.Postpones u) (hlocked : sync.allowDiscard = false) (hbuf : sync.buf = r.sync.buf)
    (hdata : sync.discardDataOnThaw = r.sync.discardDataOnThaw + count)
    (hle : sync.discardDataOnThaw + sync.discardCmdOnThaw ≤ r.sync.buf.fifo.staleLength)
    (hb : b.counters = u.sync.buf.counters)
    (hahead : ∃ t, b = r.sync.buf.ahead t (sync.discardDataOnThaw + sync.discardCmdOnThaw)) :
    (∃ u', ((b.decCntStale count).map fun buf =>
        (answer, { u.setBuf buf with held := n })) = some (answer, u') ∧
        Postpones { r with sync := sync, held := m } u') ∨
      ((b.decCntStale count).map fun buf =>
        (answer, { u.setBuf buf with held := n })) = none ∧
        Lost { r with sync := sync, held := m } := by
  have hstale := Streambuf.decCntStale_add_congr h.stale hb count
  rw [← hdata, ← hbuf] at hstale
  cases hdec : b.decCntStale count with
  | none =>
    rw [hdec] at hstale
    exact .inr ⟨rfl, hlocked, map_eq_none_iff.mp hstale⟩
  | some b' =>
    refine .inl ⟨_, rfl, hlocked, h.unlocked, hbuf ▸ h.ok, hbuf ▸ h.size, hbuf ▸ hle, ?_, ?_⟩
    · obtain ⟨t, rfl⟩ := hahead
      obtain ⟨stale, sslot, cnt, rfl⟩ := Streambuf.decCntStaleLoop_frame hdec
      refine ⟨{ t with slotCntStale := stale, sslot := sslot, cmdCntStale := cnt }, ?_⟩
      rw [hbuf]
      rfl
    · rw [hdec] at hstale
      show (sync.buf.decCntStale _).map _ = (b'.decCntStale 0).map _
      rw [hstale, Streambuf.decCntStale_again hdec]

/-- The discard of `u` never returns, or both go on. -/
theorem discard (h : r.Postpones u) (size : ℕ) (data : Bool) :
    ∃ answer r', r.perform (.discard size data) = some (answer, r') ∧
      ((∃ u', u.perform (.discard size data) = some (answer, u') ∧ r'.Postpones u') ∨
        u.perform (.discard size data) = none ∧ r'.Lost) := by
  obtain ⟨t, ht⟩ := h.ahead
  obtain ⟨hdiscard, hle⟩ := h.discarded size
  rw [perform_discard_locked h.locked, perform_discard_unlocked h.unlocked]
  refine ⟨_, _, rfl, ?_⟩
  simp only [Streambuf.discard, hdiscard]
  cases data with
  | true =>
    have hsum : r.sync.discardDataOnThaw + r.sync.discarded size + r.sync.discardCmdOnThaw =
        r.sync.discardDataOnThaw + r.sync.discardCmdOnThaw + r.sync.discarded size := by omega
    refine h.putOff { r.sync with
      discardDataOnThaw := r.sync.discardDataOnThaw + r.sync.discarded size } _ _ _ _ _
      h.locked rfl rfl (Nat.le_trans (Nat.le_of_eq hsum) hle) rfl ?_
    rw [hsum, ht]
    exact ⟨{ t with dataTaken := _ }, rfl⟩
  | false =>
    have hsum : r.sync.discardDataOnThaw + (r.sync.discardCmdOnThaw + r.sync.discarded size) =
        r.sync.discardDataOnThaw + r.sync.discardCmdOnThaw + r.sync.discarded size := by omega
    refine h.putOff { r.sync with
      discardCmdOnThaw := r.sync.discardCmdOnThaw + r.sync.discarded size } _ 0 _ _ _
      h.locked rfl rfl (Nat.le_trans (Nat.le_of_eq hsum) hle) rfl ?_
    rw [hsum, ht]
    exact ⟨{ t with cmdTaken := none }, rfl⟩

theorem step (h : r.Postpones u) (call : ReaderCall) :
    ∃ answer r', r.perform call = some (answer, r') ∧
      ((∃ u', u.perform call = some (answer, u') ∧ r'.Postpones u') ∨
        u.perform call = none ∧ r'.Lost) := by
  cases call with
  | dataDeq min max =>
    obtain ⟨answer, r', u', hr, hu, hnext⟩ := h.dataDeq min max
    exact ⟨answer, r', hr, .inl ⟨u', hu, hnext⟩⟩
  | cmdDeq size =>
    obtain ⟨answer, r', u', hr, hu, hnext⟩ := h.cmdDeq size
    exact ⟨answer, r', hr, .inl ⟨u', hu, hnext⟩⟩
  | discard size data => exact h.discard size data

/-- Releasing the lock comes to the same as discarding nothing. -/
theorem release (h : r.Postpones u) :
    (r.lockState false).map buffer =
      (u.perform (.discard 0 true)).map fun last => last.2.buffer := by
  obtain ⟨t, ht⟩ := h.ahead
  have hzero : r.sync.discarded 0 = 0 := by
    rw [Syncer.discarded_locked h.locked h.ok h.size h.le, Nat.zero_min]
  have hdiscard := (h.discarded 0).1
  rw [hzero, Nat.add_zero] at hdiscard
  rw [perform_discard_unlocked h.unlocked]
  simp only [lockState, Syncer.lockState, Streambuf.discard, hdiscard, if_true, Option.map_map]
  obtain ⟨b, hb⟩ : ∃ b : Streambuf, b = { u.sync.buf with
      fifo := (r.sync.buf.fifo.discard
        (r.sync.discardDataOnThaw + r.sync.discardCmdOnThaw)).2
      dataTaken := u.sync.buf.dataTaken - 0 } := ⟨_, rfl⟩
  have hstale := h.stale
  rw [← Streambuf.decCntStale_congr (show b.counters = u.sync.buf.counters by rw [hb]; rfl)]
    at hstale
  rw [← hb]
  cases hr : r.sync.buf.decCntStale r.sync.discardDataOnThaw with
  | none =>
    rw [hr, eq_comm, map_none, map_eq_none_iff] at hstale
    rw [hstale]
    rfl
  | some s =>
    rw [hr, eq_comm, map_some, map_eq_some_iff] at hstale
    obtain ⟨b', hdec, hcounters⟩ := hstale
    rw [hdec]
    -- the counters are the same, and nothing else has changed
    obtain ⟨stale, sslot, cnt, rfl⟩ := Streambuf.decCntStaleLoop_frame hr
    obtain ⟨stale', sslot', cnt', rfl⟩ := Streambuf.decCntStaleLoop_frame hdec
    simp only [Streambuf.counters, Prod.mk.injEq] at hcounters
    obtain ⟨rfl, rfl, rfl, -⟩ := hcounters
    rw [hb, ht]
    rfl

end Postpones

namespace Lost

theorem setBuf {b : Streambuf} {n : ℕ} (h : r.Lost) (hb : b.counters = r.sync.buf.counters) :
    Lost { r.setBuf b with held := n } := by
  refine ⟨h.locked, ?_⟩
  have hcounters := Streambuf.decCntStale_congr hb r.sync.discardDataOnThaw
  rw [h.hangs] at hcounters
  exact map_eq_none_iff.mp hcounters

theorem step (h : r.Lost) (call : ReaderCall) :
    ∃ answer r', r.perform call = some (answer, r') ∧ r'.Lost := by
  cases call with
  | dataDeq min max => exact ⟨_, _, rfl, h.setBuf (Streambuf.counters_dataDeq _ min max)⟩
  | cmdDeq size =>
    exact ⟨.cmd (r.sync.buf.cmdRead size).1 (r.sync.buf.cmdRead size).2,
      r.setBuf (r.sync.buf.cmdDeq size), rfl, h.setBuf (Streambuf.counters_cmdDeq _ size)⟩
  | discard size data =>
    refine ⟨_, _, perform_discard_locked h.locked size data, ?_⟩
    cases data with
    | true =>
      refine ⟨h.locked, ?_⟩
      show r.sync.buf.decCntStale (r.sync.discardDataOnThaw + r.sync.discarded size) = none
      rw [Streambuf.decCntStale_add, h.hangs, bind_none]
    | false => exact { h with }

theorem release (h : r.Lost) : r.lockState false = none := by
  simp [lockState, Syncer.lockState, h.hangs]

end Lost

theorem reads_defers : reads.Defers Postpones Lost where
  returns r u call answer u' h hu := by
    obtain ⟨answer', r', hr, ⟨u'', hu'', hnext⟩ | ⟨hnone, -⟩⟩ := h.step call
    · cases hu''.symm.trans hu
      exact ⟨r', hr, hnext⟩
    · cases hnone.symm.trans hu
  hangs r u call h hu := by
    obtain ⟨answer, r', hr, ⟨u', hu', -⟩ | ⟨-, hlost⟩⟩ := h.step call
    · cases hu'.symm.trans hu
    · exact ⟨answer, r', hr, hlost⟩
  lost r call h := h.step call

/-! ### From any reachable state -/

namespace Sound

variable {size : ℕ}

theorem postpones (h : r.Sound size) (hsize : size ≤ Fifo2.sizeT)
    (hunlocked : r.sync.allowDiscard = true) :
    ∃ locked, r.lockState true = some locked ∧ locked.Postpones r := by
  obtain ⟨hdata, hcmd⟩ := h.thawed hunlocked
  have hnone : (r.sync.buf.fifo.discard 0).2 = r.sync.buf.fifo := by
    have hsptr := h.ok.sptr
    rw [h.ok.discard_eq (Nat.zero_le _), Ring.advance, if_neg (by omega)]
    rfl
  refine ⟨_, rfl, rfl, hunlocked, h.ok, h.size.trans_le hsize, ?_, ⟨r.sync.buf, ?_⟩, ?_⟩
  · rw [hdata, hcmd]
    exact Nat.zero_le _
  · rw [hdata, hcmd, Streambuf.ahead, hnone]
  · rw [hdata]

theorem frozen_eq (h : r.Sound size) (hsize : size ≤ Fifo2.sizeT)
    (hunlocked : r.sync.allowDiscard = true) (calls : List ReaderCall) :
    r.frozen calls = r.unfrozen calls := by
  obtain ⟨locked, hlocked, hpostpones⟩ := h.postpones hsize hunlocked
  rw [frozen, unfrozen, hlocked, bind_some]
  cases hrun : reads.run r calls with
  | none =>
    obtain ⟨answers, last, hlast, hlost⟩ := reads_defers.run_hangs hpostpones hrun
    rw [hlast, bind_some, hlost.release]
    rfl
  | some result =>
    obtain ⟨answers, u⟩ := result
    obtain ⟨last, hlast, hnext⟩ := reads_defers.run_returns hpostpones hrun
    have hrelease := congrArg (Option.map (Prod.mk answers)) hnext.release
    rw [Option.map_map, Option.map_map] at hrelease
    rw [hlast, bind_some, bind_some]
    exact hrelease

end Sound

end Reader

/-- Freezing is transparent. From any state of the buffer in which it is not locked, the
calls of the decode thread return the same between `streambuf_lock_state(true)` and
`streambuf_lock_state(false)` as they do without and leave the same ring, counters and
cursors as they do with a `streambuf_discard(0, true)` behind them. If only data is
discarded that has been dequeued, both return, however many commands are pending and
whether the counters are the buffer's own or those of another player. -/
theorem freeze_transparent (size : ℕ) (hpos : 0 < size) (hsize : size ≤ Fifo2.sizeT)
    (r : Reader) (h : (reader size).Reachable r) (hunlocked : r.sync.allowDiscard = true)
    (calls : List ReaderCall) :
    r.frozen calls = r.unfrozen calls ∧
      ((reader size).ReachableUnder Reader.DiscardsHeld r →
        (reader size).meets Reader.DiscardsHeld r (calls.map .read) = true →
        ∃ answers buf, r.frozen calls = some (answers, buf)) := by
  have hsound : r.Sound size := h.invariant (I := Reader.Sound size)
    ⟨Fifo2.ok_init hpos, rfl, fun _ => ⟨rfl, rfl⟩⟩ fun _ _ _ hs hstep => hs.step hstep
  have heq := hsound.frozen_eq hsize hunlocked calls
  refine ⟨heq, fun hheld hcalls => ?_⟩
  have hr : r.Accounted := hheld.invariant (I := Reader.Accounted) (.inl ⟨[], .init size⟩)
    fun _ _ _ hs hok hstep => hs.step hok hstep
  obtain ⟨answers, u, hrun, hlast, hu⟩ := hr.run_returns hunlocked hcalls
  obtain ⟨answer, u', hdiscard⟩ := hu.returns (show u.DiscardsHeld (.read (.discard 0 true))
    from Nat.zero_le _)
  refine ⟨answers, u'.buffer, ?_⟩
  rw [heq, Reader.unfrozen, hrun, bind_some, hdiscard]
  rfl

/-- Three bytes, a command and two bytes; two bytes are taken, and one of them is kept. -/
def heldByte : List BufferCall :=
  [.dataEnq [1, 2, 3], .cmdEnq [7, 7], .dataEnq [4, 5], .read (.dataDeq 0 2),
    .read (.discard 1 true)]

/-- The rest of the data, the command and a byte behind it are taken and discarded. -/
def acrossCommand : List ReaderCall :=
  [.dataDeq 0 8, .discard 2 true, .cmdDeq 2, .discard 2 false, .dataDeq 1 1, .discard 1 true]

theorem freeze_transparent_across :
    ∃ r, (reader 16).ReachableUnder Reader.DiscardsHeld r ∧ r.held = 1 ∧
      ∃ buf, r.frozen acrossCommand = some ([.data 1 [3] true, .discarded 2, .cmd 2 [7, 7],
        .discarded 2, .data 1 [4] true, .discarded 1], buf) ∧
        r.unfrozen acrossCommand = r.frozen acrossCommand ∧ buf.sslot = 1 := by
  obtain ⟨r, hrun, hreach, hheld, hunlocked, hcalls, hanswers⟩ := System.exists_reachableUnder
    (reader 16) Reader.DiscardsHeld heldByte
    (fun r : Reader => r.held = 1 ∧ r.sync.allowDiscard = true ∧
      (reader 16).meets Reader.DiscardsHeld r (acrossCommand.map .read) = true ∧
      (r.unfrozen acrossCommand).map (fun result => (result.1, result.2.sslot)) =
        some ([.data 1 [3] true, .discarded 2, .cmd 2 [7, 7], .discarded 2, .data 1 [4] true,
          .discarded 1], 1)) (by decide +kernel) (by decide +kernel)
  obtain ⟨heq, hreturns⟩ := freeze_transparent 16 (by decide) (by decide) r
    (.runFrom heldByte .init hrun) hunlocked acrossCommand
  obtain ⟨answers, buf, hfrozen⟩ := hreturns hreach hcalls
  rw [← heq, hfrozen] at hanswers
  obtain ⟨rfl, hslot⟩ := Prod.mk.inj (Option.some.inj hanswers)
  exact ⟨r, hreach, hheld, buf, hfrozen, heq.symm, hslot⟩

end BeepMusic.Audio
