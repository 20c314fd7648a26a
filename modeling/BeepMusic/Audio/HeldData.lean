import BeepMusic.Audio.Reader

/-!
A decode thread that discards only data it has dequeued: the stale counters hold all
data that has not been dequeued, that it holds and that is put off. So no call runs into
the loop that never ends, however many commands are pending. Between receiving the counters
of another player and restoring them there is nothing to dequeue.
-/

namespace BeepMusic.Audio

open Lib List Option

namespace Reader

variable {r : Reader}

theorem sum_update_add (cnt : Slot → ℕ) (slot : Slot) (n : ℕ) :
    ∑ i, Function.update cnt slot n i + cnt slot = ∑ i, cnt i + n := by
  have hrest := Finset.sum_update_of_mem (Finset.mem_univ slot) cnt
  have hself := hrest (cnt slot)
  rw [Function.update_eq_self] at hself
  rw [hrest n, hself]
  omega

/-- The data that a call takes from the stale counters. -/
def discards (r : Reader) : BufferCall → ℕ
  | .read (.discard size true) =>
    if r.sync.allowDiscard then (r.sync.buf.fifo.discard size).1 else 0
  | .lockState false => r.sync.discardDataOnThaw
  | _ => 0

/-- The stale counters count the stream `w`, and its data is what has not been dequeued,
what the decode thread holds and what is put off. -/
structure Balanced (r : Reader) (w : List Item) : Prop where
  staleCounts : r.sync.buf.StaleCounts w
  balance : (dataOf w).length =
    ∑ i, r.sync.buf.slotCnt i + r.held + r.sync.discardDataOnThaw
  own : r.receiving = false

namespace Balanced

variable {r' : Reader} {w : List Item}

theorem init (size : ℕ) : Balanced (init size) [] :=
  ⟨⟨fun j _ => by cases j <;> rfl, Nat.zero_le _, rfl, rfl⟩,
    by simp [Reader.init, Syncer.init, Streambuf.init, dataOf], rfl⟩

section

variable (h : r.Balanced w)
include h

theorem dataDeq (min max : ℕ) :
    Balanced { r.setBuf (r.sync.buf.dataDeq min max) with
      held := r.held + r.sync.buf.dataSize min max } w := by
  refine ⟨h.staleCounts.of_counters (Streambuf.counters_dataDeq _ min max), ?_, h.own⟩
  have hbalance := h.balance
  have hle : r.sync.buf.dataSize min max ≤ r.sync.buf.slotCnt r.sync.buf.dslot := by
    rw [Streambuf.dataSize]
    split_ifs <;> omega
  show _ = ∑ i, (r.sync.buf.dataDeq min max).slotCnt i +
    (r.held + r.sync.buf.dataSize min max) + r.sync.discardDataOnThaw
  rw [Streambuf.dataDeq_eq]
  split_ifs with hzero
  · omega
  · have hsum := sum_update_add r.sync.buf.slotCnt r.sync.buf.dslot
      (r.sync.buf.slotCnt r.sync.buf.dslot - r.sync.buf.dataSize min max)
    dsimp only
    omega

theorem cmdDeq (size : ℕ) : Balanced (r.setBuf (r.sync.buf.cmdDeq size)) w := by
  refine ⟨h.staleCounts.of_counters (Streambuf.counters_cmdDeq _ size), ?_, h.own⟩
  have hslots : (r.sync.buf.cmdDeq size).slotCnt = r.sync.buf.slotCnt := by
    rw [Streambuf.cmdDeq_eq]
    split_ifs <;> rfl
  show _ = ∑ i, (r.sync.buf.cmdDeq size).slotCnt i + r.held + r.sync.discardDataOnThaw
  rw [hslots]
  exact h.balance

theorem discard_unlocked {size : ℕ} {data : Bool} (hunlocked : r.sync.allowDiscard = true)
    (hheld : data = true → size ≤ r.held) :
    ∃ answer r' w', r.perform (.discard size data) = some (answer, r') ∧ r'.Balanced w' ∧
      (dataOf w').length + r.discards (.read (.discard size data)) = (dataOf w).length := by
  have hbalance := h.balance
  have hle := r.sync.buf.fifo.discard_le size
  have hcounts : Streambuf.StaleCounts { r.sync.buf with
      fifo := (r.sync.buf.fifo.discard size).2
      cmdTaken := if data then r.sync.buf.cmdTaken else none
      dataTaken := if data then r.sync.buf.dataTaken - (r.sync.buf.fifo.discard size).1
        else r.sync.buf.dataTaken } w := h.staleCounts.of_counters rfl
  obtain ⟨b, w', hb, hw', hlength⟩ := hcounts.decCntStale_returns
    (show (if data then (r.sync.buf.fifo.discard size).1 else 0) ≤ (dataOf w).length by
      split_ifs with hdata
      · have hsize := hheld hdata
        omega
      · exact Nat.zero_le _)
  refine ⟨.discarded (r.sync.buf.fifo.discard size).1, { r.setBuf b with
    held := if data then r.held - (r.sync.buf.fifo.discard size).1 else r.held }, w', ?_,
    ⟨hw', ?_, h.own⟩, ?_⟩
  · rw [perform_discard_unlocked hunlocked]
    exact congrArg (Option.map _) hb
  · obtain ⟨stale, sslot, cnt, rfl⟩ := Streambuf.decCntStaleLoop_frame hb
    show _ = ∑ i, r.sync.buf.slotCnt i + _ + r.sync.discardDataOnThaw
    cases data with
    | true =>
      have hsize := hheld rfl
      simp only [if_true] at hlength ⊢
      omega
    | false =>
      simp only [Bool.false_eq_true, if_false] at hlength ⊢
      omega
  · rw [← hlength]
    cases data with
    | true => simp only [discards, hunlocked, if_true]
    | false => rfl

theorem discard_locked {size : ℕ} {data : Bool} {answer : ReaderAnswer}
    (hlocked : r.sync.allowDiscard = false) (hheld : data = true → size ≤ r.held)
    (hr : r.perform (.discard size data) = some (answer, r')) : r'.Balanced w := by
  have hbalance := h.balance
  have hle := r.sync.discarded_le size
  rw [perform_discard_locked hlocked] at hr
  cases hr
  cases data with
  | true =>
    have hsize := hheld rfl
    refine ⟨h.staleCounts, ?_, h.own⟩
    show _ = ∑ i, r.sync.buf.slotCnt i + (r.held - r.sync.discarded size) +
      (r.sync.discardDataOnThaw + r.sync.discarded size)
    omega
  | false => exact { h with }

theorem perform {call : ReaderCall} {answer : ReaderAnswer} (hheld : r.DiscardsHeld (.read call))
    (hr : r.perform call = some (answer, r')) :
    ∃ w', r'.Balanced w' ∧ (dataOf w').length + r.discards (.read call) = (dataOf w).length := by
  cases call with
  | dataDeq min max =>
    cases hr
    exact ⟨w, h.dataDeq min max, rfl⟩
  | cmdDeq size =>
    cases hr
    exact ⟨w, h.cmdDeq size, rfl⟩
  | discard size data =>
    have hsize : data = true → size ≤ r.held := by
      rintro rfl
      exact hheld
    rcases Bool.eq_false_or_eq_true r.sync.allowDiscard with hunlocked | hlocked
    · obtain ⟨answer', r'', w', hr'', hw'⟩ := h.discard_unlocked hunlocked hsize
      cases hr''.symm.trans hr
      exact ⟨w', hw'⟩
    · refine ⟨w, h.discard_locked hlocked hsize hr, ?_⟩
      cases data with
      | true => simp [discards, hlocked]
      | false => rfl

theorem dataEnq (buf : Bytes) :
    Balanced (r.setBuf (r.sync.buf.dataEnq buf)) (w ++ buf.map .byte) := by
  refine ⟨h.staleCounts.dataEnq buf, ?_, h.own⟩
  have hbalance := h.balance
  have hsum := sum_update_add r.sync.buf.slotCnt r.sync.buf.eslot
    (r.sync.buf.slotCnt r.sync.buf.eslot + buf.length)
  show _ = ∑ i, Function.update r.sync.buf.slotCnt r.sync.buf.eslot
    (r.sync.buf.slotCnt r.sync.buf.eslot + buf.length) i + r.held + r.sync.discardDataOnThaw
  rw [dataOf_append, length_append, dataOf_map_byte]
  omega

theorem cmdEnq {buf : Bytes} {b : Streambuf} (hb : r.sync.buf.cmdEnq buf = some b) :
    Balanced (r.setBuf b) (w ++ [.cmd buf]) := by
  refine ⟨h.staleCounts.cmdEnq hb, ?_, h.own⟩
  obtain ⟨-, rfl⟩ := ite_some_none_eq_some.mp hb
  rw [dataOf_append, length_append]
  exact h.balance

/-- What has been put off is taken from the counters. -/
theorem lockState (lock : Bool) :
    ∃ r' w', r.lockState lock = some r' ∧ r'.Balanced w' ∧
      (dataOf w').length + r.discards (.lockState lock) = (dataOf w).length := by
  cases lock with
  | true => exact ⟨_, w, rfl, { h with }, rfl⟩
  | false =>
    have hbalance := h.balance
    obtain ⟨b, w', hb, hw', hlength⟩ := h.staleCounts.decCntStale_returns
      (show r.sync.discardDataOnThaw ≤ (dataOf w).length by omega)
    rw [Reader.lockState, Syncer.lockState, hb]
    obtain ⟨stale, sslot, cnt, rfl⟩ := Streambuf.decCntStaleLoop_frame hb
    refine ⟨_, w', rfl, ⟨hw'.of_counters rfl, ?_, h.own⟩, hlength⟩
    show _ = ∑ i, r.sync.buf.slotCnt i + r.held + 0
    omega

end

theorem flush (r : Reader) : Balanced ⟨r.sync.flush, 0, false⟩ [] :=
  have hinit := init r.sync.buf.fifo.size
  ⟨hinit.staleCounts.of_counters rfl, hinit.balance, rfl⟩

theorem returns {call : ReaderCall} (h : r.Balanced w) (hheld : r.DiscardsHeld (.read call)) :
    ∃ answer r', r.perform call = some (answer, r') := by
  cases call with
  | dataDeq min max => exact ⟨_, _, rfl⟩
  | cmdDeq size => exact ⟨.cmd (r.sync.buf.cmdRead size).1 (r.sync.buf.cmdRead size).2, _, rfl⟩
  | discard size data =>
    have hsize : data = true → size ≤ r.held := by
      rintro rfl
      exact hheld
    rcases Bool.eq_false_or_eq_true r.sync.allowDiscard with hunlocked | hlocked
    · obtain ⟨answer, r', -, hr, -⟩ := h.discard_unlocked hunlocked hsize
      exact ⟨answer, r', hr⟩
    · exact ⟨_, _, perform_discard_locked hlocked size data⟩

end Balanced

/-! ### Counters of another player -/

/-- A stream with these stretches of data. -/
def streamOf : List ℕ → List Item
  | [] => []
  | n :: ns =>
    (List.replicate n 0).map .byte ++ if ns = [] then [] else .cmd [] :: streamOf ns

theorem runs_streamOf {ns : List ℕ} (h : ns ≠ []) : runs (streamOf ns) = ns := by
  induction ns with
  | nil => exact absurd rfl h
  | cons n ns ih =>
    rw [streamOf, runs_map_byte_append, length_replicate]
    split_ifs with hnil
    · rw [hnil, runs, modifyHead_cons, Nat.zero_add]
    · rw [runs, modifyHead_cons, Nat.zero_add, ih hnil]

theorem sum_runs (q : List Item) : (runs q).sum = (dataOf q).length := by
  induction q with
  | nil => rfl
  | cons item q ih =>
    cases item with
    | byte b =>
      obtain ⟨n, ns, hq⟩ := exists_runs_eq_cons q
      rw [hq, sum_cons] at ih
      rw [runs, hq, modifyHead_cons, sum_cons, dataOf, length_cons]
      omega
    | cmd bytes => rw [runs, sum_cons, Nat.zero_add, ih, dataOf]

theorem sum_slotCntStale {s : Streambuf} {w : List Item} (h : s.StaleCounts w) :
    ∑ i, s.slotCntStale i = (dataOf w).length := by
  rw [sum_slots _ h.counts, sum_runs]
  rw [length_runs]
  exact Nat.succ_le_succ h.bounded

theorem exists_staleCounts {s : Streambuf} (h : s.Consistent) : ∃ w, s.StaleCounts w := by
  obtain ⟨hle, heslot, hempty⟩ := h
  obtain ⟨ns, hns⟩ : ∃ ns, ns = (List.range (s.cmdCntStale + 1)).map fun j =>
      s.slotCntStale (s.sslot.after j) := ⟨_, rfl⟩
  have hlength : ns.length = s.cmdCntStale + 1 := by rw [hns, length_map, length_range]
  have hruns : runs (streamOf ns) = ns := runs_streamOf (ne_nil_of_length_eq_add_one hlength)
  have hcmds : (cmds (streamOf ns)).length = s.cmdCntStale := by
    have hboth := length_runs (streamOf ns)
    rw [hruns, hlength] at hboth
    omega
  refine ⟨streamOf ns, fun j hj => ?_, hcmds ▸ hle, by rw [hcmds, heslot], hcmds.symm⟩
  rw [hruns]
  by_cases hin : j < s.cmdCntStale + 1
  · rw [hns, getD_eq_getElem?_getD, getElem?_map, getElem?_range hin]
    rfl
  · rw [getD_eq_getElem?_getD, getElem?_eq_none (by omega), hempty j hj (by omega)]
    rfl

/-- Counters have been received. Nothing can be dequeued until they are restored. -/
structure Receiving (r : Reader) : Prop where
  receiving : r.receiving = true
  slotCnt : ∀ slot, r.sync.buf.slotCnt slot = 0
  cmdCnt : r.sync.buf.cmdCnt = 0
  sslot : r.sync.buf.sslot = r.sync.buf.eslot
  sptr : r.sync.buf.fifo.sptr = r.sync.buf.fifo.rptr
  held : r.held = 0
  data : r.sync.discardDataOnThaw = 0
  cmd : r.sync.discardCmdOnThaw = 0

namespace Receiving

variable {r : Reader}

theorem discarded (h : r.Receiving) (size : ℕ) : r.sync.discarded size = 0 := by
  rw [Syncer.discarded, Fifo2.discard_of_eq h.sptr]
  split_ifs with hallow
  · rfl
  · rw [Fifo2.bytesUsed_eq, Fifo2.bytesUsed_eq, h.sptr, h.data, h.cmd]
    simp only [ite_self, Int.sub_self, Int.natCast_zero, Int.zero_emod, Int.toNat_zero]
    split_ifs <;> omega

/-- Every call of the decode thread returns, and takes nothing. -/
theorem perform (h : r.Receiving) (call : ReaderCall) :
    ∃ answer r', r.perform call = some (answer, r') ∧ r'.Receiving := by
  cases call with
  | dataDeq min max =>
    have hsize : r.sync.buf.dataSize min max = 0 := by
      simp only [Streambuf.dataSize, h.slotCnt]
      split_ifs <;> omega
    refine ⟨_, _, rfl, ?_⟩
    rw [Streambuf.dataDeq_eq, if_pos hsize, hsize]
    exact h
  | cmdDeq size =>
    refine ⟨.cmd (r.sync.buf.cmdRead size).1 (r.sync.buf.cmdRead size).2,
      r.setBuf (r.sync.buf.cmdDeq size), rfl, ?_⟩
    rw [Streambuf.cmdDeq_eq, if_neg fun hne => hne.1 h.cmdCnt]
    exact h
  | discard size data =>
    rcases Bool.eq_false_or_eq_true r.sync.allowDiscard with hunlocked | hlocked
    · rw [perform_discard_unlocked hunlocked, Streambuf.discard, Fifo2.discard_of_eq h.sptr]
      simp only [ite_self, Nat.sub_zero]
      rw [Streambuf.decCntStale_zero (show Streambuf.Rested { r.sync.buf with
        cmdTaken := if data then r.sync.buf.cmdTaken else none } from .inl h.sslot)]
      exact ⟨_, _, rfl, h.receiving, h.slotCnt, h.cmdCnt, h.sslot, h.sptr, h.held, h.data, h.cmd⟩
    · rw [perform_discard_locked hlocked, h.discarded]
      refine ⟨_, _, rfl, ?_⟩
      cases data <;> exact h

theorem lockState (h : r.Receiving) (lock : Bool) :
    ∃ r', r.lockState lock = some r' ∧ r'.Receiving := by
  cases lock with
  | true =>
    exact ⟨_, rfl, h.receiving, h.slotCnt, h.cmdCnt, h.sslot, h.sptr, h.held, h.data, h.cmd⟩
  | false =>
    rw [Reader.lockState, Syncer.lockState, h.data, Streambuf.decCntStale_zero (.inl h.sslot)]
    refine ⟨_, rfl, h.receiving, h.slotCnt, h.cmdCnt, h.sslot, ?_, h.held, rfl, rfl⟩
    show (r.sync.buf.fifo.discard _).2.sptr = (r.sync.buf.fifo.discard _).2.rptr
    rw [Fifo2.discard_of_eq h.sptr, h.sptr]

/-- What is restored are the counters of some stream, of which nothing is dequeued. -/
theorem restoreState (h : r.Receiving) (hbuf : r.sync.restoreState.buf.Consistent) :
    ∃ w, Balanced { r with sync := r.sync.restoreState, receiving := false } w := by
  obtain ⟨w, hw⟩ := exists_staleCounts hbuf
  refine ⟨w, hw, ?_, rfl⟩
  show _ = ∑ i, r.sync.restoreState.buf.slotCntStale i + r.held + r.sync.discardDataOnThaw
  rw [sum_slotCntStale hw, h.held, h.data, Nat.add_zero]

end Receiving

/-- The counters are the buffer's own, or nothing can be dequeued. -/
def Accounted (r : Reader) : Prop := (∃ w, r.Balanced w) ∨ r.Receiving

end Reader

/-- The buffer, with the data that has been put in and discarded since it was flushed. What
is restored counts as put in. -/
structure Tally where
  reader : Reader
  put : ℕ
  discarded : ℕ

namespace Tally

def step (t : Tally) (call : BufferCall) : Option Tally :=
  (t.reader.step call).map fun r =>
    { reader := r
      put := match call with
        | .dataEnq buf => t.put + buf.length
        | .flush | .syncWriteState _ => 0
        | .restoreState => ∑ i, r.sync.buf.slotCntStale i
        | _ => t.put
      discarded := match call with
        | .flush | .syncWriteState _ | .restoreState => 0
        | _ => t.discarded + t.reader.discards call }

/-- The counters are the buffer's own and hold what has not been discarded, or nothing can
be dequeued. -/
def Even (t : Tally) : Prop :=
  (∃ w, t.reader.Balanced w ∧ (dataOf w).length + t.discarded = t.put) ∨ t.reader.Receiving

namespace Even

variable {t t' : Tally}

theorem syncWriteState (r : Reader) (buf : Bytes) :
    Even ⟨⟨(r.sync.syncWriteState buf).2, 0, decide (buf.length = Syncer.sbStateSize)⟩, 0, 0⟩ := by
  rw [Syncer.syncWriteState]
  split_ifs with hlength
  · exact .inr ⟨decide_eq_true hlength, fun _ => rfl, rfl, rfl, rfl, rfl, rfl, rfl⟩
  · rw [decide_eq_false hlength]
    exact .inl ⟨[], .flush r, rfl⟩

variable (h : t.Even)
include h

theorem balanced (hown : t.reader.receiving = false) :
    ∃ w, t.reader.Balanced w ∧ (dataOf w).length + t.discarded = t.put :=
  h.resolve_right fun hreceiving => Bool.false_ne_true (hown.symm.trans hreceiving.receiving)

theorem receiving (hreceiving : t.reader.receiving = true) : t.reader.Receiving :=
  h.resolve_left fun ⟨_, hw, _⟩ => Bool.false_ne_true (hw.own.symm.trans hreceiving)

theorem step {call : BufferCall} (hheld : t.reader.DiscardsHeld call)
    (hstep : t.step call = some t') : t'.Even := by
  obtain ⟨r', hr', rfl⟩ := map_eq_some_iff.mp hstep
  cases call with
  | read call =>
    obtain ⟨⟨answer, last⟩, hr, rfl⟩ := map_eq_some_iff.mp hr'
    rcases h with ⟨w, h, hput⟩ | h
    · obtain ⟨w', hw', hlength⟩ := h.perform hheld hr
      exact .inl ⟨w', hw', by dsimp only; omega⟩
    · obtain ⟨answer', last', hlast, hnext⟩ := h.perform call
      cases hlast.symm.trans hr
      exact .inr hnext
  | dataEnq buf =>
    cases hr'
    obtain ⟨w, hw, hput⟩ := h.balanced hheld
    refine .inl ⟨_, hw.dataEnq buf, ?_⟩
    rw [dataOf_append, dataOf_map_byte, length_append, ← hput]
    exact Nat.add_right_comm _ _ _
  | cmdEnq buf =>
    obtain ⟨b, hb, rfl⟩ := map_eq_some_iff.mp hr'
    obtain ⟨w, hw, hput⟩ := h.balanced hheld
    refine .inl ⟨_, hw.cmdEnq hb, ?_⟩
    rw [dataOf_append, length_append]
    exact hput
  | lockState lock =>
    rcases h with ⟨w, h, hput⟩ | h
    · obtain ⟨last, w', hlast, hw', hlength⟩ := h.lockState lock
      cases hlast.symm.trans hr'
      exact .inl ⟨w', hw', by dsimp only; omega⟩
    · obtain ⟨last, hlast, hnext⟩ := h.lockState lock
      cases hlast.symm.trans hr'
      exact .inr hnext
  | flush =>
    cases hr'
    exact .inl ⟨[], .flush t.reader, rfl⟩
  | syncWriteState buf =>
    cases hr'
    exact syncWriteState t.reader buf
  | syncWriteData buf =>
    cases hr'
    rcases h with ⟨w, h, hput⟩ | h
    · exact .inl ⟨w, ⟨h.staleCounts.of_counters rfl, h.balance, h.own⟩, hput⟩
    · have hsptr : (t.reader.sync.buf.fifo.enq buf).2.sptr =
          (t.reader.sync.buf.fifo.enq buf).2.rptr := by
        obtain ⟨base, wptr, hframe⟩ := t.reader.sync.buf.fifo.enq_frame buf
        rw [hframe]
        exact h.sptr
      exact .inr { h with sptr := hsptr }
  | restoreState =>
    cases hr'
    obtain ⟨w, hw⟩ := (h.receiving hheld.1).restoreState hheld.2
    exact .inl ⟨w, hw, (Reader.sum_slotCntStale hw.staleCounts).symm⟩

end Even

end Tally

namespace Reader

variable {r r' : Reader}

namespace Accounted

variable (h : r.Accounted)
include h

theorem step {call : BufferCall} (hheld : r.DiscardsHeld call) (hstep : r.step call = some r') :
    r'.Accounted := by
  obtain ⟨t, ht, rfl⟩ : ∃ t : Tally, t.Even ∧ t.reader = r := by
    rcases h with ⟨w, h⟩ | h
    · exact ⟨⟨r, (dataOf w).length, 0⟩, .inl ⟨w, h, rfl⟩, rfl⟩
    · exact ⟨⟨r, 0, 0⟩, .inr h, rfl⟩
  exact (ht.step hheld (congrArg (Option.map _) hstep)).imp_left fun ⟨w, hw, _⟩ => ⟨w, hw⟩

theorem returns {call : ReaderCall} (hheld : r.DiscardsHeld (.read call)) :
    ∃ answer r', r.perform call = some (answer, r') := by
  rcases h with ⟨w, h⟩ | h
  · exact h.returns hheld
  · obtain ⟨answer, r', hr, -⟩ := h.perform call
    exact ⟨answer, r', hr⟩

end Accounted

theorem allowDiscard_perform {call : ReaderCall} {answer : ReaderAnswer}
    (hr : r.perform call = some (answer, r')) : r'.sync.allowDiscard = r.sync.allowDiscard := by
  cases call with
  | dataDeq min max | cmdDeq size =>
    cases hr
    rfl
  | discard size data =>
    rcases Bool.eq_false_or_eq_true r.sync.allowDiscard with hunlocked | hlocked
    · rw [perform_discard_unlocked hunlocked] at hr
      obtain ⟨buf, hbuf, heq⟩ := map_eq_some_iff.mp hr
      cases heq
      rfl
    · rw [perform_discard_locked hlocked] at hr
      cases hr
      cases data <;> rfl

theorem Accounted.run_returns {size : ℕ} {calls : List ReaderCall} (h : r.Accounted)
    (hunlocked : r.sync.allowDiscard = true)
    (hcalls : (reader size).meets DiscardsHeld r (calls.map .read) = true) :
    ∃ answers u, reads.run r calls = some (answers, u) ∧ u.sync.allowDiscard = true ∧
      u.Accounted := by
  induction calls generalizing r with
  | nil => exact ⟨[], r, rfl, hunlocked, h⟩
  | cons call calls ih =>
    obtain ⟨hok, hrest⟩ := (Bool.and_eq_true _ _).mp hcalls
    have hheld : r.DiscardsHeld (.read call) := of_decide_eq_true hok
    obtain ⟨answer, r', hr⟩ := h.returns hheld
    have hstep : (reader size).step r (.read call) = some r' := congrArg (Option.map Prod.snd) hr
    rw [hstep, all_some] at hrest
    obtain ⟨answers, u, hrun, hlast⟩ :=
      ih (h.step hheld hstep) ((allowDiscard_perform hr).trans hunlocked) hrest
    refine ⟨answer :: answers, u, ?_, hlast⟩
    rw [Calls.run_cons (show reads.perform r call = some (answer, r') from hr), hrun]
    rfl

end Reader

/-! ### The walk over the slots -/

/-- The buffer with its ledger. -/
def tally (size : ℕ) : System Tally BufferCall where
  init := ⟨.init size, 0, 0⟩
  step := Tally.step

/-- In every run in which only data is discarded that has been dequeued, each call of
`streambuf_dec_cnt_stale` returns, the number of stale commands is the distance from `sslot`
to `eslot`, and the slots between them count the data that has been put in and not been
discarded; unless the counters of another player are about to be restored. -/
theorem stale_slots_account (size : ℕ) (t : Tally)
    (h : (tally size).ReachableUnder (fun t => t.reader.DiscardsHeld) t) :
    (∀ call, t.reader.DiscardsHeld (.read call) → ∃ r', t.reader.step (.read call) = some r') ∧
      (∀ lock, ∃ r', t.reader.step (.lockState lock) = some r') ∧
      (t.reader.receiving = false →
        t.reader.sync.buf.cmdCntStale = (t.reader.sync.buf.eslot - t.reader.sync.buf.sslot).val ∧
        t.reader.sync.buf.cmdCntStale ≤ maxStreamCmds ∧
        ∑ j ∈ Finset.range (t.reader.sync.buf.cmdCntStale + 1),
          t.reader.sync.buf.slotCntStale (t.reader.sync.buf.sslot.after j) + t.discarded =
            t.put) := by
  have heven : t.Even := h.invariant (I := Tally.Even) (.inl ⟨[], .init size, rfl⟩)
    fun _ _ _ hs hok hstep => hs.step hok hstep
  refine ⟨fun call hheld => ?_, fun lock => ?_, fun hown => ?_⟩
  · have haccounted : t.reader.Accounted := heven.imp_left fun ⟨w, hw, _⟩ => ⟨w, hw⟩
    obtain ⟨answer, r', hr⟩ := haccounted.returns hheld
    exact ⟨r', congrArg (Option.map Prod.snd) hr⟩
  · rcases heven with ⟨w, hw, -⟩ | hreceiving
    · obtain ⟨r', -, hr, -⟩ := hw.lockState lock
      exact ⟨r', hr⟩
    · obtain ⟨r', hr, -⟩ := hreceiving.lockState lock
      exact ⟨r', hr⟩
  · obtain ⟨w, hw, hput⟩ := heven.balanced hown
    have hcnt := hw.staleCounts.cmdCntStale
    have hle := hw.staleCounts.bounded
    refine ⟨?_, hcnt ▸ hle, ?_⟩
    · rw [hw.staleCounts.eslot, Slot.after_eq_add, add_sub_cancel_left, hcnt, Fin.val_ofNat,
        Nat.mod_eq_of_lt (by omega)]
    · rw [← hput, ← Reader.sum_runs, ← sum_getD (runs w) (length_runs w).le, hcnt]
      refine congrArg (· + t.discarded) (Finset.sum_congr rfl fun j hj => ?_)
      have hlt := Finset.mem_range.mp hj
      exact hw.staleCounts.counts j (by omega)

/-- Data before and behind a command; all of the first and a byte of the rest is discarded
under the lock, and then the lock is released. -/
def thawedWalk : List BufferCall :=
  [.dataEnq [1, 2, 3], .cmdEnq [7, 7], .dataEnq [4, 5], .lockState true,
    .read (.dataDeq 0 8), .read (.cmdDeq 2), .read (.dataDeq 0 8), .read (.discard 3 true),
    .read (.discard 2 false), .read (.discard 1 true), .lockState false]

theorem stale_slots_account_thawed :
    ∃ t, (tally 16).ReachableUnder (fun t => t.reader.DiscardsHeld) t ∧
      t.put = 5 ∧ t.discarded = 4 ∧ t.reader.sync.buf.sslot = 1 ∧
      t.reader.sync.buf.slotCntStale 1 = 1 ∧
      ∃ r', t.reader.step (.read (.discard 1 true)) = some r' := by
  obtain ⟨t, -, hreach, hput, hdiscarded, hslot, hcnt, hheld⟩ := System.exists_reachableUnder
    (tally 16) (fun t => t.reader.DiscardsHeld) thawedWalk
    (fun t => t.put = 5 ∧ t.discarded = 4 ∧ t.reader.sync.buf.sslot = 1 ∧
      t.reader.sync.buf.slotCntStale 1 = 1 ∧
      t.reader.DiscardsHeld (.read (.discard 1 true))) (by decide +kernel) (by decide +kernel)
  exact ⟨t, hreach, hput, hdiscarded, hslot, hcnt,
    (stale_slots_account 16 t hreach).1 (.discard 1 true) hheld⟩

end BeepMusic.Audio
