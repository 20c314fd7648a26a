import BeepMusic.Audio.StaleCounters

/-!
Discards add up. Discarding one part after the other from the fifo is discarding them
together, also when bytes are dequeued in between; and `streambuf_dec_cnt_stale` of a
sum is the first part and then the second, wherever the commands are. It ends if the
counters hold as much data as it is to take.
-/

namespace BeepMusic.Audio

open Lib List Option

/-! ### The fifo -/

namespace Fifo2

variable {f : Fifo2} {m n : ℕ}

theorem discard_min (f : Fifo2) (n : ℕ) : f.discard n = f.discard (min n f.staleLength) := by
  have hdiscard : ∀ n, f.discard n =
      if f.staleLength ≤ n then (f.staleLength, { f with sptr := f.rptr })
      else (n, { f with sptr := f.incPtr f.sptr n }) := fun _ => rfl
  rcases Nat.le_total n f.staleLength with hle | hle
  · rw [Nat.min_eq_left hle]
  · rw [Nat.min_eq_right hle, hdiscard, hdiscard, if_pos hle, if_pos (Nat.le_refl _)]

theorem wptrIncby_frame (f : Fifo2) (n : ℕ) : ∃ wptr, f.wptrIncby n = { f with wptr := wptr } := by
  rw [wptrIncby]
  split_ifs
  · exact ⟨_, rfl⟩
  · exact ⟨_, rfl⟩

theorem enq_frame (f : Fifo2) (buf : Bytes) :
    ∃ base wptr, (f.enq buf).2 = { f with base := base, wptr := wptr } := by
  rw [enq]
  dsimp only
  split_ifs
  · exact ⟨_, _, rfl⟩
  · obtain ⟨wptr, hwptr⟩ := wptrIncby_frame { f with base := memcpyIn f.base f.wptr buf } buf.length
    exact ⟨_, wptr, hwptr⟩
  · -- the buffer wraps around, and the pointer is moved twice
    obtain ⟨first, hfirst⟩ := wptrIncby_frame { f with
      base := memcpyIn (memcpyIn f.base f.wptr (buf.take (f.size - f.wptr))) 0
        (buf.drop (f.size - f.wptr)) } (f.size - f.wptr)
    rw [hfirst]
    obtain ⟨wptr, hwptr⟩ := wptrIncby_frame { f with
      base := memcpyIn (memcpyIn f.base f.wptr (buf.take (f.size - f.wptr))) 0
        (buf.drop (f.size - f.wptr))
      wptr := first } (buf.length - (f.size - f.wptr))
    exact ⟨_, wptr, hwptr⟩

theorem discard_of_eq (h : f.sptr = f.rptr) (n : ℕ) : f.discard n = (0, f) := by
  have hstale : f.staleLength = 0 := by rw [staleLength, h, Nat.sub_self]
  have hdiscard : f.discard n =
      if f.staleLength ≤ n then (f.staleLength, { f with sptr := f.rptr })
      else (n, { f with sptr := f.incPtr f.sptr n }) := rfl
  rw [hdiscard, hstale, if_pos (Nat.zero_le n)]
  exact congrArg (fun sptr => (0, { f with sptr := sptr })) h.symm

theorem Ok.discard_eq (h : f.Ok) (hn : n ≤ f.staleLength) :
    f.discard n = (n, { f with sptr := Ring.advance f.size f.sptr n }) := by
  have hdiscard : f.discard n =
      if f.staleLength ≤ n then (f.staleLength, { f with sptr := f.rptr })
      else (n, { f with sptr := Ring.advance f.size f.sptr n }) := rfl
  rw [hdiscard]
  split_ifs with hall
  · -- all stale bytes: the pointer comes to `rptr`
    obtain rfl : n = f.staleLength := Nat.le_antisymm hn hall
    rw [staleLength, Ring.advance_dist_sub h.sptr h.rptr h.wptr h.le]
  · rfl

theorem Ok.staleLength_discard (h : f.Ok) (n : ℕ) :
    (f.discard n).2.staleLength = f.staleLength - n := by
  rw [← length_stale, h.stale_discard, length_drop, length_stale]

theorem Ok.discard_discard (h : f.Ok) (hmn : m + n ≤ f.staleLength) :
    (f.discard m).2.discard n = (n, (f.discard (m + n)).2) := by
  have hsize : f.staleLength < f.size :=
    Nat.lt_of_le_of_lt (Nat.sub_le _ _) (Ring.dist_lt h.sptr h.wptr)
  have hn : n ≤ (f.discard m).2.staleLength := by
    rw [h.staleLength_discard]
    omega
  rw [(h.discard m).1.discard_eq hn, h.discard_eq hmn,
    h.discard_eq (show m ≤ f.staleLength by omega)]
  rw [Ring.advance_advance h.sptr (by omega)]

theorem Ok.staleLength_deq (h : f.Ok) (n : ℕ) :
    f.staleLength ≤ (f.deq n false).2.2.staleLength := by
  by_cases hn : n ≤ f.bytesUsed false
  · rw [← length_stale, ← length_stale, h.stale_deq hn, length_append]
    exact Nat.le_add_right _ _
  · rw [Fifo2.deq, if_pos (by omega)]

/-- Dequeuing does not mind what has been discarded. -/
theorem Ok.deq_discard (h : f.Ok) (hm : m ≤ f.staleLength) (n : ℕ) :
    (f.discard m).2.deq n false =
      ((f.deq n false).1, (f.deq n false).2.1, ((f.deq n false).2.2.discard m).2) := by
  rw [(h.retained_deq n).1.discard_eq (Nat.le_trans hm (h.staleLength_deq n)), h.discard_eq hm]
  by_cases hn : f.bytesUsed false < n
  · have hshort : ∀ sptr, { f with sptr := sptr }.deq n false = (0, [], { f with sptr := sptr }) :=
      fun _ => if_pos hn
    rw [hshort, show f.deq n false = (0, [], f) from if_pos hn]
  · have hread : ∀ sptr, { f with sptr := sptr }.deq n false =
        (n, f.copyOut f.rptr n, { f with sptr := sptr, rptr := f.incPtr f.rptr n }) :=
      fun _ => if_neg hn
    rw [hread, show f.deq n false = _ from hread f.sptr]

theorem discard_le (f : Fifo2) (n : ℕ) : (f.discard n).1 ≤ n := by
  rw [Fifo2.discard]
  split_ifs with hall
  · exact hall
  · exact Nat.le_refl n

/-- `g` is `f`, or `f` with bytes dequeued. -/
def Dequeued (f g : Fifo2) : Prop := g = f ∨ ∃ n, g = (f.deq n false).2.2

namespace Dequeued

variable {g : Fifo2}

theorem ok (h : f.Dequeued g) (hf : f.Ok) : g.Ok := by
  rcases h with rfl | ⟨n, rfl⟩
  · exact hf
  · exact (hf.retained_deq n).1

theorem size (h : f.Dequeued g) (hf : f.Ok) : g.size = f.size := by
  rcases h with rfl | ⟨n, rfl⟩
  · rfl
  · exact hf.size_perform (.deq n false) trivial

theorem staleLength (h : f.Dequeued g) (hf : f.Ok) : f.staleLength ≤ g.staleLength := by
  rcases h with rfl | ⟨n, rfl⟩
  · exact Nat.le_refl _
  · exact hf.staleLength_deq n

end Dequeued

end Fifo2

/-! ### The counters -/

namespace Streambuf

variable {s s' t : Streambuf} {w : List Item}

/-- What `streambuf_dec_cnt_stale` reads and changes. -/
def counters (s : Streambuf) : (Slot → ℕ) × Slot × ℕ × Slot :=
  (s.slotCntStale, s.sslot, s.cmdCntStale, s.eslot)

theorem dataDeq_eq (s : Streambuf) (min max : ℕ) :
    s.dataDeq min max =
      if s.dataSize min max = 0 then s
      else { s with
        fifo := (s.fifo.deq (s.dataSize min max) false).2.2
        slotCnt := Function.update s.slotCnt s.dslot (s.slotCnt s.dslot - s.dataSize min max)
        dequeued := s.dequeued ++ (s.fifo.deq (s.dataSize min max) false).2.1.map .byte
        dataTaken := s.dataTaken + s.dataSize min max } := rfl

theorem cmdDeq_eq (s : Streambuf) (size : ℕ) :
    s.cmdDeq size =
      if s.cmdCnt ≠ 0 ∧ s.slotCnt s.dslot = 0 then
        if (s.fifo.deq size false).1 = 0 then s
        else { s with
          fifo := (s.fifo.deq size false).2.2
          dslot := s.dslot.next
          cmdCnt := s.cmdCnt - 1
          dequeued := s.dequeued ++ [.cmd (s.fifo.deq size false).2.1]
          cmdTaken := some (s.fifo.deq size false).1 }
      else s := rfl

theorem fifo_dataDeq (s : Streambuf) (min max : ℕ) :
    s.fifo.Dequeued (s.dataDeq min max).fifo := by
  rw [dataDeq_eq]
  split_ifs
  · exact .inl rfl
  · exact .inr ⟨_, rfl⟩

theorem fifo_cmdDeq (s : Streambuf) (size : ℕ) : s.fifo.Dequeued (s.cmdDeq size).fifo := by
  rw [cmdDeq_eq]
  split_ifs
  · exact .inl rfl
  · exact .inr ⟨_, rfl⟩
  · exact .inl rfl

theorem counters_dataDeq (s : Streambuf) (min max : ℕ) :
    (s.dataDeq min max).counters = s.counters := by
  rw [dataDeq_eq]
  split_ifs <;> rfl

theorem counters_cmdDeq (s : Streambuf) (size : ℕ) : (s.cmdDeq size).counters = s.counters := by
  rw [cmdDeq_eq]
  split_ifs <;> rfl

theorem decCntStaleLoop_congr (h : s.counters = t.counters) (fuel n : ℕ) :
    (decCntStaleLoop fuel s n).map counters = (decCntStaleLoop fuel t n).map counters := by
  induction fuel generalizing s t n with
  | zero => rfl
  | succ fuel ih =>
    obtain ⟨hstale, hsslot, hcnt, heslot⟩ : s.slotCntStale = t.slotCntStale ∧
        s.sslot = t.sslot ∧ s.cmdCntStale = t.cmdCntStale ∧ s.eslot = t.eslot := by
      simpa only [counters, Prod.mk.injEq] using h
    simp only [decCntStaleLoop, hstale, hsslot, hcnt, heslot]
    split_ifs
    · rfl
    · refine ih ?_ _
      rfl
    · rfl

theorem decCntStale_congr (h : s.counters = t.counters) (n : ℕ) :
    (s.decCntStale n).map counters = (t.decCntStale n).map counters :=
  decCntStaleLoop_congr h _ n

/-- All data before the first command is taken, and commands without data are passed. -/
def passSlot (s : Streambuf) : Streambuf :=
  let stale := Function.update s.slotCntStale s.sslot 0
  let passed := skipEmpty s.eslot stale maxStreamCmds s.sslot s.cmdCntStale
  { s with slotCntStale := stale, sslot := passed.1, cmdCntStale := passed.2 }

/-- Some of the data before the first command is taken. -/
def takeStale (s : Streambuf) (n : ℕ) : Streambuf :=
  { s with
    slotCntStale := Function.update s.slotCntStale s.sslot (s.slotCntStale s.sslot - n) }

theorem slot_takeStale (s : Streambuf) (n : ℕ) :
    (s.takeStale n).slotCntStale (s.takeStale n).sslot = s.slotCntStale s.sslot - n :=
  Function.update_self _ _ _

theorem passSlot_takeStale (s : Streambuf) (n : ℕ) : (s.takeStale n).passSlot = s.passSlot := by
  simp [passSlot, takeStale]

theorem takeStale_takeStale (s : Streambuf) (m n : ℕ) :
    (s.takeStale m).takeStale n = s.takeStale (m + n) := by
  simp only [takeStale, Function.update_self, Function.update_idem, Nat.sub_sub]

/-- Where the loops stop: at data, or at the end. -/
def Rested (s : Streambuf) : Prop := s.sslot = s.eslot ∨ s.slotCntStale s.sslot ≠ 0

theorem rested_passSlot (s : Streambuf) : s.passSlot.Rested := by
  obtain ⟨k, hle, hk⟩ := s.sslot.exists_after s.eslot
  obtain ⟨m, -, hslot, hstop⟩ := skipEmpty_spec
    (Function.update s.slotCntStale s.sslot 0) s.cmdCntStale hk hle hle
  rw [← hslot] at hstop
  refine hstop.imp (fun hm => ?_) id
  rw [hm] at hslot
  exact hslot.trans hk.symm

theorem decCntStale_zero (h : s.Rested) : s.decCntStale 0 = some s := by
  by_cases hzero : s.slotCntStale s.sslot = 0
  · have hsame : Function.update s.slotCntStale s.sslot 0 = s.slotCntStale := by
      rw [← hzero, Function.update_eq_self]
    have hskip : skipEmpty s.eslot s.slotCntStale maxStreamCmds s.sslot s.cmdCntStale =
        (s.sslot, s.cmdCntStale) := if_neg fun hne => hne.1 (h.resolve_right (· hzero))
    simp [decCntStale, decCntStaleLoop, hzero, hsame, hskip]
  · have hlt : ¬ s.slotCntStale s.sslot ≤ 0 := by omega
    simp only [decCntStale, decCntStaleLoop, if_neg hlt, Nat.sub_zero, Function.update_eq_self]

theorem decCntStale_turn (s : Streambuf) (n : ℕ) :
    s.decCntStale n =
      if s.slotCntStale s.sslot ≤ n then s.passSlot.decCntStale (n - s.slotCntStale s.sslot)
      else some (s.takeStale n) := by
  have hloop : s.decCntStale n =
      if s.slotCntStale s.sslot ≤ n then
        if n - s.slotCntStale s.sslot = 0 then some s.passSlot
        else decCntStaleLoop (maxStreamCmds + 1) s.passSlot (n - s.slotCntStale s.sslot)
      else some (s.takeStale n) := rfl
  rw [hloop, decCntStale_eq (Nat.lt_succ_self _)]
  split_ifs with hall hdone
  · rw [hdone, decCntStale_zero s.rested_passSlot]
  · rfl
  · rfl

/-- At rest there is data to take, or the loop never ends. -/
theorem Rested.decCntStale_none {n : ℕ} (h : s.Rested) (hzero : s.slotCntStale s.sslot = 0)
    (hn : n ≠ 0) : s.decCntStale n = none :=
  decCntStaleLoop_stuck (h.resolve_right (· hzero)) hzero hn

theorem Rested.decCntStale_add (h : s.Rested) (m n : ℕ) :
    s.decCntStale (m + n) = (s.decCntStale m).bind fun t => t.decCntStale n := by
  induction m using Nat.strong_induction_on generalizing s with
  | _ m ih =>
    rcases Nat.eq_zero_or_pos m with rfl | hpos
    · rw [decCntStale_zero h, Nat.zero_add, bind_some]
    · by_cases hzero : s.slotCntStale s.sslot = 0
      · rw [h.decCntStale_none hzero (by omega), h.decCntStale_none hzero (by omega),
          bind_none]
      · rw [s.decCntStale_turn (m + n), s.decCntStale_turn m]
        by_cases hall : s.slotCntStale s.sslot ≤ m
        · rw [if_pos hall, if_pos (by omega), ← ih _ (by omega) s.rested_passSlot,
            Nat.sub_add_comm hall]
        · -- the second part goes on in the slot of the first
          rw [if_neg hall, bind_some, (s.takeStale m).decCntStale_turn, slot_takeStale,
            passSlot_takeStale, takeStale_takeStale]
          by_cases hboth : s.slotCntStale s.sslot ≤ m + n
          · have hleft : m + n - s.slotCntStale s.sslot = n - (s.slotCntStale s.sslot - m) := by
              omega
            rw [if_pos hboth, if_pos (by omega), hleft]
          · rw [if_neg hboth, if_neg (by omega)]

theorem decCntStale_add (s : Streambuf) (m n : ℕ) :
    s.decCntStale (m + n) = (s.decCntStale m).bind fun t => t.decCntStale n := by
  by_cases h : s.Rested
  · exact h.decCntStale_add m n
  · have hzero : s.slotCntStale s.sslot = 0 := by_contra fun hne => h (.inr hne)
    have hpass : ∀ k, s.decCntStale k = s.passSlot.decCntStale k := by
      intro k
      rw [decCntStale_turn, hzero, if_pos (Nat.zero_le k), Nat.sub_zero]
    rw [hpass, hpass, s.rested_passSlot.decCntStale_add]

theorem decCntStale_add_congr {b : Streambuf} {m : ℕ}
    (h : (s.decCntStale m).map counters = (t.decCntStale 0).map counters)
    (hb : b.counters = t.counters) (n : ℕ) :
    (s.decCntStale (m + n)).map counters = (b.decCntStale n).map counters := by
  have hparts : b.decCntStale n = (b.decCntStale 0).bind fun t => t.decCntStale n := by
    rw [← decCntStale_add, Nat.zero_add]
  rw [hparts, decCntStale_add]
  rw [← decCntStale_congr hb] at h
  cases hs : s.decCntStale m with
  | none =>
    rw [hs, map_none, eq_comm, map_eq_none_iff] at h
    rw [h]
  | some s' =>
    rw [hs, map_some, eq_comm, map_eq_some_iff] at h
    obtain ⟨b', hb', hcounters⟩ := h
    rw [hb', bind_some, bind_some, decCntStale_congr hcounters.symm]

theorem decCntStale_again {n : ℕ} (h : s.decCntStale n = some s') :
    s'.decCntStale 0 = some s' := by
  have hparts := s.decCntStale_add n 0
  rw [Nat.add_zero, h, bind_some] at hparts
  exact hparts.symm

/-- The stale counters can be those of a stream: the slots behind `eslot` are empty, and
`streambuf_cmd_cnt_stale` is the number of slots before it. -/
def Consistent (s : Streambuf) : Prop :=
  s.cmdCntStale ≤ maxStreamCmds ∧ s.eslot = s.sslot.after s.cmdCntStale ∧
    ∀ j ≤ maxStreamCmds, s.cmdCntStale < j → s.slotCntStale (s.sslot.after j) = 0
deriving Decidable

/-! ### The loop ends -/

variable (h : s.StaleCounts w)
include h

theorem StaleCounts.of_counters (hcounters : t.counters = s.counters) : t.StaleCounts w := by
  simp only [counters, Prod.mk.injEq] at hcounters
  obtain ⟨hstale, hsslot, hcnt, heslot⟩ := hcounters
  refine ⟨?_, h.bounded, ?_, ?_⟩
  · rw [hstale, hsslot]
    exact h.counts
  · rw [heslot, hsslot]
    exact h.eslot
  · rw [hcnt]
    exact h.cmdCntStale

theorem StaleCounts.passSlot :
    ∃ w', s.passSlot.StaleCounts w' ∧
      (dataOf w).length = s.slotCntStale s.sslot + (dataOf w').length := by
  obtain ⟨passed, w', hdrop, hw'⟩ := h.turn (Nat.le_refl _)
  refine ⟨w', hw', ?_⟩
  have hlength := congrArg (fun q => (dataOf q).length) hdrop
  simp only [Nat.sub_self, dropData_zero, dataOf_dropData, dataOf_append, dataOf_map_cmd,
    nil_append, length_drop] at hlength
  obtain ⟨bs, q, rfl, hbs⟩ := exists_eq_map_byte_append w (Nat.le_of_eq h.counts.head)
  rw [dataOf_append, dataOf_map_byte, length_append] at hlength ⊢
  omega

/-- At rest the slot has data, if there is any. -/
theorem StaleCounts.slot_ne_zero (hrest : s.Rested) (hdata : 0 < (dataOf w).length) :
    s.slotCntStale s.sslot ≠ 0 := by
  rcases hrest with hslot | hne
  · -- the last slot counts all data
    have hcmds : (cmds w).length = 0 :=
      Slot.after_injective h.bounded (Nat.zero_le _) (h.eslot.symm.trans hslot.symm)
    have hw := eq_map_byte_of_cmds_eq_nil (eq_nil_of_length_eq_zero hcmds)
    have hruns := runs_map_byte_append (dataOf w) []
    rw [append_nil, ← hw] at hruns
    rw [h.counts.head, hruns]
    exact Nat.ne_of_gt (Nat.lt_of_lt_of_le hdata (Nat.le_add_left _ _))
  · exact hne

theorem StaleCounts.rested_returns {n : ℕ} (hrest : s.Rested) (hn : n ≤ (dataOf w).length) :
    ∃ s', s.decCntStale n = some s' := by
  induction n using Nat.strong_induction_on generalizing s w with
  | _ n ih =>
    rcases Nat.eq_zero_or_pos n with rfl | hpos
    · exact ⟨s, decCntStale_zero hrest⟩
    · have hne := h.slot_ne_zero hrest (by omega)
      rw [decCntStale_turn]
      split_ifs with hall
      · obtain ⟨w', hw', hlength⟩ := h.passSlot
        exact ih _ (by omega) hw' s.rested_passSlot (by omega)
      · exact ⟨_, rfl⟩

/-- What the counters hold can be taken. -/
theorem StaleCounts.decCntStale_returns {n : ℕ} (hn : n ≤ (dataOf w).length) :
    ∃ s' w', s.decCntStale n = some s' ∧ s'.StaleCounts w' ∧
      (dataOf w').length + n = (dataOf w).length := by
  obtain ⟨s', hs'⟩ : ∃ s', s.decCntStale n = some s' := by
    by_cases hrest : s.Rested
    · exact h.rested_returns hrest hn
    · have hzero : s.slotCntStale s.sslot = 0 := by_contra fun hne => hrest (.inr hne)
      obtain ⟨w', hw', hlength⟩ := h.passSlot
      rw [decCntStale_turn, hzero, if_pos (Nat.zero_le n)]
      exact hw'.rested_returns s.rested_passSlot (by omega)
  obtain ⟨passed, w', hdrop, hw'⟩ := h.decCntStaleLoop hs'
  refine ⟨s', w', hs', hw', ?_⟩
  have hlength := congrArg (fun q => (dataOf q).length) hdrop
  simp only [dataOf_dropData, dataOf_append, dataOf_map_cmd, nil_append,
    length_drop] at hlength
  omega

end Streambuf

end BeepMusic.Audio
