import Mathlib.Algebra.BigOperators.Fin
import Mathlib.Algebra.Group.Fin.Basic
import Mathlib.Algebra.Group.Units.Equiv
import BeepMusic.Audio.Streambuf

/-!
The slots frame the stream. As long as there are no more commands in it than slots
but one, the slots from `dslot` on count the stretches of data between the commands
that are pending, and the fresh bytes of the fifo are those data and commands in the
order in which they were put in. So what is taken out is what was put in.
-/

namespace BeepMusic.Audio

open Lib List

/-! ### Streams -/

def Item.bytes : Item → Bytes
  | .byte b => [b]
  | .cmd bytes => bytes

/-- The commands of a stream. -/
def cmds : List Item → List Bytes
  | [] => []
  | .byte _ :: q => cmds q
  | .cmd bytes :: q => bytes :: cmds q

/-- The lengths of the stretches of data before, between and behind the commands. -/
def runs : List Item → List ℕ
  | [] => [0]
  | .byte _ :: q => (runs q).modifyHead (· + 1)
  | .cmd _ :: q => 0 :: runs q

variable (q : List Item)

theorem length_runs : (runs q).length = (cmds q).length + 1 := by
  induction q with
  | nil => rfl
  | cons item q ih =>
    cases item with
    | byte b => rw [runs, length_modifyHead, ih, cmds]
    | cmd bytes => rw [runs, length_cons, ih, cmds, length_cons]

theorem exists_runs_eq_cons : ∃ r rs, runs q = r :: rs :=
  exists_cons_of_ne_nil (ne_nil_of_length_eq_add_one (length_runs q))

theorem cmds_append (q q' : List Item) : cmds (q ++ q') = cmds q ++ cmds q' := by
  induction q with
  | nil => rfl
  | cons item q ih =>
    cases item with
    | byte b => exact ih
    | cmd bytes => exact congrArg (bytes :: ·) ih

theorem cmds_map_byte (bs : Bytes) : cmds (bs.map .byte) = [] := by
  induction bs with
  | nil => rfl
  | cons b bs ih => exact ih

theorem runs_map_byte_append (bs : Bytes) (q : List Item) :
    runs (bs.map .byte ++ q) = (runs q).modifyHead (· + bs.length) := by
  induction bs with
  | nil => cases hq : runs q <;> simp [hq]
  | cons b bs ih =>
    rw [map_cons, cons_append, runs, ih, length_cons]
    cases hq : runs q with
    | nil => rfl
    | cons r rs =>
      rw [modifyHead_cons, modifyHead_cons, modifyHead_cons, Nat.add_assoc]

/-- More data makes the last stretch longer. -/
theorem runs_append_map_byte (bs : Bytes) (j : ℕ) : (runs (q ++ bs.map .byte)).getD j 0 =
      (runs q).getD j 0 + if j = (cmds q).length then bs.length else 0 := by
  induction q generalizing j with
  | nil =>
    rw [nil_append, ← append_nil (bs.map Item.byte), runs_map_byte_append]
    cases j <;> simp [runs, cmds]
  | cons item q ih =>
    cases item with
    | byte b =>
      obtain ⟨r, rs, hq⟩ := exists_runs_eq_cons q
      obtain ⟨r', rs', hq'⟩ := exists_runs_eq_cons (q ++ bs.map .byte)
      have hj := ih j
      rw [cons_append, runs, runs, cmds]
      rw [hq, hq'] at hj ⊢
      cases j with
      | zero =>
        simp only [modifyHead_cons, getD_cons_zero] at hj ⊢
        omega
      | succ j => exact hj
    | cmd bytes =>
      rw [cons_append, runs, runs, cmds]
      cases j with
      | zero => simp
      | succ j => simpa using ih j

theorem runs_append_cmd (bytes : Bytes) : runs (q ++ [.cmd bytes]) = runs q ++ [0] := by
  induction q with
  | nil => rfl
  | cons item q ih =>
    cases item with
    | byte b =>
      obtain ⟨r, rs, hq⟩ := exists_runs_eq_cons q
      rw [cons_append, runs, runs, ih, hq]
      rfl
    | cmd bytes' => exact congrArg (0 :: ·) ih

variable {n : ℕ}

/-- A stream begins with as many bytes of data as its first stretch has. -/
theorem exists_eq_map_byte_append (h : n ≤ (runs q).getD 0 0) :
    ∃ (bs : Bytes) (q' : List Item), q = bs.map .byte ++ q' ∧ bs.length = n := by
  induction n generalizing q with
  | zero => exact ⟨[], q, rfl, rfl⟩
  | succ n ih =>
    cases q with
    | nil => simp [runs] at h
    | cons item q =>
      cases item with
      | cmd bytes => simp [runs] at h
      | byte b =>
        have hn : n ≤ (runs q).getD 0 0 := by
          obtain ⟨r, rs, hq⟩ := exists_runs_eq_cons q
          rw [runs, hq] at h
          rw [hq]
          simpa using h
        obtain ⟨bs, q', rfl, rfl⟩ := ih q hn
        exact ⟨b :: bs, q', rfl, rfl⟩

/-- Without data at the beginning a command comes first, if there is one. -/
theorem exists_eq_cmd_cons (hrun : (runs q).getD 0 0 = 0) (hcmds : cmds q ≠ []) :
    ∃ bytes q', q = .cmd bytes :: q' := by
  cases q with
  | nil => exact absurd rfl hcmds
  | cons item q =>
    cases item with
    | cmd bytes => exact ⟨bytes, q, rfl⟩
    | byte b =>
      obtain ⟨r, rs, hq⟩ := exists_runs_eq_cons q
      simp [runs, hq] at hrun

theorem sum_runs_add :
    (runs q).sum + ((cmds q).map List.length).sum = (q.flatMap Item.bytes).length := by
  induction q with
  | nil => rfl
  | cons item q ih =>
    obtain ⟨r, rs, hq⟩ := exists_runs_eq_cons q
    cases item with
    | byte b =>
      simp only [runs, cmds, hq, modifyHead_cons, sum_cons, flatMap_cons,
        length_append, Item.bytes, length_singleton] at ih ⊢
      omega
    | cmd bytes =>
      simp only [runs, cmds, map_cons, sum_cons, flatMap_cons,
        length_append, Item.bytes] at ih ⊢
      omega

/-! ### The slots -/

variable (slot : Slot)

/-- The slot that is `n` after another. -/
def Slot.after (n : ℕ) : Slot := Slot.next^[n] slot

theorem Slot.after_zero : slot.after 0 = slot := rfl

theorem Slot.next_after (n : ℕ) : (slot.after n).next = slot.after (n + 1) :=
  (Function.iterate_succ_apply' Slot.next n slot).symm

theorem Slot.after_next (n : ℕ) : slot.next.after n = slot.after (n + 1) := rfl

theorem Slot.after_after (m n : ℕ) : (slot.after m).after n = slot.after (m + n) := by
  rw [Nat.add_comm]
  exact (Function.iterate_add_apply Slot.next n m slot).symm

theorem Slot.after_eq_add (n : ℕ) : slot.after n = slot + Fin.ofNat (maxStreamCmds + 1) n := by
  induction n with
  | zero => exact (add_zero slot).symm
  | succ n ih =>
    rw [← next_after, ih, next, add_assoc]
    apply Fin.ext
    simp [Fin.val_add]

theorem Slot.after_injective {slot : Slot} {m : ℕ} (hm : m ≤ maxStreamCmds)
    (hn : n ≤ maxStreamCmds) (h : slot.after m = slot.after n) : m = n := by
  rw [after_eq_add, after_eq_add] at h
  have hval := congrArg Fin.val (add_left_cancel h)
  simp only [Fin.val_ofNat] at hval
  rwa [Nat.mod_eq_of_lt (by omega), Nat.mod_eq_of_lt (by omega)] at hval

theorem Slot.after_turn : slot.after (maxStreamCmds + 1) = slot := by
  have hzero : Fin.ofNat (maxStreamCmds + 1) (maxStreamCmds + 1) = 0 := rfl
  rw [after_eq_add, hzero, add_zero]

theorem Slot.exists_after (slot slot' : Slot) : ∃ k ≤ maxStreamCmds, slot' = slot.after k := by
  refine ⟨(slot' - slot).val, Nat.le_of_lt_succ (slot' - slot).isLt, ?_⟩
  rw [after_eq_add, Fin.ofNat_val_eq_self, add_sub_cancel]

theorem getD_append_zero (l : List ℕ) (j : ℕ) : (l ++ [0]).getD j 0 = l.getD j 0 := by
  induction l generalizing j with
  | nil => cases j <;> rfl
  | cons a l ih =>
    cases j with
    | zero => rfl
    | succ j => exact ih j

theorem sum_getD (l : List ℕ) (h : l.length ≤ n) : ∑ j ∈ Finset.range n, l.getD j 0 = l.sum := by
  induction l generalizing n with
  | nil => simp
  | cons a l ih =>
    obtain ⟨n, rfl⟩ : ∃ m, n = m + 1 := ⟨n - 1, by simp at h; omega⟩
    rw [Finset.sum_range_succ', sum_cons]
    simp only [getD_cons_succ, getD_cons_zero]
    rw [ih (by simpa using h), Nat.add_comm]

/-- Slots that count stretches, from some slot on, count all of them. -/
theorem sum_slots {slotCnt : Slot → ℕ} {dslot : Slot} {l : List ℕ}
    (hlength : l.length ≤ maxStreamCmds + 1)
    (h : ∀ j ≤ maxStreamCmds, slotCnt (dslot.after j) = l.getD j 0) :
    ∑ i, slotCnt i = l.sum := by
  have hturn : ∑ i, slotCnt i = ∑ j : Slot, slotCnt (dslot + j) :=
    (Fintype.sum_equiv (Equiv.addLeft dslot) _ _ fun j => rfl).symm
  have heach : ∀ j : Slot, slotCnt (dslot + j) = l.getD j 0 := by
    intro j
    have hj := h j (Nat.le_of_lt_succ j.isLt)
    rwa [Slot.after_eq_add, Fin.ofNat_val_eq_self] at hj
  rw [hturn, Finset.sum_congr rfl fun j _ => heach j,
    Fin.sum_univ_eq_sum_range (fun j => l.getD j 0), sum_getD l hlength]

/-- The slots from some slot on count the stretches of a stream. -/
def Counts (cnt : Slot → ℕ) (slot : Slot) (q : List Item) : Prop :=
  ∀ j ≤ maxStreamCmds, cnt (slot.after j) = (runs q).getD j 0

namespace Counts

variable {cnt : Slot → ℕ} {slot : Slot} {q : List Item}

theorem head (h : Counts cnt slot q) : cnt slot = (runs q).getD 0 0 := by
  have hzero := h 0 (Nat.zero_le _)
  rwa [Slot.after_zero] at hzero

theorem append_bytes (h : Counts cnt slot q) (hle : (cmds q).length ≤ maxStreamCmds)
    (bs : Bytes) :
    Counts (Function.update cnt (slot.after (cmds q).length)
      (cnt (slot.after (cmds q).length) + bs.length)) slot (q ++ bs.map .byte) := by
  intro j hj
  rw [runs_append_map_byte]
  split_ifs with hlast
  · rw [hlast, Function.update_self, h _ hle]
  · have hne : slot.after j ≠ slot.after (cmds q).length :=
      fun heq => hlast (Slot.after_injective hj hle heq)
    rw [Function.update_of_ne hne, h j hj, Nat.add_zero]

theorem append_cmd (h : Counts cnt slot q) (bytes : Bytes) :
    Counts cnt slot (q ++ [.cmd bytes]) := by
  intro j hj
  rw [h j hj, runs_append_cmd, getD_append_zero]

theorem drop_bytes {bs : Bytes} (h : Counts cnt slot (bs.map .byte ++ q)) :
    Counts (Function.update cnt slot (cnt slot - bs.length)) slot q := by
  intro j hj
  have hslot := h j hj
  rw [runs_map_byte_append] at hslot
  obtain ⟨r, rs, hq⟩ := exists_runs_eq_cons q
  rw [hq] at hslot ⊢
  cases j with
  | zero =>
    rw [Slot.after_zero] at hslot ⊢
    rw [Function.update_self, hslot]
    simp
  | succ j =>
    have hne : slot.after (j + 1) ≠ slot := by
      intro heq
      have hsame := Slot.after_injective (n := 0) hj (Nat.zero_le _)
        (heq.trans (Slot.after_zero slot).symm)
      omega
    rw [Function.update_of_ne hne, hslot]
    rfl

/-- Once the command at the front is gone, the slots are counted from the next one on. -/
theorem drop_cmd {bytes : Bytes} (h : Counts cnt slot (.cmd bytes :: q))
    (hle : (cmds q).length < maxStreamCmds) : Counts cnt slot.next q := by
  intro j hj
  rw [Slot.after_next]
  rcases Nat.lt_or_ge j maxStreamCmds with hlt | hge
  · exact h (j + 1) hlt
  · -- the slot that has become free
    obtain rfl : j = maxStreamCmds := by omega
    have hlength : (runs q).length ≤ maxStreamCmds := by
      rw [length_runs]
      exact hle
    have hunused : (runs q).getD maxStreamCmds 0 = 0 := by
      rw [getD_eq_getElem?_getD, getElem?_eq_none hlength]
      rfl
    rw [Slot.after_turn, h.head, hunused]
    rfl

end Counts

/-! ### The buffer -/

namespace Streambuf

/-- What has been put in and not taken out. -/
def pending (s : Streambuf) : List Item := s.enqueued.drop s.dequeued.length

variable {s s' : Streambuf} {q : List Item}

/-- The stream `q` is in the buffer. -/
structure Framing (s : Streambuf) (q : List Item) : Prop where
  ok : s.fifo.Ok
  enqueued : s.enqueued = s.dequeued ++ q
  fresh : s.fifo.fresh = q.flatMap Item.bytes
  cmdCnt : s.cmdCnt = (cmds q).length
  bounded : (cmds q).length ≤ maxStreamCmds
  eslot : s.eslot = s.dslot.after (cmds q).length
  slots : ∀ j ≤ maxStreamCmds, s.slotCnt (s.dslot.after j) = (runs q).getD j 0

namespace Framing

theorem counts (h : Framing s q) : Counts s.slotCnt s.dslot q := h.slots

theorem pending_eq (h : Framing s q) : s.pending = q := by
  rw [pending, h.enqueued, drop_left]

theorem slotCnt_dslot (h : Framing s q) : s.slotCnt s.dslot = (runs q).getD 0 0 :=
  h.counts.head

theorem flatMap_map_byte (bs : Bytes) : (bs.map Item.byte).flatMap Item.bytes = bs := by
  induction bs with
  | nil => rfl
  | cons b bs ih => exact congrArg (b :: ·) ih

variable (h : Framing s q)
include h

theorem dataEnq {buf : Bytes} (hfit : buf.length ≤ s.fifo.bytesFree) :
    Framing (s.dataEnq buf) (q ++ buf.map .byte) := by
  obtain ⟨hok, hfresh⟩ := h.ok.enq hfit
  have hcmds : cmds (q ++ buf.map .byte) = cmds q := by
    rw [cmds_append, cmds_map_byte, append_nil]
  refine ⟨hok, ?_, ?_, ?_, ?_, ?_, ?_⟩
  · show s.enqueued ++ buf.map .byte = s.dequeued ++ (q ++ buf.map .byte)
    rw [h.enqueued, append_assoc]
  · show (s.fifo.enq buf).2.fresh = _
    rw [hfresh, h.fresh, flatMap_append, flatMap_map_byte]
  · exact hcmds ▸ h.cmdCnt
  · exact hcmds ▸ h.bounded
  · exact hcmds ▸ h.eslot
  · have hcounts := h.counts.append_bytes h.bounded buf
    rw [← h.eslot] at hcounts
    exact hcounts

theorem cmdEnq {buf : Bytes} (hlt : (cmds q).length < maxStreamCmds)
    (hstep : s.cmdEnq buf = some s') : Framing s' (q ++ [.cmd buf]) := by
  obtain ⟨hroom, rfl⟩ := Option.ite_some_none_eq_some.mp hstep
  obtain ⟨hok, hfresh⟩ := h.ok.enq (Nat.le_of_lt hroom.2)
  have hcmds : (cmds (q ++ [.cmd buf])).length = (cmds q).length + 1 := by
    rw [cmds_append, length_append]
    rfl
  refine ⟨hok, ?_, ?_, ?_, ?_, ?_, ?_⟩
  · rw [h.enqueued, append_assoc]
  · rw [hfresh, h.fresh, flatMap_append]
    simp [Item.bytes]
  · rw [hcmds, ← h.cmdCnt]
  · rw [hcmds]
    exact hlt
  · rw [hcmds, h.eslot, Slot.next_after]
  · exact h.counts.append_cmd buf

theorem dataSize_le (min max : ℕ) : s.dataSize min max ≤ s.fifo.bytesUsed false := by
  have hsize : s.dataSize min max ≤ (runs q).getD 0 0 := by
    rw [← h.slotCnt_dslot, dataSize]
    split_ifs <;> omega
  obtain ⟨bs, q', rfl, hlength⟩ := exists_eq_map_byte_append q hsize
  rw [← hlength, ← Fifo2.length_fresh, h.fresh, flatMap_append, flatMap_map_byte,
    length_append]
  exact Nat.le_add_right _ _

theorem dataDeq (min max : ℕ) :
    ∃ (bs : Bytes) (q' : List Item), q = bs.map .byte ++ q' ∧ bs.length = s.dataSize min max ∧
      (s.dataDeq min max).dequeued = s.dequeued ++ bs.map .byte ∧
      (s.dataDeq min max).enqueued = s.enqueued ∧ Framing (s.dataDeq min max) q' := by
  have hsize : s.dataSize min max ≤ (runs q).getD 0 0 := by
    rw [← h.slotCnt_dslot, dataSize]
    split_ifs <;> omega
  obtain ⟨bs, q', rfl, hlength⟩ := exists_eq_map_byte_append q hsize
  refine ⟨bs, q', rfl, hlength, ?_⟩
  rw [Streambuf.dataDeq]
  split_ifs with hzero
  · obtain rfl : bs = [] := eq_nil_of_length_eq_zero (hlength.trans hzero)
    exact ⟨(append_nil _).symm, rfl, h⟩
  · have hfresh : s.fifo.fresh = bs ++ q'.flatMap Item.bytes := by
      rw [h.fresh, flatMap_append, flatMap_map_byte]
    obtain ⟨fifo, hdeq, hok, hrest⟩ := h.ok.deq_append hfresh
    have hcmds : cmds (bs.map .byte ++ q') = cmds q' := by rw [cmds_append, cmds_map_byte]; rfl
    rw [← hlength, hdeq]
    refine ⟨rfl, rfl, hok, ?_, hrest, hcmds ▸ h.cmdCnt, hcmds ▸ h.bounded, hcmds ▸ h.eslot,
      h.counts.drop_bytes⟩
    rw [h.enqueued, append_assoc]

/-- The first command, when it is next and is asked for with its own size. -/
theorem cmdDeq {size : ℕ} (hsize : ∀ bytes, (cmds q).head? = some bytes → size = bytes.length) :
    (s.cmdDeq size).enqueued = s.enqueued ∧
      ((s.cmdDeq size).dequeued = s.dequeued ∧ Framing (s.cmdDeq size) q ∨
        ∃ bytes q', q = .cmd bytes :: q' ∧
          (s.cmdDeq size).dequeued = s.dequeued ++ [.cmd bytes] ∧ Framing (s.cmdDeq size) q') := by
  rw [Streambuf.cmdDeq]
  split_ifs with hready
  · obtain ⟨hcnt, hdata⟩ := hready
    have hne : cmds q ≠ [] := by
      intro hnil
      rw [h.cmdCnt, hnil] at hcnt
      exact hcnt rfl
    rw [h.slotCnt_dslot] at hdata
    obtain ⟨bytes, q', rfl⟩ := exists_eq_cmd_cons q hdata hne
    obtain rfl := hsize bytes rfl
    obtain ⟨fifo, hdeq, hok, hrest⟩ := h.ok.deq_append
      (show s.fifo.fresh = bytes ++ q'.flatMap Item.bytes from h.fresh)
    rw [hdeq]
    dsimp only
    split_ifs with hzero
    · exact ⟨rfl, .inl ⟨rfl, h⟩⟩
    · refine ⟨rfl, .inr ⟨bytes, q', rfl, rfl, hok, ?_, hrest, ?_, ?_, ?_,
        h.counts.drop_cmd h.bounded⟩⟩
      · rw [h.enqueued, append_assoc]
        rfl
      · rw [h.cmdCnt]
        rfl
      · exact Nat.le_trans (Nat.le_succ _) h.bounded
      · exact h.eslot
  · exact ⟨rfl, .inl ⟨rfl, h⟩⟩

end Framing

variable {fuel bytesLeft size : ℕ}

/-- The inner loop ends between its first slot and `eslot`, where its condition is false. -/
theorem skipEmpty_spec {eslot sslot : Slot} (stale : Slot → ℕ) (cnt : ℕ) {k : ℕ}
    (hk : eslot = sslot.after k) (hle : k ≤ maxStreamCmds) (hfuel : k ≤ fuel) :
    ∃ m ≤ k, (skipEmpty eslot stale fuel sslot cnt).1 = sslot.after m ∧
      (m = k ∨ stale (sslot.after m) ≠ 0) := by
  induction fuel generalizing sslot k cnt with
  | zero => exact ⟨0, Nat.zero_le k, (Slot.after_zero sslot).symm, .inl (by omega)⟩
  | succ fuel ih =>
    rw [skipEmpty]
    split_ifs with hempty
    · obtain ⟨k, rfl⟩ : ∃ n, k = n + 1 := by
        refine ⟨k - 1, ?_⟩
        rcases Nat.eq_zero_or_pos k with rfl | hpos
        · exact absurd (hk.trans (Slot.after_zero sslot)).symm hempty.1
        · omega
      rw [← Slot.after_next] at hk
      obtain ⟨m, hm, hslot, hstop⟩ := ih _ hk (by omega) (by omega)
      exact ⟨m + 1, by omega, hslot, hstop.imp_left (congrArg (· + 1))⟩
    · refine ⟨0, Nat.zero_le k, (Slot.after_zero sslot).symm, ?_⟩
      by_cases hslot : sslot = eslot
      · exact .inl (Slot.after_injective (Nat.zero_le _) hle
          ((Slot.after_zero sslot).trans (hslot.trans hk)))
      · exact .inr fun hzero => hempty ⟨hslot, hzero⟩

theorem decCntStaleLoop_stuck (hslot : s.sslot = s.eslot) (hzero : s.slotCntStale s.sslot = 0)
    (hleft : bytesLeft ≠ 0) : decCntStaleLoop fuel s bytesLeft = none := by
  induction fuel with
  | zero => rfl
  | succ fuel ih =>
    have hsame : Function.update s.slotCntStale s.sslot 0 = s.slotCntStale := by
      rw [← hzero, Function.update_eq_self]
    have hskip : skipEmpty s.eslot s.slotCntStale maxStreamCmds s.sslot s.cmdCntStale =
        (s.sslot, s.cmdCntStale) := if_neg fun h => h.1 hslot
    simp only [decCntStaleLoop, hzero, Nat.zero_le, if_true, Nat.sub_zero, hsame, hskip,
      if_neg hleft]
    exact ih

/-- The loop is over, or never will be, once it has made a turn for each slot up to `eslot`. -/
theorem decCntStaleLoop_fuel {k : ℕ} (hk : s.eslot = s.sslot.after k) (hle : k ≤ maxStreamCmds)
    (hfuel : k < fuel) :
    decCntStaleLoop fuel s bytesLeft = decCntStaleLoop (k + 1) s bytesLeft := by
  induction k using Nat.strong_induction_on generalizing s fuel bytesLeft with
  | _ k ih =>
    obtain ⟨fuel, rfl⟩ : ∃ n, fuel = n + 1 := ⟨fuel - 1, by omega⟩
    obtain ⟨m, hm, hslot, hstop⟩ := skipEmpty_spec
      (Function.update s.slotCntStale s.sslot 0) s.cmdCntStale hk hle hle
    simp only [decCntStaleLoop]
    split_ifs with hall hdone
    · rfl
    · rcases Nat.eq_zero_or_pos m with rfl | hpos
      · -- the slot was `eslot`, and is empty now
        rw [Slot.after_zero] at hslot hstop
        obtain rfl : 0 = k := hstop.resolve_right (by simp)
        exact decCntStaleLoop_stuck (hslot.trans hk.symm) (by simp [hslot]) hdone
      · have hrest : s.eslot = (s.sslot.after m).after (k - m) := by
          rw [Slot.after_after, Nat.add_sub_cancel' hm, hk]
        rw [← hslot] at hrest
        rw [ih (k - m) (by omega) hrest (by omega) (by omega),
          ← ih (k - m) (by omega) hrest (by omega) (show k - m < k by omega)]
    · rfl

/-- More turns than `streambuf_dec_cnt_stale` is given make no difference. -/
theorem decCntStale_eq (hfuel : maxStreamCmds < fuel) :
    decCntStaleLoop fuel s size = s.decCntStale size := by
  obtain ⟨k, hle, hk⟩ := s.sslot.exists_after s.eslot
  rw [decCntStale, decCntStaleLoop_fuel hk hle (by omega),
    decCntStaleLoop_fuel hk hle (show k < maxStreamCmds + 2 by omega)]

/-- The stale counters are all that `streambuf_dec_cnt_stale` changes. -/
theorem decCntStaleLoop_frame (h : decCntStaleLoop fuel s bytesLeft = some s') :
    ∃ stale sslot cnt,
      s' = { s with slotCntStale := stale, sslot := sslot, cmdCntStale := cnt } := by
  induction fuel generalizing s bytesLeft with
  | zero => simp [decCntStaleLoop] at h
  | succ fuel ih =>
    simp only [decCntStaleLoop] at h
    split_ifs at h with hle hdone
    · cases h
      exact ⟨_, _, _, rfl⟩
    · obtain ⟨stale, sslot, cnt, rfl⟩ := ih h
      exact ⟨stale, sslot, cnt, rfl⟩
    · cases h
      exact ⟨_, s.sslot, s.cmdCntStale, rfl⟩

theorem Framing.discard {data : Bool} (h : Framing s q) (hstep : s.discard size data = some s') :
    Framing s' q ∧ s'.enqueued = s.enqueued ∧ s'.dequeued = s.dequeued := by
  obtain ⟨hok, hfresh⟩ := h.ok.discard size
  obtain ⟨stale, sslot, cnt, rfl⟩ := decCntStaleLoop_frame hstep
  exact ⟨{ h with ok := hok, fresh := hfresh.trans h.fresh }, rfl, rfl⟩

/-- What the callers see to: data is put in only if there is room for it, a command only
if there are less than `MAX_STREAM_CMDS`, and a command is asked for with its size. -/
def InBounds (s : Streambuf) : StreambufCall → Prop
  | .dataEnq buf => buf.length ≤ s.fifo.bytesFree
  | .cmdEnq _ => (cmds s.pending).length < maxStreamCmds
  | .dataDeq _ _ => True
  | .cmdDeq size => (cmds s.pending).head?.all fun bytes => size = bytes.length
  | .discard _ _ => True

instance (s : Streambuf) (e : StreambufCall) : Decidable (InBounds s e) :=
  match e with
  | .dataEnq _ => inferInstanceAs (Decidable (_ ≤ _))
  | .cmdEnq _ => inferInstanceAs (Decidable (_ < _))
  | .dataDeq _ _ => inferInstanceAs (Decidable True)
  | .cmdDeq size =>
    inferInstanceAs (Decidable ((cmds s.pending).head?.all fun bytes => size = bytes.length))
  | .discard _ _ => inferInstanceAs (Decidable True)

theorem Framing.step {e : StreambufCall} (h : Framing s q) (hok : InBounds s e)
    (hstep : s.step e = some s') : ∃ q', Framing s' q' := by
  cases e with try cases hstep
  | dataEnq buf =>
    exact ⟨_, h.dataEnq hok⟩
  | cmdEnq buf =>
    have hlt : (cmds s.pending).length < maxStreamCmds := hok
    rw [h.pending_eq] at hlt
    exact ⟨_, h.cmdEnq hlt hstep⟩
  | dataDeq min max =>
    obtain ⟨-, q', -, -, -, -, hq'⟩ := h.dataDeq min max
    exact ⟨q', hq'⟩
  | cmdDeq size =>
    have hsize : ∀ bytes, (cmds q).head? = some bytes → size = bytes.length := by
      intro bytes hhead
      have hall : (cmds s.pending).head?.all (fun bytes => size = bytes.length) = true := hok
      rw [h.pending_eq, hhead] at hall
      simpa using hall
    obtain ⟨-, ⟨-, hq⟩ | ⟨-, q', -, -, hq'⟩⟩ := h.cmdDeq hsize
    · exact ⟨q, hq⟩
    · exact ⟨q', hq'⟩
  | discard size data => exact ⟨q, (h.discard hstep).1⟩

theorem framing_init (hsize : 0 < size) : Framing (init size) [] where
  ok := Fifo2.ok_init hsize
  enqueued := rfl
  fresh := rfl
  cmdCnt := rfl
  bounded := Nat.zero_le _
  eslot := rfl
  slots j _ := by cases j <;> rfl

end Streambuf

/-- In every run in which the callers keep in bounds, what has been taken out is the
beginning of what was put in, commands as commands and data as data; a dequeue of data
returns data from before the first command that is pending; and the slots and the
pending commands account for every fresh byte. -/
theorem streambuf_framing (size : ℕ) (hsize : 0 < size) (s : Streambuf)
    (h : (streambuf size).ReachableUnder Streambuf.InBounds s) :
    s.dequeued <+: s.enqueued ∧
    (∀ min max, ∃ bs : Bytes, (s.dataDeq min max).dequeued = s.dequeued ++ bs.map .byte ∧
      bs.map .byte <+: s.pending) ∧
    ∑ i, s.slotCnt i + ((cmds s.pending).map List.length).sum = s.fifo.bytesUsed false := by
  obtain ⟨q, hq⟩ : ∃ q, s.Framing q := h.invariant (I := fun s => ∃ q, s.Framing q)
    ⟨[], Streambuf.framing_init hsize⟩ fun _ _ _ ⟨_, hs⟩ hok hstep => hs.step hok hstep
  refine ⟨⟨q, hq.enqueued.symm⟩, ?_, ?_⟩
  · intro min max
    obtain ⟨bs, q', rfl, -, hdequeued, -, -⟩ := hq.dataDeq min max
    refine ⟨bs, hdequeued, ?_⟩
    rw [hq.pending_eq]
    exact prefix_append _ _
  · have hlength : (runs q).length ≤ maxStreamCmds + 1 := by
      rw [length_runs]
      exact Nat.succ_le_succ hq.bounded
    rw [hq.pending_eq, sum_slots hlength hq.slots, sum_runs_add, ← hq.fresh, Fifo2.length_fresh]

/-- Data, a command and data in a ring of eight bytes, taken out and put in again across
the end of the memory. -/
def wrappedStream : List StreambufCall :=
  [.dataEnq [1, 2], .cmdEnq [3], .dataDeq 0 8, .discard 2 true, .dataEnq [4, 5, 6],
    .cmdDeq 1, .discard 1 false, .dataDeq 0 2, .discard 2 true, .dataEnq [7, 8, 9]]

theorem streambuf_framing_wrapped :
    ∃ s, (streambuf 8).ReachableUnder Streambuf.InBounds s ∧
      s.dequeued = [.byte 1, .byte 2, .cmd [3], .byte 4, .byte 5] ∧ s.fifo.wptr = 1 ∧
      s.dequeued <+: s.enqueued ∧ ∑ i, s.slotCnt i = 4 := by
  obtain ⟨s, -, hreach, hdequeued, hwptr, hcmds, hused⟩ := System.exists_reachableUnder
    (streambuf 8) Streambuf.InBounds wrappedStream
    (fun s => s.dequeued = [.byte 1, .byte 2, .cmd [3], .byte 4, .byte 5] ∧
      s.fifo.wptr = 1 ∧ cmds s.pending = [] ∧ s.fifo.bytesUsed false = 4)
    (by decide +kernel) (by decide +kernel)
  obtain ⟨htaken, -, hsum⟩ := streambuf_framing 8 (by decide) s hreach
  rw [hcmds, hused] at hsum
  exact ⟨s, hreach, hdequeued, hwptr, htaken, hsum⟩

end BeepMusic.Audio
