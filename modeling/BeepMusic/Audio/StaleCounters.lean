import BeepMusic.Audio.CommandSlots
import BeepMusic.Audio.FifoLists

/-!
The stale counters count a stream as well: what has been put in, without the data that
has been discarded, and from `sslot` on. The commands before `sslot` have been passed,
whether they have been dequeued or not.
-/

namespace BeepMusic.Audio

open Lib List

/-! ### Streams without their first data -/

/-- The data of a stream. -/
def dataOf : List Item → Bytes
  | [] => []
  | .byte b :: q => b :: dataOf q
  | .cmd _ :: q => dataOf q

/-- A stream without its first bytes of data. -/
def dropData : ℕ → List Item → List Item
  | 0, q => q
  | _ + 1, [] => []
  | n + 1, .byte _ :: q => dropData n q
  | n + 1, .cmd bytes :: q => .cmd bytes :: dropData (n + 1) q

@[simp] theorem dataOf_append (q q' : List Item) : dataOf (q ++ q') = dataOf q ++ dataOf q' := by
  induction q with
  | nil => rfl
  | cons item q ih =>
    cases item with
    | byte b => exact congrArg (b :: ·) ih
    | cmd bytes => exact ih

@[simp] theorem dataOf_map_byte (bs : Bytes) : dataOf (bs.map .byte) = bs := by
  induction bs with
  | nil => rfl
  | cons b bs ih => exact congrArg (b :: ·) ih

theorem dropData_zero (q : List Item) : dropData 0 q = q := by
  cases q <;> rfl

variable {q : List Item}

theorem dropData_append {n : ℕ} (h : n ≤ (dataOf q).length) (q' : List Item) :
    dropData n (q ++ q') = dropData n q ++ q' := by
  induction q generalizing n with
  | nil =>
    obtain rfl : n = 0 := Nat.le_zero.mp h
    exact dropData_zero q'
  | cons item q ih =>
    cases n with
    | zero => rfl
    | succ n =>
      cases item with
      | byte b => exact ih (Nat.le_of_succ_le_succ h)
      | cmd bytes => exact congrArg (.cmd bytes :: ·) (ih h)

theorem dropData_dropData (m n : ℕ) (q : List Item) :
    dropData n (dropData m q) = dropData (m + n) q := by
  induction q generalizing m with
  | nil => cases m <;> cases n <;> rfl
  | cons item q ih =>
    cases m with
    | zero => rw [dropData_zero, Nat.zero_add]
    | succ m =>
      rw [Nat.succ_add]
      cases item with
      | byte b => exact ih m
      | cmd bytes =>
        have hq := ih (m + 1)
        rw [Nat.succ_add] at hq
        cases n with
        | zero => exact dropData_zero _
        | succ n => exact congrArg (.cmd bytes :: ·) hq

theorem dropData_map_byte_append (bs : Bytes) (n : ℕ) (q : List Item) :
    dropData (bs.length + n) (bs.map .byte ++ q) = dropData n q := by
  induction bs with
  | nil => rw [length_nil, Nat.zero_add, map_nil, nil_append]
  | cons b bs ih =>
    rw [length_cons, Nat.succ_add]
    exact ih

theorem dropData_map_cmd_append (n : ℕ) (passed : List Bytes) (q : List Item) :
    dropData n (passed.map .cmd ++ q) = passed.map .cmd ++ dropData n q := by
  cases n with
  | zero => rw [dropData_zero, dropData_zero]
  | succ n =>
    induction passed with
    | nil => rfl
    | cons bytes passed ih => exact congrArg (.cmd bytes :: ·) ih

theorem dataOf_dropData (n : ℕ) (q : List Item) : dataOf (dropData n q) = (dataOf q).drop n := by
  induction q generalizing n with
  | nil => cases n <;> rfl
  | cons item q ih =>
    cases n with
    | zero => rfl
    | succ n =>
      cases item with
      | byte b => exact ih n
      | cmd bytes => exact ih (n + 1)

theorem dataOf_map_cmd (passed : List Bytes) : dataOf (passed.map .cmd) = [] := by
  induction passed with
  | nil => rfl
  | cons bytes passed ih => exact ih

theorem eq_map_byte_of_cmds_eq_nil (h : cmds q = []) : q = (dataOf q).map .byte := by
  induction q with
  | nil => rfl
  | cons item q ih =>
    cases item with
    | byte b => exact congrArg (.byte b :: ·) (ih h)
    | cmd bytes => cases h

/-- Two ways to split a stream with as many commands in the second parts, one of which
begins with commands only. -/
theorem split_at_commands {k w : List Item} {passed : List Bytes}
    (h : k ++ q = passed.map .cmd ++ w) (hcmds : (cmds w).length = (cmds q).length) :
    ∃ bs : Bytes, k = passed.map .cmd ++ bs.map .byte ∧ w = bs.map .byte ++ q := by
  rcases append_eq_append_iff.mp h with ⟨a, hpassed, rfl⟩ | ⟨c, rfl, rfl⟩
  · -- what the commands reach into is empty
    have hnone : cmds a = [] := by
      rw [cmds_append, length_append] at hcmds
      exact eq_nil_of_length_eq_zero (by omega)
    have hdata : dataOf a = [] := by
      have hall := congrArg dataOf hpassed
      rw [dataOf_map_cmd, dataOf_append] at hall
      exact (append_eq_nil_iff.mp hall.symm).2
    have ha : a = [] := by rw [eq_map_byte_of_cmds_eq_nil hnone, hdata]; rfl
    rw [ha, append_nil] at hpassed
    exact ⟨[], by rw [hpassed]; exact (append_nil k).symm, by rw [ha]; rfl⟩
  · have hnone : cmds c = [] := by
      rw [cmds_append, length_append] at hcmds
      exact eq_nil_of_length_eq_zero (by omega)
    exact ⟨dataOf c, by rw [← eq_map_byte_of_cmds_eq_nil hnone],
      by rw [← eq_map_byte_of_cmds_eq_nil hnone]⟩

/-- Data that is left behind all commands was at the end. -/
theorem suffix_of_dropData_eq {n : ℕ} {passed : List Bytes} {bs : Bytes}
    (h : dropData n q = passed.map .cmd ++ bs.map .byte) : bs.map .byte <:+ q := by
  induction q generalizing n passed with
  | nil =>
    have hnil : dropData n [] = [] := by cases n <;> rfl
    rw [hnil] at h
    rw [(append_eq_nil_iff.mp h.symm).2]
  | cons item q ih =>
    cases n with
    | zero =>
      rw [dropData_zero] at h
      rw [h]
      exact suffix_append _ _
    | succ n =>
      cases item with
      | byte b => exact (ih h).trans (suffix_cons _ _)
      | cmd bytes =>
        cases passed with
        | nil => cases bs <;> cases h
        | cons bytes' passed =>
          exact (ih (List.cons.inj h).2).trans (suffix_cons _ _)

/-! ### The counters -/

namespace Streambuf

variable {s s' : Streambuf} {q w : List Item}

/-- The stale counters count the stream `w`. -/
structure StaleCounts (s : Streambuf) (w : List Item) : Prop where
  counts : Counts s.slotCntStale s.sslot w
  bounded : (cmds w).length ≤ maxStreamCmds
  eslot : s.eslot = s.sslot.after (cmds w).length
  cmdCntStale : s.cmdCntStale = (cmds w).length

/-- The inner loop passes commands that have no data before them. -/
theorem skipEmpty_counts {stale : Slot → ℕ} {eslot sslot : Slot} {fuel : ℕ}
    (hcounts : Counts stale sslot w) (hle : (cmds w).length ≤ maxStreamCmds)
    (heslot : eslot = sslot.after (cmds w).length) (hfuel : (cmds w).length ≤ fuel) :
    ∃ (passed : List Bytes) (w' : List Item), w = passed.map .cmd ++ w' ∧
      Counts stale (skipEmpty eslot stale fuel sslot (cmds w).length).1 w' ∧
      eslot = (skipEmpty eslot stale fuel sslot (cmds w).length).1.after (cmds w').length ∧
      (skipEmpty eslot stale fuel sslot (cmds w).length).2 = (cmds w').length := by
  induction fuel generalizing sslot w with
  | zero => exact ⟨[], w, rfl, hcounts, heslot, rfl⟩
  | succ fuel ih =>
    rw [skipEmpty]
    split_ifs with hempty
    · have hne : cmds w ≠ [] := by
        intro hnil
        rw [hnil] at heslot
        exact hempty.1 heslot.symm
      obtain ⟨bytes, w, rfl⟩ := exists_eq_cmd_cons w (hcounts.head ▸ hempty.2) hne
      have hlength : (cmds (.cmd bytes :: w)).length = (cmds w).length + 1 := rfl
      have hcnt : ((cmds (.cmd bytes :: w)).length + 2 ^ 32 - 1) % 2 ^ 32 =
          (cmds w).length := by
        simp only [maxStreamCmds] at hle
        omega
      rw [hlength] at hle hfuel heslot
      rw [hcnt]
      obtain ⟨passed, w', rfl, hrest⟩ := ih (hcounts.drop_cmd hle) (by omega)
        (by rw [Slot.after_next, heslot]) (by omega)
      exact ⟨bytes :: passed, w', rfl, hrest⟩
    · exact ⟨[], w, rfl, hcounts, heslot, rfl⟩

/-- A turn of the outer loop that takes all data before the first command. -/
theorem StaleCounts.turn {n : ℕ} (h : s.StaleCounts w) (hall : s.slotCntStale s.sslot ≤ n) :
    ∃ (passed : List Bytes) (w' : List Item),
      dropData n w = passed.map .cmd ++ dropData (n - s.slotCntStale s.sslot) w' ∧
      StaleCounts { s with
        slotCntStale := Function.update s.slotCntStale s.sslot 0
        sslot := (skipEmpty s.eslot (Function.update s.slotCntStale s.sslot 0) maxStreamCmds
          s.sslot s.cmdCntStale).1
        cmdCntStale := (skipEmpty s.eslot (Function.update s.slotCntStale s.sslot 0) maxStreamCmds
          s.sslot s.cmdCntStale).2 } w' := by
  obtain ⟨bs, w, rfl, hlength⟩ := exists_eq_map_byte_append w (Nat.le_of_eq h.counts.head)
  have hcmds : cmds (bs.map .byte ++ w) = cmds w := by rw [cmds_append, cmds_map_byte]; rfl
  have hcounts := h.counts.drop_bytes
  rw [hlength, Nat.sub_self] at hcounts
  have hbounded := h.bounded
  have heslot := h.eslot
  rw [hcmds] at hbounded heslot
  rw [h.cmdCntStale, hcmds]
  obtain ⟨passed, w', rfl, hcounts', heslot', hcnt⟩ :=
    skipEmpty_counts hcounts hbounded heslot hbounded
  have hle : (cmds w').length ≤ maxStreamCmds := by
    rw [cmds_append, length_append] at hbounded
    omega
  refine ⟨passed, w', ?_, hcounts', hle, heslot', hcnt⟩
  have hn : n = bs.length + (n - bs.length) := by omega
  rw [← dropData_map_cmd_append, ← hlength]
  conv_lhs => rw [hn, dropData_map_byte_append]

/-- `streambuf_dec_cnt_stale` takes data from the front of the stream, and then passes
commands. -/
theorem StaleCounts.decCntStaleLoop {fuel n : ℕ} (h : s.StaleCounts w)
    (hstep : Streambuf.decCntStaleLoop fuel s n = some s') :
    ∃ (passed : List Bytes) (w' : List Item),
      dropData n w = passed.map .cmd ++ w' ∧ s'.StaleCounts w' := by
  induction fuel generalizing s w n with
  | zero => simp [Streambuf.decCntStaleLoop] at hstep
  | succ fuel ih =>
    simp only [Streambuf.decCntStaleLoop] at hstep
    split_ifs at hstep with hall hdone
    · obtain ⟨passed, w', hdrop, hs'⟩ := h.turn hall
      cases hstep
      rw [hdone, dropData_zero] at hdrop
      exact ⟨passed, w', hdrop, hs'⟩
    · obtain ⟨passed, w', hdrop, hs'⟩ := h.turn hall
      obtain ⟨passed', w'', hdrop', hs''⟩ := ih hs' hstep
      refine ⟨passed ++ passed', w'', ?_, hs''⟩
      rw [hdrop, hdrop', map_append, append_assoc]
    · cases hstep
      obtain ⟨bs, w, rfl, rfl⟩ := exists_eq_map_byte_append w
        (show n ≤ (runs w).getD 0 0 by rw [← h.counts.head]; omega)
      have hcmds : cmds (bs.map .byte ++ w) = cmds w := by rw [cmds_append, cmds_map_byte]; rfl
      refine ⟨[], w, ?_, h.counts.drop_bytes, hcmds ▸ h.bounded, hcmds ▸ h.eslot,
        hcmds ▸ h.cmdCntStale⟩
      exact (dropData_map_byte_append bs 0 w).trans (dropData_zero w)

theorem StaleCounts.dataEnq (h : s.StaleCounts w) (buf : Bytes) :
    (s.dataEnq buf).StaleCounts (w ++ buf.map .byte) := by
  have hcmds : cmds (w ++ buf.map .byte) = cmds w := by
    rw [cmds_append, cmds_map_byte, append_nil]
  have hcounts := h.counts.append_bytes h.bounded buf
  rw [← h.eslot] at hcounts
  exact ⟨hcounts, hcmds ▸ h.bounded, hcmds ▸ h.eslot, hcmds ▸ h.cmdCntStale⟩

theorem StaleCounts.cmdEnq {buf : Bytes} (h : s.StaleCounts w) (hstep : s.cmdEnq buf = some s') :
    s'.StaleCounts (w ++ [.cmd buf]) := by
  obtain ⟨hroom, rfl⟩ := Option.ite_some_none_eq_some.mp hstep
  have hcmds : (cmds (w ++ [.cmd buf])).length = (cmds w).length + 1 := by
    rw [cmds_append, length_append]
    rfl
  have hbounded := h.bounded
  have hcnt := h.cmdCntStale
  refine ⟨h.counts.append_cmd buf, by omega, ?_, ?_⟩
  · rw [hcmds, h.eslot, Slot.next_after]
  · rw [hcmds, hcnt]

/-! ### What has been dequeued and not discarded -/

/-- The data that has been discarded. -/
def discarded (s : Streambuf) : ℕ := (dataOf s.dequeued).length - s.dataTaken

/-- The stream from `sslot` on is `w`, and the stale bytes are the last ones that have
been dequeued. -/
structure Window (s : Streambuf) (passed : List Bytes) (w : List Item) : Prop where
  staleCounts : s.StaleCounts w
  taken : s.dataTaken ≤ (dataOf s.dequeued).length
  kept : dropData s.discarded s.enqueued = passed.map .cmd ++ w
  stale : s.fifo.lists.stale <:+ s.dequeued.flatMap Item.bytes
  staleLength : s.fifo.lists.stale.length = s.dataTaken + s.cmdTaken.getD 0

namespace Window

variable {passed : List Bytes}

theorem init {size : ℕ} : Window (init size) [] [] where
  staleCounts := ⟨fun j _ => by cases j <;> rfl, Nat.zero_le _, rfl, rfl⟩
  taken := Nat.le_refl _
  kept := rfl
  stale := suffix_refl _
  staleLength := rfl

theorem discarded_le (h : Framing s q) : s.discarded ≤ (dataOf s.enqueued).length := by
  rw [h.enqueued, dataOf_append, length_append, discarded]
  omega

variable {buf : Bytes} {n : ℕ}

variable (h : Window s passed w) (hs : Framing s q)
include h hs

theorem dataEnq : Window (s.dataEnq buf) passed (w ++ buf.map .byte) := by
  have hstale : (s.dataEnq buf).fifo.lists.stale = s.fifo.lists.stale := hs.ok.stale_enq buf
  refine ⟨h.staleCounts.dataEnq buf, h.taken, ?_, hstale ▸ h.stale, hstale ▸ h.staleLength⟩
  show dropData s.discarded (s.enqueued ++ buf.map .byte) = _
  rw [dropData_append (discarded_le hs), h.kept, append_assoc]

theorem cmdEnq (hstep : s.cmdEnq buf = some s') : Window s' passed (w ++ [.cmd buf]) := by
  have hcounts := h.staleCounts.cmdEnq hstep
  obtain ⟨hroom, rfl⟩ := Option.ite_some_none_eq_some.mp hstep
  have hstale := hs.ok.stale_enq buf
  refine ⟨hcounts, h.taken, ?_, hstale ▸ h.stale, hstale ▸ h.staleLength⟩
  show dropData s.discarded (s.enqueued ++ [.cmd buf]) = _
  rw [dropData_append (discarded_le hs), h.kept, append_assoc]

theorem taken_bytes {count : ℕ} {fifo : Fifo2} (hn : n ≤ s.fifo.bytesUsed false)
    (hdeq : s.fifo.deq n false = (count, buf, fifo)) :
    count = n ∧ buf.length = n ∧ fifo.lists.stale <:+ s.dequeued.flatMap Item.bytes ++ buf ∧
      fifo.lists.stale.length = s.dataTaken + s.cmdTaken.getD 0 + n := by
  have hstale := hs.ok.stale_deq hn
  rw [hdeq] at hstale
  obtain ⟨before, hbefore⟩ := h.stale
  have hlength : buf.length = n := by
    have hbuf := congrArg (fun r => r.2.1.length) ((hs.ok.deq_eq hn false).symm.trans hdeq)
    rw [← hbuf, length_take, Fifo2.length_fresh]
    exact Nat.min_eq_left hn
  have hcount := congrArg Prod.fst ((hs.ok.deq_eq hn false).symm.trans hdeq)
  rw [hstale, ← hbefore, append_assoc, length_append, h.staleLength, hlength]
  exact ⟨hcount.symm, rfl, suffix_append _ _, rfl⟩

theorem dataDeq (hcmd : s.cmdTaken = none) (min max : ℕ) : Window (s.dataDeq min max) passed w := by
  rw [Streambuf.dataDeq]
  split_ifs with hzero
  · exact h
  · rcases hdeq : s.fifo.deq (s.dataSize min max) false with ⟨count, buf, fifo⟩
    obtain ⟨-, hlength, hstale, hstaleLength⟩ := h.taken_bytes hs (hs.dataSize_le min max) hdeq
    have htaken := h.taken
    have hdata : (dataOf (s.dequeued ++ buf.map .byte)).length =
        (dataOf s.dequeued).length + s.dataSize min max := by
      rw [dataOf_append, length_append, dataOf_map_byte, hlength]
    refine ⟨⟨h.staleCounts.counts, h.staleCounts.bounded, h.staleCounts.eslot,
      h.staleCounts.cmdCntStale⟩, ?_, ?_, ?_, ?_⟩
    · show s.dataTaken + s.dataSize min max ≤ (dataOf (s.dequeued ++ buf.map .byte)).length
      omega
    · show dropData ((dataOf (s.dequeued ++ buf.map .byte)).length -
        (s.dataTaken + s.dataSize min max)) s.enqueued = _
      rw [hdata, Nat.add_sub_add_right]
      exact h.kept
    · rw [flatMap_append, Framing.flatMap_map_byte]
      exact hstale
    · rw [hstaleLength, hcmd]
      exact Nat.add_right_comm _ _ _

theorem cmdDeq {size : ℕ} (hcmd : s.cmdTaken = none) : Window (s.cmdDeq size) passed w := by
  rw [Streambuf.cmdDeq]
  split_ifs with hready
  · rcases hdeq : s.fifo.deq size false with ⟨deqed, buf, fifo⟩
    dsimp only
    split_ifs with hzero
    · exact h
    · have hn : size ≤ s.fifo.bytesUsed false := by
        by_contra hlt
        rw [Fifo2.deq, if_pos (by omega)] at hdeq
        exact hzero (congrArg Prod.fst hdeq).symm
      obtain ⟨rfl, -, hstale, hstaleLength⟩ := h.taken_bytes hs hn hdeq
      have hdata : dataOf (s.dequeued ++ [.cmd buf]) = dataOf s.dequeued := by
        rw [dataOf_append]
        exact append_nil _
      refine ⟨⟨h.staleCounts.counts, h.staleCounts.bounded, h.staleCounts.eslot,
        h.staleCounts.cmdCntStale⟩, hdata ▸ h.taken, ?_, ?_, ?_⟩
      · show dropData ((dataOf (s.dequeued ++ [.cmd buf])).length - s.dataTaken) s.enqueued = _
        rw [hdata]
        exact h.kept
      · rw [flatMap_append, flatMap_singleton]
        exact hstale
      · rw [hcmd] at hstaleLength
        exact hstaleLength
  · exact h

theorem discard_eq {data : Bool} (hok : DecodeThread s (.discard n data)) :
    (s.fifo.discard n).1 = n ∧
      (s.fifo.discard n).2.lists.stale.length = s.dataTaken + s.cmdTaken.getD 0 - n := by
  have hlength := h.staleLength
  have hle : n ≤ s.fifo.lists.stale.length := by
    cases data with
    | true => exact hlength ▸ Nat.le_trans hok.2 (Nat.le_add_right _ _)
    | false =>
      have hcmd : s.cmdTaken = some n := hok
      rw [hlength, hcmd]
      exact Nat.le_add_left _ _
  rw [hs.ok.discard_count, hs.ok.stale_discard, length_drop, hlength]
  exact ⟨by rw [← hlength]; exact Nat.min_eq_left hle, rfl⟩

theorem discard {data : Bool} (hok : DecodeThread s (.discard n data))
    (hstep : s.discard n data = some s') : ∃ passed' w', Window s' passed' w' := by
  obtain ⟨hcount, hlength⟩ := h.discard_eq hs hok
  have hstale := hs.ok.stale_discard n
  have htaken := h.taken
  have hsuffix : (s.fifo.discard n).2.lists.stale <:+ s.dequeued.flatMap Item.bytes :=
    hstale ▸ (drop_suffix _ _).trans h.stale
  have hbefore : StaleCounts { s with
      fifo := (s.fifo.discard n).2
      cmdTaken := if data then s.cmdTaken else none
      dataTaken := if data then s.dataTaken - (s.fifo.discard n).1 else s.dataTaken } w :=
    ⟨h.staleCounts.counts, h.staleCounts.bounded, h.staleCounts.eslot, h.staleCounts.cmdCntStale⟩
  have hloop : Streambuf.decCntStaleLoop (maxStreamCmds + 2) _
      (if data then (s.fifo.discard n).1 else 0) = some s' := hstep
  obtain ⟨passed', w', hdrop, hcounts⟩ := hbefore.decCntStaleLoop hloop
  obtain ⟨stale, sslot, cnt, rfl⟩ := decCntStaleLoop_frame hstep
  have hkept : ∀ m, dropData m w = passed'.map .cmd ++ w' →
      dropData (s.discarded + m) s.enqueued = (passed ++ passed').map .cmd ++ w' := by
    intro m hm
    rw [← dropData_dropData, h.kept, dropData_map_cmd_append, hm, map_append,
      append_assoc]
  cases data with
  | true =>
    obtain ⟨hcmd, hn⟩ := hok
    simp only [if_true, hcount] at hdrop
    refine ⟨passed ++ passed', w', hcounts, ?_, ?_, hsuffix, ?_⟩
    · show s.dataTaken - (s.fifo.discard n).1 ≤ (dataOf s.dequeued).length
      omega
    · have hdiscarded : (dataOf s.dequeued).length - (s.dataTaken - (s.fifo.discard n).1) =
          s.discarded + n := by
        rw [discarded]
        omega
      show dropData ((dataOf s.dequeued).length - (s.dataTaken - (s.fifo.discard n).1)) _ = _
      rw [hdiscarded]
      exact hkept n hdrop
    · show (s.fifo.discard n).2.lists.stale.length =
        s.dataTaken - (s.fifo.discard n).1 + s.cmdTaken.getD 0
      rw [hlength, hcount, hcmd]
      rfl
  | false =>
    have hcmd : s.cmdTaken = some n := hok
    refine ⟨passed ++ passed', w', hcounts, htaken, hkept 0 hdrop, hsuffix, ?_⟩
    show (s.fifo.discard n).2.lists.stale.length = s.dataTaken
    rw [hlength, hcmd]
    exact Nat.add_sub_cancel _ _

theorem step {e : StreambufCall} (hok : DecodeThread s e) (hstep : s.step e = some s') :
    ∃ passed' w', Window s' passed' w' := by
  cases e with try cases hstep
  | dataEnq buf =>
    exact ⟨_, _, h.dataEnq hs⟩
  | cmdEnq buf => exact ⟨_, _, h.cmdEnq hs hstep⟩
  | dataDeq min max =>
    exact ⟨_, _, h.dataDeq hs hok min max⟩
  | cmdDeq size =>
    exact ⟨_, _, h.cmdDeq hs hok.1⟩
  | discard n data => exact h.discard hs hok hstep

end Window

/-- The data that has been dequeued and not discarded, and what has not been dequeued. -/
def held (s : Streambuf) : List Item :=
  ((dataOf s.dequeued).drop s.discarded).map .byte ++ s.pending

/-- Where the stale counters are at the slot that is dequeued from, they count what is
held, and it is what the fifo holds. -/
theorem Window.aligned {passed : List Bytes} (h : Window s passed w) (hs : Framing s q)
    (hslot : s.sslot = s.dslot) (hcmd : s.cmdTaken = none) :
    s.StaleCounts s.held ∧ s.fifo.retained = s.held.flatMap Item.bytes := by
  have hcmds : (cmds w).length = (cmds q).length := by
    have hafter : s.dslot.after (cmds w).length = s.dslot.after (cmds q).length := by
      rw [← hs.eslot, ← hslot, ← h.staleCounts.eslot]
    exact Slot.after_injective h.staleCounts.bounded hs.bounded hafter
  have hle : s.discarded ≤ (dataOf s.dequeued).length := Nat.sub_le _ _
  have hkept := h.kept
  rw [hs.enqueued, dropData_append hle] at hkept
  obtain ⟨bs, hk, rfl⟩ := split_at_commands hkept hcmds
  have hbs : (dataOf s.dequeued).drop s.discarded = bs := by
    have hdata := congrArg dataOf hk
    rwa [dataOf_dropData, dataOf_append, dataOf_map_cmd, dataOf_map_byte] at hdata
  have hheld : s.held = bs.map .byte ++ q := by rw [held, hbs, hs.pending_eq]
  -- the stale bytes and the data are ends of the same bytes, and have the same length
  have hend : bs <:+ s.dequeued.flatMap Item.bytes := by
    obtain ⟨before, hbefore⟩ := suffix_of_dropData_eq hk
    rw [← hbefore, flatMap_append, Framing.flatMap_map_byte]
    exact suffix_append _ _
  have hlength : s.fifo.lists.stale.length = bs.length := by
    have htaken := h.taken
    rw [h.staleLength, hcmd, ← hbs, length_drop, discarded, Option.getD_none]
    omega
  have hstale : s.fifo.lists.stale = bs :=
    (suffix_of_suffix_length_le h.stale hend (Nat.le_of_eq hlength)).eq_of_length hlength
  refine ⟨hheld ▸ h.staleCounts, ?_⟩
  rw [← hs.ok.retained_lists, FifoLists.retained, hstale, hheld, flatMap_append,
    Framing.flatMap_map_byte, ← hs.fresh]
  rfl

/-! ### The commands that are pending -/

theorem DecodeThread.inBounds {e : StreambufCall} (h : DecodeThread s e)
    (henq : EnqueuesBelowMax s e) (hs : Framing s q) : InBounds s e := by
  cases e with
  | dataEnq buf => exact h
  | cmdEnq buf =>
    have hlt : s.cmdCnt < maxStreamCmds := henq
    rw [hs.cmdCnt, ← hs.pending_eq] at hlt
    exact hlt
  | dataDeq min max => trivial
  | cmdDeq size => exact h.2
  | discard size data => trivial

/-- If there is data before the next command, the stale counters have not passed that. -/
theorem Window.cmdCnt_le {passed : List Bytes} (h : Window s passed w) (hs : Framing s q)
    (hdata : s.cmdCnt = 0 ∨ 0 < s.dataTaken + s.slotCnt s.dslot) : s.cmdCnt ≤ s.cmdCntStale := by
  rcases hdata with hzero | hdata
  · omega
  have hkept := h.kept
  have hdiscarded : s.discarded ≤ (dataOf s.dequeued).length := Nat.sub_le _ _
  rw [hs.enqueued, dropData_append hdiscarded] at hkept
  rw [hs.cmdCnt, h.staleCounts.cmdCntStale]
  rcases append_eq_append_iff.mp hkept with ⟨a, hpassed, rfl⟩ | ⟨c, -, rfl⟩
  · have hall := congrArg dataOf hpassed
    rw [dataOf_map_cmd, dataOf_append, dataOf_dropData] at hall
    obtain ⟨htaken, ha⟩ := append_eq_nil_iff.mp hall.symm
    have htakenLe := h.taken
    have hzero : s.dataTaken = 0 := by
      have hlength := congrArg length htaken
      rw [length_drop, discarded, length_nil] at hlength
      omega
    rw [hzero, hs.slotCnt_dslot] at hdata
    -- the commands that were passed end where the pending stream begins
    cases a with
    | nil => exact Nat.le_refl _
    | cons item a =>
      cases item with
      | byte b => cases ha
      | cmd bytes => exact absurd hdata (Nat.lt_irrefl 0)
  · rw [cmds_append, length_append]
    exact Nat.le_add_left _ _

/-- A discard leaves data before the next command, or no command is pending. -/
def LeavesData (s : Streambuf) : StreambufCall → Prop
  | .discard size data =>
    s.cmdCnt = 0 ∨ (if data then size else 0) < s.dataTaken + s.slotCnt s.dslot
  | _ => True

instance (s : Streambuf) (e : StreambufCall) : Decidable (LeavesData s e) :=
  match e with
  | .discard _ _ => inferInstanceAs (Decidable (_ ∨ _))
  | .cmdEnq _ | .dataEnq _ | .dataDeq _ _ | .cmdDeq _ => inferInstanceAs (Decidable True)

/-- The commands that are pending are among those the stale counters count. -/
structure CountsPending (s : Streambuf) : Prop where
  framing : ∃ q, s.Framing q
  window : ∃ passed w, s.Window passed w
  le : s.cmdCnt ≤ s.cmdCntStale

theorem CountsPending.step {e : StreambufCall} (h : s.CountsPending) (hok : DecodeThread s e)
    (hleaves : LeavesData s e) (hstep : s.step e = some s') : s'.CountsPending := by
  obtain ⟨⟨q, hq⟩, ⟨passed, w, hw⟩, hle⟩ := h
  have hstale : s.cmdCntStale ≤ maxStreamCmds := hw.staleCounts.cmdCntStale ▸ hw.staleCounts.bounded
  have henq : EnqueuesBelowMax s e := by
    cases e with try trivial
    | cmdEnq buf =>
      obtain ⟨hroom, -⟩ := Option.ite_some_none_eq_some.mp hstep
      show s.cmdCnt < maxStreamCmds
      omega
  have hframing := hq.step (hok.inBounds henq hq) hstep
  have hwindow := hw.step hq hok hstep
  refine ⟨hframing, hwindow, ?_⟩
  cases e with try cases hstep
  | dataEnq buf =>
    exact hle
  | cmdEnq buf =>
    obtain ⟨-, rfl⟩ := Option.ite_some_none_eq_some.mp hstep
    exact Nat.succ_le_succ hle
  | dataDeq min max =>
    rw [Streambuf.dataDeq]
    split_ifs <;> exact hle
  | cmdDeq size =>
    rw [Streambuf.cmdDeq]
    split_ifs
    · dsimp only
      split_ifs
      · exact hle
      · exact Nat.le_trans (Nat.sub_le _ _) hle
    · exact hle
  | discard n data =>
    obtain ⟨q', hq'⟩ := hframing
    obtain ⟨passed', w', hw'⟩ := hwindow
    refine hw'.cmdCnt_le hq' ?_
    obtain ⟨hcount, -⟩ := hw.discard_eq hq hok
    obtain ⟨stale, sslot, cnt, rfl⟩ := decCntStaleLoop_frame hstep
    refine hleaves.imp_right fun hlt => ?_
    show 0 < (if data then s.dataTaken - (s.fifo.discard n).1 else s.dataTaken) + s.slotCnt s.dslot
    rw [hcount]
    cases data with
    | true =>
      simp only [if_true] at hlt ⊢
      omega
    | false => exact hlt

end Streambuf

/-- If no discard takes the last data before a command that is pending, there are no more commands
than slots but one, and the slots for putting in and taking out are kept apart by them. -/
theorem slotsBounded_of_leavesData (size : ℕ) (hsize : 0 < size) (s : Streambuf)
    (h : (streambuf size).ReachableUnder (fun s e => s.DecodeThread e ∧ s.LeavesData e) s) :
    s.SlotsBounded := by
  have hs : s.CountsPending := h.invariant (I := Streambuf.CountsPending)
    ⟨⟨[], Streambuf.framing_init hsize⟩, ⟨[], [], .init⟩, Nat.le_refl 0⟩
    fun _ _ _ hs hok hstep => hs.step hok.1 hok.2 hstep
  obtain ⟨q, hq⟩ := hs.framing
  refine ⟨hq.cmdCnt ▸ hq.bounded, fun hslot => ?_⟩
  have hafter : s.dslot.after (cmds q).length = s.dslot.after 0 := hq.eslot.symm.trans hslot
  rw [hq.cmdCnt]
  exact Slot.after_injective hq.bounded (Nat.zero_le _) hafter

/-- A command is discarded while there is data before the next one. -/
theorem slotsBounded_of_leavesData_eight :
    ∃ s, (streambuf streambufSize).ReachableUnder (fun s e => s.DecodeThread e ∧ s.LeavesData e) s ∧
      s.cmdCnt = 8 ∧ s.SlotsBounded := by
  obtain ⟨s, -, hreach, hs⟩ := System.exists_reachableUnder (streambuf streambufSize)
    (fun s e => s.DecodeThread e ∧ s.LeavesData e)
    ([.cmdEnq [1, 0, 0, 0], .dataEnq [7], .cmdEnq [1, 0, 0, 0], .cmdDeq 4, .discard 4 false] ++
      List.replicate 7 (.cmdEnq [1, 0, 0, 0]))
    (fun s => s.cmdCnt = 8) (by decide +kernel) (by decide +kernel)
  exact ⟨s, hreach, hs, slotsBounded_of_leavesData _ (by decide) s hreach⟩

end BeepMusic.Audio
