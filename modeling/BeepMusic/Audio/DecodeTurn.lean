import BeepMusic.Audio.CommandSlots
import BeepMusic.Audio.FifoLists
import BeepMusic.Lib.Word

/-!
A turn of the decode thread at the stream buffer: a command that is ready is dequeued
with the size that its first word gives and is discarded; else the decoder reads data.
Turn after turn, what is in the buffer comes out.
-/

namespace BeepMusic.Audio

open Lib List

/-- `encode_audio_op`. The top bit tells this byte order from the other one. -/
def encodeAudioOp (op size : ℕ) : ℕ :=
  if 127 < op then 0 else 2 ^ 31 + size % 2 ^ 16 * 2 ^ 8 + op

def bswap32 (code : ℕ) : ℕ := littleEndian (toBytes 4 code)

/-- The size that `decode_audio_op` gives. -/
def audioOpSize (code : ℕ) : ℕ :=
  let code := if code / 2 ^ 31 % 2 = 0 then bswap32 code else code
  code / 2 ^ 8 % 2 ^ 16

/-- Commands as they are put in: they begin with an encoded operation with their size. -/
def Encoded (bytes : Bytes) : Prop :=
  4 ≤ bytes.length ∧ bytes.length ≤ 128 ∧ audioOpSize (bigEndian (bytes.take 4)) = bytes.length
deriving Decidable

namespace Streambuf

/-- The first word of a command that is ready, or 0. -/
def cmdReady (s : Streambuf) : ℕ :=
  if s.cmdCnt ≠ 0 ∧ s.slotCnt s.dslot = 0 then bigEndian (s.fifo.read 0 4 false).2 else 0

/-- A turn of the loop of `audio_decode_thread_execute`, with a decoder that reads up to
`max` bytes. -/
def decodeTurn (max : ℕ) (s : Streambuf) : Streambuf :=
  let encodedOp := s.cmdReady
  if encodedOp = 0 then s.dataDeq 0 max
  else
    let cmdSize := audioOpSize encodedOp
    if 128 < cmdSize then s
    else
      let s' := s.cmdDeq cmdSize
      -- nothing was dequeued
      if s'.cmdCnt = s.cmdCnt then s
      else (s'.discard cmdSize false).getD s'

theorem dequeued_decodeTurn (max : ℕ) (s : Streambuf) :
    s.dequeued <+: (s.decodeTurn max).dequeued := by
  have hdata : s.dequeued <+: (s.dataDeq 0 max).dequeued := by
    rw [dataDeq]
    split_ifs
    · exact prefix_rfl
    · exact prefix_append _ _
  have hcmd : ∀ size, s.dequeued <+: (s.cmdDeq size).dequeued := by
    intro size
    rw [cmdDeq]
    split_ifs
    · dsimp only
      split_ifs
      · exact prefix_rfl
      · exact prefix_append _ _
    · exact prefix_rfl
  simp only [decodeTurn]
  split_ifs
  · exact hdata
  · exact prefix_rfl
  · exact prefix_rfl
  · cases hstep : (s.cmdDeq (audioOpSize s.cmdReady)).discard (audioOpSize s.cmdReady) false with
    | none => exact hcmd _
    | some s' =>
      obtain ⟨stale, sslot, cnt, rfl⟩ := decCntStaleLoop_frame hstep
      exact hcmd _

theorem dequeued_iterate_decodeTurn (max m : ℕ) (s : Streambuf) :
    s.dequeued <+: ((decodeTurn max)^[m] s).dequeued := by
  induction m generalizing s with
  | zero => exact prefix_rfl
  | succ m ih =>
    exact (dequeued_decodeTurn max s).trans (ih _)

/-- The stream `q` is in the buffer, whatever was put into it before. -/
def Frames (s : Streambuf) (q : List Item) : Prop :=
  Framing { s with enqueued := s.dequeued ++ q } q

variable {s s' : Streambuf} {q : List Item}

theorem dataDeq_enqueued (s : Streambuf) (items : List Item) (min max : ℕ) :
    { s with enqueued := items }.dataDeq min max =
      { s.dataDeq min max with enqueued := items } := by
  simp only [Streambuf.dataDeq, dataSize]
  split_ifs <;> rfl

theorem cmdDeq_enqueued (s : Streambuf) (items : List Item) (size : ℕ) :
    { s with enqueued := items }.cmdDeq size = { s.cmdDeq size with enqueued := items } := by
  simp only [Streambuf.cmdDeq]
  split_ifs <;> rfl

namespace Frames

theorem framing (h : s.Frames q) : Framing { s with enqueued := s.dequeued ++ q } q := h

theorem ok (h : s.Frames q) : s.fifo.Ok := h.framing.ok

theorem fresh (h : s.Frames q) : s.fifo.fresh = q.flatMap Item.bytes := h.framing.fresh

theorem dataDeq (h : s.Frames q) (min max : ℕ) :
    ∃ (bs : Bytes) (q' : List Item), q = bs.map .byte ++ q' ∧ bs.length = s.dataSize min max ∧
      (s.dataDeq min max).dequeued = s.dequeued ++ bs.map .byte ∧
      (s.dataDeq min max).Frames q' := by
  obtain ⟨bs, q', rfl, hlength, hdequeued, -, hframing⟩ := h.framing.dataDeq min max
  rw [dataDeq_enqueued] at hdequeued hframing
  refine ⟨bs, q', rfl, hlength, hdequeued, ?_⟩
  have henqueued : s.dequeued ++ (bs.map .byte ++ q') = (s.dataDeq min max).dequeued ++ q' := by
    rw [← append_assoc]
    exact congrArg (· ++ q') hdequeued.symm
  rw [Frames, ← henqueued]
  exact hframing

theorem cmdDeq {bytes : Bytes} (h : s.Frames (.cmd bytes :: q)) (hne : bytes ≠ []) :
    (s.cmdDeq bytes.length).dequeued = s.dequeued ++ [.cmd bytes] ∧
      (s.cmdDeq bytes.length).cmdCnt + 1 = s.cmdCnt ∧ (s.cmdDeq bytes.length).Frames q := by
  have hcnt : s.cmdCnt = (cmds q).length + 1 := h.framing.cmdCnt
  have hslot : s.slotCnt s.dslot = 0 := h.framing.slotCnt_dslot
  have hlength : bytes.length ≠ 0 := fun hzero => hne (eq_nil_of_length_eq_zero hzero)
  obtain ⟨fifo, hdeq, -, -⟩ := h.ok.deq_append
    (show s.fifo.fresh = bytes ++ q.flatMap Item.bytes from h.fresh)
  have hstep : s.cmdDeq bytes.length = { s with
      fifo := fifo
      dslot := s.dslot.next
      cmdCnt := s.cmdCnt - 1
      dequeued := s.dequeued ++ [.cmd bytes]
      cmdTaken := some bytes.length } := by
    rw [Streambuf.cmdDeq, if_pos ⟨by omega, hslot⟩, hdeq]
    exact if_neg hlength
  obtain ⟨-, ⟨hsame, -⟩ | ⟨bytes', q', hq, -, hframing⟩⟩ :=
    h.framing.cmdDeq fun _ hhead => congrArg List.length (Option.some.inj hhead)
  · rw [cmdDeq_enqueued, hstep] at hsame
    simp at hsame
  · obtain ⟨-, rfl⟩ := List.cons.inj hq
    rw [cmdDeq_enqueued] at hframing
    refine ⟨by rw [hstep], by rw [hstep]; exact Nat.sub_add_cancel (by omega), ?_⟩
    have henqueued : s.dequeued ++ .cmd bytes :: q = (s.cmdDeq bytes.length).dequeued ++ q := by
      rw [hstep, append_assoc]
      rfl
    rw [Frames, ← henqueued]
    exact hframing

theorem discard (h : s.Frames q) (size : ℕ) :
    ∃ s', s.discard size false = some s' ∧ s'.dequeued = s.dequeued ∧ s'.Frames q := by
  have hsome : ∀ s : Streambuf, ∃ s', s.decCntStale 0 = some s' := by
    intro s
    simp only [decCntStale, decCntStaleLoop, Nat.zero_sub, if_true]
    split_ifs <;> exact ⟨_, rfl⟩
  obtain ⟨s', hstep⟩ := hsome { s with
    fifo := (s.fifo.discard size).2, cmdTaken := none, dataTaken := s.dataTaken }
  obtain ⟨hok, hfresh⟩ := h.ok.discard size
  refine ⟨s', hstep, ?_⟩
  obtain ⟨stale, sslot, cnt, rfl⟩ := decCntStaleLoop_frame hstep
  exact ⟨rfl, hok, rfl, hfresh.trans h.fresh, h.framing.cmdCnt, h.framing.bounded,
    h.framing.eslot, h.framing.slots⟩

/-- Where a command is at the front, its first word is ready. -/
theorem cmdReady_cmd {bytes : Bytes} (h : s.Frames (.cmd bytes :: q)) (hlength : 4 ≤ bytes.length) :
    s.cmdReady = bigEndian (bytes.take 4) := by
  have hcnt : s.cmdCnt = (cmds q).length + 1 := h.framing.cmdCnt
  have hslot : s.slotCnt s.dslot = 0 := h.framing.slotCnt_dslot
  have hfresh : s.fifo.fresh = bytes ++ q.flatMap Item.bytes := h.fresh
  rw [cmdReady, if_pos ⟨by omega, hslot⟩, h.ok.read_eq (by decide)]
  simp only [Bool.false_eq_true, if_false, hfresh]
  rw [if_pos (by rw [length_append]; omega), drop_zero,
    take_append_of_le_length hlength]

end Frames

/-- Data is read as long as there is some, and commands come with their size. -/
theorem decodeTurn_frames {max : ℕ} (h : s.Frames q) (hcmds : ∀ bytes ∈ cmds q, Encoded bytes)
    (hmax : 0 < max) :
    ∃ taken q', q = taken ++ q' ∧ (q ≠ [] → taken ≠ []) ∧
      (s.decodeTurn max).dequeued = s.dequeued ++ taken ∧ (s.decodeTurn max).Frames q' := by
  cases q with
  | nil =>
    have hcnt : s.cmdCnt = 0 := h.framing.cmdCnt
    have hturn : s.decodeTurn max = s.dataDeq 0 max := if_pos (if_neg fun hready => hready.1 hcnt)
    obtain ⟨bs, q', hq, -, hdequeued, hframes⟩ := h.dataDeq 0 max
    exact ⟨bs.map .byte, q', hq, fun hne => absurd rfl hne, hturn ▸ hdequeued, hturn ▸ hframes⟩
  | cons item q =>
    cases item with
    | byte b =>
      obtain ⟨r, rs, hruns⟩ := exists_runs_eq_cons q
      have hslot : s.slotCnt s.dslot = r + 1 := by
        have hhead : s.slotCnt s.dslot = (runs (.byte b :: q)).getD 0 0 :=
          h.framing.slotCnt_dslot
        rw [hhead, runs, hruns]
        rfl
      have hturn : s.decodeTurn max = s.dataDeq 0 max :=
        if_pos (if_neg fun hready => by omega)
      obtain ⟨bs, q', hq, hlength, hdequeued, hframes⟩ := h.dataDeq 0 max
      refine ⟨bs.map .byte, q', hq, fun _ hnil => ?_, hturn ▸ hdequeued, hturn ▸ hframes⟩
      rw [map_eq_nil_iff.mp hnil, dataSize, hslot] at hlength
      simp only [length_nil, Nat.not_lt_zero, if_false] at hlength
      split_ifs at hlength
      omega
    | cmd bytes =>
      obtain ⟨hmin, hbuf, hsize⟩ := hcmds bytes mem_cons_self
      have hready := h.cmdReady_cmd hmin
      have hop : s.cmdReady ≠ 0 := by
        intro hzero
        rw [← hready, hzero] at hsize
        have hnone : audioOpSize 0 = 0 := by decide
        omega
      have hne : bytes ≠ [] := by
        rintro rfl
        simp at hmin
      obtain ⟨hdequeued, hcnt, hframes⟩ := h.cmdDeq hne
      obtain ⟨s', hdiscard, hdequeued', hframes'⟩ := hframes.discard bytes.length
      have hturn : s.decodeTurn max = s' := by
        rw [decodeTurn, if_neg hop, hready, hsize]
        rw [if_neg (by omega), if_neg (by omega), hdiscard, Option.getD_some]
      rw [hturn]
      exact ⟨[.cmd bytes], q, rfl, fun _ => cons_ne_nil _ _, hdequeued'.trans hdequeued,
        hframes'⟩

theorem Frames.idle {max : ℕ} (h : s.Frames []) (hmax : 0 < max) (m : ℕ) :
    ((decodeTurn max)^[m] s).dequeued = s.dequeued := by
  induction m generalizing s with
  | zero => rfl
  | succ m ih =>
    obtain ⟨taken, q', hq, -, hdequeued, hframes⟩ := decodeTurn_frames h nofun hmax
    obtain ⟨rfl, rfl⟩ := append_eq_nil_iff.mp hq.symm
    rw [Function.iterate_succ_apply, ih hframes, hdequeued, append_nil]

/-- Enough turns take all that is in the buffer, and further ones take nothing more. -/
theorem Frames.drain {max : ℕ} (h : s.Frames q) (hcmds : ∀ bytes ∈ cmds q, Encoded bytes)
    (hmax : 0 < max) :
    ∃ n, ∀ m ≥ n, ((decodeTurn max)^[m] s).dequeued = s.dequeued ++ q := by
  induction hn : q.length using Nat.strong_induction_on generalizing s q with
  | _ n ih =>
    by_cases hnil : q = []
    · subst hnil
      exact ⟨0, fun m _ => by rw [h.idle hmax m, append_nil]⟩
    · obtain ⟨taken, q', rfl, hprogress, hdequeued, hframes⟩ := decodeTurn_frames h hcmds hmax
      have hshorter : q'.length < n := by
        rw [← hn, length_append]
        exact Nat.lt_add_of_pos_left (length_pos_of_ne_nil (hprogress hnil))
      have hcmds' : ∀ bytes ∈ cmds q', Encoded bytes := by
        intro bytes hbytes
        apply hcmds
        rw [cmds_append]
        exact mem_append_right _ hbytes
      obtain ⟨k, hk⟩ := ih q'.length hshorter hframes hcmds' rfl
      refine ⟨k + 1, fun m hm => ?_⟩
      obtain ⟨m, rfl⟩ : ∃ i, m = i + 1 := ⟨m - 1, by omega⟩
      rw [Function.iterate_succ_apply, hk m (by omega), hdequeued, append_assoc]

end Streambuf

end BeepMusic.Audio
