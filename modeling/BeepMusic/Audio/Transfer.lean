import BeepMusic.Audio.FifoLists
import BeepMusic.Audio.Sync

/-!
A transfer, packet by packet. A frozen sender sends the same bytes and counters whatever
its decode thread does; the receiver has the counters and as much of the bytes as has
been sent; and with packets that have room for the counters all of them are sent.
-/

namespace BeepMusic.Audio

open Lib List

namespace Syncer

variable {a : Syncer} {bytes : Bytes} {words : List ℕ}

/-- A frozen sender: what it sends stays the same. -/
structure Frozen (a : Syncer) (bytes : Bytes) (words : List ℕ) : Prop where
  allowDiscard : a.allowDiscard = false
  ok : a.buf.fifo.Ok
  retained : a.buf.fifo.retained = bytes
  sbState : a.sbState = words

namespace Frozen

variable (h : a.Frozen bytes words)
include h

theorem dataDeq (min max : ℕ) : Frozen { a with buf := a.buf.dataDeq min max } bytes words := by
  rw [Streambuf.dataDeq]
  split_ifs
  · exact h
  · obtain ⟨hok, hretained⟩ := h.ok.retained_deq (a.buf.dataSize min max)
    exact ⟨h.allowDiscard, hok, hretained.trans h.retained, h.sbState⟩

theorem cmdDeq (size : ℕ) : Frozen { a with buf := a.buf.cmdDeq size } bytes words := by
  obtain ⟨hok, hretained⟩ := h.ok.retained_deq size
  rw [Streambuf.cmdDeq]
  split_ifs
  · dsimp only
    split_ifs
    · exact h
    · exact ⟨h.allowDiscard, hok, hretained.trans h.retained, h.sbState⟩
  · exact h

theorem discard {a' : Syncer} {size : ℕ} {data : Bool} (hstep : a.discard size data = some a') :
    a'.Frozen bytes words ∧ a'.syncState = a.syncState ∧ a'.sendOffset = a.sendOffset := by
  simp only [Syncer.discard, h.allowDiscard, Bool.false_eq_true, if_false] at hstep
  split_ifs at hstep <;> obtain rfl := Option.some.inj hstep <;>
    exact ⟨⟨rfl, h.ok, h.retained, h.sbState⟩, rfl, rfl⟩

theorem used : a.buf.fifo.bytesUsed true = bytes.length := by
  rw [← Fifo2.length_retained, h.retained]

theorem syncReadData {offset len : ℕ} (hoffset : offset ≤ bytes.length)
    (hbytes : bytes.length < 2 ^ 31) (hlen : len < 2 ^ 31) :
    a.syncReadData offset len = (bytes.drop offset).take len := by
  have hsum : (len + offset) % Fifo2.sizeT = len + offset :=
    Nat.mod_eq_of_lt (by rw [Fifo2.sizeT]; omega)
  have hrest : (bytes.length + Fifo2.sizeT - offset) % Fifo2.sizeT = bytes.length - offset := by
    rw [Fifo2.sizeT]
    omega
  have hread : ∀ n, offset + n ≤ bytes.length →
      (a.buf.fifo.read offset n true).2 = (bytes.drop offset).take n := by
    intro n hn
    rw [h.ok.read_eq (by rw [Fifo2.sizeT]; omega), if_pos rfl, h.retained, if_pos hn]
  have hempty : ∀ n, n = 0 → [] = (bytes.drop offset).take n := by
    rintro _ rfl
    rw [take_zero]
  simp only [Syncer.syncReadData, h.used, hsum, hrest]
  by_cases hlast : bytes.length < len + offset
  · have htake : (bytes.drop offset).take len =
        (bytes.drop offset).take (bytes.length - offset) := by
      rw [take_of_length_le (by rw [length_drop]; omega),
        take_of_length_le (by rw [length_drop])]
    rw [if_pos hlast, htake]
    split_ifs with hzero
    · exact hempty _ hzero
    · exact hread _ (by omega)
  · split_ifs with hzero
    · exact hempty _ hzero
    · exact hread _ (by omega)

end Frozen

theorem send_audioState (len : ℕ) (h : a.syncState = .readySyncTo) :
    a.syncStateSend len = if audioStateSize ≤ len then
        (.again, encodeWords 8 [a.currentTrackJiffies, a.syncDiscardedSamples],
          { a with syncState := .sendSbState, sendOffset := 0 })
      else (.error, [],
        if len = 0 then a else { a with syncState := .sendSbState, sendOffset := 0 }) := by
  have hne : encodeWords 8 [a.currentTrackJiffies, a.syncDiscardedSamples] ≠ [] :=
    ne_nil_of_length_eq_add_one (length_encodeWords _ _)
  simp only [syncStateSend, h, audioSyncStateRead]
  by_cases hlen : audioStateSize ≤ len
  · have hzero : len ≠ 0 := Nat.ne_of_gt (Nat.lt_of_lt_of_le (by decide) hlen)
    simp [if_neg hzero, if_pos hlen, if_neg hne]
  · simp only [if_neg hlen, if_true]
    split_ifs <;> rfl

theorem length_sbState (a : Syncer) : a.sbState.length = 13 := by
  rfl

theorem send_sbState (len : ℕ) (h : a.syncState = .sendSbState) :
    a.syncStateSend len = if sbStateSize ≤ len then
        (.again, encodeWords 4 a.sbState, { a with syncState := .sendSbData })
      else (.error, [], if len = 0 then a else { a with syncState := .sendSbData }) := by
  have hne : encodeWords 4 a.sbState ≠ [] :=
    ne_nil_of_length_eq_add_one ((length_encodeWords _ _).trans
      (congrArg (4 * ·) (length_sbState a)))
  simp only [syncStateSend, h, syncReadState]
  by_cases hlen : sbStateSize ≤ len
  · have hzero : len ≠ 0 := Nat.ne_of_gt (Nat.lt_of_lt_of_le (by decide) hlen)
    simp [if_neg hzero, if_pos hlen, if_neg hne]
  · simp only [if_neg hlen, if_true]
    split_ifs <;> rfl

/-- The next packet of data; the last one does not fill its buffer. -/
theorem Frozen.send_sbData {len : ℕ} (h : a.Frozen bytes words) (hstate : a.syncState = .sendSbData)
    (hle : a.sendOffset ≤ bytes.length) (hbytes : bytes.length < 2 ^ 31) (hlen : len < 2 ^ 31)
    (hpos : len ≠ 0) :
    a.syncStateSend len =
      if a.sendOffset + len ≤ bytes.length then
        (.again, (bytes.drop a.sendOffset).take len, { a with sendOffset := a.sendOffset + len })
      else
        (.done, (bytes.drop a.sendOffset).take len,
          { a with sendOffset := bytes.length, syncState := .sendDone }) := by
  have hlength : ((bytes.drop a.sendOffset).take len).length =
      min len (bytes.length - a.sendOffset) := by
    rw [length_take, length_drop]
  simp only [syncStateSend, if_neg hpos, hstate, h.syncReadData hle hbytes hlen, hlength,
    Fifo2.sizeT]
  by_cases hfull : a.sendOffset + len ≤ bytes.length
  · have hmin : min len (bytes.length - a.sendOffset) = len := by omega
    rw [hmin, if_pos rfl, if_pos hfull, Nat.mod_eq_of_lt (by omega)]
  · have hmin : min len (bytes.length - a.sendOffset) = bytes.length - a.sendOffset := by omega
    rw [hmin, if_neg (by omega), if_neg hfull, Nat.mod_eq_of_lt (by omega),
      Nat.add_sub_cancel' hle]

/-- The words that are sent fit in four bytes each, and the last one counts the data. -/
structure Words (words : List ℕ) (bytes : Bytes) : Prop where
  length : words.length = 13
  lt : ∀ word ∈ words, word < 256 ^ 4
  used : words.getD 12 0 = bytes.length

/-- A receiver with the counters and the first `k` bytes of data. -/
structure Received (r : Syncer) (bytes : Bytes) (words : List ℕ) (k : ℕ) : Prop where
  size : r.buf.fifo.size = streambufSize
  ok : r.buf.fifo.Ok
  lists : r.buf.fifo.lists = ⟨[], bytes.take k⟩
  slots : ∀ slot : Slot, r.buf.slotCntStale slot = words.getD slot 0
  stateSync : r.stateSync =
    ⟨words.getD 9 0, words.getD 10 0, words.getD 11 0, words.getD 12 0⟩
  dequeued : r.buf.dequeued = []
  recvOffset : r.recvOffset = k
  syncDataLen : r.syncDataLen = bytes.length
  syncState : k < bytes.length → r.syncState = .recvSbData

variable {r : Syncer} {k : ℕ}

theorem recv_audioState (packet : Bytes) (h : r.syncState = .readySyncWait) (hne : packet ≠ []) :
    (r.syncStateRecv packet).2.syncState = .recvSbState ∧
      (r.syncStateRecv packet).2.recvOffset = 0 ∧ (r.syncStateRecv packet).2.buf = r.buf := by
  simp only [syncStateRecv, if_neg hne, h, audioSyncStateWrite]
  split_ifs <;> exact ⟨trivial, rfl, rfl⟩

theorem recv_sbState (h : r.syncState = .recvSbState) (hoffset : r.recvOffset = 0)
    (hsize : r.buf.fifo.size = streambufSize) (hwords : Words words bytes) :
    (r.syncStateRecv (encodeWords 4 words)).2.Received bytes words 0 := by
  have hlength : (encodeWords 4 words).length = sbStateSize := by
    rw [length_encodeWords, hwords.length]
    rfl
  have hne : encodeWords 4 words ≠ [] := ne_nil_of_length_eq_add_one hlength
  have hword : ∀ i < 13, wordAt 4 (encodeWords 4 words) i = words.getD i 0 := by
    intro i hi
    have hread := wordAt_encodeWords [] (hwords.length.symm ▸ hi) hwords.lt
    rwa [append_nil] at hread
  simp only [syncStateRecv, if_neg hne, h, syncWriteState, hlength, if_true]
  refine ⟨hsize, ?_, ?_, ?_, ?_, rfl, hoffset, ?_, fun _ => rfl⟩
  · have hpos : 0 < r.buf.fifo.size := by
      rw [hsize]
      decide
    exact ⟨hpos, hpos, hpos, Nat.le_refl _⟩
  · rfl
  · exact fun slot => hword slot (by have := slot.isLt; simp only [maxStreamCmds] at this; omega)
  · rw [hword 9 (by decide), hword 10 (by decide), hword 11 (by decide), hword 12 (by decide)]
  · exact (hword 12 (by decide)).trans hwords.used

theorem Received.recv (len : ℕ) (h : r.Received bytes words k)
    (hbytes : bytes.length < streambufSize) (hk : k ≤ bytes.length) :
    (r.syncStateRecv ((bytes.drop k).take len)).2.Received bytes words
      (k + ((bytes.drop k).take len).length) := by
  have htake : bytes.take k ++ (bytes.drop k).take len =
      bytes.take (k + ((bytes.drop k).take len).length) := by
    rw [take_add, append_cancel_left_eq, take_eq_take_iff, length_take]
    omega
  have htotal : k + ((bytes.drop k).take len).length ≤ bytes.length := by
    rw [length_take, length_drop]
    omega
  generalize (bytes.drop k).take len = packet at htake htotal ⊢
  by_cases hnil : packet = []
  · subst hnil
    exact h
  · have hpos : 0 < packet.length := length_pos_of_ne_nil hnil
    have hfit : r.buf.fifo.lists.retained.length + packet.length ≤ r.buf.fifo.size - 1 := by
      rw [h.lists, FifoLists.retained, nil_append, length_take, h.size]
      omega
    obtain ⟨hcount, hok, hsize, hlists⟩ := h.ok.lists_enq hfit
    rw [h.lists] at hlists
    have hoffset : (r.recvOffset + packet.length) % Fifo2.sizeT = k + packet.length := by
      rw [h.recvOffset, Fifo2.sizeT]
      simp only [streambufSize] at hbytes
      omega
    simp only [syncStateRecv, if_neg hnil, h.syncState (by omega), syncWriteData, hcount,
      hoffset, h.syncDataLen]
    rw [if_neg (by omega)]
    split_ifs with hlast
    · exact ⟨hsize.trans h.size, hok, hlists.trans (by rw [htake]), h.slots, h.stateSync,
        h.dequeued, rfl, rfl, fun hlt => by omega⟩
    · exact ⟨hsize.trans h.size, hok, hlists.trans (by rw [htake]), h.slots, h.stateSync,
        h.dequeued, rfl, rfl, fun _ => rfl⟩

end Syncer

/-! ### A whole transfer -/

open Syncer

/-- How far a transfer is. -/
inductive Phase (bytes : Bytes) (words : List ℕ) (t : Transfer) : Prop
  | audioState (sender : t.sender.syncState = .readySyncTo)
      (receiver : t.receiver.syncState = .readySyncWait)
      (size : t.receiver.buf.fifo.size = streambufSize) (done : t.done = false)
  | sbState (sender : t.sender.syncState = .sendSbState) (sendOffset : t.sender.sendOffset = 0)
      (receiver : t.receiver.syncState = .recvSbState) (recvOffset : t.receiver.recvOffset = 0)
      (size : t.receiver.buf.fifo.size = streambufSize) (done : t.done = false)
  | sbData (sender : t.sender.syncState = .sendSbData)
      (le : t.sender.sendOffset ≤ bytes.length)
      (received : t.receiver.Received bytes words t.sender.sendOffset) (done : t.done = false)
  | done (received : t.receiver.Received bytes words bytes.length) (done : t.done = true)

/-- A frozen sender, and how far it is. -/
structure Progress (bytes : Bytes) (words : List ℕ) (t : Transfer) : Prop where
  frozen : t.sender.Frozen bytes words
  phase : Phase bytes words t

/-- No buffer in memory is larger. -/
def TransferEvent.Fits : TransferEvent → Prop
  | .packet len => len < 2 ^ 31
  | _ => True

instance (e : TransferEvent) : Decidable e.Fits :=
  match e with
  | .packet _ => inferInstanceAs (Decidable (_ < _))
  | .dataDeq _ _ | .cmdDeq _ | .discard _ _ => inferInstanceAs (Decidable True)

namespace Progress

variable {bytes : Bytes} {words : List ℕ} {t t' : Transfer} {a r : Syncer}

theorem step_packet {result : SyncResult} {packet : Bytes} {sender : Syncer} {len : ℕ}
    (hdone : t.done = false) (hsend : t.sender.syncStateSend len = (result, packet, sender)) :
    t.step (.packet len) = if result = .error then none
      else some ⟨sender, (t.receiver.syncStateRecv packet).2, result = .done⟩ := by
  simp [Transfer.step, hdone, hsend]

/-- What the decode thread of the sender does is not seen. -/
theorem of_sender {sender : Syncer} (h : Progress bytes words t)
    (hfrozen : sender.Frozen bytes words) (hstate : sender.syncState = t.sender.syncState)
    (hoffset : sender.sendOffset = t.sender.sendOffset) :
    Progress bytes words { t with sender := sender } := by
  refine ⟨hfrozen, ?_⟩
  cases h.phase with
  | audioState hsender hreceiver hsize hdone =>
    exact .audioState (hstate.trans hsender) hreceiver hsize hdone
  | sbState hsender hzero hreceiver hrecv hsize hdone =>
    exact .sbState (hstate.trans hsender) (hoffset.trans hzero) hreceiver hrecv hsize hdone
  | sbData hsender hle hreceived hdone =>
    exact .sbData (hstate.trans hsender) (hoffset ▸ hle) (hoffset ▸ hreceived) hdone
  | done hreceived hdone => exact .done hreceived hdone

theorem packet {len : ℕ} (h : Progress bytes words t) (hwords : Words words bytes)
    (hbytes : bytes.length < streambufSize) (hlen : len < 2 ^ 31)
    (hstep : t.step (.packet len) = some t') : Progress bytes words t' := by
  have hfrozen := h.frozen
  cases h.phase with
  | audioState hsender hreceiver hsize hdone =>
    have hsend := send_audioState len hsender
    by_cases hlarge : audioStateSize ≤ len
    · rw [if_pos hlarge] at hsend
      rw [step_packet hdone hsend, if_neg (by decide)] at hstep
      cases hstep
      obtain ⟨hstate, hoffset, hbuf⟩ := recv_audioState
        (encodeWords 8 [t.sender.currentTrackJiffies, t.sender.syncDiscardedSamples]) hreceiver
        (ne_nil_of_length_eq_add_one (length_encodeWords _ _))
      exact ⟨{ hfrozen with },
        .sbState rfl rfl hstate hoffset (hbuf ▸ hsize) rfl⟩
    · rw [if_neg hlarge] at hsend
      rw [step_packet hdone hsend, if_pos rfl] at hstep
      cases hstep
  | sbState hsender hzero hreceiver hrecv hsize hdone =>
    have hsend := send_sbState len hsender
    by_cases hlarge : sbStateSize ≤ len
    · rw [if_pos hlarge] at hsend
      rw [step_packet hdone hsend, if_neg (by decide), hfrozen.sbState] at hstep
      cases hstep
      have hreceived := recv_sbState hreceiver hrecv hsize hwords
      rw [← hzero] at hreceived
      exact ⟨{ hfrozen with },
        .sbData rfl (hzero ▸ Nat.zero_le _) hreceived rfl⟩
    · rw [if_neg hlarge] at hsend
      rw [step_packet hdone hsend, if_pos rfl] at hstep
      cases hstep
  | sbData hsender hle hreceived hdone =>
    have hnext := hreceived.recv len hbytes hle
    have hlength : ((bytes.drop t.sender.sendOffset).take len).length =
        min len (bytes.length - t.sender.sendOffset) := by
      rw [length_take, length_drop]
    simp only [streambufSize] at hbytes
    by_cases hpos : len = 0
    · have hsend : t.sender.syncStateSend len = (.error, [], t.sender) := if_pos hpos
      rw [step_packet hdone hsend, if_pos rfl] at hstep
      cases hstep
    · have hsend := hfrozen.send_sbData hsender hle (by omega) hlen hpos
      split_ifs at hsend with hfull
      · rw [step_packet hdone hsend, if_neg (by decide)] at hstep
        cases hstep
        have hk : t.sender.sendOffset + min len (bytes.length - t.sender.sendOffset) =
            t.sender.sendOffset + len := by omega
        rw [hlength, hk] at hnext
        exact ⟨{ hfrozen with },
          .sbData hsender hfull hnext rfl⟩
      · rw [step_packet hdone hsend, if_neg (by decide)] at hstep
        cases hstep
        have hk : t.sender.sendOffset + min len (bytes.length - t.sender.sendOffset) =
            bytes.length := by omega
        rw [hlength, hk] at hnext
        exact ⟨{ hfrozen with },
          .done hnext rfl⟩
  | done hreceived hdone => simp [Transfer.step, hdone] at hstep

theorem step {e : TransferEvent} (h : Progress bytes words t) (hwords : Words words bytes)
    (hbytes : bytes.length < streambufSize) (hfits : e.Fits) (hstep : t.step e = some t') :
    Progress bytes words t' := by
  cases e with try cases hstep
  | packet len => exact h.packet hwords hbytes hfits hstep
  | dataDeq min max =>
    exact h.of_sender (h.frozen.dataDeq min max) rfl rfl
  | cmdDeq size =>
    exact h.of_sender (h.frozen.cmdDeq size) rfl rfl
  | discard size data =>
    obtain ⟨sender, hdiscard, rfl⟩ := Option.map_eq_some_iff.mp hstep
    obtain ⟨hfrozen, hstate, hoffset⟩ := h.frozen.discard hdiscard
    exact h.of_sender hfrozen hstate hoffset

/-- How many packets there can be until the transfer is over. -/
def left (bytes : Bytes) (t : Transfer) : ℕ :=
  match t.sender.syncState with
  | .readySyncTo => bytes.length + 3
  | .sendSbState => bytes.length + 2
  | _ => bytes.length + 1 - t.sender.sendOffset

theorem sends {len : ℕ} (h : Progress bytes words t) (hbytes : bytes.length < streambufSize)
    (hlarge : sbStateSize ≤ len) (hlen : len < 2 ^ 31) (hdone : t.done = false) :
    ∃ t', t.step (.packet len) = some t' ∧ (t'.done = true ∨ left bytes t' < left bytes t) := by
  simp only [streambufSize] at hbytes
  have hpos : 16 ≤ len := Nat.le_trans (by decide) hlarge
  cases h.phase with
  | audioState hsender hreceiver hsize hdone =>
    have hsend := send_audioState len hsender
    rw [if_pos (show audioStateSize ≤ len from hpos)] at hsend
    refine ⟨_, (step_packet hdone hsend).trans (if_neg (by decide)), .inr ?_⟩
    simp only [left, hsender]
    omega
  | sbState hsender hzero hreceiver hrecv hsize hdone =>
    have hsend := send_sbState len hsender
    rw [if_pos hlarge] at hsend
    refine ⟨_, (step_packet hdone hsend).trans (if_neg (by decide)), .inr ?_⟩
    simp only [left, hsender]
    omega
  | sbData hsender hle hreceived hdone =>
    have hsend := h.frozen.send_sbData hsender hle (by omega) hlen (by omega)
    split_ifs at hsend with hfull
    · refine ⟨_, (step_packet hdone hsend).trans (if_neg (by decide)), .inr ?_⟩
      simp only [left, hsender]
      omega
    · exact ⟨_, (step_packet hdone hsend).trans (if_neg (by decide)), .inl rfl⟩
  | done hreceived hover => exact absurd (hdone.symm.trans hover) (by decide)

/-- With packets of one size that has room for the counters, the transfer comes to its end. -/
theorem completes {len : ℕ} (h : Progress bytes words t) (hwords : Words words bytes)
    (hbytes : bytes.length < streambufSize) (hlarge : sbStateSize ≤ len) (hlen : len < 2 ^ 31) :
    ∃ n t', (transfer a r).runFrom t (List.replicate n (.packet len)) = some t' ∧
      t'.done = true := by
  induction hn : left bytes t using Nat.strong_induction_on generalizing t with
  | _ n ih =>
    cases hdone : t.done with
    | true => exact ⟨0, t, rfl, hdone⟩
    | false =>
      obtain ⟨t', hstep, hover | hless⟩ := h.sends hbytes hlarge hlen hdone
      · exact ⟨1, t', by simp [replicate, System.runFrom, transfer, hstep], hover⟩
      · obtain ⟨k, t'', hrun, hover⟩ :=
          ih _ (hn ▸ hless) (h.packet hwords hbytes hlen hstep) rfl
        refine ⟨k + 1, t'', ?_, hover⟩
        exact (congrArg (Option.bind · _) hstep).trans hrun

end Progress

end BeepMusic.Audio
