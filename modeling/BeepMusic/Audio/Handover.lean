import Mathlib.Algebra.Order.BigOperators.Group.List
import Mathlib.Algebra.Order.Ring.Nat
import BeepMusic.Audio.Discards
import BeepMusic.Audio.DecodeTurn
import BeepMusic.Audio.Transfer

/-!
What the receiver of a stream buffer can dequeue. The bytes and the counters that are
sent belong together only if the stale counters are where the sender dequeues from: a
command is discarded from the old end of the fifo although older data is kept, and the
stale counters pass commands that have not been dequeued.
-/

namespace BeepMusic.Audio

open Lib List Option
open Syncer

namespace Streambuf

/-- The calls of the threads that use the buffer: commands are put in as they are encoded,
and only while less than `MAX_STREAM_CMDS` are pending. -/
def Callers (s : Streambuf) (e : StreambufCall) : Prop :=
  DecodeThread s e ∧ EnqueuesBelowMax s e ∧
    match e with
    | .cmdEnq buf => Encoded buf
    | _ => True

instance (s : Streambuf) (e : StreambufCall) : Decidable (Callers s e) :=
  match e with
  | .cmdEnq _ | .dataEnq _ | .dataDeq _ _ | .cmdDeq _ | .discard _ _ =>
    inferInstanceAs (Decidable (_ ∧ _))

variable {s s' : Streambuf}

/-- What is known of a state that the callers get to. -/
structure Settled (s : Streambuf) : Prop where
  framing : ∃ q, s.Framing q
  window : ∃ passed w, s.Window passed w
  size : s.fifo.size = streambufSize
  encoded : ∀ bytes ∈ cmds s.enqueued, Encoded bytes

variable {e : StreambufCall}

theorem size_step (h : s.fifo.Ok) (hstep : s.step e = some s') : s'.fifo.size = s.fifo.size := by
  cases e with try cases hstep
  | dataEnq buf =>
    exact h.size_perform (.enq buf) trivial
  | cmdEnq buf =>
    obtain ⟨-, rfl⟩ := ite_some_none_eq_some.mp hstep
    exact h.size_perform (.enq buf) trivial
  | dataDeq min max =>
    exact (fifo_dataDeq s min max).size h
  | cmdDeq size =>
    exact (fifo_cmdDeq s size).size h
  | discard size data =>
    obtain ⟨stale, sslot, cnt, rfl⟩ := decCntStaleLoop_frame hstep
    exact h.size_perform (.discard size) trivial

/-- Commands get into the stream only by `streambuf_cmd_enq`. -/
theorem cmds_enqueued_step {bytes : Bytes} (hstep : s.step e = some s')
    (hbytes : bytes ∈ cmds s'.enqueued) : bytes ∈ cmds s.enqueued ∨ e = .cmdEnq bytes := by
  cases e with try cases hstep
  | dataEnq buf =>
    simp only [dataEnq, cmds_append, cmds_map_byte, append_nil] at hbytes
    exact .inl hbytes
  | cmdEnq buf =>
    obtain ⟨-, rfl⟩ := ite_some_none_eq_some.mp hstep
    simp only [cmds_append, cmds, mem_append, mem_singleton] at hbytes
    exact hbytes.imp_right fun hbuf => by rw [hbuf]
  | dataDeq min max =>
    rw [dataDeq] at hbytes
    split_ifs at hbytes <;> exact .inl hbytes
  | cmdDeq size =>
    rw [cmdDeq] at hbytes
    split_ifs at hbytes
    · dsimp only at hbytes
      split_ifs at hbytes <;> exact .inl hbytes
    · exact .inl hbytes
  | discard size data =>
    obtain ⟨stale, sslot, cnt, rfl⟩ := decCntStaleLoop_frame hstep
    exact .inl hbytes

theorem settled (h : (streambuf streambufSize).ReachableUnder Callers s) : s.Settled := by
  apply h.invariant (I := Settled)
  · exact ⟨⟨[], framing_init (by decide)⟩, ⟨[], [], .init⟩, rfl, nofun⟩
  · intro s e s' hs hok hstep
    obtain ⟨q, hq⟩ := hs.framing
    obtain ⟨passed, w, hw⟩ := hs.window
    refine ⟨hq.step (hok.1.inBounds hok.2.1 hq) hstep, hw.step hq hok.1 hstep,
      (size_step hq.ok hstep).trans hs.size, fun bytes hbytes => ?_⟩
    rcases cmds_enqueued_step hstep hbytes with hbefore | rfl
    · exact hs.encoded bytes hbefore
    · exact hok.2.2

theorem StaleCounts.slotCntStale_le {w : List Item} (h : s.StaleCounts w) (slot : Slot) :
    s.slotCntStale slot ≤ (w.flatMap Item.bytes).length := by
  obtain ⟨j, hj, rfl⟩ := s.sslot.exists_after slot
  have hsum := sum_runs_add w
  rw [h.counts j hj, getD_eq_getElem?_getD]
  cases hget : (runs w)[j]? with
  | none => exact Nat.zero_le _
  | some n =>
    have hle := le_sum_of_mem (mem_of_getElem? hget)
    rw [getD_some]
    omega

end Streambuf

namespace Syncer

variable {a r : Syncer} {s : Streambuf}

theorem getD_sbState (a : Syncer) (slot : Slot) :
    a.sbState.getD slot 0 = a.buf.slotCntStale slot := by
  have hlt : slot.val < (ofFn a.buf.slotCntStale).length := by
    exact slot.isLt
  rw [sbState, getD_eq_getElem?_getD, getElem?_append_left hlt,
    getElem?_eq_getElem hlt, List.getElem_ofFn, getD_some]

/-- The words of a sender whose stale counters count what it holds. -/
theorem words_sbState {w : List Item} (hcounts : a.buf.StaleCounts w)
    (hused : (w.flatMap Item.bytes).length < streambufSize)
    (hsync : a.stateSync = ⟨a.buf.cmdCntStale, a.buf.eslot, a.buf.sslot,
      (w.flatMap Item.bytes).length⟩) :
    Words a.sbState (w.flatMap Item.bytes) := by
  refine ⟨length_sbState a, ?_, ?_⟩
  · intro word hword
    have hcnt := hcounts.cmdCntStale
    have hbounded := hcounts.bounded
    have heslot := a.buf.eslot.isLt
    have hsslot := a.buf.sslot.isLt
    simp only [streambufSize, maxStreamCmds] at hused hbounded heslot hsslot
    rw [sbState, hsync, mem_append, mem_ofFn] at hword
    rcases hword with ⟨slot, rfl⟩ | hword
    · have hle := hcounts.slotCntStale_le slot
      omega
    · simp only [mem_cons, not_mem_nil, or_false] at hword
      omega
  · rw [sbState, hsync]
    rfl

/-- The receiver takes the counters, and has what the sender held. -/
theorem Received.restoreState {w : List Item} (hcounts : a.buf.StaleCounts w)
    (hsync : a.stateSync = ⟨a.buf.cmdCntStale, a.buf.eslot, a.buf.sslot,
      (w.flatMap Item.bytes).length⟩)
    (h : r.Received (w.flatMap Item.bytes) a.sbState (w.flatMap Item.bytes).length) :
    r.restoreState.buf.Frames w := by
  have hlists := h.lists
  rw [take_length] at hlists
  have hstate : r.stateSync = a.stateSync := by
    rw [h.stateSync, sbState]
    rfl
  have hslots : r.buf.slotCntStale = a.buf.slotCntStale :=
    funext fun slot => (h.slots slot).trans (a.getD_sbState slot)
  have hbuf : r.restoreState.buf = { r.buf with
      slotCnt := a.buf.slotCntStale
      cmdCnt := a.buf.cmdCntStale
      cmdCntStale := a.buf.cmdCntStale
      eslot := a.buf.eslot
      dslot := a.buf.sslot
      sslot := a.buf.sslot } := by
    simp [Syncer.restoreState, hstate, hsync, hslots, slotOfWord_val]
  rw [hbuf]
  exact ⟨h.ok, rfl, congrArg FifoLists.fresh hlists, hcounts.cmdCntStale, hcounts.bounded,
    hcounts.eslot, hcounts.counts⟩

end Syncer

/-- What the receiver of a transfer takes, once it has resumed, is what was held. -/
def HandsOver (s : Streambuf) (t : Transfer) : Prop :=
  ∀ max > 0, ∃ n, ∀ m ≥ n,
    ((Streambuf.decodeTurn max)^[m] t.receiver.restoreState.buf).dequeued = s.held

/-- A transfer in packets of one size, and a test of its end. -/
def transferTest (s : Streambuf) (packets len : ℕ) (test : Transfer → Bool) : Bool :=
  ((Syncer.init s).prepareSyncTo true 0).any fun sender =>
    ((Syncer.init (.init streambufSize)).prepareSyncWait true).any fun receiver =>
      let sys := transfer sender receiver
      let events := List.replicate packets (.packet len)
      sys.meets (fun _ e => e.Fits) sys.init events && (sys.runFrom sys.init events).any test

theorem exists_transfer {s : Streambuf} {packets len : ℕ} {test : Transfer → Bool}
    (h : transferTest s packets len test = true) :
    ∃ sender receiver t, (Syncer.init s).prepareSyncTo true 0 = some sender ∧
      (Syncer.init (.init streambufSize)).prepareSyncWait true = some receiver ∧
      (transfer sender receiver).ReachableUnder (fun _ e => e.Fits) t ∧ test t = true := by
  obtain ⟨sender, hsender, h⟩ := (Option.any_eq_true _ _).mp h
  obtain ⟨receiver, hreceiver, h⟩ := (Option.any_eq_true _ _).mp h
  obtain ⟨hfits, htest⟩ := (Bool.and_eq_true _ _).mp h
  obtain ⟨t, -, hreach, ht⟩ := System.exists_reachableUnder _ _ _ (test · = true) hfits
    ((Option.any_eq_true _ _).mp htest)
  exact ⟨sender, receiver, t, hsender, hreceiver, hreach, ht⟩

/-- The command at the end of a track. -/
def stEndCommand : Bytes := toBytes 4 (encodeAudioOp 7 4)

/-- A byte of data is dequeued and kept, and the command behind it is dequeued and
discarded. -/
def keptBehindCommand : List StreambufCall :=
  [.dataEnq [1], .dataDeq 0 8, .cmdEnq stEndCommand, .cmdDeq 4, .discard 4 false]

/-- The sender holds the byte of data, the receiver gets the last byte of the command. -/
theorem handsOver_wrong_byte :
    ∃ s sender receiver t,
      (streambuf streambufSize).ReachableUnder Streambuf.Callers s ∧
      (Syncer.init s).prepareSyncTo true 0 = some sender ∧
      (Syncer.init (.init streambufSize)).prepareSyncWait true = some receiver ∧
      (transfer sender receiver).ReachableUnder (fun _ e => e.Fits) t ∧ t.done = true ∧
      s.held = [.byte 1] ∧
      (t.receiver.restoreState.buf.decodeTurn 8).dequeued = [.byte 7] ∧ ¬ HandsOver s t := by
  obtain ⟨s, -, hs, hheld, htransfer⟩ := System.exists_reachableUnder (streambuf streambufSize)
    Streambuf.Callers keptBehindCommand
    (fun s => s.held = [.byte 1] ∧ transferTest s 3 64 fun t =>
      t.done = true ∧ (t.receiver.restoreState.buf.decodeTurn 8).dequeued = [.byte 7])
    (by decide +kernel) (by decide +kernel)
  obtain ⟨sender, receiver, t, hsender, hreceiver, ht, hend⟩ := exists_transfer htransfer
  obtain ⟨hdone, hdequeued⟩ := of_decide_eq_true hend
  refine ⟨s, sender, receiver, t, hs, hsender, hreceiver, ht, hdone, hheld, hdequeued, ?_⟩
  intro hover
  obtain ⟨n, hn⟩ := hover 8 (by decide)
  have hgrows := Streambuf.dequeued_iterate_decodeTurn 8 n
    (t.receiver.restoreState.buf.decodeTurn 8)
  rw [← Function.iterate_succ_apply, hn (n + 1) (Nat.le_succ n), hdequeued, hheld] at hgrows
  exact absurd hgrows (by decide)

/-- Where the stale counters are at the slot that is dequeued from and no command waits
to be discarded, a transfer that comes to its end hands over what was held, whatever the
decode thread of the sender does meanwhile; and with packets that have room for the
counters it comes to its end. -/
theorem handsOver_of_aligned (s : Streambuf)
    (hs : (streambuf streambufSize).ReachableUnder Streambuf.Callers s)
    (hslot : s.sslot = s.dslot) (hcmd : s.cmdTaken = none)
    (a r sender receiver : Syncer) (samples : ℕ) (ha : a.buf = s)
    (hr : r.buf.fifo.size = streambufSize) (hto : a.prepareSyncTo true samples = some sender)
    (hwait : r.prepareSyncWait true = some receiver) :
    (∀ t, (transfer sender receiver).ReachableUnder (fun _ e => e.Fits) t → t.done = true →
      HandsOver s t) ∧
    ∀ len, sbStateSize ≤ len → len < 2 ^ 31 →
      ∃ n t, (transfer sender receiver).runFrom (transfer sender receiver).init
        (List.replicate n (.packet len)) = some t ∧ t.done = true := by
  obtain ⟨⟨q, hq⟩, ⟨passed, w, hw⟩, hsize, hencoded⟩ := Streambuf.settled hs
  obtain ⟨hcounts, hretained⟩ := hw.aligned hq hslot hcmd
  subst ha
  have hused : a.buf.fifo.bytesUsed true = (a.buf.held.flatMap Item.bytes).length := by
    rw [← Fifo2.length_retained, hretained]
  have hbytes : (a.buf.held.flatMap Item.bytes).length < streambufSize := by
    rw [← hused, ← hsize]
    exact Ring.dist_lt hq.ok.sptr hq.ok.wptr
  -- the sender and the receiver as they are prepared
  obtain ⟨hbuf, hsync, hlocked, hsend⟩ : sender.buf = a.buf ∧
      sender.stateSync = ⟨a.buf.cmdCntStale, a.buf.eslot, a.buf.sslot,
        (a.buf.held.flatMap Item.bytes).length⟩ ∧
      sender.allowDiscard = false ∧ sender.syncState = .readySyncTo := by
    cases hto
    exact ⟨rfl, by rw [← hused]; rfl, rfl, rfl⟩
  obtain ⟨hrecv, hring⟩ : receiver.syncState = .readySyncWait ∧
      receiver.buf.fifo.size = streambufSize := by
    cases hwait
    exact ⟨rfl, hr⟩
  rw [← hbuf] at hsync hcounts hbytes hretained hq ⊢
  have hwords := words_sbState hcounts hbytes hsync
  have hinit : Progress (sender.buf.held.flatMap Item.bytes) sender.sbState
      (transfer sender receiver).init :=
    ⟨⟨hlocked, hq.ok, hretained, rfl⟩, .audioState hsend hrecv hring rfl⟩
  refine ⟨fun t ht hdone max hmax => ?_, fun len hlarge hlen =>
    hinit.completes hwords hbytes hlarge hlen⟩
  have hprogress : Progress (sender.buf.held.flatMap Item.bytes) sender.sbState t :=
    ht.invariant (I := Progress _ _) hinit
      fun _ _ _ h hfits hstep => h.step hwords hbytes hfits hstep
  cases hprogress.phase with
  | done hreceived hover =>
    have hframes := hreceived.restoreState hcounts hsync
    have hcmds : ∀ bytes ∈ cmds sender.buf.held, Encoded bytes := by
      intro bytes hbytes
      apply hencoded
      rw [← hbuf, hq.enqueued, cmds_append]
      rw [Streambuf.held, cmds_append, cmds_map_byte, nil_append, hq.pending_eq] at hbytes
      exact mem_append_right _ hbytes
    obtain ⟨n, hn⟩ := hframes.drain hcmds hmax
    refine ⟨n, fun m hm => (hn m hm).trans ?_⟩
    rw [show t.receiver.restoreState.buf.dequeued = [] from hreceived.dequeued]
    rfl
  | audioState _ _ _ hopen | sbState _ _ _ _ _ hopen | sbData _ _ _ hopen =>
    exact absurd (hdone.symm.trans hopen) (by decide)

/-- Data that is kept, data that is pending, and a command between two of its stretches. -/
def keptInSlot : List StreambufCall :=
  [.cmdEnq stEndCommand, .dataEnq [1, 2, 3], .cmdEnq stEndCommand, .dataEnq [4], .cmdDeq 4,
    .discard 4 false, .dataDeq 0 2, .discard 1 true]

theorem handsOver_kept_in_slot :
    ∃ s sender receiver t,
      (streambuf streambufSize).ReachableUnder Streambuf.Callers s ∧
      (Syncer.init s).prepareSyncTo true 0 = some sender ∧
      (Syncer.init (.init streambufSize)).prepareSyncWait true = some receiver ∧
      (transfer sender receiver).ReachableUnder (fun _ e => e.Fits) t ∧
      s.held = [.byte 2, .byte 3, .cmd stEndCommand, .byte 4] ∧ HandsOver s t := by
  obtain ⟨s, -, hs, hheld, hslot, hcmd, htransfer⟩ := System.exists_reachableUnder
    (streambuf streambufSize) Streambuf.Callers keptInSlot
    (fun s => s.held = [.byte 2, .byte 3, .cmd stEndCommand, .byte 4] ∧
      s.sslot = s.dslot ∧ s.cmdTaken = none ∧ transferTest s 3 64 fun t => t.done)
    (by decide +kernel) (by decide +kernel)
  obtain ⟨sender, receiver, t, hsender, hreceiver, ht, hdone⟩ := exists_transfer htransfer
  obtain ⟨hover, -⟩ := handsOver_of_aligned s hs hslot hcmd _ _ sender receiver 0 rfl rfl hsender
    hreceiver
  exact ⟨s, sender, receiver, t, hs, hsender, hreceiver, ht, hheld, hover t ht hdone⟩

end BeepMusic.Audio
