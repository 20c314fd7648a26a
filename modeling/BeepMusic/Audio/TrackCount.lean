import Mathlib.Algebra.GroupWithZero.Nat
import BeepMusic.Audio.FlushPosition

/-!
Counting the tracks that have started. There is one mark, at the first frame of the track
that was decoded last. As long as each track's first frames come when the mark before them
has been passed, every track is counted in the callback that takes its first frame. When a
second track is decoded before the first one is played, its mark takes the place of the other
and the first track is never counted.
-/

namespace BeepMusic.Audio

open Lib List

/-- How many tracks have a frame among the first `taken` ones. The last track comes first. -/
def tracksReached (taken : ℕ) : List ℕ → ℕ
  | [] => 0
  | n :: older =>
    tracksReached taken older + if 0 < n ∧ older.sum < taken then 1 else 0

/-- The tracks that have frames. -/
def decodedTracks (tracks : List ℕ) : List ℕ := tracks.filter (0 < ·)

theorem sum_decodedTracks (tracks : List ℕ) : (decodedTracks tracks).sum = tracks.sum := by
  induction tracks with
  | nil => rfl
  | cons n older ih =>
    rw [decodedTracks] at ih ⊢
    rcases Nat.eq_zero_or_pos n with rfl | hpos
    · rw [filter_cons_of_neg (by decide), sum_cons, Nat.zero_add, ih]
    · rw [filter_cons_of_pos (by simpa using hpos), sum_cons, sum_cons, ih]

theorem decodedTracks_zero (older : List ℕ) : decodedTracks (0 :: older) = decodedTracks older :=
  filter_cons_of_neg (by decide)

theorem decodedTracks_pos {n : ℕ} (hn : 0 < n) (older : List ℕ) :
    decodedTracks (n :: older) = n :: decodedTracks older :=
  filter_cons_of_pos (by simpa using hn)

theorem tracksReached_decodedTracks (taken : ℕ) (tracks : List ℕ) :
    tracksReached taken (decodedTracks tracks) = tracksReached taken tracks := by
  induction tracks with
  | nil => rfl
  | cons n older ih =>
    rcases Nat.eq_zero_or_pos n with rfl | hpos
    · rw [decodedTracks_zero, ih, tracksReached, if_neg (by omega), Nat.add_zero]
    · rw [decodedTracks_pos hpos, tracksReached, tracksReached, ih, sum_decodedTracks]

variable {tracks : List ℕ}

theorem pos_of_mem_decodedTracks {n : ℕ} (h : n ∈ decodedTracks tracks) : 0 < n := by
  simpa using (mem_filter.mp h).2

theorem decodedTracks_eq_nil (h : tracks.sum = 0) : decodedTracks tracks = [] := by
  cases hdecoded : decodedTracks tracks with
  | nil => rfl
  | cons n older =>
    have hpos : 0 < n := pos_of_mem_decodedTracks (hdecoded ▸ mem_cons_self)
    rw [← sum_decodedTracks, hdecoded, sum_cons] at h
    omega

/-- The last track has been reached, and so has every other one. -/
def LastReached (taken : ℕ) (tracks : List ℕ) : Prop :=
  ∀ n older, tracks = n :: older → older.sum < taken

theorem LastReached.mono {taken taken' : ℕ} (h : LastReached taken tracks) (hle : taken ≤ taken') :
    LastReached taken' tracks :=
  fun n older heq => Nat.lt_of_lt_of_le (h n older heq) hle

theorem tracksReached_eq_length {taken : ℕ} (hpos : ∀ n ∈ tracks, 0 < n)
    (h : LastReached taken tracks) : tracksReached taken tracks = tracks.length := by
  induction tracks with
  | nil => rfl
  | cons n older ih =>
    have hlast := h n older rfl
    have holder : LastReached taken older := by
      rintro m rest rfl
      rw [sum_cons] at hlast
      omega
    rw [tracksReached, if_pos ⟨hpos n (.head _), hlast⟩,
      ih (fun m hm => hpos m (.tail _ hm)) holder, length_cons]

/-! ### The mark -/

variable (state : DecodeI2s)

namespace DecodeAudio

variable {a : DecodeAudio}

/-- The test of `decode_check_start_point`, when the mark was `k` bytes ahead and the read
pointer has moved by `c`. -/
theorem reachedStartPoint_iff {k c : ℕ} {f : RingFifo} (hok : f.Ok) (hk : k < f.bytesUsed)
    (hc : c ≤ f.bytesUsed) (hfifo : a.fifo = f.moved c)
    (hmark : a.trackStartPoint = Ring.advance f.size f.rptr k) :
    a.reachedStartPoint = true ↔ k < c := by
  have hw := hok.wptr
  rw [RingFifo.bytesUsed] at hk hc
  rw [reachedStartPoint, hfifo, hmark]
  simp only [RingFifo.moved, Ring.advance]
  split_ifs at * <;> simp only [decide_eq_true_eq] <;> omega

/-- A callback that is running has been, or finds enough audio to start. -/
theorem autostarted_running {state : DecodeI2s} {now n : ℕ}
    (h : (a.autostarted state now n).running = true) : a.running = true ∨ 0 < a.decodeFrames := by
  rw [autostarted] at h
  split_ifs at h with hstart
  · simp only [startsNow, Bool.and_eq_true, decide_eq_true_eq] at hstart
    omega
  · exact .inl h

/-- Without running, nothing is played, and what there is to skip is as before. -/
theorem amounts_not_running {state : DecodeI2s} {now n : ℕ}
    (h : (a.autostarted state now n).running = false) :
    (a.amounts state now n).played = 0 ∧
      (a.autostarted state now n).skipAheadBytes = a.skipAheadBytes := by
  constructor
  · rw [amounts]
    split_ifs
    · rfl
    · exact if_neg (by rw [h]; decide)
  · rw [autostarted] at h ⊢
    split_ifs at h ⊢
    rfl

/-- Looking for the mark changes only what belongs to the track. -/
theorem trackStarted_frame (a : DecodeAudio) :
    ∃ mark num written elapsed rate, a.trackStarted state = { a with
      checkStartPoint := mark
      numTracksStarted := num
      writtenTrackSamples := written
      startAtElapsedSamples := elapsed
      setSampleRate := rate } := by
  rcases trackStarted_cases state a with ⟨-, heq⟩ | ⟨-, -, written, rate, heq⟩
  · exact ⟨_, _, _, _, _, heq⟩
  · exact ⟨_, _, _, _, _, heq⟩

theorem decodeFrames_afterCallback (now n : ℕ) (h : a.fifo.Whole) :
    (a.amounts state now n).skipped + (a.amounts state now n).played +
      (a.afterCallback state now n).decodeFrames = a.decodeFrames := by
  obtain ⟨-, hle, -⟩ := amounts_le state now n a
  have hused : (a.afterCallback state now n).fifo.bytesUsed = a.fifo.bytesUsed -
      8 * ((a.amounts state now n).skipped + (a.amounts state now n).played) := by
    rw [afterCallback_fifo state now n h]
    apply h.ok.bytesUsed_moved
    rw [decodeFrames, bytesToSamples] at hle
    omega
  rw [decodeFrames, bytesToSamples] at hle ⊢
  rw [decodeFrames, bytesToSamples, hused]
  omega

end DecodeAudio

namespace Player

variable {p p' : Player} {e : PlayerEvent}

/-- The frames that have been skipped or played. -/
def taken (p : Player) : ℕ := p.skipped + p.played

/-- The events between two stops: samples fit into the ring, and callbacks are running or
have nothing to skip. -/
def ordinary (p : Player) : PlayerEvent → Bool
  | .start _ | .pause _ | .resume _ _ | .skipAhead _ => true
  | .stop | .flush => false
  | .samples _ nsamples _ => decide (8 * nsamples ≤ p.audio.fifo.bytesFree)
  | .callback now outputFrames =>
    (p.audio.autostarted p.state now outputFrames).running ||
      decide (p.audio.skipAheadBytes < 8)

/-- The first samples of a track come when the mark of the track before has been passed. A
mark from before the stop may be left. -/
def keepsMark (p : Player) : PlayerEvent → Bool
  | .samples _ nsamples _ =>
    decide (nsamples = 0) || !p.audio.decodeFirstBuffer || !p.audio.checkStartPoint ||
      decide (p.tracks.sum = 0)
  | _ => true

def countable (p : Player) (e : PlayerEvent) : Bool := p.ordinary e && p.keepsMark e

/-- Where the mark is, and how many tracks have been counted. -/
structure Marked (taken : ℕ) (tracks : List ℕ) (a : DecodeAudio) : Prop where
  /-- The last track has not been reached, the others have, and the mark is at its first
  frame. -/
  waiting : a.checkStartPoint = true → ∀ n older, tracks = n :: older →
    taken ≤ older.sum ∧
      a.trackStartPoint = Ring.advance a.fifo.size a.fifo.rptr (8 * (older.sum - taken)) ∧
      LastReached taken older ∧ a.numTracksStarted = .ofNat older.length
  /-- A mark from before the last stop. -/
  stale : a.checkStartPoint = true → tracks = [] → a.numTracksStarted = 0
  passed : a.checkStartPoint = false →
    LastReached taken tracks ∧ a.numTracksStarted = .ofNat tracks.length

/-- The account of the frames and of the tracks. -/
structure Counted (p : Player) : Prop where
  whole : p.audio.fifo.Whole
  total : p.tracks.sum = p.taken + p.audio.decodeFrames
  first : p.audio.decodeFirstBuffer = true → ∃ older, p.tracks = 0 :: older
  later : p.audio.decodeFirstBuffer = false → ∀ n older, p.tracks = n :: older → 0 < n
  decoder : p.audio.decoder = true → p.tracks ≠ []
  running : p.audio.running = true → 0 < p.tracks.sum
  marked : Marked p.taken (decodedTracks p.tracks) p.audio

theorem Counted.numTracksStarted (h : p.Counted) :
    p.audio.numTracksStarted = .ofNat (tracksReached p.taken p.tracks) := by
  have hpos : ∀ n ∈ decodedTracks p.tracks, 0 < n := fun n hn => pos_of_mem_decodedTracks hn
  rw [← tracksReached_decodedTracks]
  rcases Bool.eq_false_or_eq_true p.audio.checkStartPoint with hcheck | hcheck
  · cases htracks : decodedTracks p.tracks with
    | nil => exact h.marked.stale hcheck htracks
    | cons n older =>
      rw [htracks] at hpos
      obtain ⟨hle, -, hlast, hnum⟩ := h.marked.waiting hcheck n older htracks
      rw [tracksReached, if_neg (by omega), Nat.add_zero,
        tracksReached_eq_length (fun m hm => hpos m (.tail _ hm)) hlast, hnum]
  · obtain ⟨hlast, hnum⟩ := h.marked.passed hcheck
    rw [tracksReached_eq_length hpos hlast, hnum]

theorem counted_init {audio : DecodeAudio} (h : audio.fifo.Whole) :
    (playback state audio.stopHandler).init.Counted where
  whole := DecodeAudio.whole_outputEnd h
  total := by
    have hempty : (playback state audio.stopHandler).init.audio.fifo.bytesUsed = 0 :=
      if_pos (Nat.le_refl 0)
    rw [DecodeAudio.decodeFrames, hempty]
    rfl
  first hfirst := absurd hfirst Bool.false_ne_true
  later _ n older heq := absurd heq.symm (cons_ne_nil n older)
  decoder hdecoder := absurd hdecoder Bool.false_ne_true
  running hrunning := absurd hrunning Bool.false_ne_true
  marked :=
    { waiting := fun _ n older heq => absurd heq.symm (cons_ne_nil n older)
      stale := fun _ _ => rfl
      passed := fun _ => ⟨fun n older heq => absurd heq.symm (cons_ne_nil n older), rfl⟩ }

/-! ### Steps -/

theorem Counted.start (h : p.Counted) (outputThreshold : ℕ)
    (hstep : p.step (.start outputThreshold) = some p') : p'.Counted := by
  cases hstep
  refine ⟨h.whole, ?_, fun _ => ⟨_, rfl⟩, fun hfirst => ?_, fun _ => cons_ne_nil _ _, ?_, ?_⟩
  · exact (Nat.zero_add _).trans h.total
  · exact absurd (show true = false from hfirst) (by decide)
  · intro hrunning
    show 0 < 0 + p.tracks.sum
    rw [Nat.zero_add]
    exact h.running hrunning
  · exact ⟨h.marked.waiting, h.marked.stale, h.marked.passed⟩

theorem Counted.frame (h : p.Counted) (audio : DecodeAudio) (hfifo : audio.fifo = p.audio.fifo)
    (hfirst : audio.decodeFirstBuffer = p.audio.decodeFirstBuffer)
    (hdecoder : audio.decoder = p.audio.decoder)
    (hrunning : audio.running = true → 0 < p.tracks.sum)
    (hcheck : audio.checkStartPoint = p.audio.checkStartPoint)
    (hpoint : audio.trackStartPoint = p.audio.trackStartPoint)
    (hnum : audio.numTracksStarted = p.audio.numTracksStarted) (state : DecodeI2s)
    (output : ℕ → PcmFrame) :
    { p with state := state, audio := audio, output := output }.Counted := by
  obtain ⟨hwaiting, hstale, hpassed⟩ := h.marked
  refine ⟨?_, ?_, ?_, ?_, ?_, hrunning, ⟨?_, ?_, ?_⟩⟩
  · rw [hfifo]
    exact h.whole
  · rw [DecodeAudio.decodeFrames, hfifo]
    exact h.total
  · rw [hfirst]
    exact h.first
  · rw [hfirst]
    exact h.later
  · rw [hdecoder]
    exact h.decoder
  · rw [hcheck, hpoint, hfifo, hnum]
    exact hwaiting
  · rw [hcheck, hnum]
    exact hstale
  · rw [hcheck, hnum]
    exact hpassed

theorem Counted.pause (h : p.Counted) (interval : ℕ)
    (hstep : p.step (.pause interval) = some p') : p'.Counted := by
  cases hstep
  obtain ⟨ms, running, heq, hrunning⟩ := p.audio.pauseHandler_eq interval
  exact h.frame (p.audio.pauseHandler interval) (by rw [heq]) (by rw [heq]) (by rw [heq])
    (fun hrun => h.running (hrunning (by rwa [heq] at hrun))) (by rw [heq]) (by rw [heq])
    (by rw [heq]) p.state p.output

theorem Counted.resume (h : p.Counted) (startJiffies : ℕ) (sync : Option (ℕ × ℕ))
    (hstep : p.step (.resume startJiffies sync) = some p') : p'.Counted := by
  cases hstep
  obtain ⟨_, _, _, _, heq⟩ := p.audio.resumeHandler_eq startJiffies sync
  exact h.frame (p.audio.resumeHandler startJiffies sync) (by rw [heq]) (by rw [heq])
    (by rw [heq]) (fun hrun => h.running (by rwa [heq] at hrun)) (by rw [heq]) (by rw [heq])
    (by rw [heq]) p.state p.output

theorem Counted.skipAhead (h : p.Counted) (interval : ℕ)
    (hstep : p.step (.skipAhead interval) = some p') : p'.Counted := by
  cases hstep
  exact h.frame (p.audio.skipAheadHandler interval) rfl rfl rfl h.running rfl rfl rfl p.state
    p.output

variable {a : DecodeAudio} {src : ℕ → Frame} {n now : ℕ}

theorem outputSamples_eq (src : ℕ → Frame) {rate : ℤ} {b : DecodeAudio} (h : a.fifo.Whole)
    (hn : 0 < n) (hbuffer : a.firstBuffer rate = b) (hfree : 8 * n ≤ b.fifo.bytesFree) :
    ∃ fifo buffer, a.outputSamples src n rate = { b with fifo := fifo, buffer := buffer } ∧
      fifo.Whole ∧ fifo.size = b.fifo.size ∧ fifo.rptr = b.fifo.rptr ∧
      { b with fifo := fifo, buffer := buffer }.decodeFrames = b.decodeFrames + n := by
  have hwrites := DecodeAudio.writes_outputSamples src rate h (Nat.pos_iff_ne_zero.mp hn)
  rw [hbuffer] at hwrites
  have hused := hwrites.used hfree
  obtain ⟨fifo, buffer, heq⟩ := hwrites.same
  rw [heq] at hwrites hused
  refine ⟨fifo, buffer, heq, hwrites.whole, hwrites.size, hwrites.rptr, ?_⟩
  rw [DecodeAudio.decodeFrames, DecodeAudio.decodeFrames, hused, bytesToSamples, bytesToSamples]
  omega

theorem wptr_eq (h : a.fifo.Whole) :
    a.fifo.wptr = Ring.advance a.fifo.size a.fifo.rptr (8 * a.decodeFrames) := by
  have hused : 8 * a.decodeFrames = a.fifo.bytesUsed := by
    have hdvd := h.bytesUsed
    rw [DecodeAudio.decodeFrames, bytesToSamples]
    omega
  rw [hused, RingFifo.bytesUsed_eq, Ring.advance_dist h.ok.rptr h.ok.wptr]

/-- Where no mark is waited for, or only one from before the stop, all tracks are counted. -/
theorem Counted.all_counted (h : p.Counted)
    (hmark : p.audio.checkStartPoint = false ∨ p.tracks.sum = 0) :
    LastReached p.taken (decodedTracks p.tracks) ∧
      p.audio.numTracksStarted = .ofNat (decodedTracks p.tracks).length := by
  rcases Bool.eq_false_or_eq_true p.audio.checkStartPoint with hcheck | hcheck
  · have hzero := hmark.resolve_left (by rw [hcheck]; decide)
    have hnil := decodedTracks_eq_nil hzero
    rw [hnil]
    exact ⟨fun k rest heq => absurd heq.symm (cons_ne_nil k rest),
      h.marked.stale hcheck hnil⟩
  · exact h.marked.passed hcheck

/-- The first frames of a track: the mark is at the write pointer. -/
theorem Counted.firstSamples (h : p.Counted) {older : List ℕ} {rate : ℤ}
    (hfirst : p.audio.decodeFirstBuffer = true) (htracks : p.tracks = 0 :: older) (hn : 0 < n)
    (hfree : 8 * n ≤ p.audio.fifo.bytesFree)
    (hmark : p.audio.checkStartPoint = false ∨ p.tracks.sum = 0) :
    { p with audio := p.audio.outputSamples src n rate, tracks := n :: older }.Counted := by
  have hbuffer : p.audio.firstBuffer rate = { p.audio with
      trackStartPoint := p.audio.fifo.wptr
      trackSampleRate := (rate % 2 ^ 32).toNat
      checkStartPoint := true
      decodeFirstBuffer := false } := if_pos hfirst
  obtain ⟨fifo, buffer, heq, hwhole, hsize, hrptr, hframes⟩ :=
    outputSamples_eq src h.whole hn hbuffer hfree
  have htotal := h.total
  have hdecoded : decodedTracks p.tracks = decodedTracks older := by
    rw [htracks, decodedTracks_zero]
  have hsum : (decodedTracks older).sum = p.taken + p.audio.decodeFrames := by
    rw [← hdecoded, sum_decodedTracks, htotal]
  rw [heq]
  refine ⟨hwhole, ?_, fun hno => ?_, fun _ k rest hk => ?_, fun _ => cons_ne_nil _ _,
    fun _ => ?_, ⟨fun _ k rest hk => ?_, fun _ hnil => ?_, fun hno => ?_⟩⟩
  · show n + older.sum = p.taken + DecodeAudio.decodeFrames _
    rw [hframes, ← sum_decodedTracks, hsum]
    show _ = p.taken + (p.audio.decodeFrames + n)
    omega
  · exact absurd (show false = true from hno) Bool.false_ne_true
  · obtain rfl := (List.cons.inj hk).1
    exact hn
  · show 0 < n + older.sum
    omega
  · obtain ⟨-, rfl⟩ := List.cons.inj ((decodedTracks_pos hn older).symm.trans hk)
    have hat : p.audio.fifo.wptr = Ring.advance fifo.size fifo.rptr
        (8 * ((decodedTracks older).sum - p.taken)) := by
      rw [hsize, hrptr, hsum, Nat.add_sub_cancel_left]
      exact wptr_eq h.whole
    obtain ⟨hlast, hnum⟩ := h.all_counted hmark
    rw [hdecoded] at hlast hnum
    refine ⟨?_, hat, hlast, hnum⟩
    show p.taken ≤ (decodedTracks older).sum
    omega
  · exact absurd ((decodedTracks_pos hn older).symm.trans hnil) (cons_ne_nil _ _)
  · exact absurd (show true = false from hno) (by decide)

/-- More frames of a track: the mark stays. -/
theorem Counted.moreSamples (h : p.Counted) {m : ℕ} {older : List ℕ} {rate : ℤ}
    (hfirst : p.audio.decodeFirstBuffer = false) (htracks : p.tracks = m :: older) (hn : 0 < n)
    (hfree : 8 * n ≤ p.audio.fifo.bytesFree) :
    { p with audio := p.audio.outputSamples src n rate, tracks := (m + n) :: older }.Counted := by
  have hbuffer : p.audio.firstBuffer rate = p.audio := if_neg (by rw [hfirst]; decide)
  obtain ⟨fifo, buffer, heq, hwhole, hsize, hrptr, hframes⟩ :=
    outputSamples_eq src h.whole hn hbuffer hfree
  have htotal := h.total
  have hm := h.later hfirst m older htracks
  have hdecoded : decodedTracks p.tracks = m :: decodedTracks older := by
    rw [htracks, decodedTracks_pos hm]
  have hdecoded' := decodedTracks_pos (show 0 < m + n by omega) older
  obtain ⟨hwaiting, -, hpassed⟩ := h.marked
  rw [htracks, sum_cons] at htotal
  rw [heq]
  refine ⟨hwhole, ?_, fun hyes => ?_, fun _ k rest hk => ?_, fun _ => cons_ne_nil _ _,
    fun _ => ?_, ⟨fun hcheck k rest hk => ?_, fun _ hnil => ?_, fun hcheck => ?_⟩⟩
  · show m + n + older.sum = p.taken + DecodeAudio.decodeFrames _
    rw [hframes]
    omega
  · exact absurd ((show p.audio.decodeFirstBuffer = true from hyes).symm.trans hfirst) (by decide)
  · obtain rfl := (List.cons.inj hk).1
    omega
  · show 0 < m + n + older.sum
    omega
  · obtain ⟨-, rfl⟩ := List.cons.inj (hdecoded'.symm.trans hk)
    obtain ⟨hle, hpoint, hlast, hnum⟩ := hwaiting hcheck m _ hdecoded
    refine ⟨hle, ?_, hlast, hnum⟩
    rw [hsize, hrptr]
    exact hpoint
  · exact absurd (hdecoded'.symm.trans hnil) (cons_ne_nil _ _)
  · obtain ⟨hlast, hnum⟩ := hpassed hcheck
    rw [hdecoded] at hlast hnum
    rw [hdecoded']
    refine ⟨fun k rest hk => ?_, hnum⟩
    obtain ⟨-, rfl⟩ := List.cons.inj hk
    exact hlast m _ rfl

theorem Counted.samples (h : p.Counted) {buffer : ℕ → Frame} {nsamples : ℕ} {sampleRate : ℤ}
    (hok : p.countable (.samples buffer nsamples sampleRate) = true)
    (hstep : p.step (.samples buffer nsamples sampleRate) = some p') : p'.Counted := by
  obtain ⟨hdecoder, rfl⟩ := samples_eq hstep
  simp only [countable, ordinary, keepsMark, Bool.and_eq_true, Bool.or_eq_true,
    decide_eq_true_eq, Bool.not_eq_true'] at hok
  obtain ⟨hfree, hcase⟩ := hok
  obtain ⟨m, older, htracks⟩ := exists_cons_of_ne_nil (h.decoder hdecoder)
  have hhead : p.tracks.modifyHead (· + nsamples) = (m + nsamples) :: older := by
    rw [htracks]
    rfl
  rw [hhead]
  rcases Nat.eq_zero_or_pos nsamples with rfl | hpos
  · rw [DecodeAudio.outputSamples, if_pos rfl, Nat.add_zero, ← htracks]
    exact h
  · rcases Bool.eq_false_or_eq_true p.audio.decodeFirstBuffer with hfirst | hfirst
    · obtain ⟨older', hzero⟩ := h.first hfirst
      obtain ⟨rfl, rfl⟩ := List.cons.inj (htracks.symm.trans hzero)
      have hmark : p.audio.checkStartPoint = false ∨ p.tracks.sum = 0 := by
        rcases hcase with ((hno | hno) | hcheck) | hsum
        · omega
        · exact absurd (hno.symm.trans hfirst) (by decide)
        · exact .inl hcheck
        · exact .inr hsum
      rw [Nat.zero_add]
      exact h.firstSamples hfirst htracks hpos hfree hmark
    · exact h.moreSamples hfirst htracks hpos hfree

/-- The read pointer moves by `k` frames, and then the callback looks for the mark. -/
theorem Marked.trackStarted {taken k : ℕ} {tracks : List ℕ} {b : DecodeAudio}
    (h : Marked taken tracks a) (hwhole : a.fifo.Whole) (hpos : ∀ n ∈ tracks, 0 < n)
    (hne : tracks ≠ []) (htotal : tracks.sum = taken + a.decodeFrames) (hk : k ≤ a.decodeFrames)
    (hfifo : b.fifo = a.fifo.moved (8 * k)) (hcheck : b.checkStartPoint = a.checkStartPoint)
    (hpoint : b.trackStartPoint = a.trackStartPoint)
    (hnum : b.numTracksStarted = a.numTracksStarted) :
    Marked (taken + k) tracks (b.trackStarted state) := by
  have hlt := hwhole.ok.bytesUsed_lt
  have hbytes := a.decodeFrames_le
  obtain ⟨n, older, rfl⟩ := exists_cons_of_ne_nil hne
  have hn := hpos n (.head _)
  rw [sum_cons] at htotal
  rcases Bool.eq_false_or_eq_true a.checkStartPoint with hmark | hmark
  · obtain ⟨hle, hat, hlast, hcount⟩ := h.waiting hmark n older rfl
    have hreached : b.reachedStartPoint = true ↔ 8 * (older.sum - taken) < 8 * k :=
      DecodeAudio.reachedStartPoint_iff hwhole.ok (by omega) (by omega) hfifo (hpoint.trans hat)
    rcases DecodeAudio.trackStarted_cases state b with ⟨hno, heq⟩ | ⟨-, hyes, written, rate, heq⟩
    · -- The mark is still ahead.
      have hahead : ¬8 * (older.sum - taken) < 8 * k := by
        rw [← hreached, hno.resolve_left (by rw [hcheck, hmark]; decide)]
        decide
      rw [heq]
      refine ⟨fun _ m rest hm => ?_, fun _ hnil => absurd hnil (cons_ne_nil _ _),
        fun hfalse => ?_⟩
      · obtain ⟨-, rfl⟩ := List.cons.inj hm
        refine ⟨by omega, ?_, hlast.mono (by omega), hnum.trans hcount⟩
        rw [hpoint, hat, hfifo]
        show _ = Ring.advance a.fifo.size (Ring.advance a.fifo.size a.fifo.rptr (8 * k)) _
        rw [Ring.advance_advance hwhole.ok.rptr (by omega)]
        congr 1
        omega
      · exact absurd ((hcheck.trans hmark).symm.trans hfalse) (by decide)
    · -- It has been passed, and the last track is counted.
      have hpassed := hreached.mp hyes
      rw [heq]
      refine ⟨fun htrue => absurd htrue Bool.false_ne_true,
        fun htrue => absurd htrue Bool.false_ne_true, fun _ => ⟨fun m rest hm => ?_, ?_⟩⟩
      · obtain ⟨-, rfl⟩ := List.cons.inj hm
        omega
      · show b.numTracksStarted + 1 = .ofNat (older.length + 1)
        rw [hnum, hcount, UInt32.ofNat_add]
        rfl
  · obtain ⟨hlast, hcount⟩ := h.passed hmark
    have heq : b.trackStarted state = b := by
      rcases DecodeAudio.trackStarted_cases state b with ⟨-, heq⟩ | ⟨htrue, -⟩
      · exact heq
      · exact absurd (htrue.symm.trans (hcheck.trans hmark)) (by decide)
    rw [heq]
    refine ⟨fun htrue => ?_, fun htrue => ?_, fun _ => ⟨hlast.mono (by omega), hnum.trans hcount⟩⟩
    · exact absurd (htrue.symm.trans (hcheck.trans hmark)) (by decide)
    · exact absurd (htrue.symm.trans (hcheck.trans hmark)) (by decide)

theorem Counted.running_autostarted (h : p.Counted)
    (hrun : (p.audio.autostarted p.state now n).running = true) : 0 < p.tracks.sum := by
  have htotal := h.total
  rcases DecodeAudio.autostarted_running hrun with hbefore | hpos
  · exact h.running hbefore
  · omega

theorem amounts_ordinary (hok : p.ordinary (.callback now n) = true)
    (hnot : (p.audio.autostarted p.state now n).running = false) :
    (p.audio.amounts p.state now n).skipped = 0 ∧ (p.audio.amounts p.state now n).played = 0 := by
  obtain ⟨-, -, -, hskip⟩ := DecodeAudio.amounts_le p.state now n p.audio
  obtain ⟨hplayed, hsame⟩ := DecodeAudio.amounts_not_running hnot
  rw [ordinary, hnot, Bool.false_or, decide_eq_true_eq] at hok
  exact ⟨by omega, hplayed⟩

theorem Counted.callback (h : p.Counted) (hok : p.countable (.callback now n) = true)
    (hstep : p.step (.callback now n) = some p') : p'.Counted := by
  obtain ⟨output, heq⟩ := callback_eq now n h.whole
  obtain rfl := Option.some.inj (heq.symm.trans hstep)
  obtain ⟨ms, underrun, b, hb, hcases⟩ := DecodeAudio.afterCallback_cases p.state now n h.whole
  obtain ⟨-, hle, -, -⟩ := DecodeAudio.amounts_le p.state now n p.audio
  have hframes := DecodeAudio.decodeFrames_afterCallback p.state now n h.whole
  have hwhole := DecodeAudio.whole_afterCallback p.state now n h.whole
  obtain ⟨run, auto, skip, silence, hauto⟩ := DecodeAudio.autostarted_eq p.state now n p.audio
  have hrunning : (p.audio.autostarted p.state now n).running = true → 0 < p.tracks.sum :=
    h.running_autostarted
  rcases hcases with ⟨hafter, hstay⟩ | ⟨hrun, hafter⟩
  · -- Nothing has been taken.
    have hzero := hstay.elim (amounts_ordinary ((Bool.and_eq_true _ _).mp hok).1) id
    rw [hzero.1, hzero.2, hauto] at hb
    rw [hafter, hzero.1, hzero.2]
    have hfifo : b.fifo = p.audio.fifo := by
      rw [hb]
      exact h.whole.ok.moved_zero
    rw [hauto] at hrunning
    exact h.frame b hfifo (by rw [hb]; rfl) (by rw [hb]; rfl)
      (fun hrun => hrunning (by rwa [hb] at hrun)) (by rw [hb]; rfl) (by rw [hb]; rfl)
      (by rw [hb]; rfl) _ output
  · obtain ⟨_, _, _, _, _, hframe⟩ := DecodeAudio.trackStarted_frame p.state b
    have htaken : p.skipped + (p.audio.amounts p.state now n).skipped +
        (p.played + (p.audio.amounts p.state now n).played) =
          p.taken + ((p.audio.amounts p.state now n).skipped +
            (p.audio.amounts p.state now n).played) := by
      rw [taken]
      omega
    have hsum := hrunning hrun
    have hne : decodedTracks p.tracks ≠ [] := by
      intro hnil
      rw [← sum_decodedTracks, hnil] at hsum
      exact Nat.lt_irrefl 0 hsum
    rw [hauto] at hb
    have hmarked := h.marked.trackStarted (b := b) p.state h.whole
      (fun m hm => pos_of_mem_decodedTracks hm) hne ((sum_decodedTracks _).trans h.total) hle
      (by rw [hb]; rfl) (by rw [hb]; rfl) (by rw [hb]; rfl) (by rw [hb]; rfl)
    rw [← htaken, ← hafter] at hmarked
    have hlast := hafter.trans hframe
    refine ⟨hwhole, ?_, ?_, ?_, ?_, fun _ => hsum, hmarked⟩
    · have htotal := h.total
      show p.tracks.sum = p.skipped + (p.audio.amounts p.state now n).skipped +
        (p.played + (p.audio.amounts p.state now n).played) +
          (p.audio.afterCallback p.state now n).decodeFrames
      omega
    · rw [hlast, hb]
      exact h.first
    · rw [hlast, hb]
      exact h.later
    · rw [hlast, hb]
      exact h.decoder

theorem Counted.step (h : p.Counted) (hok : p.countable e = true) (hstep : p.step e = some p') :
    p'.Counted := by
  cases e with
  | start outputThreshold => exact h.start outputThreshold hstep
  | stop => cases hok
  | flush => cases hok
  | pause interval => exact h.pause interval hstep
  | resume startJiffies sync => exact h.resume startJiffies sync hstep
  | skipAhead interval => exact h.skipAhead interval hstep
  | samples buffer nsamples sampleRate => exact h.samples hok hstep
  | callback now outputFrames => exact h.callback hok hstep

end Player

/-- From a stop to the next one, and as long as no mark is overwritten, `num_tracks_started` is
the number of tracks that have a frame among those that were skipped or played, in 32 bits. -/
theorem numTracksStarted_eq (audio : DecodeAudio) (hwhole : audio.fifo.Whole)
    {p : Player} (h : (playback state audio.stopHandler).ReachableUnder
      (fun p e => p.countable e = true) p) :
    p.audio.numTracksStarted = .ofNat (tracksReached (p.skipped + p.played) p.tracks) :=
  (h.invariant (Player.counted_init state hwhole)
    fun _ _ _ hp hok hstep => hp.step hok hstep).numTracksStarted

/-- One track after the other. -/
def twoTracks : List PlayerEvent :=
  firstTrack ++ [.start 0, .samples silentFrames 100 44100, .callback 5 3000]

theorem numTracksStarted_two :
    ∃ p, (playback initialI2s DecodeAudio.init.stopHandler).ReachableUnder
      (fun p e => p.countable e = true) p ∧
    p.audio.numTracksStarted = 2 ∧
      p.audio.numTracksStarted = .ofNat (tracksReached (p.skipped + p.played) p.tracks) := by
  obtain ⟨p, -, hp, htest⟩ := System.exists_reachableUnder
    (playback initialI2s DecodeAudio.init.stopHandler) (fun p e => p.countable e = true) twoTracks
    (fun p => p.audio.numTracksStarted = 2) (by decide +kernel) (by decide +kernel)
  exact ⟨p, hp, htest, numTracksStarted_eq initialI2s .init whole_init hp⟩

/-- A second track is decoded before the first one is played. -/
def twoTracksAhead : List PlayerEvent :=
  [.start 0, .samples silentFrames 2600 44100, .start 0, .samples silentFrames 100 44100,
    .resume 0 none, .callback 0 192]

/-- The first track plays and is not counted, also when both have been played. -/
theorem firstTrack_not_counted : ∃ p p',
    (playback initialI2s DecodeAudio.init.stopHandler).ReachableUnder
      (fun p e => p.ordinary e = true) p ∧
      p.audio.running = true ∧ p.tracks = [100, 2600] ∧ p.skipped + p.played = 192 ∧
      tracksReached (p.skipped + p.played) p.tracks = 1 ∧ p.audio.numTracksStarted = 0 ∧
      (playback initialI2s DecodeAudio.init.stopHandler).step p (.callback 5 3000) = some p' ∧
      tracksReached (p'.skipped + p'.played) p'.tracks = 2 ∧ p'.audio.numTracksStarted = 1 := by
  obtain ⟨p, -, hp, hrunning, htracks, htaken, hreached, hnum, p', hend⟩ :=
    System.exists_reachableUnder
    (playback initialI2s DecodeAudio.init.stopHandler) (fun p e => p.ordinary e = true)
    twoTracksAhead
    (fun p => p.audio.running = true ∧ p.tracks = [100, 2600] ∧
      p.skipped + p.played = 192 ∧ tracksReached (p.skipped + p.played) p.tracks = 1 ∧
      p.audio.numTracksStarted = 0 ∧
      ∃ p' ∈ (playback initialI2s DecodeAudio.init.stopHandler).step p (.callback 5 3000),
        tracksReached (p'.skipped + p'.played) p'.tracks = 2 ∧ p'.audio.numTracksStarted = 1)
    (by decide +kernel) (by decide +kernel)
  exact ⟨p, p', hp, hrunning, htracks, htaken, hreached, hnum, hend⟩

end BeepMusic.Audio
