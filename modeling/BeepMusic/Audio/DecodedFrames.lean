import BeepMusic.Audio.OutputFrames

/-!
The ring of decoded audio is a queue of frames: a decoder's samples are put behind those that
wait, whether they wrap or not. Whatever happens, the ring holds whole frames.
-/

namespace BeepMusic.Audio

open Lib List

namespace DecodeAudio

variable {a : DecodeAudio} {src : ℕ → Frame} {n : ℕ}

theorem frames_eq (h : a.fifo.Whole) :
    a.frames = Ring.segment a.buffer (bytesToSamples a.fifo.size) (bytesToSamples a.fifo.rptr)
      (Ring.dist (bytesToSamples a.fifo.size) (bytesToSamples a.fifo.rptr)
        (bytesToSamples a.fifo.wptr)) := by
  obtain ⟨size, hs⟩ := h.size
  obtain ⟨r, hr⟩ := h.rptr
  obtain ⟨w, hw⟩ := h.wptr
  have hdist : bytesToSamples a.fifo.bytesUsed = Ring.dist (bytesToSamples a.fifo.size)
      (bytesToSamples a.fifo.rptr) (bytesToSamples a.fifo.wptr) := by
    show Ring.dist a.fifo.size a.fifo.rptr a.fifo.wptr / 8 =
      Ring.dist (a.fifo.size / 8) (a.fifo.rptr / 8) (a.fifo.wptr / 8)
    rw [hs, hr, hw, Ring.dist_mul (by decide)]
    simp
  rw [frames, hdist]

/-- Frames up to the end of the ring. -/
def writeChunk (a : DecodeAudio) (src : ℕ → Frame) (n : ℕ) : DecodeAudio :=
  { a with
    buffer := Cells.copy a.buffer (bytesToSamples a.fifo.wptr) n src
    fifo := a.fifo.wptrIncby (8 * n) }

theorem frames_writeChunk (h : a.fifo.Whole) (hend : a.fifo.wptr + 8 * n ≤ a.fifo.size)
    (hfree : 8 * n ≤ a.fifo.bytesFree) :
    (a.writeChunk src n).frames = a.frames ++ (List.range n).map src := by
  have hwhole : (a.writeChunk src n).fifo.Whole := h.wptrIncby hend
  have hfifo : (a.writeChunk src n).fifo =
      { a.fifo with wptr := Ring.advance a.fifo.size a.fifo.wptr (8 * n) } :=
    RingFifo.wptrIncby_eq hend
  have hsum := h.ok.bytesFree_add
  have hrlt := h.ok.rptr
  have hwlt := h.ok.wptr
  rw [frames_eq hwhole, frames_eq h, hfifo]
  obtain ⟨size, hs⟩ := h.size
  obtain ⟨r, hr⟩ := h.rptr
  obtain ⟨w, hw⟩ := h.wptr
  rw [RingFifo.bytesUsed_eq, hs, hr, hw, Ring.dist_mul (by decide)] at hsum
  simp only [writeChunk, bytesToSamples, hs, hr, hw, Ring.advance_mul (show 0 < 8 by decide),
    Nat.mul_div_cancel_left _ (show 0 < 2 * 4 by decide)]
  have hlength : ((List.range n).map src).length = n := by
    rw [length_map, length_range]
  have hwritten : Ring.Written a.buffer (Cells.copy a.buffer w n src) size w
      ((List.range n).map src) := Cells.written_copy (by omega)
  have hcells := hwritten.segment_dist (p := r) (by omega) (by omega) (by rw [hlength]; omega)
  rw [hlength] at hcells
  exact hcells

/-- What the loop writes: `n` frames behind those that wait, if they fit. -/
structure Writes (a : DecodeAudio) (src : ℕ → Frame) (n : ℕ) (a' : DecodeAudio) : Prop where
  same : ∃ fifo buffer, a' = { a with fifo := fifo, buffer := buffer }
  whole : a'.fifo.Whole
  size : a'.fifo.size = a.fifo.size
  rptr : a'.fifo.rptr = a.fifo.rptr
  used : 8 * n ≤ a.fifo.bytesFree → a'.fifo.bytesUsed = a.fifo.bytesUsed + 8 * n
  frames : 8 * n ≤ a.fifo.bytesFree → a'.frames = a.frames ++ (List.range n).map src

theorem Writes.nothing (h : a.fifo.Whole) : Writes a src 0 a :=
  ⟨⟨_, _, rfl⟩, h, rfl, rfl, fun _ => rfl, fun _ => (append_nil _).symm⟩

theorem writes_writeChunk (h : a.fifo.Whole) (hend : a.fifo.wptr + 8 * n ≤ a.fifo.size) :
    Writes a src n (a.writeChunk src n) := by
  have hfifo : (a.writeChunk src n).fifo =
      { a.fifo with wptr := Ring.advance a.fifo.size a.fifo.wptr (8 * n) } :=
    RingFifo.wptrIncby_eq hend
  refine ⟨⟨_, _, rfl⟩, h.wptrIncby hend, ?_, ?_, h.ok.bytesUsed_wptrIncby hend,
    frames_writeChunk h hend⟩
  · rw [hfifo]
  · rw [hfifo]

theorem Writes.trans {b c : DecodeAudio} {k : ℕ} (hok : a.fifo.Ok) (hb : Writes a src k b)
    (hc : Writes b (fun i => src (k + i)) n c) : Writes a src (k + n) c := by
  obtain ⟨f, buf, rfl⟩ := hb.same
  obtain ⟨f', buf', rfl⟩ := hc.same
  have hsum := hok.bytesFree_add
  have hsum' := hb.whole.ok.bytesFree_add
  have hsize := hb.size
  have hfree (hle : 8 * (k + n) ≤ a.fifo.bytesFree) :
      8 * k ≤ a.fifo.bytesFree ∧ 8 * n ≤ f.bytesFree := by
    have hused := hb.used (by omega)
    dsimp only at hused hsize hsum'
    omega
  refine ⟨⟨_, _, rfl⟩, hc.whole, hc.size.trans hb.size, hc.rptr.trans hb.rptr, ?_, ?_⟩
  · intro hle
    have hfirst := hb.used (hfree hle).1
    have hsecond := hc.used (hfree hle).2
    omega
  · intro hle
    rw [hc.frames (hfree hle).2, hb.frames (hfree hle).1, append_assoc, range_add,
      map_append, List.map_map]
    rfl

theorem writes_outputLoop {fuel : ℕ} (h : a.fifo.Whole) (hfuel : 8 * n ≤ fuel) :
    Writes a src n (outputLoop fuel a src (8 * n)) := by
  induction fuel generalizing a src n with
  | zero =>
    obtain rfl : n = 0 := by omega
    exact Writes.nothing h
  | succ fuel ih =>
    rw [outputLoop]
    split_ifs with hzero
    · obtain rfl : n = 0 := by omega
      exact Writes.nothing h
    · dsimp only
      have hs := h.size
      have hw := h.wptr
      have hlt := h.ok.wptr
      -- The chunk ends with the samples or at the end of the ring: whole frames either way.
      obtain ⟨k, hk⟩ : ∃ k, (if a.fifo.bytesUntilWptrWrap < 8 * n
          then a.fifo.bytesUntilWptrWrap else 8 * n) = 8 * k := by
        rw [RingFifo.bytesUntilWptrWrap]
        split_ifs
        · exact ⟨(a.fifo.size - a.fifo.wptr) / 8, by omega⟩
        · exact ⟨n, rfl⟩
      have hbounds : 0 < k ∧ k ≤ n ∧ a.fifo.wptr + 8 * k ≤ a.fifo.size := by
        rw [RingFifo.bytesUntilWptrWrap] at hk
        split_ifs at hk <;> omega
      obtain ⟨hpos, hle, hend⟩ := hbounds
      have hcells : bytesToSamples (8 * k) = k := by
        rw [bytesToSamples]
        omega
      have hchunk : Writes a src k (a.writeChunk src k) := writes_writeChunk h hend
      have hrest : Writes (a.writeChunk src k) (fun i => src (k + i)) (n - k)
          (outputLoop fuel (a.writeChunk src k) (fun i => src (k + i)) (8 * (n - k))) :=
        ih hchunk.whole (by omega)
      have hall := hchunk.trans h.ok hrest
      rw [Nat.add_sub_cancel' hle, Nat.mul_sub] at hall
      rw [hk, hcells]
      exact hall

/-- `decode_output_samples`: the mark, if there is one to set, and the frames. -/
theorem writes_outputSamples (src : ℕ → Frame) (rate : ℤ) (h : a.fifo.Whole) (hn : n ≠ 0) :
    Writes (a.firstBuffer rate) src n (a.outputSamples src n rate) := by
  have hfifo : (a.firstBuffer rate).fifo = a.fifo := by
    rw [firstBuffer]
    split_ifs <;> rfl
  rw [outputSamples, if_neg hn, samplesToBytes_eq]
  exact writes_outputLoop (by rwa [hfifo]) (Nat.le_refl _)

/-- Samples change the ring, and the first ones of a track what there is to know of it. -/
theorem outputSamples_frame (src : ℕ → Frame) (n : ℕ) (rate : ℤ) (h : a.fifo.Whole) :
    ∃ fifo buffer point trackRate mark first, a.outputSamples src n rate = { a with
      fifo := fifo
      buffer := buffer
      trackStartPoint := point
      trackSampleRate := trackRate
      checkStartPoint := mark
      decodeFirstBuffer := first } := by
  rcases Nat.eq_zero_or_pos n with hzero | hpos
  · rw [outputSamples, if_pos hzero]
    exact ⟨_, _, _, _, _, _, rfl⟩
  · obtain ⟨fifo, buffer, heq⟩ :=
      (writes_outputSamples src rate h (Nat.pos_iff_ne_zero.mp hpos)).same
    rw [heq, firstBuffer]
    split_ifs <;> exact ⟨_, _, _, _, _, _, rfl⟩

theorem whole_outputEnd (h : a.fifo.Whole) : a.outputEnd.fifo.Whole := by
  have hlt := h.ok.rptr
  have hpos : 0 < a.fifo.size := by omega
  exact ⟨⟨hpos, hpos⟩, h.size, Nat.dvd_zero 8, Nat.dvd_zero 8⟩

theorem whole_outputSamples (src : ℕ → Frame) (n : ℕ) (rate : ℤ) (h : a.fifo.Whole) :
    (a.outputSamples src n rate).fifo.Whole := by
  rcases Nat.eq_zero_or_pos n with hzero | hpos
  · rwa [outputSamples, if_pos hzero]
  · exact (writes_outputSamples src rate h (Nat.pos_iff_ne_zero.mp hpos)).whole

theorem whole_afterCallback (state : DecodeI2s) (now n : ℕ) (h : a.fifo.Whole) :
    (a.afterCallback state now n).fifo.Whole := by
  obtain ⟨-, hle, -⟩ := amounts_le state now n a
  have hlt := h.ok.bytesUsed_lt
  have hbytes := a.decodeFrames_le
  rw [afterCallback_fifo state now n h]
  exact h.moved (by omega)

theorem pauseHandler_eq (a : DecodeAudio) (interval : ℕ) :
    ∃ ms running, a.pauseHandler interval = { a with addSilenceMs := ms, running := running } ∧
      (running = true → a.running = true) := by
  rw [pauseHandler]
  split_ifs
  · exact ⟨_, _, rfl, id⟩
  · exact ⟨_, _, rfl, fun h => absurd h Bool.false_ne_true⟩

theorem resumeHandler_eq (a : DecodeAudio) (startJiffies : ℕ) (sync : Option (ℕ × ℕ)) :
    ∃ elapsed jiffies underrun autostart, a.resumeHandler startJiffies sync = { a with
      startAtElapsedSamples := elapsed
      startAtJiffies := jiffies
      underrun := underrun
      autostart := autostart } := by
  cases sync with
  | none | some track =>
    simp only [resumeHandler]
    split_ifs <;> exact ⟨_, _, _, _, rfl⟩

end DecodeAudio

namespace Player

variable {p p' : Player} {e : PlayerEvent}

theorem samples_eq {buffer : ℕ → Frame} {nsamples : ℕ} {sampleRate : ℤ}
    (hstep : p.step (.samples buffer nsamples sampleRate) = some p') :
    p.audio.decoder = true ∧ p' = { p with
      audio := p.audio.outputSamples buffer nsamples sampleRate
      tracks := p.tracks.modifyHead (· + nsamples) } := by
  simp only [step, samples] at hstep
  split_ifs at hstep with hdecoder
  exact ⟨hdecoder, (Option.some.inj hstep).symm⟩

theorem callback_eq (now n : ℕ) (h : p.audio.fifo.Whole) :
    ∃ output, p.callback now n = some { p with
      state := p.state.reopen (p.audio.afterCallback p.state now n).setSampleRate
      audio := p.audio.afterCallback p.state now n
      output := output
      skipped := p.skipped + (p.audio.amounts p.state now n).skipped
      played := p.played + (p.audio.amounts p.state now n).played } := by
  obtain ⟨output, heq, -⟩ := DecodeAudio.playbackCallback_eq p.state now n p.output h
  refine ⟨output, ?_⟩
  rw [callback, heq]
  rfl

theorem whole_step (h : p.audio.fifo.Whole) (hstep : p.step e = some p') :
    p'.audio.fifo.Whole := by
  cases e with
  | start outputThreshold | skipAhead interval =>
    cases hstep
    exact h
  | stop | flush =>
    cases hstep
    exact DecodeAudio.whole_outputEnd h
  | pause interval =>
    cases hstep
    obtain ⟨_, _, heq, -⟩ := p.audio.pauseHandler_eq interval
    rw [heq]
    exact h
  | resume startJiffies sync =>
    cases hstep
    obtain ⟨_, _, _, _, heq⟩ := p.audio.resumeHandler_eq startJiffies sync
    rw [heq]
    exact h
  | samples buffer nsamples sampleRate =>
    obtain ⟨-, rfl⟩ := samples_eq hstep
    exact DecodeAudio.whole_outputSamples buffer nsamples sampleRate h
  | callback now outputFrames =>
    obtain ⟨output, heq⟩ := callback_eq now outputFrames h
    obtain rfl := Option.some.inj (heq.symm.trans hstep)
    exact DecodeAudio.whole_afterCallback p.state now outputFrames h

end Player

theorem whole_init : DecodeAudio.init.fifo.Whole :=
  ⟨RingFifo.ok_init (by decide), by decide, by decide, by decide⟩

theorem playback_whole {state : DecodeI2s} {p : Player}
    (h : (playback state .init).Reachable p) : p.audio.fifo.Whole :=
  h.invariant (I := fun p => p.audio.fifo.Whole) whole_init
    fun _ _ _ hwhole hstep => Player.whole_step hwhole hstep

end BeepMusic.Audio
