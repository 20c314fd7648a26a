import BeepMusic.Audio.Playback

/-!
What one callback does. Silence, skipping, underruns and the two loops that stop at the end
of the ring all change the same counts; together they fill the output and move the read
pointer by the frames that were skipped and played.
-/

namespace BeepMusic.Audio

open Lib List

namespace RingFifo

variable {f : RingFifo} {m n : ℕ}

/-- The ring and what it holds are whole frames. -/
structure Whole (f : RingFifo) : Prop where
  ok : f.Ok
  size : 8 ∣ f.size
  rptr : 8 ∣ f.rptr
  wptr : 8 ∣ f.wptr

/-- The read pointer, moved on. -/
def moved (f : RingFifo) (n : ℕ) : RingFifo :=
  { f with rptr := Ring.advance f.size f.rptr n }

theorem Whole.bytesUsed (h : f.Whole) : 8 ∣ f.bytesUsed := by
  have hs := h.size
  have hr := h.rptr
  have hw := h.wptr
  rw [RingFifo.bytesUsed]
  split_ifs <;> omega

theorem Whole.moved (h : f.Whole) (hn : 8 * n ≤ f.size) : (f.moved (8 * n)).Whole := by
  have hs := h.size
  have hr := h.rptr
  refine ⟨⟨Ring.advance_lt h.ok.rptr hn, h.ok.wptr⟩, hs, ?_, h.wptr⟩
  show 8 ∣ Ring.advance f.size f.rptr (8 * n)
  rw [Ring.advance]
  split_ifs <;> omega

theorem Whole.wptrIncby (h : f.Whole) (hend : f.wptr + 8 * n ≤ f.size) :
    (f.wptrIncby (8 * n)).Whole := by
  have hs := h.size
  have hw := h.wptr
  have hok := h.ok.wptrIncby hend
  rw [wptrIncby_eq hend] at hok ⊢
  refine ⟨hok, hs, h.rptr, ?_⟩
  show 8 ∣ Ring.advance f.size f.wptr (8 * n)
  rw [Ring.advance]
  split_ifs <;> omega

theorem Ok.moved_zero (h : f.Ok) : f.moved 0 = f := by
  have hr := h.rptr
  rw [RingFifo.moved, Ring.advance, if_neg (by omega), Nat.add_zero]

theorem Ok.moved_moved (h : f.Ok) (hmn : m + n ≤ f.size) :
    (f.moved m).moved n = f.moved (m + n) := by
  simp [RingFifo.moved, Ring.advance_advance h.rptr hmn]

theorem Ok.bytesUsed_moved (h : f.Ok) (hn : n ≤ f.bytesUsed) :
    (f.moved n).bytesUsed = f.bytesUsed - n :=
  Ring.dist_advance_left h.rptr h.wptr hn

theorem Whole.cell_moved (h : f.Whole) (n : ℕ) :
    bytesToSamples (f.moved (8 * n)).rptr =
      Ring.advance (bytesToSamples f.size) (bytesToSamples f.rptr) n := by
  obtain ⟨size, hs⟩ := h.size
  obtain ⟨cell, hr⟩ := h.rptr
  show Ring.advance f.size f.rptr (8 * n) / 8 = Ring.advance (f.size / 8) (f.rptr / 8) n
  rw [hs, hr, Ring.advance_mul (by decide)]
  simp

end RingFifo

namespace DecodeAudio

variable {state : DecodeI2s} {a : DecodeAudio} {out : ℕ → PcmFrame} {n pos : ℕ}

/-- `skipped` frames are skipped and `played` frames are played. -/
def taken (a : DecodeAudio) (skipped played : ℕ) : DecodeAudio :=
  { a with
    fifo := a.fifo.moved (8 * (skipped + played))
    skipAheadBytes := a.skipAheadBytes - 8 * skipped
    writtenTrackSamples := a.writtenTrackSamples + .ofNat (skipped + played) }

theorem samplesToBytes_eq (n : ℕ) : samplesToBytes n = 8 * n := by
  rw [samplesToBytes]
  omega

@[simp] theorem taken_running (a : DecodeAudio) (skipped played : ℕ) :
    (a.taken skipped played).running = a.running := rfl

theorem taken_zero (h : a.fifo.Ok) : a.taken 0 0 = a := by
  rw [taken, Nat.mul_zero, h.moved_zero]
  simp

theorem taken_taken {skipped played n : ℕ} (h : a.fifo.Ok)
    (hn : 8 * (skipped + played + n) ≤ a.fifo.size) :
    (a.taken skipped played).taken 0 n = a.taken skipped (played + n) := by
  simp only [taken, Nat.zero_add, Nat.mul_zero, Nat.sub_zero]
  rw [h.moved_moved (by omega), ← Nat.mul_add, UInt32.add_assoc, ← UInt32.ofNat_add,
    Nat.add_assoc]

/-! ### Skipping -/

theorem skipPart_eq (hend : a.fifo.rptr + 8 * n ≤ a.fifo.size) : a.skipPart n = a.taken n 0 := by
  rw [skipPart, samplesToBytes_eq, RingFifo.rptrIncby_eq hend]
  rfl

theorem skip_eq (h : a.fifo.Whole) (hn : 8 * n ≤ a.fifo.size) : a.skip n = a.taken n 0 := by
  have hs := h.size
  have hr := h.rptr
  have hlt := h.ok.rptr
  rw [skip]
  split_ifs with hzero
  · rw [hzero, taken_zero h.ok]
  · dsimp only
    generalize hwrap : bytesToSamples a.fifo.bytesUntilRptrWrap = wrap
    rw [bytesToSamples, RingFifo.bytesUntilRptrWrap] at hwrap
    split_ifs with hless
    · -- The first part ends at the end of the ring, the second one starts at its beginning.
      have hnext : (a.taken wrap 0).fifo.rptr = 0 := by
        show Ring.advance a.fifo.size a.fifo.rptr (8 * (wrap + 0)) = 0
        rw [Ring.advance, if_pos (by omega)]
        omega
      have hrest : (a.taken wrap 0).fifo.rptr + 8 * (n - wrap) ≤ (a.taken wrap 0).fifo.size := by
        rw [hnext]
        show 0 + 8 * (n - wrap) ≤ a.fifo.size
        omega
      rw [skipPart_eq (show a.fifo.rptr + 8 * wrap ≤ a.fifo.size by omega), skipPart_eq hrest]
      simp only [taken, Nat.add_zero]
      rw [h.ok.moved_moved (by omega), ← Nat.mul_add, UInt32.add_assoc, ← UInt32.ofNat_add,
        Nat.sub_sub, ← Nat.mul_add, Nat.add_sub_cancel' (Nat.le_of_lt hless)]
    · exact skipPart_eq (by omega)

/-! ### Playing -/

/-- The frame that is `i` places behind the read pointer, as it is played. -/
def pcmAt (a : DecodeAudio) (i : ℕ) : PcmFrame :=
  a.pcmFrame (a.buffer
    (Ring.advance (bytesToSamples a.fifo.size) (bytesToSamples a.fifo.rptr) i))

theorem pcmAt_taken {j k i : ℕ} (h : a.fifo.Whole) (hi : 8 * (j + k + i) ≤ a.fifo.size) :
    (a.taken j k).pcmAt i = a.pcmAt (j + k + i) := by
  have hs := h.size
  have hr := h.ok.rptr
  have hcell : bytesToSamples a.fifo.rptr < bytesToSamples a.fifo.size := by
    simp only [bytesToSamples]
    omega
  have hfit : j + k + i ≤ bytesToSamples a.fifo.size := by
    rw [bytesToSamples]
    omega
  show a.pcmFrame (a.buffer (Ring.advance (bytesToSamples a.fifo.size)
    (bytesToSamples (a.fifo.moved (8 * (j + k))).rptr) i)) = a.pcmAt (j + k + i)
  rw [h.cell_moved, Ring.advance_advance hcell hfit]
  rfl

theorem playLoop_eq {fuel : ℕ} (h : a.fifo.Whole) (hn : 8 * n ≤ a.fifo.bytesUsed)
    (hfuel : n ≤ fuel) :
    playLoop fuel n pos a out = some (a.taken 0 n, Cells.copy out pos n a.pcmAt) := by
  induction fuel generalizing n pos a out with
  | zero =>
    obtain rfl : n = 0 := Nat.le_zero.mp hfuel
    rw [playLoop, if_pos rfl, taken_zero h.ok, Cells.copy_zero]
  | succ fuel ih =>
    rw [playLoop]
    split_ifs with hzero
    · rw [hzero, taken_zero h.ok, Cells.copy_zero]
    · dsimp only
      have hs := h.size
      have hr := h.rptr
      have hlt := h.ok.rptr
      have hused := h.ok.bytesUsed_lt
      generalize hk : (if bytesToSamples a.fifo.bytesUntilRptrWrap < n
        then bytesToSamples a.fifo.bytesUntilRptrWrap else n) = k
      have hbounds : 0 < k ∧ k ≤ n ∧ a.fifo.rptr + 8 * k ≤ a.fifo.size := by
        rw [← hk, bytesToSamples, RingFifo.bytesUntilRptrWrap]
        split_ifs <;> omega
      obtain ⟨hpos, hle, hend⟩ := hbounds
      have hturn : { a with
          fifo := a.fifo.rptrIncby (samplesToBytes k)
          writtenTrackSamples := a.writtenTrackSamples + .ofNat k } = a.taken 0 k := by
        rw [samplesToBytes_eq, RingFifo.rptrIncby_eq hend, taken, Nat.zero_add]
        rfl
      have hchunk : Cells.copy out pos k
          (fun i => a.pcmFrame (a.buffer (bytesToSamples a.fifo.rptr + i))) =
            Cells.copy out pos k a.pcmAt := by
        apply Cells.copy_congr
        intro i hi
        rw [pcmAt, Ring.advance, if_neg (by simp only [bytesToSamples]; omega)]
      have hwhole : (a.taken 0 k).fifo.Whole := h.moved (by omega)
      have hleft : (a.taken 0 k).fifo.bytesUsed = a.fifo.bytesUsed - 8 * (0 + k) :=
        h.ok.bytesUsed_moved (by omega)
      rw [hturn, hchunk, ih hwhole (by omega) (by omega), taken_taken h.ok (by omega)]
      have hbehind : Cells.copy (Cells.copy out pos k a.pcmAt) (pos + k) (n - k)
          (a.taken 0 k).pcmAt = Cells.copy out pos n a.pcmAt := by
        rw [Cells.copy_congr fun i hi =>
            pcmAt_taken h (show 8 * (0 + k + i) ≤ a.fifo.size by omega),
          Nat.zero_add, Cells.copy_copy, Nat.add_sub_cancel' hle]
      rw [hbehind, Nat.add_sub_cancel' hle]

/-! ### The callback -/

theorem playFrames_le (outputFrames : ℕ) (a : DecodeAudio) :
    a.playFrames outputFrames ≤ outputFrames := by
  rw [playFrames]
  split_ifs <;> omega

/-- Skipping leaves the frames that are still to be played. -/
theorem skipFrames_add_le (outputFrames : ℕ) (a : DecodeAudio)
    (h : 0 < a.skipFrames outputFrames) :
    a.skipFrames outputFrames + outputFrames ≤ a.decodeFrames := by
  rw [skipFrames] at h ⊢
  split_ifs at h ⊢ <;> omega

theorem skipFrames_add_playFrames_le (outputFrames : ℕ) (a : DecodeAudio) :
    a.skipFrames outputFrames + a.playFrames outputFrames ≤ a.decodeFrames := by
  rcases Nat.eq_zero_or_pos (a.skipFrames outputFrames) with hzero | hpos
  · rw [hzero, playFrames]
    split_ifs <;> omega
  · have hskip := skipFrames_add_le outputFrames a hpos
    have hplay := playFrames_le outputFrames a
    omega

theorem skipFrames_bytes_le (outputFrames : ℕ) (a : DecodeAudio) :
    8 * a.skipFrames outputFrames ≤ a.skipAheadBytes := by
  rw [skipFrames, bytesToSamples]
  split_ifs <;> omega

/-- The state behind the callback. -/
def filled (state : DecodeI2s) (outputFrames : ℕ) (a : DecodeAudio) : DecodeAudio :=
  let underrun := a.running && decide (min a.decodeFrames outputFrames < outputFrames)
  let b := (a.setUnderrun underrun).taken (a.skipFrames outputFrames) (a.playFrames outputFrames)
  if a.running then b.trackStarted state else b

/-- The output from `pos` on is `played` frames, and then silence. -/
structure Filled (pos outputFrames : ℕ) (out : ℕ → PcmFrame) (played : List PcmFrame)
    (out' : ℕ → PcmFrame) : Prop where
  output : (List.range (pos + outputFrames)).map out' =
    (List.range pos).map out ++ played ++ List.replicate (outputFrames - played.length) .zero
  behind : ∀ j, pos + outputFrames ≤ j → out' j = out j

theorem map_range_zero (n : ℕ) :
    (List.range n).map (fun _ => PcmFrame.zero) = List.replicate n .zero := by
  rw [map_const', length_range]

theorem filled_zero (pos outputFrames : ℕ) (out : ℕ → PcmFrame) :
    Filled pos outputFrames out [] (Cells.copy out pos outputFrames fun _ => .zero) := by
  refine ⟨?_, fun j hj => Cells.copy_of_ge hj⟩
  have hcells := Cells.map_range_copy out pos outputFrames (fun _ => PcmFrame.zero) 0
  rw [Nat.add_zero, map_range_zero, range_zero, map_nil, append_nil] at hcells
  rw [hcells, append_nil, length_nil, Nat.sub_zero]

/-- Frames, in front of silence that is there already. -/
theorem filled_copy {k : ℕ} {silent : ℕ → PcmFrame} (src : ℕ → PcmFrame) (hk : k ≤ n)
    (hbefore : ∀ j < pos, silent j = out j)
    (hzero : ∀ i < n - k, silent (pos + k + i) = .zero)
    (hbehind : ∀ j, pos + n ≤ j → silent j = out j) :
    Filled pos n out ((List.range k).map src) (Cells.copy silent pos k src) := by
  refine ⟨?_, fun j hj => (Cells.copy_of_ge (by omega)).trans (hbehind j hj)⟩
  have hcells := Cells.map_range_copy silent pos k src (n - k)
  have hn : pos + k + (n - k) = pos + n := by omega
  rw [hn] at hcells
  rw [hcells, length_map, length_range, ← map_range_zero]
  congr 1
  · congr 1
    exact map_congr_left fun j hj => hbefore j (mem_range.mp hj)
  · exact map_congr_left fun i hi => hzero i (mem_range.mp hi)

theorem fillOutput_eq (state : DecodeI2s) (n pos : ℕ) (out : ℕ → PcmFrame) (h : a.fifo.Whole) :
    ∃ out', a.fillOutput state n pos out = some (a.filled state n, out') ∧
      Filled pos n out ((List.range (a.playFrames n)).map fun i => a.pcmAt (a.skipFrames n + i))
        out' := by
  have hlt := h.ok.bytesUsed_lt
  have hsum := skipFrames_add_playFrames_le n a
  have hle := playFrames_le n a
  have hframes : 8 * a.decodeFrames ≤ a.fifo.bytesUsed := by
    rw [decodeFrames, bytesToSamples]
    omega
  rw [fillOutput, filled]
  generalize hunder : (a.running && decide (min a.decodeFrames n < n)) = u
  have hbytes : 8 * (a.skipFrames n + a.playFrames n) ≤ a.fifo.size := by omega
  -- The flag of the underrun is all that is different in `b`.
  obtain ⟨b, hb⟩ : ∃ b, b = a.setUnderrun u := ⟨_, rfl⟩
  have hfifo : b.fifo = a.fifo := by rw [hb]; rfl
  have hpcm : b.pcmAt = a.pcmAt := by rw [hb]; rfl
  have hrunning : b.running = a.running := by rw [hb]; rfl
  rw [← hfifo] at h hbytes hframes hlt
  rw [← hb, skip_eq h (by omega), taken_running, hrunning]
  rcases Bool.eq_false_or_eq_true a.running with hrun | hrun
  · -- The silence behind the frames is there before the frames are.
    have hplay : a.playFrames n = min a.decodeFrames n := if_pos hrun
    have hu : u = decide (min a.decodeFrames n < n) := by rw [← hunder, hrun, Bool.true_and]
    have hwhole : (b.taken (a.skipFrames n) 0).fifo.Whole := h.moved (by omega)
    have hleft : (b.taken (a.skipFrames n) 0).fifo.bytesUsed =
        b.fifo.bytesUsed - 8 * (a.skipFrames n + 0) := h.ok.bytesUsed_moved (by omega)
    have htaken : (b.taken (a.skipFrames n) 0).taken 0 (a.playFrames n) =
        b.taken (a.skipFrames n) (0 + a.playFrames n) := taken_taken h.ok (by omega)
    rw [hrun, ← hplay, playLoop_eq hwhole (by omega) (Nat.le_refl _), htaken, Nat.zero_add]
    refine ⟨_, rfl, ?_⟩
    rw [Cells.copy_congr fun i hi => pcmAt_taken h (by omega), hpcm]
    apply filled_copy _ hle
    · intro j hj
      split_ifs
      · exact Cells.copy_of_lt (by omega)
      · rfl
    · intro i hi
      rw [if_pos (by rw [hu, decide_eq_true_eq]; omega)]
      exact Cells.copy_of_mem hi
    · intro j hj
      split_ifs
      · exact Cells.copy_of_ge (by omega)
      · rfl
  · have hplay : a.playFrames n = 0 := if_neg (by rw [hrun]; decide)
    have hu : u = false := by rw [← hunder, hrun, Bool.false_and]
    rw [hrun, hplay, hu]
    exact ⟨_, rfl, filled_zero pos n out⟩

theorem Filled.of_silence {k : ℕ} {played : List PcmFrame} {out' : ℕ → PcmFrame} (hk : k ≤ n)
    (h : Filled k (n - k) (Cells.copy out 0 k fun _ => .zero) played out') :
    Filled 0 n out (List.replicate k .zero ++ played) out' := by
  have hn : k + (n - k) = n := by omega
  obtain ⟨houtput, hbehind⟩ := h
  rw [hn] at houtput hbehind
  refine ⟨?_, fun j hj => ?_⟩
  · have hsilence := (filled_zero 0 k out).output
    rw [Nat.zero_add, range_zero, map_nil, append_nil, nil_append,
      length_nil, Nat.sub_zero] at hsilence
    rw [Nat.zero_add, houtput, hsilence, range_zero, map_nil, nil_append,
      length_append, length_replicate, Nat.sub_sub]
  · rw [Nat.zero_add] at hj
    rw [hbehind j hj]
    exact Cells.copy_of_ge (by omega)

/-- Starting changes only what belongs to the start. -/
theorem autostarted_eq (state : DecodeI2s) (now n : ℕ) (a : DecodeAudio) :
    ∃ running autostart skipAheadBytes addSilenceMs, a.autostarted state now n =
      { a with
        running := running
        autostart := autostart
        skipAheadBytes := skipAheadBytes
        addSilenceMs := addSilenceMs } := by
  rw [autostarted, atStart]
  split_ifs <;> exact ⟨_, _, _, _, rfl⟩

theorem silenced_eq (state : DecodeI2s) (k : ℕ) (a : DecodeAudio) :
    ∃ ms, a.silenced state k = { a with addSilenceMs := ms } := by
  rw [silenced]
  split_ifs <;> exact ⟨_, rfl⟩

theorem autostarted_fifo (state : DecodeI2s) (now n : ℕ) (a : DecodeAudio) :
    (a.autostarted state now n).fifo = a.fifo := by
  obtain ⟨_, _, _, _, h⟩ := autostarted_eq state now n a
  rw [h]

theorem autostarted_pcmAt (state : DecodeI2s) (now n : ℕ) (a : DecodeAudio) :
    (a.autostarted state now n).pcmAt = a.pcmAt := by
  obtain ⟨_, _, _, _, h⟩ := autostarted_eq state now n a
  rw [h]
  rfl

/-- The frames that are played are those behind the skipped ones. -/
theorem map_pcmAt {skipped played : ℕ} (h : a.fifo.Whole)
    (hle : skipped + played ≤ a.decodeFrames) :
    (List.range played).map (fun i => a.pcmAt (skipped + i)) =
      ((a.frames.drop skipped).take played).map a.pcmFrame := by
  have hlt := h.ok.bytesUsed_lt
  have hr := h.ok.rptr
  have hs := h.size
  have hcell : bytesToSamples a.fifo.rptr < bytesToSamples a.fifo.size := by
    simp only [bytesToSamples]
    omega
  have hframes : a.decodeFrames ≤ bytesToSamples a.fifo.size := by
    simp only [decodeFrames, bytesToSamples]
    omega
  have hpart : (a.frames.drop skipped).take played = Ring.segment a.buffer
      (bytesToSamples a.fifo.size)
      (Ring.advance (bytesToSamples a.fifo.size) (bytesToSamples a.fifo.rptr) skipped) played :=
    Ring.take_drop_segment hcell hle hframes
  rw [hpart, Ring.segment, List.map_map]
  apply map_congr_left
  intro i hi
  have hlast := mem_range.mp hi
  rw [Function.comp_apply, Ring.advance_advance hcell (by omega), pcmAt]

/-- The state behind a callback. -/
def afterCallback (state : DecodeI2s) (now n : ℕ) (a : DecodeAudio) : DecodeAudio :=
  let a := a.autostarted state now n
  let addFrames := a.addFrames state n
  if a.addSilenceMs ≠ 0 ∧ n - addFrames = 0 then a.silenced state addFrames
  else (a.silenced state addFrames).filled state (n - addFrames)

theorem playbackCallback_eq (state : DecodeI2s) (now n : ℕ) (out : ℕ → PcmFrame)
    (h : a.fifo.Whole) :
    ∃ out', a.playbackCallback state now n out = some (a.afterCallback state now n, out') ∧
      Filled 0 n out (List.replicate (a.amounts state now n).silence .zero ++
        (List.range (a.amounts state now n).played).map fun i =>
          a.pcmAt ((a.amounts state now n).skipped + i)) out' := by
  rw [playbackCallback, afterCallback, amounts, ← autostarted_pcmAt state now n]
  have hwhole : (a.autostarted state now n).fifo.Whole := by rwa [autostarted_fifo]
  generalize a.autostarted state now n = b at hwhole ⊢
  have hle : b.addFrames state n ≤ n := Nat.min_le_right _ _
  obtain ⟨ms, hms⟩ := silenced_eq state (b.addFrames state n) b
  split_ifs with hall
  · refine ⟨_, rfl, ?_⟩
    rw [range_zero, map_nil]
    refine Filled.of_silence hle ⟨?_, fun _ _ => rfl⟩
    rw [hall.2, Nat.add_zero, append_nil, Nat.zero_sub, replicate_zero, append_nil]
  · obtain ⟨out', heq, hfilled⟩ := fillOutput_eq (a := b.silenced state (b.addFrames state n)) state
      (n - b.addFrames state n) (b.addFrames state n)
      (Cells.copy out 0 (b.addFrames state n) fun _ => .zero) (by rw [hms]; exact hwhole)
    refine ⟨out', heq, ?_⟩
    rw [hms] at hfilled
    exact hfilled.of_silence hle

/-- What `decode_check_start_point` finds at the end of a callback. -/
theorem trackStarted_cases (state : DecodeI2s) (a : DecodeAudio) :
    ((a.checkStartPoint = false ∨ a.reachedStartPoint = false) ∧ a.trackStarted state = a) ∨
      (a.checkStartPoint = true ∧ a.reachedStartPoint = true ∧ ∃ written rate,
        a.trackStarted state = { a with
          checkStartPoint := false
          numTracksStarted := a.numTracksStarted + 1
          writtenTrackSamples := written
          startAtElapsedSamples := 0
          setSampleRate := rate }) := by
  rcases Bool.eq_false_or_eq_true a.checkStartPoint with hcheck | hcheck
  · rcases Bool.eq_false_or_eq_true a.reachedStartPoint with hreached | hreached
    · refine .inr ⟨hcheck, hreached, ?_⟩
      rw [trackStarted, decodeCheckStartPoint, hcheck, hreached]
      simp only [Bool.not_true, Bool.false_eq_true, if_false, Bool.true_and]
      split_ifs <;> exact ⟨_, _, rfl⟩
    · refine .inl ⟨.inr hreached, ?_⟩
      rw [trackStarted, decodeCheckStartPoint, hcheck, hreached]
      rfl
  · refine .inl ⟨.inl hcheck, ?_⟩
    rw [trackStarted, decodeCheckStartPoint, hcheck]
    rfl

/-- What a callback can do: it moves on without looking for the start of a track, when it
does not move at all or nothing is running, or it looks. -/
theorem afterCallback_cases (state : DecodeI2s) (now n : ℕ) (h : a.fifo.Whole) :
    ∃ ms underrun b, b = { a.autostarted state now n with
        addSilenceMs := ms
        underrun := underrun }.taken (a.amounts state now n).skipped
          (a.amounts state now n).played ∧
      ((a.afterCallback state now n = b ∧ ((a.autostarted state now n).running = false ∨
          (a.amounts state now n).skipped = 0 ∧ (a.amounts state now n).played = 0)) ∨
        ((a.autostarted state now n).running = true ∧
          a.afterCallback state now n = b.trackStarted state)) := by
  rw [afterCallback, amounts]
  have hok : (a.autostarted state now n).fifo.Ok := by
    rw [autostarted_fifo]
    exact h.ok
  generalize a.autostarted state now n = b at hok ⊢
  obtain ⟨ms, hms⟩ := silenced_eq state (b.addFrames state n) b
  rw [hms]
  split_ifs with hall
  · have hstay := taken_zero (a := { b with addSilenceMs := ms }) hok
    exact ⟨ms, b.underrun, _, rfl, .inl ⟨hstay.symm, .inr ⟨rfl, rfl⟩⟩⟩
  · refine ⟨ms, b.running && decide (min b.decodeFrames (n - b.addFrames state n) <
      n - b.addFrames state n), _, rfl, ?_⟩
    rcases Bool.eq_false_or_eq_true b.running with hrun | hrun
    · exact .inr ⟨hrun, if_pos hrun⟩
    · exact .inl ⟨if_neg (Bool.eq_false_iff.mp hrun), .inl hrun⟩

theorem length_frames (a : DecodeAudio) : a.frames.length = a.decodeFrames :=
  Ring.length_segment _ _ _ _

theorem decodeFrames_le (a : DecodeAudio) : 8 * a.decodeFrames ≤ a.fifo.bytesUsed := by
  rw [decodeFrames, bytesToSamples]
  omega

theorem amounts_le (state : DecodeI2s) (now n : ℕ) (a : DecodeAudio) :
    (a.amounts state now n).silence + (a.amounts state now n).played ≤ n ∧
      (a.amounts state now n).skipped + (a.amounts state now n).played ≤ a.decodeFrames ∧
      (0 < (a.amounts state now n).skipped →
        (a.amounts state now n).skipped + (n - (a.amounts state now n).silence) ≤
          a.decodeFrames) ∧
      8 * (a.amounts state now n).skipped ≤ (a.autostarted state now n).skipAheadBytes := by
  have hframes : (a.autostarted state now n).decodeFrames = a.decodeFrames := by
    rw [decodeFrames, autostarted_fifo, decodeFrames]
  rw [amounts, ← hframes]
  generalize a.autostarted state now n = b
  have hle : b.addFrames state n ≤ n := Nat.min_le_right _ _
  split_ifs with hall
  · exact ⟨hle, Nat.zero_le _, fun h => absurd h (Nat.lt_irrefl 0), Nat.zero_le _⟩
  · have hplay := playFrames_le (n - b.addFrames state n) b
    exact ⟨by dsimp only; omega, skipFrames_add_playFrames_le _ b, skipFrames_add_le _ b,
      skipFrames_bytes_le _ b⟩

theorem trackStarted_fifo (state : DecodeI2s) (a : DecodeAudio) :
    (a.trackStarted state).fifo = a.fifo := by
  rcases trackStarted_cases state a with ⟨-, h⟩ | ⟨-, -, _, _, h⟩ <;> rw [h]

theorem trackStarted_skipAheadBytes (state : DecodeI2s) (a : DecodeAudio) :
    (a.trackStarted state).skipAheadBytes = a.skipAheadBytes := by
  rcases trackStarted_cases state a with ⟨-, h⟩ | ⟨-, -, _, _, h⟩ <;> rw [h]

theorem afterCallback_fifo (state : DecodeI2s) (now n : ℕ) (h : a.fifo.Whole) :
    (a.afterCallback state now n).fifo = a.fifo.moved (8 * ((a.amounts state now n).skipped +
      (a.amounts state now n).played)) := by
  obtain ⟨ms, underrun, b, hb, hcases⟩ := afterCallback_cases state now n h
  have hfifo : b.fifo = a.fifo.moved (8 * ((a.amounts state now n).skipped +
      (a.amounts state now n).played)) := by
    rw [hb, ← autostarted_fifo state now n a]
    rfl
  rcases hcases with ⟨heq, -⟩ | ⟨-, heq⟩
  · rw [heq, hfifo]
  · rw [heq, trackStarted_fifo, hfifo]

theorem afterCallback_skipAheadBytes (state : DecodeI2s) (now n : ℕ) (h : a.fifo.Whole) :
    (a.afterCallback state now n).skipAheadBytes + 8 * (a.amounts state now n).skipped =
      (a.autostarted state now n).skipAheadBytes := by
  obtain ⟨ms, underrun, b, hb, hcases⟩ := afterCallback_cases state now n h
  obtain ⟨-, -, -, hle⟩ := amounts_le state now n a
  have hskip : b.skipAheadBytes =
      (a.autostarted state now n).skipAheadBytes - 8 * (a.amounts state now n).skipped := by
    rw [hb]
    rfl
  rcases hcases with ⟨heq, -⟩ | ⟨-, heq⟩
  · rw [heq]
    omega
  · rw [heq, trackStarted_skipAheadBytes]
    omega

/-- What a callback does, with the amounts it computes: it fills the output, the read pointer
moves by what is skipped and played, and not past the write pointer, and what is skipped is
not needed for the output. -/
structure Accounts (state : DecodeI2s) (now n : ℕ) (m : Amounts) (a : DecodeAudio)
    (out : ℕ → PcmFrame) (a' : DecodeAudio) (out' : ℕ → PcmFrame) : Prop where
  output : (List.range n).map out' = List.replicate m.silence .zero ++
    ((a.frames.drop m.skipped).take m.played).map a.pcmFrame ++
      List.replicate (n - (m.silence + m.played)) .zero
  behind : ∀ j, n ≤ j → out' j = out j
  fits : m.silence + m.played ≤ n
  fifo : a'.fifo = { a.fifo with
    rptr := (a.fifo.rptr + 8 * (m.skipped + m.played)) % a.fifo.size }
  available : m.skipped + m.played ≤ a.frames.length
  skipped : a'.skipAheadBytes + 8 * m.skipped = (a.autostarted state now n).skipAheadBytes
  remaining : 0 < m.skipped → n - m.silence ≤ (a.frames.drop m.skipped).length

/-- Every callback returns, and accounts for its frames. -/
theorem playbackCallback_accounts (state : DecodeI2s) (now n : ℕ) (a : DecodeAudio)
    (out : ℕ → PcmFrame) (h : a.fifo.Whole) :
    ∃ a' out', a.playbackCallback state now n out = some (a', out') ∧
      Accounts state now n (a.amounts state now n) a out a' out' := by
  obtain ⟨out', heq, hfilled⟩ := playbackCallback_eq state now n out h
  obtain ⟨hfits, havailable, hremaining, -⟩ := amounts_le state now n a
  have hfifo := afterCallback_fifo state now n h
  have hskipped := afterCallback_skipAheadBytes state now n h
  have hlt := h.ok.bytesUsed_lt
  have hbytes := a.decodeFrames_le
  rw [map_pcmAt h havailable] at hfilled
  refine ⟨_, out', heq, ?_, ?_, hfits, ?_, ?_, hskipped, fun hpos => ?_⟩
  · have houtput := hfilled.output
    rw [Nat.zero_add, range_zero, map_nil, nil_append] at houtput
    rw [houtput, length_append, length_replicate, length_map,
      length_take_of_le (by rw [length_drop, length_frames]; omega)]
  · intro j hj
    exact hfilled.behind j (by omega)
  · rw [hfifo, RingFifo.moved, Ring.advance_eq_mod h.ok.rptr (by omega)]
  · rwa [length_frames]
  · rw [length_drop, length_frames]
    omega

end DecodeAudio

/-- The device as `pcm_open` sets it up at first. -/
def initialI2s : DecodeI2s := ⟨10, 44100, by decide⟩

/-- Three frames in a ring of four, two of them behind its end. -/
def wrappedAudio : DecodeAudio :=
  { DecodeAudio.init with fifo := ⟨32, 24, 16⟩, running := true, skipAheadBytes := 8 }

/-- One frame is skipped and two are played. -/
theorem playbackCallback_accounts_wrapped :
    ∃ a' out', wrappedAudio.playbackCallback initialI2s 0 2 (fun _ => .zero) = some (a', out') ∧
      DecodeAudio.Accounts initialI2s 0 2 ⟨0, 1, 2⟩ wrappedAudio (fun _ => .zero) a' out' :=
  DecodeAudio.playbackCallback_accounts initialI2s 0 2 wrappedAudio _
    ⟨⟨by decide, by decide⟩, by decide, by decide, by decide⟩

end BeepMusic.Audio
