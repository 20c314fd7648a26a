import BeepMusic.Audio.DecodedFrames

/-!
The position in a track after a flush. The flush empties the ring and starts to count at
zero, but the mark at the first frame of a track stays where it was. If one was waiting, the
next callback takes the old place for the start of a track in the new ring.
-/

namespace BeepMusic.Audio

open Lib

/-- Neither a start nor a stop, and not another flush. -/
def PlayerEvent.keepsTrack : PlayerEvent → Bool
  | .start _ | .stop | .flush => false
  | .pause _ | .resume _ _ | .skipAhead _ | .samples _ _ _ | .callback _ _ => true

namespace DecodeAudio

variable {a : DecodeAudio}

/-- Without a mark, a callback counts the frames that it takes, and no track. -/
theorem afterCallback_unmarked (state : DecodeI2s) (now n : ℕ) (h : a.fifo.Whole)
    (hmark : a.checkStartPoint = false) :
    (a.afterCallback state now n).checkStartPoint = false ∧
      (a.afterCallback state now n).decodeFirstBuffer = a.decodeFirstBuffer ∧
      (a.afterCallback state now n).numTracksStarted = a.numTracksStarted ∧
      (a.afterCallback state now n).writtenTrackSamples = a.writtenTrackSamples +
        .ofNat ((a.amounts state now n).skipped + (a.amounts state now n).played) := by
  obtain ⟨ms, underrun, b, hb, hcases⟩ := afterCallback_cases state now n h
  obtain ⟨_, _, _, _, hauto⟩ := autostarted_eq state now n a
  rw [hauto] at hb
  have hunmarked : b.checkStartPoint = false := by
    rw [hb]
    exact hmark
  have heq : a.afterCallback state now n = b := by
    rcases hcases with ⟨heq, -⟩ | ⟨-, heq⟩
    · exact heq
    · rcases trackStarted_cases state b with ⟨-, hstay⟩ | ⟨hmarked, -⟩
      · exact heq.trans hstay
      · exact absurd (hmarked.symm.trans hunmarked) (by decide)
  rw [heq]
  refine ⟨hunmarked, ?_, ?_, ?_⟩ <;> rw [hb] <;> rfl

/-- Samples that are not the first ones of a track change only the ring. -/
theorem outputSamples_eq (src : ℕ → Frame) (n : ℕ) (rate : ℤ) (h : a.fifo.Whole)
    (hfirst : a.decodeFirstBuffer = false) :
    ∃ fifo buffer, a.outputSamples src n rate = { a with fifo := fifo, buffer := buffer } := by
  rcases Nat.eq_zero_or_pos n with hzero | hpos
  · rw [outputSamples, if_pos hzero]
    exact ⟨_, _, rfl⟩
  · have hsame := (writes_outputSamples src rate h (Nat.pos_iff_ne_zero.mp hpos)).same
    rwa [firstBuffer, if_neg (by rw [hfirst]; decide)] at hsame

end DecodeAudio

namespace Player

variable {p p' : Player} {e : PlayerEvent}

/-- The flush was `k` frames ago, when `base` frames had been taken and `num` tracks had
started, and there is no mark. -/
structure Flushed (base : ℕ) (num : UInt32) (p : Player) : Prop where
  whole : p.audio.fifo.Whole
  unmarked : p.audio.checkStartPoint = false
  first : p.audio.decodeFirstBuffer = false
  written : ∃ k, p.skipped + p.played = base + k ∧ p.audio.writtenTrackSamples = .ofNat k
  num : p.audio.numTracksStarted = num

theorem flushed_flush (h : p.audio.fifo.Whole) (hmark : p.audio.checkStartPoint = false)
    (hstep : p.step .flush = some p') :
    p'.Flushed (p.skipped + p.played) p.audio.numTracksStarted := by
  cases hstep
  exact ⟨DecodeAudio.whole_outputEnd h, hmark, rfl, ⟨0, rfl, rfl⟩, rfl⟩

theorem Flushed.step {base : ℕ} {num : UInt32} (h : p.Flushed base num) (he : e.keepsTrack = true)
    (hstep : p.step e = some p') : p'.Flushed base num := by
  have hwhole := whole_step h.whole hstep
  cases e with
  | start outputThreshold | stop | flush => cases he
  | pause interval =>
    cases hstep
    obtain ⟨_, _, heq, -⟩ := p.audio.pauseHandler_eq interval
    rw [heq] at hwhole ⊢
    exact { h with whole := hwhole }
  | resume startJiffies sync =>
    cases hstep
    obtain ⟨_, _, _, _, heq⟩ := p.audio.resumeHandler_eq startJiffies sync
    rw [heq] at hwhole ⊢
    exact { h with whole := hwhole }
  | skipAhead interval =>
    cases hstep
    exact { h with whole := hwhole }
  | samples buffer nsamples sampleRate =>
    obtain ⟨-, rfl⟩ := samples_eq hstep
    obtain ⟨_, _, heq⟩ :=
      DecodeAudio.outputSamples_eq buffer nsamples sampleRate h.whole h.first
    rw [heq] at hwhole ⊢
    exact { h with whole := hwhole }
  | callback now outputFrames =>
    obtain ⟨output, heq⟩ := callback_eq now outputFrames h.whole
    obtain rfl := Option.some.inj (heq.symm.trans hstep)
    obtain ⟨hmark, hfirst, hnum, hwritten⟩ :=
      DecodeAudio.afterCallback_unmarked p.state now outputFrames h.whole h.unmarked
    obtain ⟨k, hk, hcount⟩ := h.written
    refine ⟨hwhole, hmark, hfirst.trans h.first, ?_, hnum.trans h.num⟩
    refine ⟨k + ((p.audio.amounts p.state now outputFrames).skipped +
      (p.audio.amounts p.state now outputFrames).played), ?_, ?_⟩
    · dsimp only
      omega
    · rw [UInt32.ofNat_add, ← hcount]
      exact hwritten

end Player

/-- From a flush on that finds no mark, until the next start or stop, the position is the
number of frames that have been taken since, in 32 bits, and no track is counted. -/
theorem position_since_flush (state : DecodeI2s) (audio : DecodeAudio) {p p' : Player}
    {es : List PlayerEvent} (hwhole : p.audio.fifo.Whole)
    (hmark : p.audio.checkStartPoint = false) (hes : ∀ e ∈ es, e.keepsTrack = true)
    (hrun : (playback state audio).runFrom p (.flush :: es) = some p') :
    p'.audio.writtenTrackSamples =
        .ofNat (p'.skipped + p'.played - (p.skipped + p.played)) ∧
      p'.audio.numTracksStarted = p.audio.numTracksStarted := by
  obtain ⟨q, hflush, hrest⟩ := Option.bind_eq_some_iff.mp hrun
  have hflushed := System.runFrom_invariant hrest (Player.flushed_flush hwhole hmark hflush)
    fun _ e _ he h hstep => h.step (hes e he) hstep
  obtain ⟨k, hk, hwritten⟩ := hflushed.written
  refine ⟨?_, hflushed.num⟩
  rw [hk, Nat.add_sub_cancel_left, hwritten]

/-- Frames of silence. -/
def silentFrames : ℕ → Frame := fun _ => ⟨0, 0⟩

/-- A track is decoded and begins to play. -/
def firstTrack : List PlayerEvent :=
  [.start 0, .samples silentFrames 3000 44100, .resume 0 none, .callback 0 192]

/-- After the flush the decoder goes on. -/
def decodedOn : List PlayerEvent := [.samples silentFrames 3000 44100, .callback 0 192]

theorem position_since_flush_playing : ∃ p p',
    (playback initialI2s .init).Reachable p ∧ p.audio.numTracksStarted = 1 ∧
      (playback initialI2s .init).runFrom p (.flush :: decodedOn) = some p' ∧
      p'.skipped + p'.played - (p.skipped + p.played) = 192 ∧
      p'.audio.writtenTrackSamples =
        .ofNat (p'.skipped + p'.played - (p.skipped + p.played)) ∧
      p'.audio.numTracksStarted = p.audio.numTracksStarted := by
  obtain ⟨p, hp, hnum, hmark, p', hrun, htaken⟩ := System.exists_reachable
    (playback initialI2s .init) firstTrack
    (fun p => p.audio.numTracksStarted = 1 ∧ p.audio.checkStartPoint = false ∧
      ∃ p' ∈ (playback initialI2s .init).runFrom p (.flush :: decodedOn),
        p'.skipped + p'.played - (p.skipped + p.played) = 192)
    (by decide +kernel)
  exact ⟨p, p', hp, hnum, hrun, htaken,
    position_since_flush initialI2s .init (playback_whole hp) hmark (by decide) hrun⟩

/-- The mark of a second track waits when the flush comes. The next callback plays 192 frames,
counts a track and puts the position almost ten seconds ahead. -/
theorem flush_keeps_mark : ∃ p p',
    (playback initialI2s .init).Reachable p ∧ p.audio.numTracksStarted = 1 ∧
      p.audio.startAtElapsedSamples = 0 ∧
      (playback initialI2s .init).runFrom p (.flush :: decodedOn) = some p' ∧
      p'.skipped + p'.played - (p.skipped + p.played) = 192 ∧
      p'.audio.writtenTrackSamples = 438192 ∧ p'.audio.numTracksStarted = 2 := by
  obtain ⟨p, hp, hnum, helapsed, p', hrun, hend⟩ := System.exists_reachable
    (playback initialI2s .init) (firstTrack ++ [.start 0, .samples silentFrames 1000 44100])
    (fun p => p.audio.numTracksStarted = 1 ∧ p.audio.startAtElapsedSamples = 0 ∧
      ∃ p' ∈ (playback initialI2s .init).runFrom p (.flush :: decodedOn),
        p'.skipped + p'.played - (p.skipped + p.played) = 192 ∧
          p'.audio.writtenTrackSamples = 438192 ∧ p'.audio.numTracksStarted = 2)
    (by decide +kernel)
  exact ⟨p, p', hp, hnum, helapsed, hrun, hend⟩

end BeepMusic.Audio
