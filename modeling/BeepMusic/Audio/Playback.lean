import BeepMusic.Audio.DecodeAudio
import BeepMusic.Lib.System

/-!
`playback_callback` of `decode_i2s_backend.c`, which fills a buffer for the sound device from
the decoded audio, and playback as a whole: the callback and the decode thread, which take
turns under one lock.

The callback can also fade a track out. It does so when `decode_output_song_ended` has set
`samples_to_fade`; nobody calls that function, so the branch is not part of the model.
-/

namespace BeepMusic.Audio

open Lib

/-- A frame for the sound device: two samples of sixteen bits. -/
structure PcmFrame where
  left : ℕ
  right : ℕ
  deriving DecidableEq

/-- `PCM_FRAMES_TO_BYTES`. -/
def pcmFramesToBytes (frames : ℕ) : ℕ := frames * 4

def PcmFrame.zero : PcmFrame := ⟨0, 0⟩

/-- `fixed_mul`, as it is written in C. -/
def fixedMul (x y : ℤ) : ℤ := Int.bmod (x * y / 2 ^ 16) (2 ^ 32)

/-- A sample with its gain, in sixteen bits, with its bytes exchanged. -/
def flipSample (gain sample : ℤ) : ℕ :=
  let outSample := (fixedMul gain sample / 2 ^ 16 % 2 ^ 16).toNat
  outSample % 2 ^ 8 * 2 ^ 8 + outSample / 2 ^ 8

/-- `struct decode_i2s`. The device is never opened at a rate of zero. -/
structure DecodeI2s where
  periodCount : ℕ
  pcmSampleRate : ℕ
  rate_pos : 0 < pcmSampleRate

namespace DecodeAudio

variable (a : DecodeAudio)

def pcmFrame (f : Frame) : PcmFrame :=
  ⟨flipSample a.lgain f.left, flipSample a.rgain f.right⟩

/-- `decode_frames` at the beginning of the callback. -/
def decodeFrames : ℕ := bytesToSamples a.fifo.bytesUsed

variable (state : DecodeI2s)

/-- Whether there is enough audio to leave the autostart state. -/
def startsNow (outputFrames : ℕ) (a : DecodeAudio) : Bool :=
  a.autostart && decide (outputFrames * (3 + state.periodCount) < a.decodeFrames) &&
    decide (a.outputThreshold * state.pcmSampleRate % 2 ^ 32 / 10 < a.decodeFrames)

/-- A late start drops samples, an early one waits. -/
def atStart (now : ℕ) (a : DecodeAudio) : DecodeAudio :=
  if a.startAtJiffies < now then
    let deltaMs := (now - a.startAtJiffies) % 2 ^ 32
    { a with skipAheadBytes :=
        pcmFramesToBytes (deltaMs * state.pcmSampleRate % 2 ^ 32 / 1000) }
  else if now < a.startAtJiffies ∧ (a.startAtJiffies + 2 ^ 64 - 5000) % 2 ^ 64 < now then
    { a with addSilenceMs := Int.bmod (a.startAtJiffies - now : ℕ) (2 ^ 32) }
  else a

def autostarted (now outputFrames : ℕ) (a : DecodeAudio) : DecodeAudio :=
  if a.startsNow state outputFrames then
    { a.atStart state now with autostart := false, running := true }
  else a

/-- `add_frames`; without silence there are none. -/
def addFrames (outputFrames : ℕ) (a : DecodeAudio) : ℕ :=
  min ((a.addSilenceMs % 2 ^ 32).toNat * state.pcmSampleRate % 2 ^ 32 / 1000) outputFrames

/-- What is left of the silence. -/
def silenced (addFrames : ℕ) (a : DecodeAudio) : DecodeAudio :=
  if a.addSilenceMs = 0 then a
  else
    let ms := Int.bmod (a.addSilenceMs - (addFrames * 1000 % 2 ^ 32 / state.pcmSampleRate : ℕ))
      (2 ^ 32)
    { a with addSilenceMs := if ms < 2 then 0 else ms }

/-- `skip_frames`: never so many that there is an underrun. -/
def skipFrames (outputFrames : ℕ) (a : DecodeAudio) : ℕ :=
  if outputFrames ≤ a.decodeFrames ∧ 0 < a.skipAheadBytes then
    min (a.decodeFrames - outputFrames) (bytesToSamples a.skipAheadBytes)
  else 0

def skipPart (n : ℕ) : DecodeAudio :=
  { a with
    fifo := a.fifo.rptrIncby (samplesToBytes n)
    skipAheadBytes := a.skipAheadBytes - samplesToBytes n
    writtenTrackSamples := a.writtenTrackSamples + .ofNat n }

def skip (n : ℕ) : DecodeAudio :=
  if n = 0 then a
  else
    let wrap := bytesToSamples a.fifo.bytesUntilRptrWrap
    if wrap < n then (a.skipPart wrap).skipPart (n - wrap) else a.skipPart n

/-- The loop that copies `n` frames to the output from `pos` on. When it writes nothing in a
turn it never ends, which is `none`; otherwise there are at most as many turns as frames. -/
def playLoop : (fuel n pos : ℕ) → DecodeAudio → (ℕ → PcmFrame) →
    Option (DecodeAudio × (ℕ → PcmFrame))
  | 0, n, _, a, out => if n = 0 then some (a, out) else none
  | fuel + 1, n, pos, a, out =>
    if n = 0 then some (a, out)
    else
      let wrap := bytesToSamples a.fifo.bytesUntilRptrWrap
      let framesWrite := if wrap < n then wrap else n
      let first := bytesToSamples a.fifo.rptr
      playLoop fuel (n - framesWrite) (pos + framesWrite)
        { a with
          fifo := a.fifo.rptrIncby (samplesToBytes framesWrite)
          writtenTrackSamples := a.writtenTrackSamples + .ofNat framesWrite }
        (Cells.copy out pos framesWrite fun i => a.pcmFrame (a.buffer (first + i)))

def setUnderrun (underrun : Bool) : DecodeAudio :=
  { a with underrun := underrun }

/-- The end of the callback. -/
def trackStarted : DecodeAudio :=
  let (reachedStartPoint, a) := a.decodeCheckStartPoint
  if reachedStartPoint && decide (a.trackSampleRate ≠ state.pcmSampleRate) then
    { a with setSampleRate := a.trackSampleRate }
  else a

/-- The callback behind the silence: `outputFrames` are left, from `pos` on. -/
def fillOutput (outputFrames pos : ℕ) (a : DecodeAudio) (out : ℕ → PcmFrame) :
    Option (DecodeAudio × (ℕ → PcmFrame)) :=
  let skipFrames := a.skipFrames outputFrames
  let decodeFrames := min a.decodeFrames outputFrames
  let underrun := a.running && decide (decodeFrames < outputFrames)
  let out := if underrun then
      Cells.copy out (pos + decodeFrames) (outputFrames - decodeFrames) fun _ => .zero
    else out
  let a := (a.setUnderrun underrun).skip skipFrames
  if !a.running then some (a, Cells.copy out pos outputFrames fun _ => .zero)
  else
    (playLoop decodeFrames decodeFrames pos a out).map fun (a, out) =>
      (a.trackStarted state, out)

def playbackCallback (now outputFrames : ℕ) (a : DecodeAudio) (out : ℕ → PcmFrame) :
    Option (DecodeAudio × (ℕ → PcmFrame)) :=
  let a := a.autostarted state now outputFrames
  let addFrames := a.addFrames state outputFrames
  let out := Cells.copy out 0 addFrames fun _ => .zero
  if a.addSilenceMs ≠ 0 ∧ outputFrames - addFrames = 0 then some (a.silenced state addFrames, out)
  else (a.silenced state addFrames).fillOutput state (outputFrames - addFrames) addFrames out

/-- How many frames are played when `outputFrames` are left. -/
def playFrames (outputFrames : ℕ) (a : DecodeAudio) : ℕ :=
  if a.running then min a.decodeFrames outputFrames else 0

/-- What a callback does, in frames. -/
structure Amounts where
  silence : ℕ
  skipped : ℕ
  played : ℕ

/-- The amounts as the callback computes them. -/
def amounts (now outputFrames : ℕ) (a : DecodeAudio) : Amounts :=
  let a := a.autostarted state now outputFrames
  let addFrames := a.addFrames state outputFrames
  if a.addSilenceMs ≠ 0 ∧ outputFrames - addFrames = 0 then ⟨addFrames, 0, 0⟩
  else ⟨addFrames, a.skipFrames (outputFrames - addFrames),
    a.playFrames (outputFrames - addFrames)⟩

end DecodeAudio

/-! ### Playback -/

/-- The audio thread opens the device again when the rate has changed. -/
def DecodeI2s.reopen (state : DecodeI2s) (setSampleRate : ℕ) : DecodeI2s :=
  if h : 0 < setSampleRate then { state with pcmSampleRate := setSampleRate, rate_pos := h }
  else state

/-- The player; for statements, the number of frames that each track has, the last one
first, and the frames that have been skipped and played. -/
structure Player where
  state : DecodeI2s
  audio : DecodeAudio
  output : ℕ → PcmFrame
  tracks : List ℕ
  skipped : ℕ
  played : ℕ

inductive PlayerEvent
  | start (outputThreshold : ℕ)
  | stop
  | flush
  | pause (interval : ℕ)
  | resume (startJiffies : ℕ) (sync : Option (ℕ × ℕ))
  | skipAhead (interval : ℕ)
  /-- A decoder has samples. -/
  | samples (buffer : ℕ → Frame) (nsamples : ℕ) (sampleRate : ℤ)
  /-- The sound device wants frames. -/
  | callback (now outputFrames : ℕ)

namespace Player

def callback (p : Player) (now outputFrames : ℕ) : Option Player :=
  (p.audio.playbackCallback p.state now outputFrames p.output).map fun (audio, output) =>
    { p with
      state := p.state.reopen audio.setSampleRate
      audio := audio
      output := output
      skipped := p.skipped + (p.audio.amounts p.state now outputFrames).skipped
      played := p.played + (p.audio.amounts p.state now outputFrames).played }

/-- Without a decoder there are no samples. -/
def samples (p : Player) (buffer : ℕ → Frame) (nsamples : ℕ) (sampleRate : ℤ) : Option Player :=
  if p.audio.decoder then
    some { p with
      audio := p.audio.outputSamples buffer nsamples sampleRate
      tracks := p.tracks.modifyHead (· + nsamples) }
  else none

def step (p : Player) : PlayerEvent → Option Player
  | .start outputThreshold => some { p with
      audio := p.audio.startHandler outputThreshold
      tracks := 0 :: p.tracks }
  | .stop => some { p with audio := p.audio.stopHandler }
  | .flush => some { p with audio := p.audio.flushHandler }
  | .pause interval => some { p with audio := p.audio.pauseHandler interval }
  | .resume startJiffies sync => some { p with audio := p.audio.resumeHandler startJiffies sync }
  | .skipAhead interval => some { p with audio := p.audio.skipAheadHandler interval }
  | .samples buffer nsamples sampleRate => p.samples buffer nsamples sampleRate
  | .callback now outputFrames => p.callback now outputFrames

end Player

/-- Playback from a given state on. -/
def playback (state : DecodeI2s) (audio : DecodeAudio) : System Player PlayerEvent where
  init := ⟨state, audio, fun _ => .zero, [], 0, 0⟩
  step := Player.step

end BeepMusic.Audio
