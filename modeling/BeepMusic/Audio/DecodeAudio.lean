import Mathlib.Algebra.Group.Int.Defs
import Mathlib.Algebra.Group.Nat.Defs
import BeepMusic.Audio.RingFifo
import BeepMusic.Lib.Cells

/-!
`struct decode_audio`: the decoded audio that waits to be played, and what the decode thread
does to it. The decoders put frames into a ring (`decode_output.c`), where the first frame of
a track is marked; `audio_helper.c` tells whether playback has come past the mark; the
handlers of `audio.c` start, stop, flush, pause and resume.

A frame is eight bytes and the pointers of the ring count bytes. A track is written without
a transition: neither crossfade nor fade in.
-/

namespace BeepMusic.Audio

open Lib

/-- Two samples. -/
structure Frame where
  left : ℤ
  right : ℤ

/-- `SAMPLES_TO_BYTES`. -/
def samplesToBytes (n : ℕ) : ℕ := 2 * n * 4

/-- `BYTES_TO_SAMPLES`. -/
def bytesToSamples (n : ℕ) : ℕ := n / (2 * 4)

/-- `DECODE_FIFO_SIZE`. -/
def decodeFifoSize : ℕ := 10 * 2 * 44100 * 4

/-- The flags of `state` are fields of their own. `decode_first_buffer`, and whether there
is a `decoder`, are global variables of `audio.c`. -/
structure DecodeAudio where
  fifo : RingFifo
  /-- `decode_fifo_buf`, with one cell for each frame. -/
  buffer : ℕ → Frame
  running : Bool
  underrun : Bool
  autostart : Bool
  lgain : ℤ
  rgain : ℤ
  setSampleRate : ℕ
  outputThreshold : ℕ
  checkStartPoint : Bool
  trackStartPoint : ℕ
  trackSampleRate : ℕ
  writtenTrackSamples : UInt32
  numTracksStarted : UInt32
  skipAheadBytes : ℕ
  addSilenceMs : ℤ
  startAtJiffies : ℕ
  startAtElapsedSamples : ℕ
  decodeFirstBuffer : Bool
  decoder : Bool

namespace DecodeAudio

/-- `decode_init_buffers`, and the gains that `audio_init` sets. -/
def init : DecodeAudio where
  fifo := .init decodeFifoSize
  buffer := fun _ => ⟨0, 0⟩
  running := false
  underrun := false
  autostart := false
  lgain := 52428
  rgain := 52428
  setSampleRate := 44100
  outputThreshold := 0
  checkStartPoint := false
  trackStartPoint := 0
  trackSampleRate := 0
  writtenTrackSamples := 0
  numTracksStarted := 0
  skipAheadBytes := 0
  addSilenceMs := 0
  startAtJiffies := 0
  startAtElapsedSamples := 0
  decodeFirstBuffer := false
  decoder := false

variable (a : DecodeAudio)

/-- The frames that wait to be played, in order. -/
def frames : List Frame :=
  Ring.segment a.buffer (bytesToSamples a.fifo.size) (bytesToSamples a.fifo.rptr)
    (bytesToSamples a.fifo.bytesUsed)

/-! ### decode_output.c -/

/-- The loop of `decode_output_samples`. Each turn writes something, so there are at most as
many turns as bytes. -/
def outputLoop : (fuel : ℕ) → DecodeAudio → (src : ℕ → Frame) → (bytesOut : ℕ) → DecodeAudio
  | 0, a, _, _ => a
  | fuel + 1, a, src, bytesOut =>
    if bytesOut = 0 then a
    else
      let wrap := a.fifo.bytesUntilWptrWrap
      let bytesWrite := if wrap < bytesOut then wrap else bytesOut
      outputLoop fuel
        { a with
          buffer := Cells.copy a.buffer (bytesToSamples a.fifo.wptr)
            (bytesToSamples bytesWrite) src
          fifo := a.fifo.wptrIncby bytesWrite }
        (fun i => src (bytesToSamples bytesWrite + i)) (bytesOut - bytesWrite)

/-- The mark at the first samples of a track. -/
def firstBuffer (sampleRate : ℤ) : DecodeAudio :=
  if a.decodeFirstBuffer then
    { a with
      trackStartPoint := a.fifo.wptr
      trackSampleRate := (sampleRate % 2 ^ 32).toNat
      checkStartPoint := true
      decodeFirstBuffer := false }
  else a

def outputSamples (buffer : ℕ → Frame) (nsamples : ℕ) (sampleRate : ℤ) : DecodeAudio :=
  if nsamples = 0 then a
  else
    let bytesOut := samplesToBytes nsamples
    outputLoop bytesOut (a.firstBuffer sampleRate) buffer bytesOut

def outputEnd : DecodeAudio :=
  { a with fifo := { a.fifo with rptr := 0, wptr := 0 }, writtenTrackSamples := 0 }

/-! ### audio_helper.c -/

def reachedStartPoint : Bool :=
  if a.trackStartPoint < a.fifo.wptr then
    decide (a.trackStartPoint < a.fifo.rptr ∧ a.fifo.rptr ≤ a.fifo.wptr)
  else
    decide (a.trackStartPoint < a.fifo.rptr ∨ a.fifo.rptr ≤ a.fifo.wptr)

def trackStartOffset : ℕ :=
  if a.trackStartPoint ≤ a.fifo.rptr then a.fifo.rptr - a.trackStartPoint
  else a.fifo.rptr + decodeFifoSize - a.trackStartPoint

/-- `decode_check_start_point`. -/
def decodeCheckStartPoint : Bool × DecodeAudio :=
  if !a.checkStartPoint then (false, a)
  else if !a.reachedStartPoint then (false, a)
  else
    (true, { a with
      checkStartPoint := false
      numTracksStarted := a.numTracksStarted + 1
      writtenTrackSamples :=
        .ofNat (bytesToSamples a.trackStartOffset + a.startAtElapsedSamples)
      startAtElapsedSamples := 0 })

/-! ### The handlers of audio.c -/

/-- `decode_start_handler`, for a decoder that there is. -/
def startHandler (outputThreshold : ℕ) : DecodeAudio :=
  { a with
    decoder := true
    decodeFirstBuffer := true
    outputThreshold := outputThreshold
    setSampleRate := a.trackSampleRate }

def stopHandler : DecodeAudio :=
  outputEnd { a with
    running := false
    underrun := false
    autostart := false
    decoder := false
    numTracksStarted := 0
    skipAheadBytes := 0
    decodeFirstBuffer := false }

def flushHandler : DecodeAudio :=
  outputEnd { a with decodeFirstBuffer := false }

def pauseHandler (interval : ℕ) : DecodeAudio :=
  if interval ≠ 0 then { a with addSilenceMs := Int.bmod interval (2 ^ 32) }
  else { a with running := false }

/-- `decode_resume_audio_handler`. When the state of another player has been restored, the
jiffies of its track and the samples that it has discarded take the place of
`start_jiffies`. -/
def resumeHandler (startJiffies : ℕ) (sync : Option (ℕ × ℕ)) : DecodeAudio :=
  let (startJiffies, a) := match sync with
    | some (trackJiffies, discardedSamples) =>
      ((trackJiffies + discardedSamples * 1000 / 44100) % 2 ^ 64,
        { a with startAtElapsedSamples := discardedSamples })
    | none => (startJiffies, a)
  if a.running || a.autostart then a
  else { a with startAtJiffies := startJiffies, underrun := false, autostart := true }

def skipAheadHandler (interval : ℕ) : DecodeAudio :=
  { a with skipAheadBytes :=
      samplesToBytes (interval * a.trackSampleRate / (1000 * 1000) % 2 ^ 32) }

end DecodeAudio

end BeepMusic.Audio
