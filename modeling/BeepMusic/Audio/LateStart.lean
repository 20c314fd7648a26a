import BeepMusic.Audio.FlushPosition

/-!
A start that comes late. The callback that leaves the autostart state works out how many
frames have been missed, so that this player catches up with the others, and later callbacks
skip as much as the decoded audio allows. What is to be skipped is counted in bytes: the
frames of the sound device have four of them and the decoded frames that are skipped eight,
so half of it is skipped.
-/

namespace BeepMusic.Audio

open Lib Option

/-- An event that does not change what is to be skipped: not a stop, and neither an order to
skip nor another resume. -/
def PlayerEvent.keepsSkip : PlayerEvent → Bool
  | .stop | .resume _ _ | .skipAhead _ => false
  | .start _ | .flush | .pause _ | .samples _ _ _ | .callback _ _ => true

namespace DecodeAudio

variable {a : DecodeAudio} {state : DecodeI2s} {now n : ℕ}

/-- The callback has the decoded audio for all that is to be skipped, and for the output. -/
def enough (state : DecodeI2s) (now n : ℕ) (a : DecodeAudio) : Bool :=
  let a := a.autostarted state now n
  let addFrames := a.addFrames state n
  decide (¬(a.addSilenceMs ≠ 0 ∧ n - addFrames = 0)) &&
    decide (n - addFrames + bytesToSamples a.skipAheadBytes ≤ a.decodeFrames)

theorem afterCallback_enough (h : a.fifo.Whole) (henough : a.enough state now n = true) :
    (a.afterCallback state now n).skipAheadBytes < 8 := by
  have hskip := afterCallback_skipAheadBytes state now n h
  have hall : (a.amounts state now n).skipped =
      bytesToSamples (a.autostarted state now n).skipAheadBytes := by
    rw [enough, Bool.and_eq_true, decide_eq_true_eq, decide_eq_true_eq] at henough
    obtain ⟨hleft, hframes⟩ := henough
    rw [amounts, if_neg hleft]
    generalize a.autostarted state now n = b at hframes ⊢
    show b.skipFrames (n - b.addFrames state n) = bytesToSamples b.skipAheadBytes
    rw [bytesToSamples] at hframes ⊢
    rw [skipFrames, bytesToSamples]
    split_ifs <;> omega
  rw [bytesToSamples] at hall
  omega

theorem autostarted_of_not_autostart (state : DecodeI2s) (now n : ℕ) (h : a.autostart = false) :
    a.autostarted state now n = a := by
  rw [autostarted, startsNow, h]
  rfl

theorem autostarted_late {d : ℕ} (hstart : a.startsNow state n = true)
    (hlate : a.startAtJiffies + d = now) (hpos : 0 < d)
    (hrate : d * state.pcmSampleRate < 2 ^ 32) :
    (a.autostarted state now n).skipAheadBytes = 4 * (d * state.pcmSampleRate / 1000) ∧
      (a.autostarted state now n).autostart = false := by
  have hd : d < 2 ^ 32 := by
    calc
      d = d * 1 := (Nat.mul_one d).symm
      _ ≤ d * state.pcmSampleRate := Nat.mul_le_mul_left d state.rate_pos
      _ < 2 ^ 32 := hrate
  have hdelta : (now - a.startAtJiffies) % 2 ^ 32 = d := by
    rw [← hlate, Nat.add_sub_cancel_left, Nat.mod_eq_of_lt hd]
  rw [autostarted, if_pos hstart, atStart, if_pos (by omega)]
  refine ⟨?_, rfl⟩
  show pcmFramesToBytes ((now - a.startAtJiffies) % 2 ^ 32 * state.pcmSampleRate % 2 ^ 32 / 1000) =
    4 * (d * state.pcmSampleRate / 1000)
  rw [hdelta, Nat.mod_eq_of_lt hrate, pcmFramesToBytes, Nat.mul_comm]

theorem afterCallback_autostart (h : a.fifo.Whole)
    (hauto : (a.autostarted state now n).autostart = false) :
    (a.afterCallback state now n).autostart = false := by
  obtain ⟨ms, underrun, b, hb, hcases⟩ := afterCallback_cases state now n h
  have hb' : b.autostart = false := by
    rw [hb]
    exact hauto
  rcases hcases with ⟨heq, -⟩ | ⟨-, heq⟩
  · rwa [heq]
  · rw [heq]
    rcases trackStarted_cases state b with ⟨-, hstay⟩ | ⟨-, -, _, _, hstart⟩
    · rwa [hstay]
    · rw [hstart]
      exact hb'

end DecodeAudio

namespace Player

variable {p p' : Player} {e : PlayerEvent} {c : ℕ}

/-- What has been skipped and what is left to skip make `c` bytes. -/
structure Owes (c : ℕ) (p : Player) : Prop where
  whole : p.audio.fifo.Whole
  started : p.audio.autostart = false
  bytes : 8 * p.skipped + p.audio.skipAheadBytes = c

theorem owes_callback (now n : ℕ) (hwhole : p.audio.fifo.Whole)
    (hauto : (p.audio.autostarted p.state now n).autostart = false)
    (hbytes : 8 * p.skipped + (p.audio.autostarted p.state now n).skipAheadBytes = c)
    (hstep : p.step (.callback now n) = some p') : p'.Owes c := by
  obtain ⟨output, heq⟩ := callback_eq now n hwhole
  obtain rfl := Option.some.inj (heq.symm.trans hstep)
  have hskip := DecodeAudio.afterCallback_skipAheadBytes p.state now n hwhole
  refine ⟨DecodeAudio.whole_afterCallback p.state now n hwhole,
    DecodeAudio.afterCallback_autostart hwhole hauto, ?_⟩
  dsimp only
  omega

theorem Owes.step (h : p.Owes c) (he : e.keepsSkip = true) (hstep : p.step e = some p') :
    p'.Owes c := by
  have hwhole := whole_step h.whole hstep
  cases e with
  | stop | resume startJiffies sync | skipAhead interval => cases he
  | start outputThreshold | flush =>
    cases hstep
    exact ⟨hwhole, h.started, h.bytes⟩
  | pause interval =>
    cases hstep
    obtain ⟨_, _, heq, -⟩ := p.audio.pauseHandler_eq interval
    rw [heq] at hwhole ⊢
    exact ⟨hwhole, h.started, h.bytes⟩
  | samples buffer nsamples sampleRate =>
    obtain ⟨-, rfl⟩ := samples_eq hstep
    obtain ⟨_, _, _, _, _, _, heq⟩ :=
      DecodeAudio.outputSamples_frame buffer nsamples sampleRate h.whole
    rw [heq] at hwhole ⊢
    exact ⟨hwhole, h.started, h.bytes⟩
  | callback now n =>
    have hstay := DecodeAudio.autostarted_of_not_autostart p.state now n h.started
    exact owes_callback now n h.whole (by rw [hstay]; exact h.started)
      (by rw [hstay]; exact h.bytes) hstep

/-- The event is a callback with enough decoded audio. -/
def hasEnough (p : Player) : PlayerEvent → Bool
  | .callback now n => p.audio.enough p.state now n
  | _ => false

/-- One of the callbacks has enough decoded audio. -/
def catchesUp : Player → List PlayerEvent → Bool
  | _, [] => false
  | p, e :: es => p.hasEnough e || (p.step e).any fun p' => catchesUp p' es

theorem hasEnough_step (h : p.audio.fifo.Whole) (henough : p.hasEnough e = true)
    (hstep : p.step e = some p') : p'.audio.skipAheadBytes < 8 := by
  cases e with
  | callback now n =>
    obtain ⟨output, heq⟩ := callback_eq now n h
    obtain rfl := Option.some.inj (heq.symm.trans hstep)
    exact DecodeAudio.afterCallback_enough h henough
  | start _ | stop | flush | pause _ | resume _ _ | skipAhead _ | samples _ _ _ => cases henough

theorem skipped_le_step (hwhole : p.audio.fifo.Whole) (hstep : p.step e = some p') :
    p.skipped ≤ p'.skipped := by
  cases e with
  | callback now n =>
    obtain ⟨output, heq⟩ := callback_eq now n hwhole
    obtain rfl := Option.some.inj (heq.symm.trans hstep)
    exact Nat.le_add_right _ _
  | samples buffer nsamples sampleRate =>
    obtain ⟨-, rfl⟩ := samples_eq hstep
    exact Nat.le_refl _
  | start _ | stop | flush | pause _ | resume _ _ | skipAhead _ =>
    cases hstep
    exact Nat.le_refl _

theorem skipped_le_run {state : DecodeI2s} {audio : DecodeAudio} {es : List PlayerEvent}
    (hwhole : p.audio.fifo.Whole) (hrun : (playback state audio).runFrom p es = some p') :
    p.skipped ≤ p'.skipped :=
  (System.runFrom_invariant (I := fun q => q.audio.fifo.Whole ∧ p.skipped ≤ q.skipped) hrun
    ⟨hwhole, Nat.le_refl _⟩ fun _ _ _ _ hq hstep => ⟨whole_step hq.1 hstep,
      Nat.le_trans hq.2 (skipped_le_step hq.1 hstep)⟩).2

theorem Owes.left_le (h : p.Owes c) (he : e.keepsSkip = true) (hstep : p.step e = some p') :
    p'.audio.skipAheadBytes ≤ p.audio.skipAheadBytes := by
  have hskipped := skipped_le_step h.whole hstep
  have hbytes := h.bytes
  have hbytes' := (h.step he hstep).bytes
  omega

/-- Along a run, what has been skipped and what is left stay together, and less than a frame
is left from the first callback with enough decoded audio on. -/
theorem Owes.run {state : DecodeI2s} {audio : DecodeAudio} {es : List PlayerEvent} (h : p.Owes c)
    (hes : ∀ e ∈ es, e.keepsSkip = true) (hrun : (playback state audio).runFrom p es = some p') :
    p'.Owes c ∧ ((p.audio.skipAheadBytes < 8 ∨ catchesUp p es = true) →
      p'.audio.skipAheadBytes < 8) := by
  induction es generalizing p with
  | nil =>
    cases hrun
    exact ⟨h, fun hsmall => hsmall.resolve_right Bool.false_ne_true⟩
  | cons e es ih =>
    obtain ⟨q, hstep, hrest⟩ := bind_eq_some_iff.mp hrun
    have hstep' : p.step e = some q := hstep
    have he := hes e (.head _)
    obtain ⟨howes, hsmall⟩ := ih (h.step he hstep) (fun e he => hes e (.tail _ he)) hrest
    refine ⟨howes, fun hcase => hsmall ?_⟩
    rcases hcase with hless | hcatch
    · exact .inl (Nat.lt_of_le_of_lt (h.left_le he hstep) hless)
    · rw [catchesUp, Bool.or_eq_true, hstep', any_some] at hcatch
      rcases hcatch with henough | hlater
      · exact .inl (hasEnough_step h.whole henough hstep)
      · exact .inr hlater

end Player

/-- The playback starts `d` milliseconds late, which is `frames` frames. However the callbacks
share it out, the frames that are skipped for it are half of them, rounded down, once there is
enough decoded audio: all of them only if there are none. -/
theorem lateStart_skipped (state : DecodeI2s) (audio : DecodeAudio) {p p' : Player}
    {now n d frames : ℕ} {es : List PlayerEvent} (hwhole : p.audio.fifo.Whole)
    (hstart : p.audio.startsNow p.state n = true) (hlate : p.audio.startAtJiffies + d = now)
    (hpos : 0 < d) (hrate : d * p.state.pcmSampleRate < 2 ^ 32)
    (hframes : frames = d * p.state.pcmSampleRate / 1000)
    (hes : ∀ e ∈ es, e.keepsSkip = true)
    (hrun : (playback state audio).runFrom p (.callback now n :: es) = some p') :
    8 * (p'.skipped - p.skipped) + p'.audio.skipAheadBytes = 4 * frames ∧
      (p.catchesUp (.callback now n :: es) = true →
        p'.skipped - p.skipped = frames / 2 ∧ (p'.skipped - p.skipped = frames ↔ frames = 0)) := by
  obtain ⟨q, hstep, hrest⟩ := bind_eq_some_iff.mp hrun
  have hstep' : p.step (.callback now n) = some q := hstep
  obtain ⟨hbytes, hauto⟩ := DecodeAudio.autostarted_late hstart hlate hpos hrate
  have howes : q.Owes (8 * p.skipped + 4 * frames) := by
    apply Player.owes_callback now n hwhole hauto ?_ hstep
    rw [hbytes, hframes]
  obtain ⟨howes', hsmall⟩ := howes.run hes hrest
  have htotal := howes'.bytes
  have hmore := Player.skipped_le_run hwhole hrun
  refine ⟨by omega, fun hcatch => ?_⟩
  rw [Player.catchesUp, Bool.or_eq_true, hstep', any_some] at hcatch
  have hleft : p'.audio.skipAheadBytes < 8 := by
    apply hsmall
    rcases hcatch with henough | hlater
    · exact .inl (Player.hasEnough_step hwhole henough hstep)
    · exact .inr hlater
  omega

/-- A track is decoded and told to start at zero. -/
def startAtZero : List PlayerEvent :=
  [.start 0, .samples silentFrames 100000 44100, .resume 0 none]

/-- A start that is 100 milliseconds late. -/
theorem lateStart_skipped_tenth : ∃ p p',
    (playback initialI2s .init).Reachable p ∧ p.audio.startAtJiffies + 100 = 100 ∧
      (playback initialI2s .init).runFrom p [.callback 100 192, .callback 105 192] = some p' ∧
      p'.skipped - p.skipped = 4410 / 2 ∧ p'.skipped - p.skipped ≠ 4410 := by
  obtain ⟨p, hp, hstart, hlate, hrate, hcatch, hsome⟩ := System.exists_reachable
    (playback initialI2s .init) startAtZero
    (fun p => p.audio.startsNow p.state 192 = true ∧ p.audio.startAtJiffies + 100 = 100 ∧
      p.state.pcmSampleRate = 44100 ∧
      p.catchesUp [.callback 100 192, .callback 105 192] = true ∧
      ((playback initialI2s .init).runFrom p [.callback 100 192, .callback 105 192]).isSome)
    (by decide +kernel)
  obtain ⟨p', hrun⟩ := isSome_iff_exists.mp hsome
  have hskipped := (lateStart_skipped initialI2s .init (playback_whole hp) hstart hlate (by decide)
    (by rw [hrate]; decide) rfl (by decide) hrun).2 hcatch
  rw [hrate] at hskipped
  exact ⟨p, p', hp, hlate, hrun, hskipped.1, mt hskipped.2.mp (by decide)⟩

/-- One second late, at 44100 frames in a second: 22050 of them are skipped, and nothing is
left to skip. -/
theorem lateStart_skips_half : ∃ p p',
    (playback initialI2s .init).Reachable p ∧ p.audio.startAtJiffies + 1000 = 1000 ∧
      p.state.pcmSampleRate = 44100 ∧
      p.audio.startsNow p.state 192 = true ∧ p.audio.enough p.state 1000 192 = true ∧
      (playback initialI2s .init).step p (.callback 1000 192) = some p' ∧
      p'.skipped - p.skipped = 22050 ∧ p'.audio.skipAheadBytes = 0 ∧
      1000 * p.state.pcmSampleRate / 1000 = 44100 := by
  obtain ⟨p, hp, hlate, hrate, hstart, henough, p', hstep, hskipped, hleft⟩ :=
    System.exists_reachable (playback initialI2s .init) startAtZero
    (fun p => p.audio.startAtJiffies + 1000 = 1000 ∧ p.state.pcmSampleRate = 44100 ∧
      p.audio.startsNow p.state 192 = true ∧ p.audio.enough p.state 1000 192 = true ∧
      ∃ p' ∈ (playback initialI2s .init).step p (.callback 1000 192),
        p'.skipped - p.skipped = 22050 ∧ p'.audio.skipAheadBytes = 0)
    (by decide +kernel)
  exact ⟨p, p', hp, hlate, hrate, hstart, henough, hstep, hskipped, hleft, by rw [hrate]⟩

end BeepMusic.Audio
