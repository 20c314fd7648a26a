import BeepMusic.Distributor.StateThread

/-!
`state.track_elapsed_secs` against the time that has been played. The time a player
reports starts again from zero when a track starts and when the players are filled
again within a track; for the second case the thread adds what it had reported
before. Only an acquire takes that base back to zero, not the start of the next
track.
-/

namespace BeepMusic.Distributor

open Lib Option

/-- What the first player has played, in milliseconds: since its time started again,
and of the current track. -/
structure PlayedTime where
  written : ℕ
  played : ℕ
  deriving DecidableEq

/-- The thread beside what is played. -/
structure Progress (τ : Type) where
  thread : StateThread τ
  playback : PlayedTime

inductive ProgressEvent (τ : Type)
  | plays (millis : ℕ)
  | thread (input : StateInput τ)

variable {τ : Type}

/-- The time starts again at a track start and at a rebuffer; the second one does not
start the track again. -/
def PlayedTime.after (playback : PlayedTime) : StateInput τ → PlayedTime
  | .playEvent (.trackStarted _) => ⟨0, 0⟩
  | .streamEvent .rebuffer => { playback with written := 0 }
  | _ => playback

def Progress.step [DecidableEq τ] (s : Progress τ) : ProgressEvent τ → Option (Progress τ)
  | .plays millis =>
    some { s with playback := ⟨s.playback.written + millis, s.playback.played + millis⟩ }
  | .thread input => (s.thread.step input).map fun t => ⟨t, s.playback.after input⟩

def progress (τ : Type) [DecidableEq τ] : System (Progress τ) (ProgressEvent τ) where
  init := ⟨.init, ⟨0, 0⟩⟩
  step := Progress.step

namespace Progress

/-- The first player reports what it has played since its time last started again, or
less if the report is old. -/
def Restarts (s : Progress τ) : ProgressEvent τ → Prop
  | .thread (.playerStates _ view _) =>
    ∀ player1 ∈ s.thread.players.players.head?,
      (view player1).writtenTrackTime ≤ s.playback.written
  | _ => True

/-- A track starts with nothing reported and nothing in the base. -/
def CarriesNothing (s : Progress τ) : ProgressEvent τ → Prop
  | .thread (.playEvent (.trackStarted _)) =>
    s.thread.trackElapsedSecs.getD 0 = 0 ∧ s.thread.trackElapsedSecsBase.getD 0 = 0
  | _ => True

instance (s : Progress τ) (e : ProgressEvent τ) : Decidable (s.Restarts e) :=
  match e with
  | .thread (.playerStates _ view _) =>
    inferInstanceAs (Decidable (∀ player1 ∈ s.thread.players.players.head?,
      (view player1).writtenTrackTime ≤ s.playback.written))
  | .plays _ | .thread (.players _) | .thread (.playState _) | .thread (.playEvent _)
  | .thread (.streamEvent _) | .thread (.setStation _) | .thread (.setTrackInfo _)
  | .thread (.currentApp _) | .thread .historyTimer | .thread (.historyReady _) => .isTrue trivial

instance (s : Progress τ) (e : ProgressEvent τ) : Decidable (s.CarriesNothing e) :=
  match e with
  | .thread (.playEvent (.trackStarted _)) => inferInstanceAs (Decidable (_ ∧ _))
  | .plays _ | .thread (.players _) | .thread (.playState _)
  | .thread (.playEvent (.durationChange _)) | .thread (.playEvent .trackEnded)
  | .thread (.playerStates _ _ _) | .thread (.streamEvent _) | .thread (.setStation _)
  | .thread (.setTrackInfo _) | .thread (.currentApp _) | .thread .historyTimer
  | .thread (.historyReady _) => .isTrue trivial

/-- What is shown is at most what has been played of the track. -/
def ShowsPlayed (s : Progress τ) : Prop :=
  ∀ secs ∈ s.thread.trackElapsedSecs, secs ≤ (s.playback.played / 1000 : ℕ)

end Progress

/-- What is shown and what is added to a report, in terms of what has been played. -/
structure WithinPlayed (t : StateThread τ) (playback : PlayedTime) : Prop where
  shown : t.trackElapsedSecs.getD 0 * 1000 ≤ playback.played
  base : t.trackElapsedSecsBase.getD 0 * 1000 + playback.written ≤ playback.played
  time : playback.written ≤ playback.played

/-- The fields of the thread that have to do with the elapsed time stay. -/
structure SameElapsed (t t' : StateThread τ) : Prop where
  shown : t'.trackElapsedSecs = t.trackElapsedSecs
  base : t'.trackElapsedSecsBase = t.trackElapsedSecsBase

namespace StateThread

variable {t : StateThread τ} {playback : PlayedTime}

theorem sameElapsed_setAppUbusObj (app : String) : SameElapsed t (t.setAppUbusObj app) := by
  rw [setAppUbusObj]
  split <;> exact ⟨rfl, rfl⟩

theorem sameElapsed_acquiredBy (app : String) : SameElapsed t (t.acquiredBy app) := by
  rw [acquiredBy]
  split
  · exact ⟨(sameElapsed_setAppUbusObj app).shown, (sameElapsed_setAppUbusObj app).base⟩
  · exact ⟨rfl, rfl⟩

theorem sameElapsed_handlePlayEvent (e : PlayEvent τ) : SameElapsed t (t.handlePlayEvent e) := by
  cases e with
  | durationChange duration => exact ⟨rfl, rfl⟩
  | trackStarted trackInfo => cases trackInfo <;> exact ⟨rfl, rfl⟩
  | trackEnded =>
    simp only [handlePlayEvent]
    split <;> exact ⟨rfl, rfl⟩

theorem sameElapsed_handleSetStation (msg : StationMessage) :
    SameElapsed t (t.handleSetStation msg) := by
  simp only [handleSetStation]
  split
  · split
    · exact ⟨rfl, rfl⟩
    · exact ⟨rfl, rfl⟩
  · split <;> exact ⟨rfl, rfl⟩

end StateThread

variable {t : StateThread τ} {playback : PlayedTime}

section

variable (h : WithinPlayed t playback)
include h

theorem WithinPlayed.same {t' : StateThread τ} (hs : SameElapsed t t') :
    WithinPlayed t' playback where
  shown := hs.shown ▸ h.shown
  base := hs.base ▸ h.base
  time := h.time

/-- A report is at most the base and what has been played since the time started
again. -/
theorem WithinPlayed.reportProgress {player1 : ProgressView} (now : ℤ)
    (htime : player1.writtenTrackTime ≤ playback.written) :
    WithinPlayed (t.reportProgress (player1.writtenTrackTime / 1000) player1 now) playback := by
  rw [StateThread.reportProgress]
  split
  · rename_i secsBase timeBase hsecs htimeBase
    refine ⟨?_, h.base, h.time⟩
    have hbase := h.base
    rw [hsecs, getD_some] at hbase
    show (player1.writtenTrackTime / 1000 + secsBase) * 1000 ≤ playback.played
    omega
  · exact h.same ⟨rfl, rfl⟩

theorem WithinPlayed.handlePlayerStates (matched : List String) {view : Player → ProgressView}
    (now : ℤ)
    (hview : ∀ player1 ∈ t.players.players.head?,
      (view player1).writtenTrackTime ≤ playback.written) :
    WithinPlayed (t.handlePlayerStates matched view now) playback := by
  rw [StateThread.handlePlayerStates]
  split
  · exact h
  · rename_i player1 rest hplayers
    have htime := hview player1 (by simp [hplayers])
    split
    · dsimp only
      split
      · exact h.same ⟨rfl, rfl⟩
      · exact h
      · split
        · exact h.reportProgress now htime
        · exact h
    · exact h

theorem WithinPlayed.handleStreamEvent (e : StreamEvent τ) :
    WithinPlayed (t.handleStreamEvent e) (playback.after (.streamEvent e)) := by
  have hshown := h.shown
  have htime := h.time
  cases e with
  | acquireStarted app =>
    -- the player may still play the old track, whose time goes on
    refine WithinPlayed.same ⟨?_, ?_, htime⟩ (StateThread.sameElapsed_acquiredBy app)
    · show (0 : ℤ) * 1000 ≤ playback.played
      omega
    · show (0 : ℤ) * 1000 + playback.written ≤ playback.played
      omega
  | rebuffer =>
    refine ⟨hshown, ?_, Nat.zero_le _⟩
    show t.trackElapsedSecs.getD 0 * 1000 + ((0 : ℕ) : ℤ) ≤ playback.played
    omega
  | _ => exact h.same ⟨rfl, rfl⟩

end

/-- What a track start leaves, with nothing carried over. -/
theorem withinPlayed_trackStarted (trackInfo : Option τ) (hshown : t.trackElapsedSecs.getD 0 = 0)
    (hbase : t.trackElapsedSecsBase.getD 0 = 0) :
    WithinPlayed (t.handlePlayEvent (.trackStarted trackInfo)) ⟨0, 0⟩ := by
  have hsame : SameElapsed t (t.handlePlayEvent (.trackStarted trackInfo)) :=
    StateThread.sameElapsed_handlePlayEvent _
  refine ⟨?_, ?_, le_rfl⟩
  · rw [hsame.shown, hshown]
    rfl
  · rw [hsame.base, hbase]
    rfl

theorem WithinPlayed.thread [DecidableEq τ] {s : Progress τ} {input : StateInput τ}
    (h : WithinPlayed s.thread s.playback) (hrestarts : s.Restarts (.thread input))
    (hcarries : s.CarriesNothing (.thread input)) (hstep : s.thread.step input = some t) :
    WithinPlayed t (s.playback.after input) := by
  obtain ⟨-, hstep⟩ := ite_none_left_eq_some.mp hstep
  cases input with try cases hstep
  | players ps =>
    refine h.same ?_
    simp only [StateThread.handlePlayers]
    split <;> exact ⟨rfl, rfl⟩
  | playerStates matched view now =>
    exact h.handlePlayerStates matched now hrestarts
  | playState playState =>
    refine h.same ?_
    cases playState <;> exact ⟨rfl, rfl⟩
  | playEvent e =>
    cases e with
    | trackStarted trackInfo => exact withinPlayed_trackStarted trackInfo hcarries.1 hcarries.2
    | durationChange duration | trackEnded =>
      exact h.same (StateThread.sameElapsed_handlePlayEvent _)
  | streamEvent e =>
    exact h.handleStreamEvent e
  | setStation msg =>
    exact h.same (StateThread.sameElapsed_handleSetStation msg)
  | setTrackInfo trackInfo =>
    refine h.same ?_
    simp only [StateThread.handleSetTrackInfo]
    split <;> exact ⟨rfl, rfl⟩
  | currentApp app =>
    exact h.same (StateThread.sameElapsed_setAppUbusObj app)
  | historyTimer =>
    exact h.same ⟨rfl, rfl⟩
  | historyReady stored =>
    obtain ⟨history, -, rfl⟩ := map_eq_some_iff.mp hstep
    exact h.same ⟨rfl, rfl⟩

theorem WithinPlayed.step [DecidableEq τ] {s s' : Progress τ} {e : ProgressEvent τ}
    (h : WithinPlayed s.thread s.playback) (hrestarts : s.Restarts e)
    (hcarries : s.CarriesNothing e) (hstep : s.step e = some s') :
    WithinPlayed s'.thread s'.playback := by
  cases e with
  | plays millis =>
    cases hstep
    have hshown := h.shown
    have hbase := h.base
    have htime := h.time
    exact ⟨by dsimp only; omega, by dsimp only; omega, by dsimp only; omega⟩
  | thread input =>
    obtain ⟨t, hrun, rfl⟩ := map_eq_some_iff.mp hstep
    exact h.thread hrestarts hcarries hrun

/-- The elapsed time that clients are shown is at most the whole seconds of the
current track that have been played, in every run in which the player's time starts
again at each track start and each rebuffer, and in which each track starts with
nothing shown and nothing in the base. -/
theorem elapsed_shows_played [DecidableEq τ] (s : Progress τ)
    (h : (progress τ).ReachableUnder (fun s e => s.Restarts e ∧ s.CarriesNothing e) s) :
    s.ShowsPlayed := by
  have hwithin : WithinPlayed s.thread s.playback := by
    refine h.invariant (I := fun s => WithinPlayed s.thread s.playback) ?_ ?_
    · exact ⟨Int.le_refl 0, Int.le_refl 0, le_rfl⟩
    · rintro s e s' hs ⟨hrestarts, hcarries⟩ hstep
      exact hs.step hrestarts hcarries hstep
  intro secs hsecs
  have hshown := hwithin.shown
  rw [mem_def.mp hsecs, getD_some] at hshown
  omega

/-- The player reports its time. -/
def reportAt (millis : ℤ) : ProgressEvent ℕ :=
  .thread (.playerStates ["p"] (fun _ => ⟨millis, streambufSize, 0⟩) 0)

/-- Half a minute of a track is played, then the players are filled again, and two
more seconds are played. -/
def trackWithRebuffer : List (ProgressEvent ℕ) :=
  [.thread (.players onePlayer), .thread (.streamEvent (.acquireStarted "beep.app.a")),
    .thread (.streamEvent .acquireDone), .thread (.playEvent (.trackStarted (some 1))),
    .plays 30000, reportAt 30000, .thread (.streamEvent .rebuffer), .plays 2000, reportAt 2000]

theorem elapsed_shows_played_rebuffer :
    ∃ s, (progress ℕ).runFrom (progress ℕ).init trackWithRebuffer = some s ∧
      s.thread.trackElapsedSecs = some 32 ∧ s.ShowsPlayed := by
  obtain ⟨s, hrun, hreach, htest⟩ := (progress ℕ).exists_reachableUnder
    (fun s e => s.Restarts e ∧ s.CarriesNothing e) trackWithRebuffer
    (fun s => s.thread.trackElapsedSecs = some 32) (by decide +kernel) (by decide +kernel)
  exact ⟨s, hrun, htest, elapsed_shows_played s hreach⟩

/-- The next track starts, and after its first second 31 are shown. -/
theorem elapsed_of_track_before :
    ∃ s, (progress ℕ).ReachableUnder (fun s e => s.Restarts e) s ∧
      s.thread.trackElapsedSecs = some 31 ∧ s.playback.played = 1000 ∧ ¬s.ShowsPlayed := by
  obtain ⟨s, -, hreach, hshown, hplayed⟩ := (progress ℕ).exists_reachableUnder
    (fun s e => s.Restarts e) (trackWithRebuffer ++
      [.thread (.playEvent (.trackStarted (some 2))), .plays 1000, reportAt 1000])
    (fun s => s.thread.trackElapsedSecs = some 31 ∧ s.playback.played = 1000)
    (by decide +kernel) (by decide +kernel)
  refine ⟨s, hreach, hshown, hplayed, fun h => ?_⟩
  have hle := h 31 hshown
  rw [hplayed] at hle
  exact absurd hle (by decide)

end BeepMusic.Distributor
