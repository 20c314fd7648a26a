import BeepMusic.Distributor.Discipline

/-!
Transport orders of the play thread. A paused thread has told every player of
its set to pause, or the player was stopped, as long as the audio does not start
again while an end-of-track timer is running and a player that comes back into
the set was stopped.
-/

namespace BeepMusic.Distributor

open Lib

namespace PlayThread

variable {τ : Type}

/-- The last order to no player of the current set is `resume`. -/
def NoneResumed (s : PlayThread τ) (ps : PlayerSet) : Prop :=
  ∀ p ∈ ps.players, lastOrder s.orders p ≠ .resume
deriving Decidable

/-- While the state is paused, no player of the current set was told to resume
last. -/
def Silent (s : PlayThread τ) : Prop := s.audioState = .paused → s.NoneResumed s.players
deriving Decidable

/-- For these states the players are told to resume. -/
def Resumes (s : PlayThread τ) (matched : List String) (view : Player → PlayerView) : Prop :=
  s.players.isSubsetOf matched = true ∧ s.players.players ≠ [] ∧ s.audioState = .autostart ∧
    s.players.allVals fun p => s.audioStartWatermark ≤ (view p).state.outputUsed
deriving Decidable

/-- No resume between the start and the expiry of an end-of-track timer, and every
player that is added to the set is a new one or was stopped. -/
def TimelyInput (s : PlayThread τ) : PlayInput τ → Prop
  | .playerStates matched view => 0 < s.endTimers → ¬s.Resumes matched view
  | .players ps =>
    ∀ p ∈ ps.players, p ∈ s.players.players ∨ lastOrder s.orders p = .stop
  | _ => True

instance (s : PlayThread τ) (input : PlayInput τ) : Decidable (s.TimelyInput input) :=
  match input with
  | .playerStates _ _ => inferInstanceAs (Decidable (_ → _))
  | .players ps => inferInstanceAs (Decidable (∀ p ∈ ps.players, _))
  | .endTimer | .command _ _ | .streamEvent _ | .debug | .revertTimer | .putCommand _
  | .stop _ =>
    isTrue trivial

/-- The players are silent too while an end-of-track timer is running. -/
def Quiet (s : PlayThread τ) : Prop :=
  s.audioState = .paused ∨ 0 < s.endTimers → s.NoneResumed s.players

variable {s : PlayThread τ}

/-- A thread that becomes paused, or starts a timer, has told all its players to stop
playing. -/
theorem Quiet.hushes {s' : PlayThread τ} (h : s.Quiet) (hs : Hushes s s') : s'.Quiet := by
  obtain ⟨hplayers, o, ps, hne, hsent, haudio, htimers⟩ := hs
  intro hquiet p hp
  rw [hplayers] at hp
  rw [hsent, lastOrder_append_map]
  split
  · exact hne
  · rename_i hnot
    refine h ?_ p hp
    rcases hquiet with hpaused | hpending
    · rcases haudio with hsame | hautostart | ⟨-, rfl⟩
      · exact .inl (hsame ▸ hpaused)
      · simp [hautostart] at hpaused
      · exact absurd hp hnot
    · rcases htimers with hsame | rfl
      · exact .inr (hsame ▸ hpending)
      · exact absurd hp hnot

section PlayerStates

variable {s : PlayThread τ} (view : Player → PlayerView)

variable (h : s.Quiet)
include h

/-- `resume` goes out together with the state that follows `AUTOSTART`. -/
theorem Quiet.autostart {matched : List String} (hmatched : s.players.isSubsetOf matched = true)
    (hne : s.players.players ≠ []) (hok : 0 < s.endTimers → ¬s.Resumes matched view) :
    (s.autostart view).Quiet := by
  rw [PlayThread.autostart]
  split
  · next hstart =>
    rintro (hpaused | hpending)
    · simp [updateAudioState, allPlayersCall, send] at hpaused
    · exact absurd ⟨hmatched, hne, hstart⟩ (hok hpending)
  · exact h

theorem Quiet.startPlaying : (s.startPlaying view).Quiet := by
  rw [PlayThread.startPlaying]
  split
  · dsimp only
    split
    · rintro (hpaused | hpending)
      · simp [updateAudioState] at hpaused
      · exact h (.inr hpending)
    · rintro (hpaused | hpending)
      · simp [updateAudioState, sendDurationChange, sendPlayEvent] at hpaused
      · exact h (.inr hpending)
  · exact h

theorem Quiet.handlePlayerStates (matched : List String)
    (hok : 0 < s.endTimers → ¬s.Resumes matched view) :
    (s.handlePlayerStates view matched).Quiet := by
  rw [PlayThread.handlePlayerStates]
  split
  · exact h.hushes (hushes_of_eq rfl rfl rfl rfl)
  · rename_i hmatched
    split
    · exact h
    · next player1 rest hplayers =>
        have hzero : ({ s with missedCookieCount := 0 } : PlayThread τ).Quiet :=
          h.hushes (hushes_of_eq rfl rfl rfl rfl)
        have hstarted := hzero.autostart view (by simpa using hmatched) (by simp [hplayers]) hok
        have hreport := ((hstarted.startPlaying view).hushes
          (hushes_reportDuration view player1)).hushes (hushes_reportTrackStarted view player1)
        dsimp only
        split
        · exact hreport
        · exact hreport.hushes (hushes_handleUnderflow view player1)

end PlayerStates

theorem Quiet.players (h : s.Quiet) {ps : PlayerSet} (hok : s.TimelyInput (.players ps)) :
    ({ s with players := ps } : PlayThread τ).Quiet := by
  intro hquiet p hp
  rcases hok p hp with hmem | hstopped
  · exact h hquiet p hmem
  · simp [hstopped]

theorem Quiet.endTimerExpires (h : s.Quiet) (hpending : 0 < s.endTimers) :
    s.endTimerExpires.Quiet := by
  simp only [PlayThread.endTimerExpires]
  split <;> exact fun _ => h (.inr hpending)

theorem quiet_step {s' : PlayThread τ} {input : PlayInput τ} (h : s.Quiet)
    (hok : s.TimelyInput input) (hs : s.step input = some s') : s'.Quiet := by
  obtain ⟨ps, rfl, rfl⟩ | ⟨matched, view, rfl, rfl⟩ | ⟨rfl, hpending, rfl⟩ | hhushes :=
    step_cases hs
  · exact h.players hok
  · exact h.handlePlayerStates view matched hok
  · exact h.endTimerExpires hpending
  · exact h.hushes hhushes

end PlayThread

open PlayThread

/-- In a run with timely inputs a paused play thread is silent. -/
theorem silent_of_timelyInputs {τ : Type} (s : PlayThread τ)
    (h : (playThread τ).ReachableUnder TimelyInput s) : s.Silent := by
  have hquiet : s.Quiet := by
    refine h.invariant ?_ fun _ _ _ hI hok hs => quiet_step hI hok hs
    intro _ p hp
    cases hp
  exact fun hpaused => hquiet (.inl hpaused)

/-- A report of the output buffer of that player. -/
def filled (outputUsed : ℤ) : PlayInput Unit :=
  .playerStates ["p"] fun _ => ⟨{ outputUsed := outputUsed }, none⟩

/-- A whole track has been streamed, and its audio starts. -/
def oneTrack : List (PlayInput Unit) :=
  [.players onePlayer, .streamEvent .acquireDone, .streamEvent (.trackBegin 0 none "m"),
    .streamEvent .trackEnd, .putCommand .resume, .command none false, filled 50000]

/-- The audio runs out, and a second track is streamed, starts and is still
playing when the timer of the first one expires. -/
def twoTracks : List (PlayInput Unit) :=
  oneTrack ++ [filled 0, .streamEvent (.trackBegin 0 none "m"), .streamEvent (.buffer [0]),
    .streamEvent .trackEnd, filled 50000, .endTimer]

theorem silent_oneTrack_paused :
    ∃ s, (playThread Unit).runFrom .init (oneTrack ++ [.putCommand .pause, .command none false]) =
        some s ∧ s.audioState = .paused ∧ s.players = onePlayer ∧ s.Silent := by
  refine ⟨_, rfl, rfl, rfl, silent_of_timelyInputs _ ?_⟩
  exact System.ReachableUnder.runFrom
    (oneTrack ++ [.putCommand .pause, .command none false]) .init (by decide) rfl

theorem twoTracks_paused_while_playing :
    ∃ s, (playThread Unit).Reachable s ∧ ¬s.Silent := by
  refine ⟨_, System.Reachable.runFrom twoTracks .init rfl, ?_⟩
  decide

end BeepMusic.Distributor
