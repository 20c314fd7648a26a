import BeepMusic.Distributor.Play

/-!
Which states of the audio follow each other, and when players are told to resume.
One turn of `play_thread` can change the state more than once, so a turn is cut into
parts that assign it at most once each, and the discipline is about the states before
and after a part.
-/

namespace BeepMusic.Distributor

open Option

variable {τ : Type} {s s' a b : PlayThread τ} {input : PlayInput τ}

namespace PlayThread

/-- The states within a turn for the states of the players. -/
def statesTurn (view : Player → PlayerView) (matched : List String) (s : PlayThread τ) :
    List (PlayThread τ) :=
  if s.players.isSubsetOf matched = false then
    [{ s with missedCookieCount := s.missedCookieCount + 1 }]
  else
    match s.players.players with
    | [] => []
    | player1 :: _ =>
      let current := { s with missedCookieCount := 0 }
      let autostarted := current.autostart view
      let started := autostarted.startPlaying view
      let timed := started.reportDuration view player1
      let reported := timed.reportTrackStarted view player1
      [current, autostarted, started, timed, reported] ++
        if reported.crashed then [] else [reported.handleUnderflow view player1]

/-- The states within a turn; all others assign the state of the audio at most once. -/
def turn (s : PlayThread τ) : PlayInput τ → List (PlayThread τ)
  | .playerStates matched view => s.statesTurn view matched
  | input => (s.step input).toList

/-- The parts of a turn are the whole turn. -/
theorem getLast?_statesTurn (view : Player → PlayerView) (matched : List String) :
    (s :: s.statesTurn view matched).getLast? = some (s.handlePlayerStates view matched) := by
  simp only [statesTurn, handlePlayerStates]
  split
  · rfl
  · cases s.players.players with
    | nil => rfl
    | cons player1 players =>
      dsimp only
      split
      · rfl
      · rfl

theorem getLast?_turn (hstep : s.step input = some s') :
    (s :: s.turn input).getLast? = some s' := by
  cases input with
  | playerStates matched view =>
    obtain ⟨-, hstep⟩ := ite_none_left_eq_some.mp hstep
    rw [← hstep]
    exact getLast?_statesTurn view matched
  | _ =>
    simp [turn, hstep]

end PlayThread

/-- From `autostart` to `starting`, with a resume to every player of the set, all of
which match the cookie and have filled their output up to the start watermark. -/
structure Autostarts (input : PlayInput τ) (a b : PlayThread τ) : Prop where
  before : a.audioState = .autostart
  after : b.audioState = .starting
  resumes : b.orders = a.orders ++ a.players.players.map fun p => (.resume, p)
  ready : ∃ matched view, input = .playerStates matched view ∧
    a.players.isSubsetOf matched = true ∧
    ∀ p ∈ a.players, a.audioStartWatermark ≤ (view p).state.outputUsed

/-- What may happen between two neighbouring states of a turn. -/
structure Disciplined (input : PlayInput τ) (a b : PlayThread τ) : Prop where
  starting : a.audioState ≠ .starting → b.audioState = .starting → Autostarts input a b
  playing : a.audioState ≠ .playing → b.audioState = .playing → a.audioState = .starting
  sends : ∃ sent, b.orders = a.orders ++ sent ∧
    ((∃ p, (Order.resume, p) ∈ sent) → Autostarts input a b)

/-- The audio is left as it is or stopped, and no player is told to resume. -/
structure Calms (a b : PlayThread τ) : Prop where
  audioState : b.audioState = a.audioState ∨ b.audioState = .paused ∨ b.audioState = .autostart
  orders : ∃ (o : Order) (ps : List Player),
    o ≠ .resume ∧ b.orders = a.orders ++ ps.map fun p => (o, p)

theorem Calms.disciplined (h : Calms a b) : Disciplined input a b where
  starting hne hstarting := by
    rcases h.audioState with heq | heq | heq
    · exact absurd (heq ▸ hstarting) hne
    · exact absurd (heq ▸ hstarting) (by simp)
    · exact absurd (heq ▸ hstarting) (by simp)
  playing hne hplaying := by
    rcases h.audioState with heq | heq | heq
    · exact absurd (heq ▸ hplaying) hne
    · exact absurd (heq ▸ hplaying) (by simp)
    · exact absurd (heq ▸ hplaying) (by simp)
  sends := by
    obtain ⟨o, ps, hne, hsent⟩ := h.orders
    refine ⟨_, hsent, ?_⟩
    rintro ⟨p, hp⟩
    obtain ⟨q, -, heq⟩ := List.mem_map.mp hp
    exact absurd (Prod.mk.inj heq).1 hne

/-- The same for an unchanged set of players, all of which are told not to play when
the audio becomes paused or an end-of-track timer is started. -/
structure Hushes (a b : PlayThread τ) : Prop where
  players : b.players = a.players
  sent : ∃ (o : Order) (ps : List Player),
    o ≠ .resume ∧ (b.orders = a.orders ++ ps.map fun p => (o, p)) ∧
      (b.audioState = a.audioState ∨ b.audioState = .autostart ∨
        b.audioState = .paused ∧ ps = a.players.players) ∧
      (b.endTimers = a.endTimers ∨ ps = a.players.players)

theorem Hushes.calms (h : Hushes a b) : Calms a b := by
  obtain ⟨o, ps, hne, hsent, haudio, -⟩ := h.sent
  exact ⟨by tauto, o, ps, hne, hsent⟩

theorem hushes_of_eq (haudio : b.audioState = a.audioState) (horders : b.orders = a.orders)
    (hplayers : b.players = a.players) (htimers : b.endTimers = a.endTimers) : Hushes a b :=
  ⟨hplayers, .pause, [], by simp, by simpa using horders, .inl haudio, .inl htimers⟩

theorem hushes_of_pause (haudio : b.audioState = .autostart ∨ b.audioState = .paused)
    (horders : b.orders = a.orders ++ a.players.players.map fun p => (.pause, p))
    (hplayers : b.players = a.players) : Hushes a b :=
  ⟨hplayers, .pause, _, by simp, horders, .inr (haudio.imp_right fun h => ⟨h, rfl⟩),
    .inr rfl⟩

theorem disciplined_of_eq (haudio : b.audioState = a.audioState) (horders : b.orders = a.orders)
    (hplayers : b.players = a.players) (htimers : b.endTimers = a.endTimers) :
    Disciplined input a b :=
  (hushes_of_eq haudio horders hplayers htimers).calms.disciplined

namespace PlayThread

variable (view : Player → PlayerView) (player1 : Player)

/-! ### The parts of a turn -/

theorem disciplined_autostart {matched : List String}
    (hmatched : a.players.isSubsetOf matched = true) :
    Disciplined (.playerStates matched view) a (a.autostart view) := by
  rw [autostart]
  split
  · rename_i h
    have hstarts : Autostarts (.playerStates matched view) a
        ((a.updateAudioState .starting).allPlayersCall .resume) :=
      ⟨h.1, rfl, rfl, matched, view, rfl, hmatched, fun p hp =>
        of_decide_eq_true (List.all_eq_true.mp h.2 p hp)⟩
    exact ⟨fun _ _ => hstarts, fun _ hplaying => absurd hplaying (by simp [allPlayersCall, send,
      updateAudioState]), _, rfl, fun _ => hstarts⟩
  · exact disciplined_of_eq rfl rfl rfl rfl

theorem disciplined_startPlaying : Disciplined input a (a.startPlaying view) := by
  rw [startPlaying]
  split
  · rename_i h
    dsimp only
    split
    · exact ⟨fun hne => absurd h.1 hne, fun _ _ => h.1, [], by simp [updateAudioState], by simp⟩
    · exact ⟨fun hne => absurd h.1 hne, fun _ _ => h.1, [],
        by simp [updateAudioState, sendDurationChange, sendPlayEvent], by simp⟩
  · exact disciplined_of_eq rfl rfl rfl rfl

theorem hushes_reportDuration : Hushes a (a.reportDuration view player1) := by
  rw [reportDuration]
  split <;> exact hushes_of_eq rfl rfl rfl rfl

theorem hushes_reportTrackStarted : Hushes a (a.reportTrackStarted view player1) := by
  rw [reportTrackStarted]
  split
  · split <;> exact hushes_of_eq rfl rfl rfl rfl
  · exact hushes_of_eq rfl rfl rfl rfl

theorem hushes_handleUnderflow : Hushes a (a.handleUnderflow view player1) := by
  rw [handleUnderflow]
  split
  · exact hushes_of_eq rfl rfl rfl rfl
  · rw [endOfTrack]
    split
    · exact hushes_of_pause (.inl rfl) rfl rfl
    · exact hushes_of_eq rfl rfl rfl rfl
  · rw [catchUp]
    split
    · exact hushes_of_pause (.inl rfl) rfl rfl
    · exact hushes_of_eq rfl rfl rfl rfl

theorem hushes_autostart : Hushes a (a.updateAudioState .autostart) :=
  ⟨rfl, .pause, [], by simp, by simp [updateAudioState], .inr (.inl rfl), .inl rfl⟩

theorem hushes_handleCommand (app : Option String) (stale : Bool) (c : PlayCommand) :
    Hushes a (a.handleCommand app stale c) := by
  cases c with
  | pause =>
    simp only [handleCommand]
    split
    · exact hushes_of_pause (.inr rfl) rfl rfl
    · exact hushes_of_eq rfl rfl rfl rfl
  | resume =>
    simp only [handleCommand]
    split
    · exact hushes_autostart
    · exact hushes_of_eq rfl rfl rfl rfl
  | appPause =>
    simp only [handleCommand, appPause]
    split
    · split <;> exact hushes_of_eq rfl rfl rfl rfl
    · exact hushes_of_eq rfl rfl rfl rfl
  | appResume =>
    simp only [handleCommand, appResume]
    split
    · split
      · exact hushes_of_eq rfl rfl rfl rfl
      · split
        · exact hushes_of_eq rfl rfl rfl rfl
        · split
          · exact hushes_of_eq rfl rfl rfl rfl
          · exact hushes_of_eq rfl rfl rfl rfl
          · split <;> exact hushes_of_eq rfl rfl rfl rfl
    · exact hushes_of_eq rfl rfl rfl rfl

theorem hushes_handleStreamEvent (e : StreamEvent τ) : Hushes a (a.handleStreamEvent e) := by
  cases e with
  | acquireDone =>
    simp only [handleStreamEvent]
    split
    · exact { hushes_autostart (a := a) with }
    · exact hushes_of_eq rfl rfl rfl rfl
  | flush => exact hushes_of_pause (.inl rfl) rfl rfl
  | _ => exact hushes_of_eq rfl rfl rfl rfl

/-! ### Whole turns -/

theorem disciplined_statesTurn (matched : List String) :
    (s :: s.statesTurn view matched).IsChain (Disciplined (.playerStates matched view)) := by
  simp only [statesTurn]
  split
  · exact .cons_cons (disciplined_of_eq rfl rfl rfl rfl) (.singleton _)
  · rename_i hmatched
    split
    · exact .singleton _
    · have hsubset : s.players.isSubsetOf matched = true := by simpa using hmatched
      refine .cons_cons (disciplined_of_eq rfl rfl rfl rfl) ?_
      refine .cons_cons (disciplined_autostart view hsubset) ?_
      refine .cons_cons (disciplined_startPlaying view) ?_
      refine .cons_cons (hushes_reportDuration view _).calms.disciplined ?_
      refine .cons_cons (hushes_reportTrackStarted view _).calms.disciplined ?_
      split
      · exact .singleton _
      · exact .cons_cons (hushes_handleUnderflow view _).calms.disciplined (.singleton _)

theorem step_cases (hstep : s.step input = some s') :
    (∃ ps, input = .players ps ∧ s' = { s with players := ps }) ∨
    (∃ matched view, input = .playerStates matched view ∧ s' = s.handlePlayerStates view matched) ∨
    (input = .endTimer ∧ 0 < s.endTimers ∧ s' = s.endTimerExpires) ∨ Hushes s s' := by
  obtain ⟨-, hstep⟩ := ite_none_left_eq_some.mp hstep
  cases input with try cases hstep
  | players ps => exact .inl ⟨ps, rfl, rfl⟩
  | playerStates matched view => exact .inr (.inl ⟨matched, view, rfl, rfl⟩)
  | command app stale =>
    dsimp only at hstep
    split at hstep
    · cases hstep
    · rename_i c cs hcommands
      cases hstep
      have hhushes := hushes_handleCommand (a := { s with playCommands := cs }) app stale c
      exact .inr (.inr (.inr { hhushes with }))
  | streamEvent e => exact .inr (.inr (.inr (hushes_handleStreamEvent e)))
  | debug | putCommand => exact .inr (.inr (.inr (hushes_of_eq rfl rfl rfl rfl)))
  | endTimer =>
    obtain ⟨hpending, rfl⟩ := ite_some_none_eq_some.mp hstep
    exact .inr (.inr (.inl ⟨rfl, hpending, rfl⟩))
  | revertTimer =>
    obtain ⟨-, rfl⟩ := ite_some_none_eq_some.mp hstep
    exact .inr (.inr (.inr (hushes_of_eq rfl rfl rfl rfl)))
  | stop ps => exact .inr (.inr (.inr ⟨rfl, .stop, ps, by simp, rfl, .inl rfl, .inl rfl⟩))

theorem calms_step (hinput : ∀ matched view, input ≠ .playerStates matched view)
    (hstep : s.step input = some s') : Calms s s' := by
  obtain ⟨ps, -, rfl⟩ | ⟨matched, view, rfl, -⟩ | ⟨-, -, rfl⟩ | hhushes := step_cases hstep
  · exact ⟨.inl rfl, .pause, [], by simp, by simp⟩
  · exact absurd rfl (hinput matched view)
  · simp only [endTimerExpires]
    split
    · exact ⟨.inr (.inl rfl), .pause, [], by simp, by simp [updateAudioState]⟩
    · exact ⟨.inl rfl, .pause, [], by simp, by simp⟩
  · exact hhushes.calms

end PlayThread

/-- In every turn of the thread the audio becomes `starting` only from `autostart`
and together with a resume to every player when all are ready, it becomes `playing`
only from `starting`, and no resume is sent otherwise. -/
theorem play_state_discipline (s s' : PlayThread τ) (input : PlayInput τ)
    (hstep : (playThread τ).step s input = some s') :
    (s :: s.turn input).getLast? = some s' ∧
      (s :: s.turn input).IsChain (Disciplined input) := by
  refine ⟨PlayThread.getLast?_turn hstep, ?_⟩
  by_cases hinput : ∃ matched view, input = .playerStates matched view
  · obtain ⟨matched, view, rfl⟩ := hinput
    exact PlayThread.disciplined_statesTurn view matched
  · have hcalms := PlayThread.calms_step (fun matched view h => hinput ⟨matched, view, h⟩) hstep
    have hturn : s.turn input = [s'] := by
      cases input with
      | playerStates matched view => exact absurd ⟨matched, view, rfl⟩ hinput
      | _ => exact congrArg toList hstep
    rw [hturn]
    exact .cons_cons hcalms.disciplined (.singleton _)

/-- The output of every player is filled up to the start watermark. -/
def readyStates : PlayInput ℕ :=
  .playerStates ["p"] fun _ => ⟨{ outputUsed := audioStartWatermarkDefault }, none⟩

theorem play_state_discipline_starts :
    ∃ s s', (playThread ℕ).runFrom .init [.players onePlayer, .streamEvent .flush] = some s ∧
      (playThread ℕ).step s readyStates = some s' ∧ s'.audioState = .starting ∧
      (s :: s.turn readyStates).getLast? = some s' ∧
      (s :: s.turn readyStates).IsChain (Disciplined readyStates) := by
  refine ⟨_, _, rfl, rfl, rfl, ?_⟩
  exact play_state_discipline _ _ readyStates rfl

end BeepMusic.Distributor
